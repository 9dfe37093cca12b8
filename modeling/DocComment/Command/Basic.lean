import DocComment.Command.Request
import DocComment.Options.File
import DocComment.Parser.Parse
import DocComment.Report.Basic

/-!
Carrying out what a command line asks for. Files are looked up by name, so nothing here reads
any. Mistakes in the command line, and files that cannot be used, end with exit code two;
errors of the parsed text and of the settings end with one, after everything that could be
parsed has been shown.
-/

namespace DocComment.Command

open Report (Page)

/-- What stands under a file name. -/
inductive Entry
  | missing
  | folder
  | file (text : String)
  deriving DecidableEq, Repr

structure Answer where
  exitCode : Nat := 0
  output : String := ""
  log : Log := []
  fault : Option Error := none

namespace Answer

def ofPage (page : Page) : Answer := { output := Page.text page }

def misuse : Answer := { exitCode := 2 }

def failed (page : Page) : Answer := { exitCode := 1, output := Page.text page }

/-- An error that nothing foresees ends the program. -/
def ofFault (e : Error) : Answer := { exitCode := 1, fault := some e }

end Answer

def versionPage : Page := ["parse-comments 0.4.0"]

def helpPage : Page :=
  ["Usage: parse-comments [OPTIONS] COMMAND [ARGS]",
   "",
   "Options: --version -V, --help",
   "Commands:",
   "  parse FILE     Parse every documentation comment in FILE",
   "                 Options: --strict, --format, --config -c FILE, --json, --verbose -v",
   "  type LITERAL   Parse a type literal and print its tree and canonical form",
   "                 Options: --json"]

/-- Line ends of any kind as line feeds. -/
def unifyLines : List Char → List Char
  | '\r' :: '\n' :: rest => '\n' :: unifyLines rest
  | '\r' :: rest => '\n' :: unifyLines rest
  | c :: rest => c :: unifyLines rest
  | [] => []

def readText (text : String) : String := String.ofList (unifyLines text.toList)

/-- A path without empty steps and steps that stay where they are. -/
def tidyPath (path : String) : String :=
  let steps := (Text.splitBy (· == '/') path.toList).filter fun s => !s.isEmpty && s != ['.']
  let root := if path.toList.head? == some '/' then ['/'] else []
  match root ++ ['/'].intercalate steps with
  | [] => "."
  | cs => String.ofList cs

/-- Functions never reach a command line, so a host is never asked for anything. -/
def host : Host Empty Unit := ⟨nofun, nofun⟩

def optionsOf (request : ParseRequest) (settings : Option String) :
    Except Error (Options Empty) := do
  let base ← Options.ofText (tidyPath (request.settings.getD "")) (settings.map readText)
  let switch (name : String) (isSet : Bool) : List (String × Setting Empty) :=
    if isSet then [(name, .value (.plain (.bool true)))] else []
  base.withSettings (switch "strict" request.strict ++ switch "format" request.format)

def commentOf : Node → Option Comment
  | .comment c => some c
  | _ => none

def shownLevels (verbose : Bool) (log : Log) : Log :=
  if verbose then log else log.filter fun entry => entry.level == .warning

def parseSource (request : ParseRequest) (options : Options Empty) (source : String) : Answer :=
  let (result, p) := (Parser.parse host source).run.run (Parser.new options ())
  let log := shownLevels request.verbose p.log
  match result with
  | .error e => { Answer.ofFault e with log }
  | .ok nodes =>
    let comments := nodes.filterMap commentOf
    let main := if request.json then Report.ofData (.list (comments.map Comment.toData))
      else Report.ofComments (tidyPath request.file) comments
    let skipped := p.errors.flatMap fun e => Report.warning ("Skipped comment: " ++ e.message)
    { Answer.ofPage (main ++ skipped) with log, exitCode := if p.errors.isEmpty then 0 else 1 }

/-- Options that are no options are told; any other fault of a settings file is unforeseen. -/
def settingsFault (e : Error) : Answer :=
  match e with
  | .options _ => .failed (Report.failure ("Invalid configuration: " ++ e.message))
  | e => .ofFault e

def parseFile (request : ParseRequest) (settings : Option String) (source : String) : Answer :=
  match optionsOf request settings with
  | .error e => settingsFault e
  | .ok options => parseSource request options (readText source)

def runParse (request : ParseRequest) (look : String → Entry) : Answer :=
  match look request.file, request.settings.map look with
  | .file source, none | .file source, some .missing => parseFile request none source
  | .file source, some (.file text) => parseFile request (some text) source
  | _, _ => .misuse

def runType (literal : String) (json : Bool) : Answer :=
  match TypeExpr.parse .standard literal with
  | .error e => .failed (Report.failure e.message)
  | .ok t => .ofPage (if json then Report.ofData t.toData else Report.ofType t)

def Request.run (request : Request) (look : String → Entry) : Answer :=
  match request with
  | .help => .ofPage helpPage
  | .version => .ofPage versionPage
  | .parse request => runParse request look
  | .type literal json => runType literal json

/-- The answer to a whole command line. -/
def run (args : List String) (look : String → Entry) : Answer :=
  match Request.ofArgs args with
  | none => .misuse
  | some request => request.run look

end DocComment.Command
