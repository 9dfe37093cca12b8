import DocComment.Command.Arguments

/-!
What a command line asks for. Two commands exist, one to parse a file and one to read a type
literal, each with one operand. Asking for help or for the version is honoured before any
operand is looked at, but not before the options have been read.
-/

namespace DocComment.Command

structure ParseRequest where
  file : String
  strict : Bool := false
  format : Bool := false
  settings : Option String := none
  json : Bool := false
  verbose : Bool := false
  deriving DecidableEq, Repr

inductive Request
  | help
  | version
  | parse (request : ParseRequest)
  | type (literal : String) (json : Bool)
  deriving DecidableEq, Repr

namespace Request

def helpOption : OptionSpec := { name := "help" }

def programOptions : List OptionSpec := [{ name := "version", short := some 'V' }, helpOption]

def parseOptions : List OptionSpec :=
  [{ name := "strict" }, { name := "format" },
   { name := "config", short := some 'c', kind := .valued }, { name := "json" },
   { name := "verbose", short := some 'v' }, helpOption]

def typeOptions : List OptionSpec := [{ name := "json" }, helpOption]

/-- The request of a command, once its options are read. -/
def ofOperand (a : Arguments) (make : String → Request) : Option Request :=
  if a.has "help" then some .help
  else match a.operands with
    | [operand] => some (make operand)
    | _ => none

def parseOf (a : Arguments) (file : String) : Request :=
  .parse {
    file
    strict := a.has "strict"
    format := a.has "format"
    settings := a.value? "config"
    json := a.has "json"
    verbose := a.has "verbose" }

def ofCommand (name : String) (args : List String) : Option Request :=
  if name = "parse" then do
    let a ← readArguments parseOptions true args
    ofOperand a (parseOf a)
  else if name = "type" then do
    let a ← readArguments typeOptions true args
    ofOperand a fun literal => .type literal (a.has "json")
  else none

/-- The request of a command line, or nothing if it cannot be understood. -/
def ofArgs (args : List String) : Option Request := do
  let a ← readArguments programOptions false args
  match a.options with
  | first :: _ => return if first.name = "help" then .help else .version
  | [] =>
    match a.operands with
    | [] => none
    | name :: rest => ofCommand name rest

/-- The files a request needs to look at. -/
def files : Request → List String
  | .parse request => request.file :: request.settings.toList
  | _ => []

end Request

end DocComment.Command
