import DocComment.Data

/-!
The arguments of a command line. Options may stand anywhere up to a double dash; a long one
takes its value after an equals sign or as the next argument, and short ones may be written
together. What stands before the name of a command concerns the program as a whole.
-/

namespace DocComment.Command

/-- What an option does. Where a value is needed it is the next argument, whatever it is. -/
inductive OptionKind
  | flag
  | valued
  deriving DecidableEq, Repr

structure OptionSpec where
  name : String
  short : Option Char := none
  kind : OptionKind := .flag
  deriving DecidableEq, Repr

/-- An option as it was given, under its long name. -/
structure Given where
  name : String
  value : String := ""
  deriving DecidableEq, Repr

/-- The options given, and the arguments that are none. -/
structure Arguments where
  options : List Given := []
  operands : List String := []
  deriving DecidableEq, Repr

namespace Arguments

def has (a : Arguments) (name : String) : Bool := a.options.any (fun g => g.name == name)

/-- The value given last. -/
def value? (a : Arguments) (name : String) : Option String :=
  (a.options.reverse.find? (fun g => g.name == name)).map Given.value

end Arguments

/-- What reading one argument as options comes to. -/
inductive Reading
  | done (options : List Given)
  | needsValue (options : List Given) (name : String)
  | unknown
  deriving DecidableEq, Repr

def Reading.after (option : Given) : Reading → Reading
  | .done options => .done (option :: options)
  | .needsValue options name => .needsValue (option :: options) name
  | .unknown => .unknown

def findLong (specs : List OptionSpec) (name : List Char) : Option OptionSpec :=
  specs.find? fun spec => "--".toList ++ spec.name.toList == name

def findShort (specs : List OptionSpec) (c : Char) : Option OptionSpec :=
  specs.find? fun spec => spec.short == some c

/-- Short options written together. The text after one that takes a value is its value. -/
def readShort (specs : List OptionSpec) : List Char → Reading
  | [] => .done []
  | c :: rest =>
    match findShort specs c with
    | none => .unknown
    | some spec =>
      match spec.kind with
      | .flag => (readShort specs rest).after ⟨spec.name, ""⟩
      | .valued =>
        if rest.isEmpty then .needsValue [] spec.name
        else .done [⟨spec.name, String.ofList rest⟩]

def readLong (spec : OptionSpec) (value : Option (List Char)) : Reading :=
  match spec.kind, value with
  | .flag, none => .done [⟨spec.name, ""⟩]
  | .flag, some _ => .unknown
  | .valued, none => .needsValue [] spec.name
  | .valued, some text => .done [⟨spec.name, String.ofList text⟩]

/-- One argument that starts with a dash. -/
def readOption (specs : List OptionSpec) (arg : List Char) : Reading :=
  let name := arg.takeWhile (· != '=')
  let value := if arg.contains '=' then some ((arg.dropWhile (· != '=')).drop 1) else none
  match findLong specs name with
  | some spec => readLong spec value
  | none => if "--".toList.isPrefixOf arg then .unknown else readShort specs (arg.drop 1)

def isOption (arg : String) : Bool :=
  match arg.toList with
  | '-' :: _ :: _ => true
  | _ => false

/-- Reads options up to the end. Anything else among them is an operand if `mixed` is set,
and ends the options otherwise. -/
def readArguments (specs : List OptionSpec) (mixed : Bool) : List String → Option Arguments
  | [] => some {}
  | arg :: rest =>
    if arg = "--" then some { operands := rest }
    else if isOption arg then
      match readOption specs arg.toList, rest with
      | .unknown, _ => none
      | .done given, rest =>
        (readArguments specs mixed rest).map fun a => { a with options := given ++ a.options }
      | .needsValue _ _, [] => none
      | .needsValue given name, value :: rest =>
        (readArguments specs mixed rest).map fun a =>
          { a with options := given ++ ⟨name, value⟩ :: a.options }
    else if mixed then
      (readArguments specs mixed rest).map fun a => { a with operands := arg :: a.operands }
    else some { operands := arg :: rest }

end DocComment.Command
