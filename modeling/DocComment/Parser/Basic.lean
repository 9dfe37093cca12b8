import DocComment.Body.Basic
import DocComment.Pipeline

/-!
A parser and what it remembers. Options are fixed when it is made, and other data in their
place fails whatever needs options. Handlers, stages and listeners may be registered at any
time, also by handlers while they run. Callables are run by a host, which may change the whole
parser and keep a memory of its own in it, and a failed step keeps what was changed before it
failed.
-/

namespace DocComment

structure Parser (H U : Type) where
  options : Except Data (Options H) := .ok {}
  pipeline : Pipeline H := {}
  stages : List (Stage × H) := []
  listeners : List (String × List H) := []
  comments : List Node := []
  bodies : List Body := []
  errors : List Error := []
  log : Log := []
  memory : U

/-- A step of a parser. -/
abbrev Run (H U : Type) := ExceptT Error (StateM (Parser H U))

/-- Runs callables: handlers and other functions on their arguments, and plugins, which may
come back with a pipeline. -/
structure Host (H U : Type) where
  call : H → List Node → Run H U Node
  plug : H → Run H U (Option (Pipeline H))

namespace Run

variable {H U α : Type}

def ofExcept : Except Error α → Run H U α
  | .ok a => pure a
  | .error e => throw e

def write (entries : Log) : Run H U Unit := modify fun p => { p with log := p.log ++ entries }

def options : Run H U (Options H) := do
  match (← get).options with
  | .ok options => return options
  | .error d => throw (.wrongNode d.kindName)

end Run

namespace Parser

variable {H U : Type}

def new (options : Options H) (memory : U) : Parser H U := { options := .ok options, memory }

def setPipeline (pipeline : Pipeline H) : Run H U Unit := modify fun p => { p with pipeline }

def before (target : Target H) (handler : Supplied H) : Run H U Unit := do
  let (pipeline, log) := (← get).pipeline.withBefore target handler
  setPipeline pipeline
  Run.write log

def after (target : Target H) (handler : Supplied H) : Run H U Unit := do
  let (pipeline, log) := (← get).pipeline.withAfter target handler
  setPipeline pipeline
  Run.write log

def middleware (target : Target H) (handler : Supplied H) : Run H U Unit := do
  let (pipeline, log) := (← get).pipeline.withMiddleware target handler
  setPipeline pipeline
  Run.write log

/-- Registers a replacement for one stage. -/
def stage (key : String) (handler : Supplied H) : Run H U Unit := do
  match Stage.ofKey? key with
  | none => throw (.options (.unknownStage key))
  | some stage =>
    match handler with
    | .plain d => throw (.uncallable (.stage key d.shown))
    | .callable h =>
      modify fun p => { p with stages := (stage, h) :: p.stages.filter (fun s => s.1 != stage) }

/-- Applies plugins in order. A plugin that comes back with a pipeline puts it in place. -/
def use (host : Host H U) : List (Supplied H) → Run H U Unit
  | [] => pure ()
  | .plain d :: _ => throw (.uncallable (.plugin d.shown))
  | .callable h :: rest => do
    if let some pipeline ← host.plug h then setPipeline pipeline
    setPipeline ((← get).pipeline.withPlugin h)
    use host rest

/-- The replacement for a stage: the configured one, or else the registered one. -/
def override (s : Stage) : Run H U (Option H) := do
  match (← Run.options).stages with
  | .other _ => throw (.wrongNode "parse")
  | .overrides table => return (table s).or ((← get).stages.lookup s)

def runChain (host : Host H U) (chain : Chain) (node : Node) : Run H U Node := do
  (← get).pipeline.run host.call chain node

def listenersFor (event : String) : Run H U (List H) :=
  return ((← get).listeners.lookup event).getD []

/-- Registers a listener. The same one may be registered more than once. -/
def on (event : String) (listener : Supplied H) : Run H U Unit := do
  match listener with
  | .plain _ => throw (.uncallableListener event)
  | .callable h =>
    modify fun p => { p with
      listeners := Pipeline.insertAt (fun current => current.getD [] ++ [h]) event p.listeners }
    Run.write [.debug ("Registered listener for '" ++ event ++ "' event")]

/-- Takes back the first registration of a listener, if there is one. -/
def off [BEq H] (event : String) (listener : Supplied H) : Run H U Unit := do
  match listener with
  | .plain _ => pure ()
  | .callable h =>
    if ((← get).listeners.lookup event).isSome then
      modify fun p => { p with
        listeners :=
          Pipeline.insertAt (fun current => (current.getD []).erase h) event p.listeners }

def callAll (host : Host H U) (args : List Node) : List H → Run H U Unit
  | [] => pure ()
  | h :: rest => do
    let _ ← host.call h args
    callAll host args rest

/-- Calls the listeners that are registered at the start, and says how many they are. -/
def emit (host : Host H U) (event : String) (args : List Node) : Run H U Nat := do
  let listeners ← listenersFor event
  callAll host args listeners
  return listeners.length

end Parser

end DocComment
