import DocComment.Log
import DocComment.Node.Field
import DocComment.Options.Basic

/-!
Handlers registered for types of nodes. A registration makes a new pipeline and leaves the old
one as it was, so whoever holds a pipeline keeps its handlers. A node passes through the
handlers before, then through its middleware or else the core handling, and then through the
handlers after; each chain is chosen by the type the node has when the chain starts.
-/

namespace DocComment

structure Pipeline (H : Type) where
  middleware : List (String × Supplied H) := []
  before : List (String × List (Supplied H)) := []
  after : List (String × List (Supplied H)) := []
  plugins : List H := []
  deriving Inhabited

/-- The types a registration is for: one type or several with a shared handler, or a table. -/
inductive Target (H : Type)
  | one (type : String)
  | several (types : List String)
  | table (entries : List (String × Supplied H))

/-- The two chains of handlers around the handling proper. -/
inductive Chain
  | before
  | after
  deriving DecidableEq, Repr

/-- The chain of a phase given by name. Middleware is a phase but no chain. -/
def Chain.ofName (phase : String) : Except Error Chain :=
  if phase = "before" then .ok .before
  else if phase = "after" then .ok .after
  else if phase = "middleware" then .error .middlewareRun
  else .error (.unknownPhase phase)

namespace Pipeline

variable {H : Type}

def insertAt {α : Type} (update : Option α → α) (key : String) :
    List (String × α) → List (String × α)
  | [] => [(key, update none)]
  | (k, a) :: rest =>
    if k = key then (k, update (some a)) :: rest else (k, a) :: insertAt update key rest

theorem lookup_entry {α : Type} (key type : String) (a : α) (rest : List (String × α)) :
    ((key, a) :: rest).lookup type = if type = key then some a else rest.lookup type := by
  rw [List.lookup_cons]
  by_cases h : type = key
  · rw [if_pos h, beq_iff_eq.mpr h]
  · rw [if_neg h, beq_false_of_ne h]

/-- A table that is updated at one key says something new of this key alone. -/
theorem lookup_insertAt {α : Type} (update : Option α → α) (key type : String)
    (table : List (String × α)) :
    (insertAt update key table).lookup type =
      if type = key then some (update (table.lookup key)) else table.lookup type := by
  induction table with
  | nil => rw [insertAt, lookup_entry, List.lookup_nil, List.lookup_nil]
  | cons entry rest ih =>
    obtain ⟨k, a⟩ := entry
    rw [insertAt, lookup_entry k key, lookup_entry k type]
    by_cases hk : k = key
    · rw [if_pos hk, if_pos hk.symm, lookup_entry, hk]
      split <;> rfl
    · rw [if_neg hk, if_neg (Ne.symm hk), lookup_entry, ih]
      by_cases ht : type = k
      · rw [if_pos ht, if_pos ht, if_neg (ht ▸ hk)]
      · rw [if_neg ht, if_neg ht]

def expand (target : Target H) (handler : Supplied H) : List (String × Supplied H) :=
  match target with
  | .one type => [(type, handler)]
  | .several types => types.map fun type => (type, handler)
  | .table entries => entries

def setEach (table : List (String × Supplied H)) :
    List (String × Supplied H) → List (String × Supplied H) × Log
  | [] => (table, [])
  | (key, handler) :: rest =>
    let note := if (table.lookup key).isSome
      then [LogEntry.debug ("Replacing middleware for '" ++ key ++ "'")] else []
    let (table, log) := setEach (insertAt (fun _ => handler) key table) rest
    (table, note ++ log)

def appendEach (phase : Phase) (table : List (String × List (Supplied H))) :
    List (String × Supplied H) → List (String × List (Supplied H)) × Log
  | [] => (table, [])
  | (key, handler) :: rest =>
    let note := LogEntry.debug ("Registered " ++ phase.name ++ " handler for '" ++ key ++ "'")
    let (table, log) :=
      appendEach phase (insertAt (fun current => current.getD [] ++ [handler]) key table) rest
    (table, note :: log)

/-- Later middleware for a type replaces what was there. -/
def withMiddleware (p : Pipeline H) (target : Target H) (handler : Supplied H) :
    Pipeline H × Log :=
  let (table, log) := setEach p.middleware (expand target handler)
  ({ p with middleware := table }, log)

def withBefore (p : Pipeline H) (target : Target H) (handler : Supplied H) : Pipeline H × Log :=
  let (table, log) := appendEach .before p.before (expand target handler)
  ({ p with before := table }, log)

def withAfter (p : Pipeline H) (target : Target H) (handler : Supplied H) : Pipeline H × Log :=
  let (table, log) := appendEach .after p.after (expand target handler)
  ({ p with after := table }, log)

def withPlugin (p : Pipeline H) (plugin : H) : Pipeline H :=
  { p with plugins := p.plugins ++ [plugin] }

/-- Only texts stand in tables of handlers, and what can be no key cannot be looked up at all. -/
def find? {α : Type} (table : List (String × α)) (node : Node) : Except Error (Option α) :=
  match node.key.asKey with
  | .ok (.text type) => .ok (table.lookup type)
  | .ok _ => .ok none
  | .error e => .error e

def handlersFor (table : List (String × List (Supplied H))) (node : Node) :
    Except Error (List (Supplied H)) := do
  return (← find? table node).getD []

def middlewareFor (p : Pipeline H) (node : Node) : Except Error (Option (Supplied H)) :=
  find? p.middleware node

variable {m : Type → Type} [Monad m]

def ofExcept {α : Type} (result : Except Error α) : ExceptT Error m α := ExceptT.mk (pure result)

/-- Runs one handler. No answer leaves the node as it is. -/
def invoke (call : H → List Node → ExceptT Error m Node) (phase : Phase) (node : Node) :
    Supplied H → ExceptT Error m Node
  | .callable h => do
    let result ← call h [node]
    return if result.isNone then node else result
  | .plain d =>
    throw (.uncallable (.handler phase node.key.written d.shown))

def runAll (call : H → List Node → ExceptT Error m Node) (phase : Phase) (node : Node) :
    List (Supplied H) → ExceptT Error m Node
  | [] => pure node
  | handler :: rest => do
    let node ← invoke call phase node handler
    runAll call phase node rest

def runBefore (p : Pipeline H) (call : H → List Node → ExceptT Error m Node) (node : Node) :
    ExceptT Error m Node := do
  runAll call .before node (← ofExcept (handlersFor p.before node))

def runAfter (p : Pipeline H) (call : H → List Node → ExceptT Error m Node) (node : Node) :
    ExceptT Error m Node := do
  runAll call .after node (← ofExcept (handlersFor p.after node))

def run (p : Pipeline H) (call : H → List Node → ExceptT Error m Node) (chain : Chain)
    (node : Node) : ExceptT Error m Node :=
  match chain with
  | .before => p.runBefore call node
  | .after => p.runAfter call node

/-- The whole way of a node. Middleware that is null counts as none, and a node that the core
handling drops skips the handlers after it. -/
def handle (p : Pipeline H) (call : H → List Node → ExceptT Error m Node)
    (core : Node → ExceptT Error m (Option Node)) (node : Node) :
    ExceptT Error m (Option Node) := do
  let node ← p.runBefore call node
  match ← ofExcept (p.middlewareFor node) with
  | none | some (.plain .null) =>
    match ← core node with
    | none => return none
    | some node => some <$> p.runAfter call node
  | some handler => do
    let node ← invoke call .middleware node handler
    some <$> p.runAfter call node

end Pipeline

end DocComment
