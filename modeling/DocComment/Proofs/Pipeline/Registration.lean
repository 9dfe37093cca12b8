import DocComment.Pipeline
import Mathlib.Data.List.Induction

/-!
A pipeline told by its history. Registrations come one after another, each for a phase and in
one of three shapes. What the tables hold for a type is what was registered for it: in order
for the chains, and only the last for middleware.
-/

namespace DocComment

variable {H : Type}

/-- A registration for one phase. Without a handler it is for null, and a table brings its own. -/
structure Registration (H : Type) where
  phase : Phase
  target : Target H
  handler : Supplied H := .plain .null

namespace Registration

/-- Every type that the registration names, with what it names for it. -/
def entries (r : Registration H) : List (String × Supplied H) :=
  Pipeline.expand r.target r.handler

/-- Nothing in the registration is plain data. -/
def allCallable (r : Registration H) : Bool := r.entries.all (·.2.handler?.isSome)

end Registration

namespace Pipeline

def register (p : Pipeline H) (r : Registration H) : Pipeline H :=
  match r.phase with
  | .before => (p.withBefore r.target r.handler).1
  | .middleware => (p.withMiddleware r.target r.handler).1
  | .after => (p.withAfter r.target r.handler).1

/-- The pipeline after a history of registrations. -/
def ofHistory (history : List (Registration H)) : Pipeline H := history.foldl register {}

/-- What entries name for a type, in order. -/
def named (type : String) (entries : List (String × Supplied H)) : List (Supplied H) :=
  (entries.filter (·.1 = type)).map (·.2)

/-- What a history registers for a type at a phase, from first to last. -/
def registered (history : List (Registration H)) (phase : Phase) (type : String) :
    List (Supplied H) :=
  named type ((history.filter (·.phase = phase)).flatMap (·.entries))

theorem named_cons (type key : String) (handler : Supplied H)
    (rest : List (String × Supplied H)) :
    named type ((key, handler) :: rest) =
      if key = type then handler :: named type rest else named type rest := by
  unfold named
  by_cases h : key = type
  · rw [if_pos h, List.filter_cons_of_pos (by simpa using h), List.map_cons]
  · rw [if_neg h, List.filter_cons_of_neg (by simpa using h)]

theorem named_append (type : String) (front back : List (String × Supplied H)) :
    named type (front ++ back) = named type front ++ named type back := by
  rw [named, List.filter_append, List.map_append, named, named]

theorem registered_concat (history : List (Registration H)) (r : Registration H) (phase : Phase)
    (type : String) :
    registered (history ++ [r]) phase type =
      registered history phase type ++ if r.phase = phase then named type r.entries else [] := by
  unfold registered
  rw [List.filter_append, List.flatMap_append, named_append]
  by_cases h : r.phase = phase
  · rw [if_pos h, List.filter_cons_of_pos (by simpa using h), List.filter_nil,
      List.flatMap_singleton]
  · rw [if_neg h, List.filter_cons_of_neg (by simpa using h)]
    rfl

theorem lookup_appendEach (phase : Phase) (table : List (String × List (Supplied H)))
    (entries : List (String × Supplied H)) (type : String) :
    ((appendEach phase table entries).1.lookup type).getD [] =
      (table.lookup type).getD [] ++ named type entries := by
  induction entries generalizing table with
  | nil => exact (List.append_nil _).symm
  | cons entry rest ih =>
    obtain ⟨key, handler⟩ := entry
    rw [appendEach, ih, lookup_insertAt, named_cons]
    by_cases h : type = key
    · rw [if_pos h, if_pos h.symm, h, Option.getD_some, List.append_assoc, List.singleton_append]
    · rw [if_neg h, if_neg (Ne.symm h)]

theorem lookup_setEach (table entries : List (String × Supplied H)) (type : String) :
    (setEach table entries).1.lookup type =
      (named type entries).getLast?.or (table.lookup type) := by
  induction entries generalizing table with
  | nil => rfl
  | cons entry rest ih =>
    obtain ⟨key, handler⟩ := entry
    rw [setEach, ih, lookup_insertAt, named_cons]
    by_cases h : type = key
    · rw [if_pos h, if_pos h.symm, List.getLast?_cons]
      cases (named type rest).getLast? <;> rfl
    · rw [if_neg h, if_neg (Ne.symm h)]

/-- What the tables of a pipeline hold is what a history registers. -/
structure Holds (p : Pipeline H) (history : List (Registration H)) : Prop where
  before : ∀ type, (p.before.lookup type).getD [] = registered history .before type
  middleware : ∀ type, p.middleware.lookup type = (registered history .middleware type).getLast?
  after : ∀ type, (p.after.lookup type).getD [] = registered history .after type

theorem Holds.register {p : Pipeline H} {history : List (Registration H)} (h : p.Holds history)
    (r : Registration H) : (p.register r).Holds (history ++ [r]) := by
  obtain ⟨phase, target, handler⟩ := r
  have hother (other : Phase) (hne : phase ≠ other) (type : String) :
      registered (history ++ [⟨phase, target, handler⟩]) other type =
        registered history other type := by
    rw [registered_concat, if_neg hne, List.append_nil]
  cases phase with
  | before =>
    refine ⟨fun type => ?_, fun type => ?_, fun type => ?_⟩
    · rw [registered_concat, if_pos rfl, ← h.before]
      exact lookup_appendEach _ _ _ _
    · rw [hother .middleware (by decide)]
      exact h.middleware type
    · rw [hother .after (by decide)]
      exact h.after type
  | middleware =>
    refine ⟨fun type => ?_, fun type => ?_, fun type => ?_⟩
    · rw [hother .before (by decide)]
      exact h.before type
    · rw [registered_concat, if_pos rfl, List.getLast?_append, ← h.middleware]
      exact lookup_setEach _ _ _
    · rw [hother .after (by decide)]
      exact h.after type
  | after =>
    refine ⟨fun type => ?_, fun type => ?_, fun type => ?_⟩
    · rw [hother .before (by decide)]
      exact h.before type
    · rw [hother .middleware (by decide)]
      exact h.middleware type
    · rw [registered_concat, if_pos rfl, ← h.after]
      exact lookup_appendEach _ _ _ _

theorem holds_ofHistory (history : List (Registration H)) : (ofHistory history).Holds history := by
  induction history using List.reverseRecOn with
  | nil => exact ⟨fun _ => rfl, fun _ => rfl, fun _ => rfl⟩
  | append_singleton history r ih =>
    rw [ofHistory, List.foldl_append]
    exact ih.register r

/-- The type of a node, if it is one that handlers can be registered for. -/
def typeOf? (node : Node) : Except Error (Option String) :=
  match node.key.asKey with
  | .ok (.text type) => .ok (some type)
  | .ok _ => .ok none
  | .error e => .error e

/-- What a history registers for the type of a node. -/
def registeredFor (history : List (Registration H)) (phase : Phase) (node : Node) :
    Except Error (List (Supplied H)) :=
  (typeOf? node).map fun type => type.elim [] (registered history phase)

theorem find?_eq {α : Type} (table : List (String × α)) (node : Node) :
    find? table node = (typeOf? node).map fun type => type.bind fun type => table.lookup type := by
  unfold find? typeOf?
  cases node.key.asKey with
  | error e => rfl
  | ok key => cases key <;> rfl

theorem handlersFor_eq {table : List (String × List (Supplied H))}
    {history : List (Registration H)} {phase : Phase}
    (h : ∀ type, (table.lookup type).getD [] = registered history phase type) (node : Node) :
    handlersFor table node = registeredFor history phase node := by
  rw [handlersFor, find?_eq, registeredFor]
  cases typeOf? node with
  | error e => rfl
  | ok type =>
    cases type with
    | none => rfl
    | some type => exact congrArg Except.ok (h type)

theorem Holds.middlewareFor_eq {p : Pipeline H} {history : List (Registration H)}
    (h : p.Holds history) (node : Node) :
    p.middlewareFor node = (registeredFor history .middleware node).map List.getLast? := by
  rw [middlewareFor, find?_eq, registeredFor]
  cases typeOf? node with
  | error e => rfl
  | ok type =>
    cases type with
    | none => rfl
    | some type => exact congrArg Except.ok (h.middleware type)

end Pipeline

end DocComment
