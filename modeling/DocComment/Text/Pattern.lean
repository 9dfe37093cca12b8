import DocComment.Text.Blank

/-!
Patterns over the front of a text. A pattern lists every way to match, the preferred one
first, each with what it yields and what is left. Repetition prefers more to less, so the
first way in the list is the one a greedy matcher with backtracking ends at.
-/

namespace DocComment.Text

structure Pattern (α : Type) where
  run : List Char → List (α × List Char)

namespace Pattern

variable {α β : Type}

instance : Monad Pattern where
  pure a := ⟨fun cs => [(a, cs)]⟩
  bind p f := ⟨fun cs => (p.run cs).flatMap fun (a, rest) => (f a).run rest⟩

def orElse (p q : Pattern α) : Pattern α := ⟨fun cs => p.run cs ++ q.run cs⟩

def oneOf (ps : List (Pattern α)) : Pattern α := ⟨fun cs => ps.flatMap (·.run cs)⟩

/-- With the pattern if possible, without it otherwise. -/
def maybe (p : Pattern Unit) : Pattern Unit := p.orElse (pure ())

def exactly (text : List Char) : Pattern Unit :=
  ⟨fun cs => ((text.isPrefixOf? cs).map fun rest => ((), rest)).toList⟩

def keyword (text : String) : Pattern Unit := exactly text.toList

/-- All fronts made up of such characters, longest first. -/
def runs (p : Char → Bool) : List Char → List (List Char × List Char)
  | [] => [([], [])]
  | c :: rest =>
    if p c then (runs p rest).map (fun (front, back) => (c :: front, back)) ++ [([], c :: rest)]
    else [([], c :: rest)]

def many (p : Char → Bool) : Pattern (List Char) := ⟨runs p⟩

def many1 (p : Char → Bool) : Pattern (List Char) :=
  ⟨fun cs => (runs p cs).filter (fun r => !r.1.isEmpty)⟩

def blanks : Pattern Unit := do let _ ← many isBlank
def blanks1 : Pattern Unit := do let _ ← many1 isBlank

/-- What the preferred match yields. -/
def first? (p : Pattern α) (cs : List Char) : Option α := (p.run cs).head?.map (·.1)

end Pattern

end DocComment.Text
