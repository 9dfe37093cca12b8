import DocComment.Proofs.TypeExpr.Congruence

/-!
Reading with fewer levels. It does the same as with more of them until one level too many is
opened, and then it stops there. So the limit decides whether a type is read, and never what is
read.
-/

namespace DocComment.TypeExpr

/-- The first is as the second, or it was cut off by the limit. -/
def CutOff {α : Type} (x y : Except Failure α) : Prop :=
  x = y ∨ ∃ rest, x = .error ⟨.tooDeep, rest⟩

namespace CutOff

variable {α β : Type} {x y : Except Failure α}

theorem refl (x : Except Failure α) : CutOff x x := .inl rfl

theorem bind {f g : α → Except Failure β} (h : CutOff x y) (hf : ∀ a, CutOff (f a) (g a)) :
    CutOff (x >>= f) (y >>= g) := by
  rcases h with rfl | ⟨rest, rfl⟩
  · cases x with
    | error e => exact .inl rfl
    | ok a => exact hf a
  · exact .inr ⟨rest, rfl⟩

end CutOff

/-- A reader with fewer levels and one with more of them. -/
def Limits {α : Type} (r r' : Reader α) : Prop := ∀ ts, CutOff (r ts) (r' ts)

theorem limits_separatedFrom {α : Type} {separator : Token} {item item' : List α → Reader α}
    (h : ∀ seen, Limits (item seen) (item' seen)) (bound : Nat) (seen : List α) :
    Limits (separatedFrom separator item bound seen)
      (separatedFrom separator item' bound seen) := by
  induction bound generalizing seen with
  | zero => exact fun ts => (h seen ts).bind fun _ => .refl _
  | succ bound ih =>
    refine fun ts => (h seen ts).bind fun ⟨x, ts⟩ => ?_
    cases ts with
    | nil => exact .refl _
    | cons t rest =>
      dsimp only
      split
      · exact (ih (x :: seen) rest).bind fun _ => .refl _
      · exact .refl _

theorem limits_congruence : Congruence Limits where
  pure _ _ := .refl _
  fail _ _ := .refl _
  bind h hf ts := (h ts).bind fun ⟨a, rest⟩ => hf a rest
  first {_ taken taken' _ _} _ ht ho ts := by
    cases ts with
    | nil => exact ho []
    | cons t ts =>
      have h := ht t
      rw [decided, decided]
      generalize taken t = x, taken' t = x' at h
      cases h with
      | none => exact ho (t :: ts)
      | some h => exact h ts
  peek _ h ho ts := by
    dsimp only
    split
    · exact h ts
    · exact ho ts
  separated _ h ts := limits_separatedFrom h ts.length [] ts
  brackets _ _ := .refl _
  marks _ _ := .refl _
  modified h ts := (h _).bind fun _ => .refl _

theorem nested_limits {n m : Nat} (h : n ≤ m) : Limits (nested n .union) (nested m .union) := by
  obtain ⟨k, rfl⟩ := Nat.exists_eq_add_of_le h
  have hzero (opening : Opening) (r : Reader TypeExpr) : Limits (nested 0 opening) r :=
    fun ts => .inr ⟨ts, rfl⟩
  exact (limits_congruence.nested (hzero .union _) (fun ts => hzero .function _ _) n).1

theorem ofTokens_cutOff {n m : Nat} (h : n ≤ m) (ts : List Token) :
    CutOff (ofTokens n ts) (ofTokens m ts) := by
  unfold ofTokens
  split
  · exact .refl _
  · exact (nested_limits h ts).bind fun _ => .refl _

end DocComment.TypeExpr
