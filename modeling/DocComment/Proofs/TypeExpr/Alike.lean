import DocComment.Proofs.TypeExpr.Lookahead

/-!
Tokens that are read alike. How a generic is opened makes no difference, and a closing
parenthesis behind the tokens ends a type as their end does. So a run on such tokens does the
same, but for one that misses something at the end, which may then be there.
-/

namespace DocComment.TypeExpr

variable {α β : Type} {tail ts ts' rest rest' : List Token}

/-- The same token, or the other way to open a generic. -/
inductive Spelling : Token → Token → Prop where
  | same (t : Token) : Spelling t t
  | less : Spelling .dotLess .less
  | dotLess : Spelling .less .dotLess

theorem spelling_iff {t t' : Token} :
    Spelling t t' ↔ t' = t ∨ (t = .dotLess ∧ t' = .less) ∨ (t = .less ∧ t' = .dotLess) := by
  constructor
  · rintro (_ | _ | _) <;> simp
  · rintro (rfl | ⟨rfl, rfl⟩ | ⟨rfl, rfl⟩)
    · exact .same t'
    · exact .less
    · exact .dotLess

instance (t t' : Token) : Decidable (Spelling t t') := decidable_of_iff _ spelling_iff.symm

theorem Spelling.eq {t t' : Token} (h : Spelling t t') (ht : t ≠ .less ∧ t ≠ .dotLess) :
    t' = t := by
  cases h with
  | same => rfl
  | less => exact absurd rfl ht.2
  | dotLess => exact absurd rfl ht.1

/-- The same tokens but for spelling, and then others. -/
inductive Alike (tail : List Token) : List Token → List Token → Prop where
  | nil : Alike tail [] tail
  | cons {t t' : Token} {ts ts' : List Token} : Spelling t t' → Alike tail ts ts' →
      Alike tail (t :: ts) (t' :: ts')

/-- The same outcome on tokens that are alike. What fails before there are others behind may do
anything. -/
inductive Paired (tail : List Token) :
    Except Failure (α × List Token) → Except Failure (α × List Token) → Prop where
  | ok {a : α} {rest rest' : List Token} : Alike tail rest rest' →
      Paired tail (.ok (a, rest)) (.ok (a, rest'))
  | error {cause : Cause} {rest rest' : List Token} : Alike tail rest rest' →
      Paired tail (.error ⟨cause, rest⟩) (.error ⟨cause, rest'⟩)
  | ended {f x'} : tail ≠ [] → Paired tail (.error f) x'

/-- Two readers of which the second does on alike tokens what the first one does. -/
structure Steady (tail : List Token) (r r' : Reader α) : Prop where
  bounded : Local r
  paired {ts ts' : List Token} : Alike tail ts ts' → Paired tail (r ts) (r' ts')

/-- Nothing, or a closing parenthesis and what follows it. -/
def Closing (tail : List Token) : Prop := ∀ t ∈ tail.head?, t = .closeParen

theorem Closing.not_head (h : Closing tail) {t : Token} (ht : t ≠ .closeParen) :
    tail.head? ≠ some t :=
  fun e => ht (h t e)

namespace Alike

theorem refl (ts : List Token) : Alike [] ts ts := by
  induction ts with
  | nil => exact .nil
  | cons t ts ih => exact .cons (.same t) ih

theorem append (ts tail : List Token) : Alike tail ts (ts ++ tail) := by
  induction ts with
  | nil => exact .nil
  | cons t ts ih => exact .cons (.same t) ih

theorem length_eq (h : Alike tail ts ts') : ts'.length = ts.length + tail.length := by
  induction h with
  | nil => simp
  | cons _ _ ih =>
    rw [List.length_cons, List.length_cons, ih]
    omega

theorem of_nil (h : Alike tail [] rest') : rest' = tail := by
  cases h
  rfl

end Alike

theorem Paired.bind {x x' : Except Failure (α × List Token)}
    {f f' : α × List Token → Except Failure (β × List Token)} (h : Paired tail x x')
    (hf : ∀ a rest rest', x = .ok (a, rest) → Alike tail rest rest' →
      Paired tail (f (a, rest)) (f' (a, rest'))) : Paired tail (x >>= f) (x' >>= f') := by
  cases h with
  | ok ha => exact hf _ _ _ rfl ha
  | error ha => exact .error ha
  | ended ht => exact .ended ht

/-! ### The ways to put readers together -/

section

variable (htail : Closing tail)
include htail

theorem Alike.not_head (h : Alike tail ts ts') {t : Token}
    (ht : t ≠ .less ∧ t ≠ .dotLess ∧ t ≠ .closeParen) (hts : ts.head? ≠ some t) :
    ts'.head? ≠ some t := by
  cases h with
  | nil => exact htail.not_head ht.2.2
  | cons hs =>
    cases hs with
    | same => exact hts
    | less => simpa using ht.1.symm
    | dotLess => simpa using ht.2.1.symm

theorem Alike.brackets (h : Alike tail ts ts') (p : TypeExpr) :
    Paired tail (brackets p ts) (brackets p ts') := by
  fun_induction TypeExpr.brackets p ts generalizing ts' with
  | case1 p rest ih =>
    obtain _ | ⟨⟨⟩, _ | ⟨⟨⟩, h⟩⟩ := h
    exact ih h
  | case2 p rest hne =>
    obtain _ | ⟨⟨⟩, h⟩ := h
    have hne' := h.not_head htail (by simp) (head?_ne hne)
    rw [brackets.eq_2 p _ fun _ e => hne' (by rw [e]; rfl)]
    exact .error h
  | case3 p ts _ hopen =>
    rw [brackets_of_head (h.not_head htail (by simp) (head?_ne hopen))]
    exact .ok h

theorem Alike.marks (h : Alike tail ts ts') (p : TypeExpr) :
    Paired tail (.ok (marks p ts)) (.ok (marks p ts')) := by
  fun_induction TypeExpr.marks p ts generalizing ts' with
  | case1 p rest ih | case2 p rest ih =>
    obtain _ | ⟨⟨⟩, h⟩ := h
    exact ih h
  | case3 p ts hq hb =>
    rw [marks_of_head (h.not_head htail (by simp) (head?_ne hq))
      (h.not_head htail (by simp) (head?_ne hb))]
    exact .ok h

theorem Alike.endsOperand (h : Alike tail ts ts') : endsOperand ts' = endsOperand ts := by
  cases h with
  | nil =>
    cases tail with
    | nil => rfl
    | cons t tail =>
      obtain rfl := htail t rfl
      rfl
  | cons hs => cases hs <;> rfl

theorem Alike.modifiers (h : Alike tail ts ts') :
    (modifiers ts').1 = (modifiers ts).1 ∧ Alike tail (modifiers ts).2 (modifiers ts').2 := by
  induction h with
  | nil =>
    cases tail with
    | nil => exact ⟨rfl, .nil⟩
    | cons t tail =>
      obtain rfl := htail t rfl
      exact ⟨rfl, .nil⟩
  | @cons t t' ts ts' hs h ih =>
    obtain ⟨hm, hrest⟩ := ih
    cases hs with
    | less => exact ⟨rfl, .cons .less h⟩
    | dotLess => exact ⟨rfl, .cons .dotLess h⟩
    | same =>
      cases t with
      | question =>
        simp only [TypeExpr.modifiers, h.endsOperand htail]
        split
        · exact ⟨rfl, .cons (.same _) h⟩
        · exact ⟨congrArg (_ :: ·) hm, hrest⟩
      | bang | ellipsis => exact ⟨congrArg (_ :: ·) hm, hrest⟩
      | _ => exact ⟨rfl, .cons (.same _) h⟩

theorem Alike.further {separator : Token} (hsep : separator = .comma ∨ separator = .pipe)
    {items items' : Reader (List α)} {x : α} (h : Alike tail ts ts')
    (hitems : ∀ rest rest', rest.length < ts.length → Alike tail rest rest' →
      Paired tail (items rest) (items' rest')) :
    Paired tail (further separator items x ts) (further separator items' x ts') := by
  have hmark : separator ≠ .less ∧ separator ≠ .dotLess ∧ separator ≠ .closeParen := by
    rcases hsep with rfl | rfl <;> simp
  by_cases hhead : ts.head? = some separator
  · obtain ⟨rest, rfl⟩ := List.head?_eq_some_iff.mp hhead
    obtain _ | ⟨hs, h⟩ := h
    obtain rfl := hs.eq ⟨hmark.1, hmark.2.1⟩
    simp only [TypeExpr.further, if_true]
    exact (hitems _ _ (by simp) h).bind fun _ _ _ _ hrest => .ok hrest
  · rw [further_of_head hhead, further_of_head (h.not_head htail hmark hhead)]
    exact .ok h

/-- At the end of the tokens there is one item at most, since no separator follows. -/
theorem Steady.separatedFrom_nil {separator : Token} (hsep : separator ≠ .closeParen)
    {item item' : List α → Reader α} {seen : List α} (h : Steady tail (item seen) (item' seen))
    (bound bound' : Nat) :
    Paired tail (separatedFrom separator item bound seen [])
      (separatedFrom separator item' bound' seen tail) := by
  have hitem := h.paired .nil
  have hwithin := h.bounded.within []
  generalize hx : item seen [] = x, hx' : item' seen tail = x' at hitem hwithin
  cases hitem with
  | ok ha =>
    obtain rfl := List.suffix_nil.mp hwithin.suffix
    obtain rfl := ha.of_nil
    rw [separatedFrom_last bound hx (by simp), separatedFrom_last bound' hx' (htail.not_head hsep)]
    exact .ok .nil
  | error ha =>
    rw [separatedFrom_error bound hx, separatedFrom_error bound' hx']
    exact .error ha
  | ended ht =>
    rw [separatedFrom_error bound hx]
    exact .ended ht

/-- The bounds differ with the tokens, and neither of them is met. -/
theorem Alike.separatedFrom {separator : Token} (hsep : separator = .comma ∨ separator = .pipe)
    {item item' : List α → Reader α} (hitem : ∀ seen, Steady tail (item seen) (item' seen))
    {bound bound' : Nat} {seen : List α} (h : Alike tail ts ts') (hb : ts.length ≤ bound)
    (hb' : ts'.length ≤ bound') :
    Paired tail (separatedFrom separator item bound seen ts)
      (separatedFrom separator item' bound' seen ts') := by
  have hne : separator ≠ .closeParen := by rcases hsep with rfl | rfl <;> simp
  induction bound generalizing bound' seen ts ts' with
  | zero =>
    obtain rfl := List.length_eq_zero_iff.mp (Nat.le_zero.mp hb)
    obtain rfl := h.of_nil
    exact (hitem seen).separatedFrom_nil htail hne 0 bound'
  | succ bound ih =>
    cases bound' with
    | zero =>
      obtain rfl := List.length_eq_zero_iff.mp (Nat.le_zero.mp hb')
      cases h
      exact (hitem seen).separatedFrom_nil htail hne (bound + 1) 0
    | succ bound' =>
      rw [separatedFrom_succ, separatedFrom_succ]
      refine ((hitem seen).paired h).bind fun x rest rest' hx hrest => ?_
      refine hrest.further htail hsep fun left left' hlt hleft => ?_
      have hwithin := (hitem seen).bounded.within ts
      rw [hx] at hwithin
      have hle := hwithin.suffix.length_le
      have hlength := h.length_eq
      have hlength' := hleft.length_eq
      exact ih hleft (by omega) (by omega)

theorem Steady.first {taken taken' : Token → Option (Reader α)} {other other' : Reader α}
    (hfair : Fair taken other) (ht : ∀ t, Option.Rel (Steady tail) (taken t) (taken' t))
    (ho : Steady tail other other') :
    Steady tail (decided taken other) (decided taken' other') := by
  have hbounded (t : Token) (r : Reader α) (hr : r ∈ taken t) : Local r := by
    have h := ht t
    rw [Option.mem_def.mp hr] at h
    generalize taken' t = x at h
    cases h with
    | some h => exact h.bounded
  refine ⟨.decided hbounded ho.bounded, fun hts => ?_⟩
  cases hts with
  | nil =>
    cases tail with
    | nil => exact ho.paired .nil
    | cons t tail =>
      obtain rfl := htail t rfl
      rcases hfair.close with hclose | ⟨f, hf⟩
      · have h := ht .closeParen
        rw [decided, decided]
        rw [hclose] at h
        generalize taken' .closeParen = x at h
        cases h with
        | none => exact ho.paired .nil
      · rw [decided, hf]
        exact .ended (by simp)
  | @cons t t' ts ts' hs hts =>
    have h : Option.Rel (Steady tail) (taken t) (taken' t') := by
      cases hs with
      | same => exact ht t
      | less => exact hfair.angle ▸ ht .less
      | dotLess => exact hfair.angle ▸ ht .dotLess
    rw [decided, decided]
    generalize taken t = x, taken' t' = x' at h
    cases h with
    | none => exact ho.paired (.cons hs hts)
    | some h => exact h.paired hts

theorem Steady.peek {r r' other other' : Reader α} (hend : ∃ f, other [] = .error f)
    (h : Steady tail r r') (ho : Steady tail other other') :
    Steady tail (fun ts => if ts.head? = some .closeParen then r ts else other ts)
      fun ts => if ts.head? = some .closeParen then r' ts else other' ts := by
  refine ⟨h.bounded.peek ho.bounded, fun hts => ?_⟩
  cases hts with
  | nil =>
    cases tail with
    | nil => exact ho.paired .nil
    | cons t tail =>
      obtain ⟨f, hf⟩ := hend
      simp only [List.head?_nil, reduceCtorEq, if_false, hf]
      exact .ended (by simp)
  | @cons t t' ts ts' hs hts =>
    by_cases hclose : t = .closeParen
    · subst t
      cases hs
      simpa using h.paired (.cons (.same _) hts)
    · have hclose' : t' ≠ .closeParen := by
        rintro rfl
        cases hs
        exact hclose rfl
      simpa [hclose, hclose'] using ho.paired (.cons hs hts)

theorem Steady.modified {union union' function function' : Reader TypeExpr}
    (h : Steady tail (suffixed union function) (suffixed union' function')) :
    Steady tail (modified union function) (modified union' function') := by
  refine ⟨h.bounded.modified, fun hts => ?_⟩
  obtain ⟨hm, hrest⟩ := hts.modifiers htail
  unfold TypeExpr.modified
  rw [hm]
  exact (h.paired hrest).bind fun _ _ _ _ hrest => .ok hrest

end

end DocComment.TypeExpr
