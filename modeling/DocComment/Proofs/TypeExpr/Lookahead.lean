import DocComment.Proofs.TypeExpr.Congruence

/-!
Reading decides what it does by one token more than it takes. So a failure stays what it is
when the tokens behind the one that it names are others. Two runs are compared of which the
second has other tokens from some place on: until the first has gone past that place they do
the same. A level too many is the exception, since it is found before its tokens are looked at.
-/

namespace DocComment.TypeExpr

/-- What a reader leaves is a later part of these tokens, and so is where it fails. -/
inductive Within {α : Type} (ts : List Token) : Except Failure (α × List Token) → Prop where
  | ok {a rest} : rest <:+ ts → Within ts (.ok (a, rest))
  | error {cause rest} : rest <:+ ts → Within ts (.error ⟨cause, rest⟩)
  | tooDeep {rest} : Within ts (.error ⟨.tooDeep, rest⟩)

/-- The same outcome, up to the tokens at the end, unless the first run has come to them. -/
inductive Agree {α : Type} (more more' : List Token) :
    Except Failure (α × List Token) → Except Failure (α × List Token) → Prop where
  | ok {a} (left : List Token) : Agree more more' (.ok (a, left ++ more)) (.ok (a, left ++ more'))
  | error {cause} (left : List Token) :
      Agree more more' (.error ⟨cause, left ++ more⟩) (.error ⟨cause, left ++ more'⟩)
  | past {x x'} : Within more x → Agree more more' x x'

/-- A reader that keeps to its tokens, and does not look at those behind the ones it takes. -/
structure Local {α : Type} (reader : Reader α) : Prop where
  within ts : Within ts (reader ts)
  agree more more' ts : Agree more more' (reader (ts ++ more)) (reader (ts ++ more'))

section

variable {α β : Type} {ts us more more' : List Token}

theorem Within.mono {x : Except Failure (α × List Token)} (h : Within ts x) (hs : ts <:+ us) :
    Within us x := by
  cases h with
  | ok h => exact .ok (h.trans hs)
  | error h => exact .error (h.trans hs)
  | tooDeep => exact .tooDeep

theorem Within.suffix {a : α} {rest : List Token} (h : Within ts (.ok (a, rest))) :
    rest <:+ ts := by
  cases h with
  | ok h => exact h

theorem Within.bind {x : Except Failure (α × List Token)}
    {f : α × List Token → Except Failure (β × List Token)} (h : Within ts x)
    (hf : ∀ a rest, Within rest (f (a, rest))) : Within ts (x >>= f) := by
  cases h with
  | ok h => exact (hf _ _).mono h
  | error h => exact .error h
  | tooDeep => exact .tooDeep

theorem Within.map {x : Except Failure (α × List Token)} (f : α → β) (h : Within ts x) :
    Within ts (x.map fun y => (f y.1, y.2)) := by
  cases h with
  | ok h => exact .ok h
  | error h => exact .error h
  | tooDeep => exact .tooDeep

theorem Agree.map {x x' : Except Failure (α × List Token)} (f : α → β)
    (h : Agree more more' x x') :
    Agree more more' (x.map fun y => (f y.1, y.2)) (x'.map fun y => (f y.1, y.2)) := by
  cases h with
  | ok left => exact .ok left
  | error left => exact .error left
  | past h => exact .past (h.map f)

theorem not_suffix_cons {t : Token} {rest left : List Token} (h : left <:+ rest) :
    t :: rest ≠ left := by
  intro e
  have hlen := h.length_le
  rw [← e, List.length_cons] at hlen
  omega

theorem eq_singleton_of_append {t : Token} {left : List Token} (h : t :: more = left ++ more) :
    left = [t] := by
  have hsame : left ++ more = [t] ++ more := h.symm
  exact List.append_cancel_right hsame

theorem Agree.ok_eq {a : α} {t : Token} {x' : Except Failure (α × List Token)}
    (h : Agree more more' (.ok (a, t :: more)) x') : x' = .ok (a, t :: more') := by
  generalize hl : t :: more = rest at h
  cases h with
  | ok left =>
    rw [eq_singleton_of_append hl]
    rfl
  | past hx => exact absurd hl (not_suffix_cons hx.suffix)

theorem Agree.error_eq {cause : Cause} {t : Token} {x' : Except Failure (α × List Token)}
    (h : Agree more more' (.error ⟨cause, t :: more⟩) x') (hdeep : cause ≠ .tooDeep) :
    x' = .error ⟨cause, t :: more'⟩ := by
  generalize hl : t :: more = rest at h
  cases h with
  | error left =>
    rw [eq_singleton_of_append hl]
    rfl
  | past hx =>
    cases hx with
    | error hs => exact absurd hl (not_suffix_cons hs)
    | tooDeep => exact absurd rfl hdeep

/-- The next reader may count on what is left being no longer than it was. -/
theorem Agree.bind {x x' : Except Failure (α × List Token)}
    {f f' : α × List Token → Except Failure (β × List Token)} (h : Agree more more' x x')
    (hx : Within (ts ++ more) x) (hw : ∀ a rest, Within rest (f (a, rest)))
    (hf : ∀ a left, left.length ≤ ts.length →
      Agree more more' (f (a, left ++ more)) (f' (a, left ++ more'))) :
    Agree more more' (x >>= f) (x' >>= f') := by
  cases h with
  | ok left =>
    have hlen := hx.suffix.length_le
    rw [List.length_append, List.length_append] at hlen
    exact hf _ left (by omega)
  | error left => exact .error left
  | past hx => exact .past (hx.bind hw)

namespace Local

theorem bind {reader : Reader α} {f : α × List Token → Except Failure (β × List Token)}
    (h : Local reader) (hf : ∀ a, Local fun ts => f (a, ts)) :
    Local fun ts => reader ts >>= f := by
  have hrest (a : α) (rest : List Token) : Within rest (f (a, rest)) := (hf a).within rest
  refine ⟨fun ts => (h.within ts).bind hrest, fun more more' ts => ?_⟩
  exact (h.agree more more' ts).bind (h.within _) hrest fun a left _ =>
    (hf a).agree more more' left

theorem pure (a : α) : Local fun ts => (.ok (a, ts) : Except Failure (α × List Token)) :=
  ⟨fun _ => .ok List.suffix_rfl, fun _ _ ts => .ok ts⟩

theorem fail (cause : Cause) :
    Local fun ts => (.error ⟨cause, ts⟩ : Except Failure (α × List Token)) :=
  ⟨fun _ => .error List.suffix_rfl, fun _ _ ts => .error ts⟩

/-- The first token decides: either it is taken, or another reader does the same. -/
theorem ofToken {reader : Reader α} (hnil : Within [] (reader []))
    (h : ∀ t, Local (fun ts => reader (t :: ts)) ∨
      ∃ other, Local other ∧ ∀ ts, reader (t :: ts) = other (t :: ts)) : Local reader := by
  have hwithin (ts : List Token) : Within ts (reader ts) := by
    cases ts with
    | nil => exact hnil
    | cons t ts =>
      rcases h t with htaken | ⟨other, hother, hsame⟩
      · exact (htaken.within ts).mono (List.suffix_cons _ _)
      · rw [hsame]
        exact hother.within (t :: ts)
  refine ⟨hwithin, fun more more' ts => ?_⟩
  cases ts with
  | nil => exact .past (hwithin more)
  | cons t ts =>
    rcases h t with htaken | ⟨other, hother, hsame⟩
    · exact htaken.agree more more' ts
    · rw [List.cons_append, List.cons_append, hsame, hsame]
      exact hother.agree more more' (t :: ts)

theorem decided {taken : Token → Option (Reader α)} {other : Reader α}
    (ht : ∀ t, ∀ r ∈ taken t, Local r) (ho : Local other) : Local (decided taken other) := by
  refine ofToken (ho.within []) fun t => ?_
  simp only [TypeExpr.decided]
  cases h : taken t with
  | none => exact .inr ⟨_, ho, fun _ => rfl⟩
  | some r => exact .inl (ht t r h)

theorem peek {reader other : Reader α} (h : Local reader) (ho : Local other) :
    Local fun ts => if ts.head? = some .closeParen then reader ts else other ts := by
  refine ofToken (ho.within []) fun t => ?_
  by_cases ht : t = .closeParen
  · exact .inr ⟨_, h, fun ts => by simp [ht]⟩
  · exact .inr ⟨_, ho, fun ts => by simp [ht]⟩

end Local

/-- What is read behind an item: the items after a separator, if there is one. -/
def further (separator : Token) (items : Reader (List α)) (x : α) : Reader (List α)
  | [] => .ok ([x], [])
  | t :: rest =>
    if t = separator then do
      let (xs, ts) ← items rest
      return (x :: xs, ts)
    else .ok ([x], t :: rest)

theorem further_of_head {separator : Token} {items : Reader (List α)} {x : α}
    (h : ts.head? ≠ some separator) : further separator items x ts = .ok ([x], ts) := by
  cases ts with
  | nil => rfl
  | cons t ts => exact if_neg (by simpa using h)

theorem separatedFrom_succ (separator : Token) (item : List α → Reader α) (bound : Nat)
    (seen : List α) (ts : List Token) :
    separatedFrom separator item (bound + 1) seen ts = item seen ts >>= fun y =>
      further separator (separatedFrom separator item bound (y.1 :: seen)) y.1 y.2 := by
  rw [separatedFrom]
  congr 1

theorem further_within {separator : Token} {items : Reader (List α)} {x : α}
    (h : ∀ ts, Within ts (items ts)) (ts : List Token) :
    Within ts (further separator items x ts) := by
  cases ts with
  | nil => exact .ok List.suffix_rfl
  | cons t rest =>
    by_cases ht : t = separator
    · rw [further, if_pos ht]
      exact ((h rest).mono (List.suffix_cons _ _)).bind fun _ _ => .ok List.suffix_rfl
    · rw [further, if_neg ht]
      exact .ok List.suffix_rfl

theorem further_agree {separator : Token} {items items' : Reader (List α)} {x : α}
    (h : ∀ ts, Within ts (items ts))
    (hagree : ∀ left, left.length < ts.length →
      Agree more more' (items (left ++ more)) (items' (left ++ more'))) :
    Agree more more' (further separator items x (ts ++ more))
      (further separator items' x (ts ++ more')) := by
  cases ts with
  | nil => exact .past (further_within h more)
  | cons t left =>
    by_cases ht : t = separator
    · rw [List.cons_append, List.cons_append, further, further, if_pos ht, if_pos ht]
      exact (hagree left (by simp)).bind (h _) (fun _ _ => .ok List.suffix_rfl)
        fun _ rest _ => .ok rest
    · rw [List.cons_append, List.cons_append, further, further, if_neg ht, if_neg ht]
      exact .ok (t :: left)

theorem separatedFrom_within {separator : Token} {item : List α → Reader α}
    (h : ∀ seen, Local (item seen)) (bound : Nat) (seen : List α) (ts : List Token) :
    Within ts (separatedFrom separator item bound seen ts) := by
  induction bound generalizing seen ts with
  | zero => exact ((h seen).within ts).bind fun _ _ => .ok List.suffix_rfl
  | succ bound ih =>
    rw [separatedFrom_succ]
    exact ((h seen).within ts).bind fun x rest => further_within (ih (x :: seen)) rest

/-- The bounds differ with the tokens, and neither of them is met. -/
theorem separatedFrom_agree {separator : Token} {item : List α → Reader α}
    (h : ∀ seen, Local (item seen)) {bound bound' : Nat} {seen : List α}
    (hb : (ts ++ more).length ≤ bound) (hb' : (ts ++ more').length ≤ bound') :
    Agree more more' (separatedFrom separator item bound seen (ts ++ more))
      (separatedFrom separator item bound' seen (ts ++ more')) := by
  induction bound generalizing bound' seen ts with
  | zero =>
    obtain rfl : ts = [] := by
      rw [List.length_append] at hb
      exact List.length_eq_zero_iff.mp (by omega)
    exact .past (separatedFrom_within h _ _ _)
  | succ bound ih =>
    cases ts with
    | nil => exact .past (separatedFrom_within h _ _ _)
    | cons t ts =>
      obtain ⟨bound', rfl⟩ : ∃ b, bound' = b + 1 := ⟨bound' - 1, by simp at hb'; omega⟩
      rw [separatedFrom_succ, separatedFrom_succ]
      -- An item may leave as much as there was, so only the separator brings the end nearer.
      apply ((h seen).agree more more' (t :: ts)).bind ((h seen).within _)
      · exact fun x rest => further_within (separatedFrom_within h _ _) rest
      · intro x left hleft
        apply further_agree (separatedFrom_within h _ _)
        intro left' hlt
        simp only [List.length_append, List.length_cons] at hb hb' hleft
        apply ih
        · rw [List.length_append]
          omega
        · rw [List.length_append]
          omega

/-! ### The readers -/

theorem brackets_within (p : TypeExpr) (ts : List Token) : Within ts (brackets p ts) := by
  fun_induction brackets p ts with
  | case1 p rest ih => exact ih.mono ((List.suffix_cons _ _).trans (List.suffix_cons _ _))
  | case2 p rest => exact .error (List.suffix_cons _ _)
  | case3 => exact .ok List.suffix_rfl

theorem brackets_open_within (p : TypeExpr) (ts : List Token) :
    Within ts (brackets p (.openBracket :: ts)) := by
  cases ts with
  | nil => exact .error List.suffix_rfl
  | cons t rest =>
    by_cases ht : t = .closeBracket
    · subst t
      exact (brackets_within _ rest).mono (List.suffix_cons _ _)
    · rw [brackets.eq_2 p _ fun _ e => ht (List.cons.inj e).1]
      exact .error List.suffix_rfl

theorem marks_suffix (p : TypeExpr) (ts : List Token) : (marks p ts).2 <:+ ts := by
  fun_induction marks p ts with
  | case1 p rest ih => exact ih.trans (List.suffix_cons _ _)
  | case2 p rest ih => exact ih.trans (List.suffix_cons _ _)
  | case3 => exact List.suffix_rfl

namespace Local

theorem brackets (p : TypeExpr) : Local (brackets p) := by
  refine ⟨brackets_within p, fun more more' ts => ?_⟩
  fun_induction TypeExpr.brackets p ts with
  | case1 p rest ih => exact ih
  | case2 p rest hne =>
    cases rest with
    | nil => exact .past (brackets_open_within p more)
    | cons t rest =>
      have ht : t ≠ .closeBracket := fun e => hne rest (by rw [e])
      rw [List.cons_append, List.cons_append, List.cons_append, List.cons_append,
        brackets.eq_2 p _ fun _ e => ht (List.cons.inj e).1,
        brackets.eq_2 p _ fun _ e => ht (List.cons.inj e).1]
      exact .error (t :: rest)
  | case3 p ts hpair hopen =>
    cases ts with
    | nil => exact .past (brackets_within p more)
    | cons t rest =>
      have ht : t ≠ .openBracket := fun e => hopen rest (by rw [e])
      have hdone (ts : List Token) : TypeExpr.brackets p (t :: ts) = .ok (p, t :: ts) :=
        brackets_eq_ok.mpr ⟨0, rfl, rfl, by simpa using ht⟩
      rw [List.cons_append, List.cons_append, hdone, hdone]
      exact .ok (t :: rest)

theorem marks (p : TypeExpr) :
    Local fun ts => (.ok (marks p ts) : Except Failure (TypeExpr × List Token)) := by
  refine ⟨fun ts => .ok (marks_suffix p ts), fun more more' ts => ?_⟩
  fun_induction TypeExpr.marks p ts with
  | case1 p rest ih => exact ih
  | case2 p rest ih => exact ih
  | case3 p ts hq hb =>
    cases ts with
    | nil => exact .past (.ok (marks_suffix p more))
    | cons t rest =>
      have hdone (ts : List Token) : TypeExpr.marks p (t :: ts) = (p, t :: ts) :=
        marks_of_head (by simpa using fun e => hq rest (by rw [e]))
          (by simpa using fun e => hb rest (by rw [e]))
      rw [List.cons_append, List.cons_append, hdone, hdone]
      exact .ok (t :: rest)

theorem separated {separator : Token} {item : List α → Reader α}
    (h : ∀ seen, Local (item seen)) : Local (separated separator item) :=
  ⟨fun _ => separatedFrom_within h _ _ _,
    fun _ _ _ => separatedFrom_agree h (Nat.le_refl _) (Nat.le_refl _)⟩

end Local

end

/-- A modifier with a token behind it has no operand, or changes what is read there. -/
theorem modified_behind {union function : Reader TypeExpr} {t : Token}
    (ht : t = .question ∨ t = .bang ∨ t = .ellipsis) (u : Token) :
    (∀ ts, modified union function (t :: u :: ts) = .ok (.unknown, u :: ts)) ∨
      ∃ m : Modifier, ∀ ts, modified union function (t :: u :: ts) =
        (modified union function (u :: ts)).map fun x => (m.apply x.1, x.2) := by
  rcases ht with rfl | rfl | rfl
  · by_cases hu : endsOperand [u] = true
    · refine .inl fun ts => ?_
      have hbare : endsOperand (u :: ts) = true := hu
      rw [modified_unmodified (modifiers_bare hbare), suffixed_bare hbare]
    · refine .inr ⟨.nullable, fun ts => ?_⟩
      have hmore : endsOperand (u :: ts) = false := eq_false_of_ne_true hu
      exact modified_modifier (modifiers_question hmore)
  · exact .inr ⟨.nonNullable, fun ts => modified_modifier rfl⟩
  · exact .inr ⟨.variadic, fun ts => modified_modifier rfl⟩

/-- A modifier is taken, with or without an operand behind it. -/
theorem modified_marked_within {union function : Reader TypeExpr} {t : Token} {ts : List Token}
    (ht : t = .question ∨ t = .bang ∨ t = .ellipsis)
    (hw : Within ts (modified union function ts)) :
    Within ts (modified union function (t :: ts)) := by
  cases ts with
  | nil =>
    rcases ht with rfl | rfl | rfl
    · exact .ok List.suffix_rfl
    · exact .error List.suffix_rfl
    · exact .error List.suffix_rfl
  | cons u ts =>
    rcases modified_behind ht u with hu | ⟨m, hm⟩
    · rw [hu]
      exact .ok List.suffix_rfl
    · rw [hm]
      exact hw.map m.apply

section

variable {union function : Reader TypeExpr}

theorem modified_within (h : Local (suffixed union function)) (ts : List Token) :
    Within ts (modified union function ts) := by
  induction ts with
  | nil => exact .error List.suffix_rfl
  | cons t ts ih =>
    by_cases ht : t = .question ∨ t = .bang ∨ t = .ellipsis
    · exact (modified_marked_within ht ih).mono (List.suffix_cons _ _)
    · rw [modified_unmodified (modifiers_operand (by simpa using ht))]
      exact h.within (t :: ts)

/-- Whether a question mark has an operand is told by the token behind it, so where that is
not there yet, the run has come to the end. -/
theorem Local.modified (h : Local (suffixed union function)) :
    Local (modified union function) := by
  refine ⟨modified_within h, fun more more' ts => ?_⟩
  induction ts with
  | nil => exact .past (modified_within h more)
  | cons t ts ih =>
    by_cases ht : t = .question ∨ t = .bang ∨ t = .ellipsis
    · cases ts with
      | nil => exact .past (modified_marked_within ht (modified_within h more))
      | cons u ts =>
        simp only [List.cons_append] at ih ⊢
        rcases modified_behind ht u with hu | ⟨m, hm⟩
        · rw [hu, hu]
          exact .ok (u :: ts)
        · rw [hm, hm]
          exact ih.map m.apply
    · have hnone (ts : List Token) : modifiers (t :: ts) = ([], t :: ts) :=
        modifiers_operand (by simpa using ht)
      rw [List.cons_append, List.cons_append, modified_unmodified (hnone _),
        modified_unmodified (hnone _)]
      exact h.agree more more' (t :: ts)

end

theorem local_congruence : Congruence fun r r' => r' = r ∧ Local r where
  pure a := ⟨rfl, .pure a⟩
  fail cause := ⟨rfl, .fail cause⟩
  bind {_ _ _ _ f f'} h hf := by
    obtain ⟨rfl, h⟩ := h
    obtain rfl : f' = f := funext fun ⟨a, ts⟩ => congrFun (hf a).1 ts
    exact ⟨rfl, h.bind fun a => (hf a).2⟩
  first {_ taken taken' other _} _ ht ho := by
    obtain ⟨rfl, ho⟩ := ho
    have htable (t : Token) : taken' t = taken t ∧ ∀ r ∈ taken t, Local r := by
      have h := ht t
      generalize taken t = x, taken' t = x' at h
      cases h with
      | none => exact ⟨rfl, nofun⟩
      | some h => exact ⟨by rw [h.1], fun r hr => Option.some.inj hr ▸ h.2⟩
    obtain rfl : taken' = taken := funext fun t => (htable t).1
    exact ⟨rfl, .decided (fun t => (htable t).2) ho⟩
  peek _ h ho := by
    obtain ⟨rfl, h⟩ := h
    obtain ⟨rfl, ho⟩ := ho
    exact ⟨rfl, h.peek ho⟩
  separated {_ _ item item'} _ h := by
    obtain rfl : item' = item := funext fun seen => (h seen).1
    exact ⟨rfl, .separated fun seen => (h seen).2⟩
  brackets t := ⟨rfl, .brackets t⟩
  marks t := ⟨rfl, .marks t⟩
  modified {union union' function function'} h := by
    refine ⟨?_, h.2.modified⟩
    funext ts
    simp only [modified, h.1]

theorem nested_local (n : Nat) : Local (nested n .union) := by
  have hdeep : Local (called (nested 0 .function)) :=
    ⟨fun ts => .tooDeep, fun more more' ts => .error (.name "function" :: .openParen :: ts)⟩
  exact (local_congruence.nested ⟨rfl, .fail .tooDeep⟩ ⟨rfl, hdeep⟩ n).1.2

/-- The token that reading fails at decides that it does, whatever comes behind it. -/
theorem ofTokens_error_stable {levels : Nat} {front rest more : List Token} {t : Token}
    {cause : Cause} (h : ofTokens levels (front ++ t :: rest) = .error ⟨cause, t :: rest⟩)
    (hdeep : cause ≠ .tooDeep) :
    ofTokens levels (front ++ t :: more) = .error ⟨cause, t :: more⟩ := by
  have hagree := (nested_local levels).agree rest more (front ++ [t])
  simp only [List.append_assoc, List.singleton_append] at hagree
  have hnil (ts : List Token) : (front ++ t :: ts).isEmpty = false := by simp
  simp only [ofTokens, hnil, Bool.false_eq_true, if_false] at h ⊢
  rcases Except.bind_eq_error.mp h with hread | ⟨⟨a, left⟩, hread, hrest⟩
  · rw [hread] at hagree
    rw [hagree.error_eq hdeep]
    rfl
  · rw [hread] at hagree
    dsimp only at hrest
    split at hrest
    · cases hrest
    · cases hrest
      rw [hagree.ok_eq]
      rfl

end DocComment.TypeExpr
