import DocComment.Proofs.Except
import DocComment.Proofs.TypeExpr.Grammar
import DocComment.TypeExpr.Parser

/-!
What each reader of type expressions does when it succeeds, said once for all proofs about
reading. A reader made of others succeeds exactly when those succeed one after the other.
-/

namespace DocComment

namespace TypeExpr

variable {union function : Reader TypeExpr} {ts rest : List Token}

theorem head?_ne {t : Token} (h : ∀ tail, ts = t :: tail → False) : ts.head? ≠ some t := by
  intro e
  obtain ⟨tail, rfl⟩ := List.head?_eq_some_iff.mp e
  exact h tail rfl

theorem expect_eq_ok {token : Token} {cause : Cause} :
    expect token cause ts = .ok rest ↔ ts = token :: rest := by
  cases ts with
  | nil => simp [expect]
  | cons t ts =>
    by_cases ht : t = token
    · simp [expect, ht]
    · simp [expect, ht]

theorem recordKey_cons (t : Token) (ts : List Token) :
    recordKey (t :: ts) =
      (t.key?.elim (.error ⟨.malformedKey, t :: ts⟩) fun key => .ok (key, ts)) := by
  cases t with
  | name s =>
    simp only [recordKey, Token.key?]
    split <;> rfl
  | _ => rfl

theorem recordKey_eq_ok {key : String} :
    recordKey ts = .ok (key, rest) ↔ ∃ t, t.key? = some key ∧ ts = t :: rest := by
  cases ts with
  | nil => simp [recordKey]
  | cons t ts =>
    rw [recordKey_cons]
    cases hk : t.key? with
    | none =>
      simp only [Option.elim_none, reduceCtorEq, false_iff]
      rintro ⟨u, hu, e⟩
      rw [(List.cons.inj e).1, hu] at hk
      cases hk
    | some k =>
      simp only [Option.elim_some, Except.ok.injEq, Prod.mk.injEq]
      constructor
      · rintro ⟨rfl, rfl⟩
        exact ⟨t, hk, rfl⟩
      · rintro ⟨u, hu, e⟩
        obtain ⟨rfl, rfl⟩ := List.cons.inj e
        exact ⟨Option.some.inj (hk.symm.trans hu), rfl⟩

section Separated

variable {α : Type} {separator : Token} {item : List α → Reader α}

/-- A run of items with separators between them. Each item may depend on those before it. -/
inductive Separated (separator : Token) (item : List α → Reader α) :
    List α → List Token → List α → List Token → Prop where
  | last {seen ts x rest} : item seen ts = .ok (x, rest) →
      Separated separator item seen ts [x] rest
  | more {seen ts x mid xs rest} : item seen ts = .ok (x, separator :: mid) →
      Separated separator item (x :: seen) mid xs rest →
      Separated separator item seen ts (x :: xs) rest

theorem separatedFrom_last {seen : List α} {x : α} (bound : Nat)
    (h : item seen ts = .ok (x, rest)) (hr : rest.head? ≠ some separator) :
    separatedFrom separator item bound seen ts = .ok ([x], rest) := by
  cases bound with
  | zero => simp [separatedFrom, h, bind, Except.bind, pure, Except.pure]
  | succ bound =>
    cases rest with
    | nil => simp [separatedFrom, h, bind, Except.bind, pure, Except.pure]
    | cons t rest =>
      have ht : t ≠ separator := fun e => hr (by rw [e]; rfl)
      simp [separatedFrom, h, ht, bind, Except.bind, pure, Except.pure]

theorem separatedFrom_more {seen xs : List α} {x : α} {mid : List Token} {bound : Nat}
    (h : item seen ts = .ok (x, separator :: mid))
    (h' : separatedFrom separator item bound (x :: seen) mid = .ok (xs, rest)) :
    separatedFrom separator item (bound + 1) seen ts = .ok (x :: xs, rest) := by
  simp [separatedFrom, h, h', bind, Except.bind, pure, Except.pure]

theorem separatedFrom_error {seen : List α} {e : Failure} (bound : Nat)
    (h : item seen ts = .error e) : separatedFrom separator item bound seen ts = .error e := by
  cases bound <;> simp [separatedFrom, h, bind, Except.bind]

theorem Separated.of_separatedFrom {bound : Nat} {seen xs : List α}
    (h : separatedFrom separator item bound seen ts = .ok (xs, rest)) :
    Separated separator item seen ts xs rest := by
  induction bound generalizing seen ts xs with
  | zero =>
    obtain ⟨⟨x, r⟩, hx, h⟩ := Except.bind_eq_ok.mp h
    obtain ⟨rfl, rfl⟩ := Prod.mk.inj (Except.ok.inj h)
    exact .last hx
  | succ bound ih =>
    obtain ⟨⟨x, r⟩, hx, h⟩ := Except.bind_eq_ok.mp h
    cases r with
    | nil =>
      obtain ⟨rfl, rfl⟩ := Prod.mk.inj (Except.ok.inj h)
      exact .last hx
    | cons t r =>
      by_cases ht : t = separator
      · subst t
        simp only [if_true] at h
        obtain ⟨⟨ys, r'⟩, hy, h⟩ := Except.bind_eq_ok.mp h
        obtain ⟨rfl, rfl⟩ := Prod.mk.inj (Except.ok.inj h)
        exact .more hx (ih hy)
      · simp only [ht, if_false] at h
        obtain ⟨rfl, rfl⟩ := Prod.mk.inj (Except.ok.inj h)
        exact .last hx

theorem Separated.of_separated {xs : List α}
    (h : separated separator item ts = .ok (xs, rest)) :
    Separated separator item [] ts xs rest := .of_separatedFrom h

end Separated

theorem genericBody_eq_ok {head : String} {t : TypeExpr} :
    genericBody union head ts = .ok (t, rest) ↔
      ∃ params, separated .comma (fun _ => union) ts = .ok (params, .greater :: rest) ∧
        t = .generic head params := by
  simp only [genericBody, Except.bind_eq_ok, Prod.exists, expect_eq_ok, pure, Except.pure,
    Except.ok.injEq, Prod.mk.injEq]
  constructor
  · rintro ⟨params, _, h, _, rfl, rfl, rfl⟩
    exact ⟨params, h, rfl⟩
  · rintro ⟨params, h, rfl⟩
    exact ⟨params, _, h, _, rfl, rfl, rfl⟩

theorem groupBody_eq_ok {t : TypeExpr} :
    groupBody union ts = .ok (t, rest) ↔
      ∃ inner, union ts = .ok (inner, .closeParen :: rest) ∧ t = .group inner := by
  simp only [groupBody, Except.bind_eq_ok, Prod.exists, expect_eq_ok, pure, Except.pure,
    Except.ok.injEq, Prod.mk.injEq]
  constructor
  · rintro ⟨inner, _, h, _, rfl, rfl, rfl⟩
    exact ⟨inner, h, rfl⟩
  · rintro ⟨inner, h, rfl⟩
    exact ⟨inner, _, h, _, rfl, rfl, rfl⟩

/-- A part of its own after a colon, which is there exactly if the colon is. -/
theorem colon_eq_ok {reader : Reader TypeExpr} (build : Option TypeExpr → TypeExpr)
    {t : TypeExpr} :
    (match (motive := List Token → Except Failure (TypeExpr × List Token)) ts with
      | .colon :: tail => do
        let (v, ts) ← reader tail
        return (build (some v), ts)
      | ts => return (build none, ts)) = .ok (t, rest) ↔
      (∃ tail v, ts = .colon :: tail ∧ reader tail = .ok (v, rest) ∧ t = build (some v)) ∨
        ts.head? ≠ some .colon ∧ rest = ts ∧ t = build none := by
  rcases ts with _ | ⟨u, ts⟩
  · simp [pure, Except.pure, eq_comm, and_comm]
  · by_cases hu : u = .colon
    · subst u
      simp only [Except.bind_eq_ok, Prod.exists, pure, Except.pure, Except.ok.injEq,
        Prod.mk.injEq, List.head?_cons, ne_eq, not_true_eq_false, false_and, or_false]
      constructor
      · rintro ⟨v, _, h, rfl, rfl⟩
        exact ⟨ts, v, rfl, h, rfl⟩
      · rintro ⟨tail, v, e, h, rfl⟩
        obtain ⟨-, rfl⟩ := List.cons.inj e
        exact ⟨v, rest, h, rfl, rfl⟩
    · simp [hu, pure, Except.pure, eq_comm, and_comm]

/-- An entry has a new key, and a value exactly if a colon follows the key. -/
theorem recordEntry_eq_ok {seen : List TypeExpr} {f : TypeExpr} :
    recordEntry union seen ts = .ok (f, rest) ↔
      ∃ t key mid, t.key? = some key ∧ ts = t :: mid ∧ (∀ e ∈ seen, entryKey e ≠ some key) ∧
        ((∃ tail v, mid = .colon :: tail ∧ union tail = .ok (v, rest) ∧
            f = .field key (some v)) ∨
          mid.head? ≠ some .colon ∧ rest = mid ∧ f = .field key none) := by
  simp only [recordEntry, Except.bind_eq_ok, Prod.exists, recordKey_eq_ok,
    ← colon_eq_ok (TypeExpr.field _)]
  constructor
  · rintro ⟨key, mid, ⟨t, ht, rfl⟩, h⟩
    split at h
    · cases h
    · next hs => exact ⟨t, key, mid, ht, rfl, by simpa using hs, h⟩
  · rintro ⟨t, key, mid, ht, rfl, hs, h⟩
    have hs' : ¬ (seen.any fun e => entryKey e == some key) = true := by simpa using hs
    exact ⟨key, mid, ⟨t, ht, rfl⟩, by rw [if_neg hs']; exact h⟩

theorem recordBody_eq_ok {t : TypeExpr} :
    recordBody union ts = .ok (t, rest) ↔
      (ts = .closeBrace :: rest ∧ t = .record []) ∨
        ts.head? ≠ some .closeBrace ∧ ∃ fields,
          separated .comma (recordEntry union) ts = .ok (fields, .closeBrace :: rest) ∧
            t = .record fields := by
  by_cases hts : ts.head? = some .closeBrace
  · obtain ⟨tail, rfl⟩ := List.head?_eq_some_iff.mp hts
    simp [recordBody, eq_comm, and_comm]
  · have hne : ts ≠ .closeBrace :: rest := fun e => hts (by rw [e]; rfl)
    have hbody := recordBody.eq_2 union ts fun _ e => hts (by rw [e]; rfl)
    simp only [hbody, Except.bind_eq_ok, Prod.exists, expect_eq_ok, pure, Except.pure,
      Except.ok.injEq, Prod.mk.injEq, hne, false_and, false_or, ne_eq, hts, not_false_eq_true,
      true_and]
    constructor
    · rintro ⟨fields, _, h, _, rfl, rfl, rfl⟩
      exact ⟨fields, h, rfl⟩
    · rintro ⟨fields, h, rfl⟩
      exact ⟨fields, _, h, _, rfl, rfl, rfl⟩

/-- The forms of a primary, each by the tokens it starts with. -/
inductive PrimaryForm (union function : Reader TypeExpr) :
    List Token → TypeExpr → List Token → Prop where
  | name (s : String) (rest : List Token) :
      PrimaryForm union function (.name s :: rest) (.name s) rest
  | called {ts t rest} : function (.name "function" :: .openParen :: ts) = .ok (t, rest) →
      PrimaryForm union function (.name "function" :: .openParen :: ts) t rest
  | generic {ts params rest} (s : String) (mark : Token) (hm : mark = .less ∨ mark = .dotLess) :
      separated .comma (fun _ => union) ts = .ok (params, .greater :: rest) →
      PrimaryForm union function (.name s :: mark :: ts) (.generic s params) rest
  | star (rest : List Token) : PrimaryForm union function (.star :: rest) .all rest
  | unknown (rest : List Token) : PrimaryForm union function (.question :: rest) .unknown rest
  | string (s : String) (rest : List Token) :
      PrimaryForm union function (.string s :: rest) (.literal s) rest
  | number (s : String) (rest : List Token) :
      PrimaryForm union function (.number s :: rest) (.literal s) rest
  | emptyRecord (rest : List Token) :
      PrimaryForm union function (.openBrace :: .closeBrace :: rest) (.record []) rest
  | record {ts fields rest} :
      separated .comma (recordEntry union) ts = .ok (fields, .closeBrace :: rest) →
      PrimaryForm union function (.openBrace :: ts) (.record fields) rest
  | group {ts inner rest} : union ts = .ok (inner, .closeParen :: rest) →
      PrimaryForm union function (.openParen :: ts) (.group inner) rest

theorem PrimaryForm.of_primary {t : TypeExpr} (h : primary union function ts = .ok (t, rest)) :
    PrimaryForm union function ts t rest := by
  unfold primary at h
  split at h
  · next s ts =>
    split at h
    · next tail =>
      split at h
      · next hs =>
        subst s
        exact .called h
      · obtain ⟨rfl, rfl⟩ := Prod.mk.inj (Except.ok.inj h)
        exact .name _ _
    · obtain ⟨params, hp, rfl⟩ := genericBody_eq_ok.mp h
      exact .generic _ _ (.inl rfl) hp
    · obtain ⟨params, hp, rfl⟩ := genericBody_eq_ok.mp h
      exact .generic _ _ (.inr rfl) hp
    · obtain ⟨rfl, rfl⟩ := Prod.mk.inj (Except.ok.inj h)
      exact .name _ _
  · obtain ⟨rfl, rfl⟩ := Prod.mk.inj (Except.ok.inj h)
    exact .star _
  · obtain ⟨rfl, rfl⟩ := Prod.mk.inj (Except.ok.inj h)
    exact .unknown _
  · obtain ⟨rfl, rfl⟩ := Prod.mk.inj (Except.ok.inj h)
    exact .string _ _
  · obtain ⟨rfl, rfl⟩ := Prod.mk.inj (Except.ok.inj h)
    exact .number _ _
  · rcases recordBody_eq_ok.mp h with ⟨rfl, rfl⟩ | ⟨-, fields, hf, rfl⟩
    · exact .emptyRecord _
    · exact .record hf
  · obtain ⟨inner, hi, rfl⟩ := groupBody_eq_ok.mp h
    exact .group hi
  · cases h

theorem suffixed_eq_ok {t : TypeExpr} :
    suffixed union function ts = .ok (t, rest) ↔
      ∃ p mid, primary union function ts = .ok (p, mid) ∧
        ∃ q mid', brackets p mid = .ok (q, mid') ∧ marks q mid' = (t, rest) := by
  simp only [suffixed, Except.bind_eq_ok, Prod.exists, pure, Except.pure, Except.ok.injEq]

def arrayOf (k : Nat) (t : TypeExpr) : TypeExpr :=
  match k with
  | 0 => t
  | k + 1 => arrayOf k (.generic "Array" [t])

theorem brackets_eq_ok {p t : TypeExpr} :
    brackets p ts = .ok (t, rest) ↔
      ∃ k, ts = arrays k ++ rest ∧ t = arrayOf k p ∧ rest.head? ≠ some .openBracket := by
  fun_induction brackets p ts with
  | case1 p tail ih =>
    rw [ih]
    constructor
    · rintro ⟨k, rfl, rfl, hr⟩
      exact ⟨k + 1, rfl, rfl, hr⟩
    · rintro ⟨_ | k, e, rfl, hr⟩
      · subst e
        exact absurd rfl hr
      · exact ⟨k, (List.cons.inj (List.cons.inj e).2).2, rfl, hr⟩
  | case2 p tail hne =>
    constructor
    · intro h
      cases h
    · rintro ⟨_ | k, e, -, hr⟩
      · subst e
        exact absurd rfl hr
      · exact absurd (List.cons.inj e).2 (hne _)
  | case3 p ts _ hne =>
    have hh : ts.head? ≠ some .openBracket := head?_ne hne
    constructor
    · intro h
      obtain ⟨rfl, rfl⟩ := Prod.mk.inj (Except.ok.inj h)
      exact ⟨0, rfl, rfl, hh⟩
    · rintro ⟨_ | k, rfl, rfl, -⟩
      · rfl
      · exact absurd rfl hh

theorem marks_eq {p t : TypeExpr} (h : marks p ts = (t, rest)) :
    ∃ ms, (∀ m ∈ ms, m = .question ∨ m = .bang) ∧ ts = ms ++ rest ∧
      rest.head? ≠ some .question ∧ rest.head? ≠ some .bang := by
  fun_induction marks p ts with
  | case1 p tail ih =>
    obtain ⟨ms, hm, rfl, hr⟩ := ih h
    exact ⟨.question :: ms, by simpa using hm, rfl, hr⟩
  | case2 p tail ih =>
    obtain ⟨ms, hm, rfl, hr⟩ := ih h
    exact ⟨.bang :: ms, by simpa using hm, rfl, hr⟩
  | case3 p ts hq hb =>
    obtain ⟨rfl, rfl⟩ := Prod.mk.inj h
    exact ⟨[], by simp, rfl, head?_ne hq, head?_ne hb⟩

theorem brackets_of_head {p : TypeExpr} (h : ts.head? ≠ some .openBracket) :
    brackets p ts = .ok (p, ts) :=
  brackets_eq_ok.mpr ⟨0, rfl, rfl, h⟩

theorem marks_of_head {p : TypeExpr} (hq : ts.head? ≠ some .question)
    (hb : ts.head? ≠ some .bang) : marks p ts = (p, ts) := by
  unfold marks
  split
  · exact absurd rfl hq
  · exact absurd rfl hb
  · rfl

theorem endsOperand_iff : endsOperand ts = true ↔ ∀ t ∈ ts.head?, t ∈ terminators := by
  cases ts with
  | nil => simp [endsOperand]
  | cons t ts => simp [endsOperand, terminators]

/-- A question mark without an operand takes no brackets and no marks. -/
theorem suffixed_bare (h : endsOperand ts = true) :
    suffixed union function (.question :: ts) = .ok (.unknown, ts) := by
  have ht : ∀ t ∈ ts.head?, t ∈ terminators := endsOperand_iff.mp h
  refine suffixed_eq_ok.mpr ⟨.unknown, ts, rfl, .unknown, ts, ?_, ?_⟩
  · refine brackets_eq_ok.mpr ⟨0, rfl, rfl, fun e => ?_⟩
    exact absurd (ht _ e) (by decide)
  · exact marks_of_head (fun e => absurd (ht _ e) (by decide))
      (fun e => absurd (ht _ e) (by decide))

theorem modifiers_bare (h : endsOperand ts = true) :
    modifiers (.question :: ts) = ([], .question :: ts) := by
  simp [modifiers, h]

theorem modifiers_question (h : endsOperand ts = false) :
    modifiers (.question :: ts) = (.nullable :: (modifiers ts).1, (modifiers ts).2) := by
  simp [modifiers, h]

theorem modifiers_operand {t : Token} (h : t ≠ .question ∧ t ≠ .bang ∧ t ≠ .ellipsis) :
    modifiers (t :: ts) = ([], t :: ts) := by
  unfold modifiers
  split
  · exact absurd rfl h.1
  · exact absurd rfl h.2.1
  · exact absurd rfl h.2.2
  · rfl

/-- The first token is none of the modifiers, or a question mark without an operand, or a
modifier before the others. -/
theorem modifiers_cons (t : Token) (ts : List Token) :
    (t ≠ .question ∧ t ≠ .bang ∧ t ≠ .ellipsis) ∨ (t = .question ∧ endsOperand ts = true) ∨
      (t = .question ∨ t = .bang ∨ t = .ellipsis) ∧
        ∃ m, (m = .variadic → t = .ellipsis) ∧
          modifiers (t :: ts) = (m :: (modifiers ts).1, (modifiers ts).2) := by
  by_cases h : t ≠ .question ∧ t ≠ .bang ∧ t ≠ .ellipsis
  · exact .inl h
  · have ht : t = .question ∨ t = .bang ∨ t = .ellipsis := by grind
    refine .inr ?_
    rcases ht with rfl | rfl | rfl
    · cases he : endsOperand ts with
      | true => exact .inl ⟨rfl, rfl⟩
      | false => exact .inr ⟨.inl rfl, .nullable, by simp, modifiers_question he⟩
    · exact .inr ⟨.inr (.inl rfl), .nonNullable, by simp, rfl⟩
    · exact .inr ⟨.inr (.inr rfl), .variadic, fun _ => rfl, rfl⟩

/-- Modifiers stop at a question mark without an operand, or at something else altogether. -/
theorem modifiers_stop (ts : List Token) :
    (∃ tail, (modifiers ts).2 = .question :: tail ∧ endsOperand tail = true) ∨
      ∀ t ∈ (modifiers ts).2.head?, t ≠ .question ∧ t ≠ .bang ∧ t ≠ .ellipsis := by
  induction ts with
  | nil => exact .inr (by simp [modifiers])
  | cons t ts ih =>
    rcases modifiers_cons t ts with h | ⟨rfl, he⟩ | ⟨-, m, -, hm⟩
    · rw [modifiers_operand h]
      exact .inr (by simpa using h)
    · rw [modifiers_bare he]
      exact .inl ⟨ts, rfl, he⟩
    · rw [hm]
      exact ih

theorem modifiers_suffix (ts : List Token) : (modifiers ts).2 <:+ ts := by
  induction ts with
  | nil => exact List.suffix_rfl
  | cons t ts ih =>
    unfold modifiers
    split
    · split
      · exact List.suffix_rfl
      · exact ih.trans (List.suffix_cons _ _)
    · exact ih.trans (List.suffix_cons _ _)
    · exact ih.trans (List.suffix_cons _ _)
    · exact List.suffix_rfl

theorem modified_eq_ok {t : TypeExpr} :
    modified union function ts = .ok (t, rest) ↔
      ∃ operand, suffixed union function (modifiers ts).2 = .ok (operand, rest) ∧
        t = (modifiers ts).1.foldr Modifier.apply operand := by
  simp only [modified, Except.bind_eq_ok, Prod.exists, pure, Except.pure, Except.ok.injEq,
    Prod.mk.injEq]
  constructor
  · rintro ⟨operand, _, h, rfl, rfl⟩
    exact ⟨operand, h, rfl⟩
  · rintro ⟨operand, h, rfl⟩
    exact ⟨operand, _, h, rfl, rfl⟩

/-- Where no modifier stands, only the operand is read. -/
theorem modified_unmodified (hm : modifiers ts = ([], ts)) :
    modified union function ts = suffixed union function ts := by
  simp only [modified, hm, List.foldr_nil]
  cases suffixed union function ts <;> rfl

theorem modified_of_suffixed {t : TypeExpr} (hm : modifiers ts = ([], ts))
    (h : suffixed union function ts = .ok (t, rest)) :
    modified union function ts = .ok (t, rest) :=
  (modified_unmodified hm).trans h

theorem alternative_eq_ok {t : TypeExpr} :
    alternative union function ts = .ok (t, rest) ↔
      (∃ inner, modified union function ts = .ok (inner, .equals :: rest) ∧
          t = .optional inner) ∨
        modified union function ts = .ok (t, rest) ∧ rest.head? ≠ some .equals := by
  simp only [alternative, Except.bind_eq_ok, Prod.exists]
  constructor
  · rintro ⟨inner, mid, h, hm⟩
    split at hm
    · obtain ⟨rfl, rfl⟩ := Prod.mk.inj (Except.ok.inj hm)
      exact .inl ⟨inner, h, rfl⟩
    · next hne =>
      obtain ⟨rfl, rfl⟩ := Prod.mk.inj (Except.ok.inj hm)
      exact .inr ⟨h, head?_ne hne⟩
  · rintro (⟨inner, h, rfl⟩ | ⟨h, hne⟩)
    · exact ⟨inner, _, h, rfl⟩
    · refine ⟨t, rest, h, ?_⟩
      split
      · exact absurd rfl hne
      · rfl

/-- A name and a colon label a parameter. Anything else is a parameter without a label. -/
theorem paramBody_eq_ok {t : TypeExpr} :
    paramBody union function ts = .ok (t, rest) ↔
      (∃ s tail inner, ts = .name s :: .colon :: tail ∧
          alternative union function tail = .ok (inner, rest) ∧ t = .parameter s inner) ∨
        (∀ s tail, ts ≠ .name s :: .colon :: tail) ∧
          alternative union function ts = .ok (t, rest) := by
  unfold paramBody
  split
  · next s tail =>
    simp only [Except.bind_eq_ok, Prod.exists, pure, Except.pure, Except.ok.injEq, Prod.mk.injEq]
    constructor
    · rintro ⟨inner, _, h, rfl, rfl⟩
      exact .inl ⟨s, tail, inner, rfl, h, rfl⟩
    · rintro (⟨s, tail, inner, e, h, rfl⟩ | ⟨h, -⟩)
      · obtain ⟨rfl, rfl⟩ : _ ∧ _ := by simpa using e
        exact ⟨inner, rest, h, rfl, rfl⟩
      · exact absurd rfl (h s tail)
  · next hne =>
    constructor
    · intro h
      exact .inr ⟨fun s tail e => hne s tail e, h⟩
    · rintro (⟨s, tail, _, e, -⟩ | ⟨-, h⟩)
      · exact absurd e (hne s tail)
      · exact h

/-- How the first tokens of an argument decide what it is. -/
theorem argument_eq_ok {a : Argument} :
    argument union function ts = .ok (a, rest) ↔
      (∃ tail t, ts = .ellipsis :: tail ∧ paramBody union function tail = .ok (t, rest) ∧
          a = .param (.variadic t)) ∨
        (∃ tail t, ts = .name "this" :: .colon :: tail ∧ union tail = .ok (t, rest) ∧
          a = .receiver t) ∨
        (∃ tail t, ts = .name "new" :: .colon :: tail ∧ union tail = .ok (t, rest) ∧
          a = .built t) ∨
        ts.head? ≠ some .ellipsis ∧
          (∀ s tail, ts = .name s :: .colon :: tail → s ≠ "this" ∧ s ≠ "new") ∧
          ∃ t, paramBody union function ts = .ok (t, rest) ∧ a = .param t := by
  unfold argument
  constructor
  · intro h
    split at h
    · next tail =>
      obtain ⟨⟨t, r⟩, ht, h⟩ := Except.bind_eq_ok.mp h
      obtain ⟨rfl, rfl⟩ := Prod.mk.inj (Except.ok.inj h)
      exact .inl ⟨tail, t, rfl, ht, rfl⟩
    · next s tail =>
      split at h
      · next hs =>
        obtain ⟨⟨t, r⟩, ht, h⟩ := Except.bind_eq_ok.mp h
        obtain ⟨rfl, rfl⟩ := Prod.mk.inj (Except.ok.inj h)
        exact .inr (.inl ⟨tail, t, by rw [hs], ht, rfl⟩)
      · next hthis =>
        split at h
        · next hs =>
          obtain ⟨⟨t, r⟩, ht, h⟩ := Except.bind_eq_ok.mp h
          obtain ⟨rfl, rfl⟩ := Prod.mk.inj (Except.ok.inj h)
          exact .inr (.inr (.inl ⟨tail, t, by rw [hs], ht, rfl⟩))
        · next hnew =>
          obtain ⟨⟨t, r⟩, ht, h⟩ := Except.bind_eq_ok.mp h
          obtain ⟨rfl, rfl⟩ := Prod.mk.inj (Except.ok.inj h)
          refine .inr (.inr (.inr ⟨by simp, ?_, t, ht, rfl⟩))
          rintro _ _ e
          obtain ⟨rfl, rfl⟩ : _ ∧ _ := by simpa using e
          exact ⟨hthis, hnew⟩
    · next he hn =>
      obtain ⟨⟨t, r⟩, ht, h⟩ := Except.bind_eq_ok.mp h
      obtain ⟨rfl, rfl⟩ := Prod.mk.inj (Except.ok.inj h)
      exact .inr (.inr (.inr ⟨head?_ne he, fun s tail e => absurd e (hn s tail), t, ht, rfl⟩))
  · rintro (⟨tail, t, rfl, ht, rfl⟩ | ⟨tail, t, rfl, ht, rfl⟩ | ⟨tail, t, rfl, ht, rfl⟩ |
      ⟨he, hn, t, ht, rfl⟩)
    · exact Except.bind_eq_ok.mpr ⟨_, ht, rfl⟩
    · exact Except.bind_eq_ok.mpr ⟨_, ht, rfl⟩
    · exact Except.bind_eq_ok.mpr ⟨_, ht, rfl⟩
    · split
      · exact absurd rfl he
      · next s tail =>
        obtain ⟨hthis, hnew⟩ := hn s tail rfl
        rw [if_neg hthis, if_neg hnew]
        exact Except.bind_eq_ok.mpr ⟨_, ht, rfl⟩
      · exact Except.bind_eq_ok.mpr ⟨_, ht, rfl⟩

theorem arguments_eq_ok {args : List Argument} :
    arguments union function ts = .ok (args, rest) ↔
      (ts = rest ∧ rest.head? = some .closeParen ∧ args = []) ∨
        ts.head? ≠ some .closeParen ∧
          separated .comma (fun _ => argument union function) ts = .ok (args, rest) := by
  unfold arguments
  split
  · next tail =>
    constructor
    · intro h
      obtain ⟨rfl, rfl⟩ := Prod.mk.inj (Except.ok.inj h)
      exact .inl ⟨rfl, rfl, rfl⟩
    · rintro (⟨rfl, -, rfl⟩ | ⟨h, -⟩)
      · rfl
      · exact absurd rfl h
  · next hne =>
    have hh : ts.head? ≠ some .closeParen := head?_ne hne
    constructor
    · exact fun h => .inr ⟨hh, h⟩
    · rintro (⟨rfl, h, -⟩ | ⟨-, h⟩)
      · exact absurd h hh
      · exact h

theorem signature_eq_ok {t : TypeExpr} :
    signature union function ts = .ok (t, rest) ↔
      ∃ args mid, arguments union function (ts.drop 2) = .ok (args, .closeParen :: mid) ∧
        ((∃ tail r, mid = .colon :: tail ∧ modified union function tail = .ok (r, rest) ∧
            t = ofArguments args (some r)) ∨
          mid.head? ≠ some .colon ∧ rest = mid ∧ t = ofArguments args none) := by
  simp only [signature, Except.bind_eq_ok, Prod.exists, expect_eq_ok,
    ← colon_eq_ok (ofArguments _)]
  constructor
  · rintro ⟨args, _, h, mid, rfl, h'⟩
    exact ⟨args, mid, h, h'⟩
  · rintro ⟨args, mid, h, h'⟩
    exact ⟨args, _, h, mid, rfl, h'⟩

theorem nested_union_eq_ok {level : Nat} {t : TypeExpr} :
    nested (level + 1) .union ts = .ok (t, rest) ↔
      ∃ es, separated .pipe
        (fun _ => alternative (nested level .union) (nested level .function)) ts =
          .ok (es, rest) ∧ t = unionOf es := by
  simp only [nested, Except.bind_eq_ok, Prod.exists, pure, Except.pure, Except.ok.injEq,
    Prod.mk.injEq]
  constructor
  · rintro ⟨es, _, h, rfl, rfl⟩
    exact ⟨es, h, rfl⟩
  · rintro ⟨es, h, rfl⟩
    exact ⟨es, rest, h, rfl, rfl⟩

/-- A union of one alternative is that alternative. -/
theorem nested_union_of_modified {level : Nat} {t : TypeExpr}
    (h : modified (nested level .union) (nested level .function) ts = .ok (t, rest))
    (he : rest.head? ≠ some .equals) (hp : rest.head? ≠ some .pipe) :
    nested (level + 1) .union ts = .ok (t, rest) := by
  have halternative := alternative_eq_ok.mpr (.inr ⟨h, he⟩)
  exact nested_union_eq_ok.mpr ⟨[t], separatedFrom_last _ halternative hp, rfl⟩

theorem primary_name {s : String} (hp : ts.head? ≠ some .openParen)
    (hl : ts.head? ≠ some .less) (hd : ts.head? ≠ some .dotLess) :
    primary union function (.name s :: ts) = .ok (.name s, ts) := by
  simp only [primary]
  split
  · exact absurd rfl hp
  · exact absurd rfl hl
  · exact absurd rfl hd
  · rfl

/-- No operand starts with what ends one. -/
theorem modified_endsOperand {t : TypeExpr} (h : modified union function ts = .ok (t, rest)) :
    endsOperand ts = false := by
  cases ts with
  | nil => cases h
  | cons u ts =>
    cases u with
    | pipe | comma | closeParen | closeBrace | closeBracket | greater | equals => cases h
    | _ => rfl

theorem modified_modifier {m : Modifier} {u : Token}
    (hm : modifiers (u :: ts) = (m :: (modifiers ts).1, (modifiers ts).2)) :
    modified union function (u :: ts) =
      (modified union function ts).map fun x => (m.apply x.1, x.2) := by
  simp only [modified, hm]
  cases suffixed union function (modifiers ts).2 <;> rfl

theorem ofTokens_eq_ok {levels : Nat} {t : TypeExpr} (hts : ts ≠ []) :
    ofTokens levels ts = .ok t ↔ nested levels .union ts = .ok (t, []) := by
  simp only [ofTokens, List.isEmpty_iff, hts, if_false, Except.bind_eq_ok, Prod.exists]
  constructor
  · rintro ⟨u, rest, h, hr⟩
    split at hr
    · next he => rw [h, he, Except.ok.inj hr]
    · cases hr
  · intro h
    exact ⟨t, [], h, rfl⟩

end TypeExpr

end DocComment
