import DocComment.Proofs.TypeExpr.Soundness

/-!
Reading accepts all of the grammar. A reader never looks further than one token, so a
derivation can only be followed if what comes after it cannot be taken for a part of it.
Brackets and marks are the exception: the result of a function takes all that it can, also
those that a derivation leaves to the function, so reading may stand ahead of the derivation.
-/

namespace DocComment.TypeExpr

/-- Whatever comes next is one of the allowed tokens, if anything comes at all. -/
def Follows (allowed rest : List Token) : Prop := ∀ t ∈ rest.head?, t ∈ allowed

/-- What ends a union. -/
def closers : List Token := [.comma, .closeParen, .closeBrace, .greater]

theorem Follows.not_head {allowed rest : List Token} {t : Token} (h : Follows allowed rest)
    (ht : t ∉ allowed) : rest.head? ≠ some t :=
  fun e => ht (h t e)

theorem Follows.cons {allowed rest : List Token} {t : Token} (ht : t ∈ allowed) :
    Follows allowed (t :: rest) := by
  simpa [Follows] using ht

theorem Follows.mono {allowed more rest : List Token} (h : Follows allowed rest)
    (hs : allowed ⊆ more) : Follows more rest :=
  fun t ht => hs (h t ht)

/-- Takes off all brackets and marks, however they are mixed. -/
def dropSuffixes : List Token → List Token
  | .openBracket :: .closeBracket :: rest => dropSuffixes rest
  | .question :: rest => dropSuffixes rest
  | .bang :: rest => dropSuffixes rest
  | rest => rest

/-- Once all brackets and marks are off, an operand may end. -/
def Settled (rest : List Token) : Prop := Follows terminators (dropSuffixes rest)

/-- Reading stands at the first list, and the derivation at the second. -/
inductive Ahead : List Token → List Token → Prop where
  | refl (rest) : Ahead rest rest
  | brackets {r rest} : Ahead r rest → Ahead r (.openBracket :: .closeBracket :: rest)
  | question {r rest} : Ahead r rest → Ahead r (.question :: rest)
  | bang {r rest} : Ahead r rest → Ahead r (.bang :: rest)

theorem Ahead.dropSuffixes {r rest : List Token} (h : Ahead r rest) :
    dropSuffixes r = dropSuffixes rest := by
  induction h with
  | refl => rfl
  | brackets _ ih | question _ ih | bang _ ih => simpa only [TypeExpr.dropSuffixes] using ih

theorem Ahead.settled {r rest : List Token} (h : Ahead r rest) (hr : Settled rest) :
    Settled r := by
  rwa [Settled, h.dropSuffixes]

theorem Ahead.trans {a b c : List Token} (h : Ahead a b) (h' : Ahead b c) : Ahead a c := by
  induction h' with
  | refl => exact h
  | brackets _ ih => exact .brackets ih
  | question _ ih => exact .question ih
  | bang _ ih => exact .bang ih

/-- What ends an operand is no bracket and no mark, so reading cannot have gone past it. -/
theorem Ahead.eq {r rest : List Token} (h : Ahead r rest) (hr : Follows terminators rest) :
    r = rest := by
  cases h with
  | refl => rfl
  | brackets => exact absurd rfl (hr.not_head (by decide))
  | question => exact absurd rfl (hr.not_head (by decide))
  | bang => exact absurd rfl (hr.not_head (by decide))

theorem Follows.settled {rest : List Token} (h : Follows terminators rest) : Settled rest := by
  unfold Settled dropSuffixes
  split
  · exact absurd rfl (h.not_head (by decide))
  · exact absurd rfl (h.not_head (by decide))
  · exact absurd rfl (h.not_head (by decide))
  · exact h

theorem Settled.follows {rest : List Token} (h : Settled rest) :
    Follows (.openBracket :: .question :: .bang :: terminators) rest := by
  unfold Settled dropSuffixes at h
  split at h
  · exact .cons (by decide)
  · exact .cons (by decide)
  · exact .cons (by decide)
  · exact h.mono (by decide)

theorem settled_marks {ms rest : List Token} (hm : ∀ m ∈ ms, m = .question ∨ m = .bang)
    (h : Settled rest) : Settled (ms ++ rest) := by
  induction ms with
  | nil => exact h
  | cons m ms ih =>
    have ih := ih fun m hms => hm m (List.mem_cons_of_mem _ hms)
    rcases hm m List.mem_cons_self with rfl | rfl
    · exact ih
    · exact ih

theorem settled_arrays {rest : List Token} (k : Nat) (h : Settled rest) :
    Settled (arrays k ++ rest) := by
  induction k with
  | zero => exact h
  | succ k ih => exact ih

theorem brackets_arrays (p : TypeExpr) (k : Nat) (ts : List Token) :
    brackets p (arrays k ++ ts) = brackets (arrayOf k p) ts := by
  induction k generalizing p with
  | zero => rfl
  | succ k ih => exact ih _

theorem marks_append {ms : List Token} (hm : ∀ m ∈ ms, m = .question ∨ m = .bang)
    (p : TypeExpr) (ts : List Token) : ∃ q, marks p (ms ++ ts) = marks q ts := by
  induction ms generalizing p with
  | nil => exact ⟨p, rfl⟩
  | cons m ms ih =>
    have ih := ih fun m hms => hm m (List.mem_cons_of_mem _ hms)
    rcases hm m List.mem_cons_self with rfl | rfl
    · exact ih _
    · exact ih _

theorem marks_ahead (p : TypeExpr) (ts : List Token) : Ahead (marks p ts).2 ts := by
  fun_induction marks p ts with
  | case1 p tail ih => exact .question ih
  | case2 p tail ih => exact .bang ih
  | case3 => exact .refl _

/-- No bracket is left open where the end of an operand is in sight. -/
theorem brackets_ahead (p : TypeExpr) {ts : List Token} (h : Settled ts) :
    ∃ q r, brackets p ts = .ok (q, r) ∧ Ahead r ts := by
  fun_induction brackets p ts with
  | case1 p tail ih =>
    obtain ⟨q, r, hb, ha⟩ := ih h
    exact ⟨q, r, hb, .brackets ha⟩
  | case2 p tail hne =>
    have e : dropSuffixes (.openBracket :: tail) = .openBracket :: tail := by
      unfold dropSuffixes
      split
      · next tail' e => exact absurd (List.cons.inj e).2 (hne tail')
      · next e => cases e
      · next e => cases e
      · rfl
    rw [Settled, e] at h
    exact absurd rfl (h.not_head (by decide))
  | case3 p ts => exact ⟨p, ts, rfl, .refl ts⟩

/-- Reading takes at least the brackets and marks that a derivation takes. -/
theorem suffixes_ahead (p : TypeExpr) (k : Nat) {ms rest : List Token}
    (hm : ∀ m ∈ ms, m = .question ∨ m = .bang) (hr : Settled rest) :
    ∃ q r, brackets p (arrays k ++ (ms ++ rest)) = .ok (q, r) ∧ Ahead (marks q r).2 rest := by
  rw [brackets_arrays]
  cases ms with
  | nil =>
    obtain ⟨q, r, hb, ha⟩ := brackets_ahead (arrayOf k p) hr
    exact ⟨q, r, hb, (marks_ahead q r).trans ha⟩
  | cons m ms =>
    have hne : (m :: ms ++ rest).head? ≠ some .openBracket := by
      rcases hm m List.mem_cons_self with rfl | rfl <;> simp
    refine ⟨_, _, brackets_of_head hne, ?_⟩
    obtain ⟨q, hq⟩ := marks_append hm (arrayOf k p) rest
    rw [hq]
    exact marks_ahead q rest

/-- The same where reading has gone ahead already: the result of a function may have taken
some of the brackets and marks that the derivation only takes now. -/
theorem suffixes_of_ahead {r w : List Token} (h : Ahead r w) (p : TypeExpr) (k : Nat)
    {ms rest : List Token} (hm : ∀ m ∈ ms, m = .question ∨ m = .bang) (hr : Settled rest)
    (e : w = arrays k ++ (ms ++ rest)) :
    ∃ q r', brackets p r = .ok (q, r') ∧ Ahead (marks q r').2 rest := by
  have beyond {v : List Token} (hv : Ahead r v) (ev : v = rest) :
      ∃ q r', brackets p r = .ok (q, r') ∧ Ahead (marks q r').2 rest := by
    subst ev
    obtain ⟨q, r', hb, ha⟩ := brackets_ahead p (hv.settled hr)
    exact ⟨q, r', hb, (marks_ahead q r').trans (ha.trans hv)⟩
  induction h generalizing k ms with
  | refl =>
    subst e
    exact suffixes_ahead p k hm hr
  | brackets h ih =>
    cases k with
    | succ k => exact ih k hm (List.cons.inj (List.cons.inj e).2).2
    | zero =>
      cases ms with
      | nil => exact beyond (.brackets h) e
      | cons m ms =>
        obtain rfl : _ = m := (List.cons.inj e).1
        exact absurd (hm _ List.mem_cons_self) (by decide)
  | question h ih | bang h ih =>
    cases k with
    | succ k => cases (List.cons.inj e).1
    | zero =>
      cases ms with
      | nil => exact beyond (by constructor; exact h) e
      | cons m ms =>
        exact ih 0 (fun m hms => hm m (List.mem_cons_of_mem _ hms)) (List.cons.inj e).2

/-- What reading does with tokens that a symbol derives, if what follows cannot be taken for
a part of them. Lists of items are read with any bound that the tokens do not exceed. -/
def Accepted (n : Nat) (ts rest : List Token) : Symbol → Prop
  | .union => Follows closers rest → ∃ t, nested n .union ts = .ok (t, rest)
  | .alternatives => Follows closers rest → ∀ bound, ts.length ≤ bound → ∀ seen, ∃ es,
      separatedFrom .pipe (fun _ => alternative (nested n .union) (nested n .function))
        bound seen ts = .ok (es, rest)
  | .alternative => Follows (.pipe :: closers) rest →
      ∃ t, alternative (nested n .union) (nested n .function) ts = .ok (t, rest)
  | .modified | .suffixed => Settled rest → ∃ t r,
      modified (nested n .union) (nested n .function) ts = .ok (t, r) ∧ Ahead r rest
  | .primary => Settled rest →
      (∀ t ∈ ts.head?, t ≠ .question ∧ t ≠ .bang ∧ t ≠ .ellipsis) ∧
      ∃ t r, primary (nested n .union) (nested n .function) ts = .ok (t, r) ∧ Ahead r rest
  | .types => Follows [.greater] rest → ∀ bound, ts.length ≤ bound → ∀ seen, ∃ params,
      separatedFrom .comma (fun _ => nested n .union) bound seen ts = .ok (params, rest)
  | .entries keys => Follows [.closeBrace] rest → keys.Nodup →
      ts.head? ≠ some .closeBrace ∧ ∀ bound, ts.length ≤ bound → ∀ seen,
        (∀ key ∈ keys, ∀ e ∈ seen, entryKey e ≠ some key) → ∃ fields,
          separatedFrom .comma (recordEntry (nested n .union)) bound seen ts = .ok (fields, rest)
  | .value => Follows closers rest →
      (∃ tail v, ts = .colon :: tail ∧ nested n .union tail = .ok (v, rest)) ∨
        ts.head? ≠ some .colon ∧ rest = ts
  | .function => Settled rest →
      (∃ tail, ts = .name "function" :: .openParen :: tail) ∧
      ∃ t r, nested n .function ts = .ok (t, r) ∧ Ahead r rest
  | .arguments => Follows [.closeParen] rest → ts.head? ≠ some .closeParen ∧
      ∀ bound, ts.length ≤ bound → ∀ seen, ∃ args,
        separatedFrom .comma (fun _ => argument (nested n .union) (nested n .function))
          bound seen ts = .ok (args, rest)
  | .argument => Follows closers rest →
      ∃ a, argument (nested n .union) (nested n .function) ts = .ok (a, rest)
  | .result => Settled rest →
      (∃ tail t r, ts = .colon :: tail ∧
        modified (nested n .union) (nested n .function) tail = .ok (t, r) ∧ Ahead r rest) ∨
        ts.head? ≠ some .colon ∧ rest = ts

section

variable {n : Nat} {ts mid rest : List Token}

theorem accepted_required (h : Accepted n ts rest .modified) : Accepted n ts rest .alternative := by
  intro hr
  have hf : Follows terminators rest := hr.mono (by decide)
  obtain ⟨t, r, hm, ha⟩ := h hf.settled
  rw [ha.eq hf] at hm
  exact ⟨t, alternative_eq_ok.mpr (.inr ⟨hm, hr.not_head (by decide)⟩)⟩

theorem accepted_optional (h : Accepted n ts (.equals :: rest) .modified) :
    Accepted n ts rest .alternative := by
  intro _
  have hf : Follows terminators (.equals :: rest) := .cons (by decide)
  obtain ⟨t, r, hm, ha⟩ := h hf.settled
  rw [ha.eq hf] at hm
  exact ⟨.optional t, alternative_eq_ok.mpr (.inl ⟨t, hm, rfl⟩)⟩

theorem accepted_modifier {t : Token} (ht : t = .question ∨ t = .bang ∨ t = .ellipsis)
    (h : Accepted n ts rest .modified) : Accepted n (t :: ts) rest .modified := by
  intro hr
  obtain ⟨u, r, hm, ha⟩ := h hr
  rcases modifiers_cons t ts with ho | ⟨-, he⟩ | ⟨-, m, -, hread⟩
  · rcases ht with rfl | rfl | rfl
    · exact absurd rfl ho.1
    · exact absurd rfl ho.2.1
    · exact absurd rfl ho.2.2
  · rw [modified_endsOperand hm] at he
    cases he
  · refine ⟨m.apply u, r, ?_, ha⟩
    rw [modified_modifier hread, hm]
    rfl

theorem accepted_suffixed {k : Nat} {ms : List Token} (hms : ∀ m ∈ ms, m = .question ∨ m = .bang)
    (h : Accepted n ts (arrays k ++ (ms ++ rest)) .primary) : Accepted n ts rest .suffixed := by
  intro hr
  obtain ⟨hh, p, r, hp, ha⟩ := h (settled_arrays k (settled_marks hms hr))
  obtain ⟨q, r', hb, ha'⟩ := suffixes_of_ahead ha p k hms hr rfl
  have hm : modifiers ts = ([], ts) := by
    cases ts with
    | nil => rfl
    | cons t ts => exact modifiers_operand (hh t rfl)
  have hs := suffixed_eq_ok.mpr ⟨p, r, hp, q, r', hb, rfl⟩
  exact ⟨(marks q r').1, (marks q r').2, modified_of_suffixed hm hs, ha'⟩

theorem accepted_bare (h : ∀ t ∈ rest.head?, t ∈ terminators) :
    Accepted n (.question :: rest) rest .suffixed := by
  intro _
  have he := endsOperand_iff.mpr h
  exact ⟨.unknown, rest, modified_of_suffixed (modifiers_bare he) (suffixed_bare he), .refl rest⟩

theorem accepted_name (s : String) : Accepted n (.name s :: rest) rest .primary := by
  intro hr
  have hf := hr.follows
  refine ⟨by simp, .name s, rest, ?_, .refl rest⟩
  exact primary_name (hf.not_head (by decide)) (hf.not_head (by decide)) (hf.not_head (by decide))

theorem accepted_generic {s : String} {t : Token} (ht : t = .less ∨ t = .dotLess)
    (h : Accepted n ts (.greater :: rest) .types) :
    Accepted n (.name s :: t :: ts) rest .primary := by
  intro _
  obtain ⟨params, hp⟩ := h (.cons (by decide)) ts.length (Nat.le_refl _) []
  have hg : genericBody (nested n .union) s ts = .ok (.generic s params, rest) :=
    genericBody_eq_ok.mpr ⟨params, hp, rfl⟩
  refine ⟨by simp, .generic s params, rest, ?_, .refl rest⟩
  rcases ht with rfl | rfl
  · exact hg
  · exact hg

theorem accepted_record {keys : List String} (hk : keys.Nodup)
    (h : Accepted n ts (.closeBrace :: rest) (.entries keys)) :
    Accepted n (.openBrace :: ts) rest .primary := by
  intro _
  obtain ⟨hh, he⟩ := h (.cons (by decide)) hk
  obtain ⟨fields, hf⟩ := he ts.length (Nat.le_refl _) [] (by simp)
  have hbody := recordBody_eq_ok.mpr (.inr ⟨hh, fields, hf, rfl⟩)
  exact ⟨by simp, .record fields, rest, hbody, .refl rest⟩

theorem accepted_group (h : Accepted n ts (.closeParen :: rest) .union) :
    Accepted n (.openParen :: ts) rest .primary := by
  intro _
  obtain ⟨t, ht⟩ := h (.cons (by decide))
  exact ⟨by simp, .group t, rest, groupBody_eq_ok.mpr ⟨t, ht, rfl⟩, .refl rest⟩

theorem accepted_called (h : Accepted n ts rest .function) : Accepted n ts rest .primary := by
  intro hr
  obtain ⟨⟨tail, rfl⟩, t, r, ht, ha⟩ := h hr
  exact ⟨by simp, t, r, ht, ha⟩

/-- A later item stands after a separator, so the bound allows it. -/
theorem mid_length {symbol : Symbol} {t : Token} {bound : Nat}
    (h : Derives n symbol ts (t :: mid)) (hb : ts.length ≤ bound) :
    ∃ b, bound = b + 1 ∧ mid.length ≤ b := by
  have := h.suffix.length_le
  rw [List.length_cons] at this
  exact ⟨bound - 1, by omega, by omega⟩

theorem entry_accepted {t : Token} {key : String} {seen : List TypeExpr}
    (ht : t.key? = some key) (hs : ∀ e ∈ seen, entryKey e ≠ some key)
    (hr : Follows closers rest) (h : Accepted n ts rest .value) :
    ∃ f, entryKey f = some key ∧
      recordEntry (nested n .union) seen (t :: ts) = .ok (f, rest) := by
  rcases h hr with ⟨tail, v, rfl, hv⟩ | ⟨hc, rfl⟩
  · exact ⟨.field key (some v), rfl,
      recordEntry_eq_ok.mpr ⟨t, key, _, ht, rfl, hs, .inl ⟨tail, v, rfl, hv, rfl⟩⟩⟩
  · exact ⟨.field key none, rfl,
      recordEntry_eq_ok.mpr ⟨t, key, _, ht, rfl, hs, .inr ⟨hc, rfl, rfl⟩⟩⟩

theorem key_head {t : Token} {key : String} (ht : t.key? = some key) :
    (t :: ts).head? ≠ some .closeBrace := by
  rintro e
  obtain rfl : t = .closeBrace := Option.some.inj e
  cases ht

theorem accepted_lastEntry {t : Token} {key : String} (ht : t.key? = some key)
    (h : Accepted n ts rest .value) : Accepted n (t :: ts) rest (.entries [key]) := by
  intro hr _
  refine ⟨key_head ht, fun bound _ seen hs => ?_⟩
  obtain ⟨f, -, hf⟩ := entry_accepted ht (hs key List.mem_cons_self) (hr.mono (by decide)) h
  exact ⟨[f], separatedFrom_last bound hf (hr.not_head (by decide))⟩

theorem accepted_moreEntries {t : Token} {key : String} {keys : List String}
    (ht : t.key? = some key) (hd : Derives n .value ts (.comma :: mid))
    (h : Accepted n ts (.comma :: mid) .value) (h' : Accepted n mid rest (.entries keys)) :
    Accepted n (t :: ts) rest (.entries (key :: keys)) := by
  intro hr hk
  obtain ⟨hnew, hk⟩ := List.nodup_cons.mp hk
  refine ⟨key_head ht, fun bound hb seen hs => ?_⟩
  obtain ⟨b, rfl, hb'⟩ := mid_length hd (Nat.le_of_succ_le hb)
  obtain ⟨f, hfk, hf⟩ := entry_accepted ht (hs key List.mem_cons_self) (.cons (by decide)) h
  have hs' : ∀ k ∈ keys, ∀ e ∈ f :: seen, entryKey e ≠ some k := by
    intro k hm e he
    rcases List.mem_cons.mp he with rfl | he
    · rw [hfk]
      rintro ⟨⟩
      exact hnew hm
    · exact hs k (List.mem_cons_of_mem _ hm) e he
  obtain ⟨fields, hfs⟩ := (h' hr hk).2 b hb' (f :: seen) hs'
  exact ⟨f :: fields, separatedFrom_more hf hfs⟩

/-- No type is followed by a colon, so a name before a colon starts no type. -/
theorem not_labelled {t : TypeExpr} (hr : Follows closers rest)
    (h : alternative (nested n .union) (nested n .function) ts = .ok (t, rest))
    (s : String) (tail : List Token) : ts ≠ .name s :: .colon :: tail := by
  rintro rfl
  obtain ⟨-, rfl⟩ := Prod.mk.inj (Except.ok.inj h)
  exact absurd rfl (hr.not_head (by decide))

theorem alternative_of_ellipsis {t : TypeExpr}
    (h : alternative (nested n .union) (nested n .function) (.ellipsis :: ts) = .ok (t, rest)) :
    ∃ t, alternative (nested n .union) (nested n .function) ts = .ok (t, rest) := by
  have inner {t : TypeExpr} {r : List Token}
      (h : modified (nested n .union) (nested n .function) (.ellipsis :: ts) = .ok (t, r)) :
      ∃ t, modified (nested n .union) (nested n .function) ts = .ok (t, r) := by
    rw [modified_modifier (m := .variadic) rfl] at h
    cases hm : modified (nested n .union) (nested n .function) ts with
    | error e =>
      rw [hm] at h
      cases h
    | ok x =>
      rw [hm] at h
      obtain ⟨-, rfl⟩ := Prod.mk.inj (Except.ok.inj h)
      exact ⟨x.1, rfl⟩
  rcases alternative_eq_ok.mp h with ⟨_, h, -⟩ | ⟨h, hne⟩
  · obtain ⟨t, ht⟩ := inner h
    exact ⟨.optional t, alternative_eq_ok.mpr (.inl ⟨t, ht, rfl⟩)⟩
  · obtain ⟨t, ht⟩ := inner h
    exact ⟨t, alternative_eq_ok.mpr (.inr ⟨ht, hne⟩)⟩

theorem accepted_variadic
    (h : ∃ t, paramBody (nested n .union) (nested n .function) ts = .ok (t, rest)) :
    ∃ a, argument (nested n .union) (nested n .function) (.ellipsis :: ts) = .ok (a, rest) := by
  obtain ⟨t, ht⟩ := h
  exact ⟨_, argument_eq_ok.mpr (.inl ⟨ts, t, rfl, ht, rfl⟩)⟩

theorem accepted_unlabelled (h : Accepted n ts rest .alternative) :
    Accepted n ts rest .argument := by
  intro hr
  obtain ⟨t, ht⟩ := h (hr.mono (by decide))
  by_cases he : ts.head? = some .ellipsis
  · obtain ⟨tail, rfl⟩ := List.head?_eq_some_iff.mp he
    obtain ⟨u, hu⟩ := alternative_of_ellipsis ht
    exact accepted_variadic ⟨u, paramBody_eq_ok.mpr (.inr ⟨not_labelled hr hu, hu⟩)⟩
  · have hn := not_labelled hr ht
    exact ⟨.param t, argument_eq_ok.mpr (.inr (.inr (.inr ⟨he,
      fun s tail e => absurd e (hn s tail), t, paramBody_eq_ok.mpr (.inr ⟨hn, ht⟩), rfl⟩)))⟩

theorem accepted_labelled {s : String} (hs : s ≠ "this" ∧ s ≠ "new")
    (h : Accepted n ts rest .alternative) :
    Accepted n (.name s :: .colon :: ts) rest .argument := by
  intro hr
  obtain ⟨t, ht⟩ := h (hr.mono (by decide))
  refine ⟨.param (.parameter s t), argument_eq_ok.mpr (.inr (.inr (.inr ⟨by simp, ?_, _,
    paramBody_eq_ok.mpr (.inl ⟨s, ts, t, rfl, ht, rfl⟩), rfl⟩)))⟩
  rintro _ _ e
  obtain ⟨rfl, -⟩ : _ ∧ _ := by simpa using e
  exact hs

theorem accepted_binding {s : String} (hs : s = "this" ∨ s = "new")
    (h : Accepted n ts rest .union) : Accepted n (.name s :: .colon :: ts) rest .argument := by
  intro hr
  obtain ⟨t, ht⟩ := h hr
  rcases hs with rfl | rfl
  · exact ⟨.receiver t, argument_eq_ok.mpr (.inr (.inl ⟨ts, t, rfl, ht, rfl⟩))⟩
  · exact ⟨.built t, argument_eq_ok.mpr (.inr (.inr (.inl ⟨ts, t, rfl, ht, rfl⟩)))⟩

theorem argument_head {a : Argument}
    (h : argument (nested n .union) (nested n .function) ts = .ok (a, rest)) :
    ts.head? ≠ some .closeParen := by
  rintro e
  obtain ⟨tail, rfl⟩ := List.head?_eq_some_iff.mp e
  cases h

theorem accepted_signature
    (h : Accepted n ts (.closeParen :: mid) .arguments ∨ ts = .closeParen :: mid) (h' : Accepted n mid rest .result) :
    Accepted (n + 1) (.name "function" :: .openParen :: ts) rest .function := by
  intro hr
  refine ⟨⟨ts, rfl⟩, ?_⟩
  have ha : ∃ args, arguments (nested n .union) (nested n .function) ts =
      .ok (args, .closeParen :: mid) := by
    rcases h with h | rfl
    · obtain ⟨hh, hs⟩ := h (.cons (by decide))
      obtain ⟨args, hargs⟩ := hs ts.length (Nat.le_refl _) []
      exact ⟨args, arguments_eq_ok.mpr (.inr ⟨hh, hargs⟩)⟩
    · exact ⟨[], rfl⟩
  obtain ⟨args, ha⟩ := ha
  rcases h' hr with ⟨tail, t, r, rfl, ht, hr'⟩ | ⟨hc, rfl⟩
  · exact ⟨ofArguments args (some t), r,
      signature_eq_ok.mpr ⟨args, _, ha, .inl ⟨tail, t, rfl, ht, rfl⟩⟩, hr'⟩
  · exact ⟨ofArguments args none, _,
      signature_eq_ok.mpr ⟨args, _, ha, .inr ⟨hc, rfl, rfl⟩⟩, .refl _⟩

end

/-- Every reader follows the derivations of its symbol. -/
theorem Derives.accepted {n symbol ts rest} (h : Derives n symbol ts rest) :
    Accepted n ts rest symbol := by
  induction h with
  | union _ ih =>
    intro hr
    obtain ⟨es, hes⟩ := ih hr _ (Nat.le_refl _) []
    exact ⟨unionOf es, nested_union_eq_ok.mpr ⟨es, hes, rfl⟩⟩
  | lastAlternative _ ih =>
    intro hr bound _ seen
    obtain ⟨t, ht⟩ := ih (hr.mono (by decide))
    exact ⟨[t], separatedFrom_last bound ht (hr.not_head (by decide))⟩
  | moreAlternatives hd _ ih ih' =>
    intro hr bound hb seen
    obtain ⟨b, rfl, hb'⟩ := mid_length hd hb
    obtain ⟨t, ht⟩ := ih (.cons (by decide))
    obtain ⟨es, hes⟩ := ih' hr b hb' (t :: seen)
    exact ⟨t :: es, separatedFrom_more ht hes⟩
  | required _ ih => exact accepted_required ih
  | optional _ ih => exact accepted_optional ih
  | modifier t ht _ ih => exact accepted_modifier ht ih
  | unmodified _ ih => exact ih
  | suffixed k ms hm _ ih => exact accepted_suffixed hm ih
  | bare hr => exact accepted_bare hr
  | name s => exact accepted_name s
  | generic s t ht _ ih => exact accepted_generic ht ih
  | star => exact fun _ => ⟨by simp, .all, _, rfl, .refl _⟩
  | string s => exact fun _ => ⟨by simp, .literal s, _, rfl, .refl _⟩
  | number s => exact fun _ => ⟨by simp, .literal s, _, rfl, .refl _⟩
  | emptyRecord => exact fun _ => ⟨by simp, .record [], _, rfl, .refl _⟩
  | record keys hk _ ih => exact accepted_record hk ih
  | called _ ih => exact accepted_called ih
  | group _ ih => exact accepted_group ih
  | lastType _ ih =>
    intro hr bound _ seen
    obtain ⟨t, ht⟩ := ih (hr.mono (by decide))
    exact ⟨[t], separatedFrom_last bound ht (hr.not_head (by decide))⟩
  | moreTypes hd _ ih ih' =>
    intro hr bound hb seen
    obtain ⟨b, rfl, hb'⟩ := mid_length hd hb
    obtain ⟨t, ht⟩ := ih (.cons (by decide))
    obtain ⟨ts, hts⟩ := ih' hr b hb' (t :: seen)
    exact ⟨t :: ts, separatedFrom_more ht hts⟩
  | lastEntry t key hk _ ih => exact accepted_lastEntry hk ih
  | moreEntries t key keys hk hd _ ih ih' => exact accepted_moreEntries hk hd ih ih'
  | noValue => exact fun hr => .inr ⟨hr.not_head (by decide), rfl⟩
  | value _ ih =>
    intro hr
    obtain ⟨v, hv⟩ := ih hr
    exact .inl ⟨_, v, rfl, hv⟩
  | noArguments _ ih => exact accepted_signature (.inr rfl) ih
  | function _ _ ih ih' => exact accepted_signature (.inl ih) ih'
  | lastArgument _ ih =>
    intro hr
    obtain ⟨a, ha⟩ := ih (hr.mono (by decide))
    exact ⟨argument_head ha, fun bound _ seen =>
      ⟨[a], separatedFrom_last bound ha (hr.not_head (by decide))⟩⟩
  | moreArguments hd _ ih ih' =>
    intro hr
    obtain ⟨a, ha⟩ := ih (.cons (by decide))
    refine ⟨argument_head ha, fun bound hb seen => ?_⟩
    obtain ⟨b, rfl, hb'⟩ := mid_length hd hb
    obtain ⟨args, hargs⟩ := (ih' hr).2 b hb' (a :: seen)
    exact ⟨a :: args, separatedFrom_more ha hargs⟩
  | binding s hs _ ih => exact accepted_binding hs ih
  | unlabelled _ ih => exact accepted_unlabelled ih
  | labelled s hs _ ih => exact accepted_labelled hs ih
  | variadic _ ih =>
    intro hr
    obtain ⟨t, ht⟩ := ih (hr.mono (by decide))
    exact accepted_variadic ⟨t, paramBody_eq_ok.mpr (.inr ⟨not_labelled hr ht, ht⟩)⟩
  | labelledVariadic s _ ih =>
    intro hr
    obtain ⟨t, ht⟩ := ih (hr.mono (by decide))
    exact accepted_variadic ⟨_, paramBody_eq_ok.mpr (.inl ⟨s, _, t, rfl, ht, rfl⟩)⟩
  | noResult =>
    intro hr
    exact .inr ⟨hr.follows.not_head (by decide), rfl⟩
  | result _ ih =>
    intro hr
    obtain ⟨t, r, hm, ha⟩ := ih hr
    exact .inl ⟨_, t, r, rfl, hm, ha⟩

end DocComment.TypeExpr
