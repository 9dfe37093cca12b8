import DocComment.Proofs.TypeExpr.Reader
import Mathlib.Data.List.Nodup

/-!
Reading accepts nothing but the grammar: every reader that succeeds has derived its symbol
from the tokens it took. Each reader is treated under the assumption that the readers of the
next level are sound, and the levels then follow by induction.
-/

namespace DocComment.TypeExpr

/-- What the readers of the next level are assumed to derive. -/
structure Sound (n : Nat) (union function : Reader TypeExpr) : Prop where
  ofUnion {ts t rest} : union ts = .ok (t, rest) → Derives n .union ts rest
  ofFunction {ts t rest} : function (.name "function" :: .openParen :: ts) = .ok (t, rest) →
    Derives n .function (.name "function" :: .openParen :: ts) rest

theorem Derives.modifiers {n : Nat} {ts rest : List Token}
    (h : Derives n .modified (modifiers ts).2 rest) : Derives n .modified ts rest := by
  induction ts with
  | nil => exact h
  | cons t ts ih =>
    rcases modifiers_cons t ts with ht | ⟨rfl, he⟩ | ⟨ht, m, -, hm⟩
    · rwa [modifiers_operand ht] at h
    · rwa [modifiers_bare he] at h
    · rw [hm] at h
      exact .modifier _ ht (ih h)

namespace Sound

variable {n : Nat} {union function : Reader TypeExpr} {ts rest : List Token}

theorem types (hs : Sound n union function) {seen params : List TypeExpr}
    (h : Separated .comma (fun _ => union) seen ts params rest) : Derives n .types ts rest := by
  induction h with
  | last h => exact .lastType (hs.ofUnion h)
  | more h _ ih => exact .moreTypes (hs.ofUnion h) ih

theorem entry (hs : Sound n union function) {seen : List TypeExpr} {f : TypeExpr}
    (h : recordEntry union seen ts = .ok (f, rest)) :
    ∃ t key mid, ts = t :: mid ∧ t.key? = some key ∧ entryKey f = some key ∧
      (∀ e ∈ seen, entryKey e ≠ some key) ∧ Derives n .value mid rest := by
  obtain ⟨t, key, mid, ht, rfl, hk, h⟩ := recordEntry_eq_ok.mp h
  rcases h with ⟨tail, v, rfl, hv, rfl⟩ | ⟨-, rfl, rfl⟩
  · exact ⟨t, key, _, rfl, ht, rfl, hk, .value (hs.ofUnion hv)⟩
  · exact ⟨t, key, _, rfl, ht, rfl, hk, .noValue⟩

/-- The keys of later entries differ from those already seen, so all of them are distinct. -/
theorem entries (hs : Sound n union function) {seen fields : List TypeExpr}
    (h : Separated .comma (recordEntry union) seen ts fields rest) :
    ∃ keys, Derives n (.entries keys) ts rest ∧ keys.Nodup ∧
      ∀ key ∈ keys, ∀ e ∈ seen, entryKey e ≠ some key := by
  induction h with
  | last h =>
    obtain ⟨t, key, mid, rfl, ht, -, hk, hv⟩ := hs.entry h
    exact ⟨[key], .lastEntry t key ht hv, List.nodup_singleton key, by simpa using hk⟩
  | more h _ ih =>
    obtain ⟨t, key, mid, rfl, ht, hf, hk, hv⟩ := hs.entry h
    obtain ⟨keys, hd, hn, hkeys⟩ := ih
    refine ⟨key :: keys, .moreEntries t key keys ht hv hd, List.nodup_cons.mpr ⟨?_, hn⟩, ?_⟩
    · intro hm
      exact hkeys key hm _ List.mem_cons_self hf
    · intro k hm e he
      rcases List.mem_cons.mp hm with rfl | hm
      · exact hk e he
      · exact hkeys k hm e (List.mem_cons_of_mem _ he)

theorem primary (hs : Sound n union function) {t : TypeExpr}
    (h : primary union function ts = .ok (t, rest)) (hq : ts.head? ≠ some .question) :
    Derives n .primary ts rest := by
  cases PrimaryForm.of_primary h with
  | name => exact .name _
  | called h => exact .called (hs.ofFunction h)
  | generic s mark hm h => exact .generic s mark hm (hs.types (.of_separated h))
  | star => exact .star
  | unknown => exact absurd rfl hq
  | string => exact .string _
  | number => exact .number _
  | emptyRecord => exact .emptyRecord
  | record h =>
    obtain ⟨keys, hd, hn, -⟩ := hs.entries (.of_separated h)
    exact .record keys hn hd
  | group h => exact .group (hs.ofUnion h)

theorem suffixed (hs : Sound n union function) {t : TypeExpr}
    (h : suffixed union function ts = .ok (t, rest)) (hq : ts.head? ≠ some .question) :
    Derives n .suffixed ts rest := by
  obtain ⟨p, mid, hp, q, mid', hb, hm⟩ := suffixed_eq_ok.mp h
  obtain ⟨k, rfl, -⟩ := brackets_eq_ok.mp hb
  obtain ⟨ms, hms, rfl, -⟩ := marks_eq hm
  exact .suffixed k ms hms (hs.primary hp hq)

theorem modified (hs : Sound n union function) {t : TypeExpr}
    (h : modified union function ts = .ok (t, rest)) : Derives n .modified ts rest := by
  obtain ⟨operand, h, -⟩ := modified_eq_ok.mp h
  apply Derives.modifiers
  rcases modifiers_stop ts with ⟨tail, e, he⟩ | hm
  · rw [e, suffixed_bare he] at h
    obtain ⟨-, rfl⟩ := Prod.mk.inj (Except.ok.inj h)
    rw [e]
    exact .unmodified (.bare (endsOperand_iff.mp he))
  · exact .unmodified (hs.suffixed h fun e => (hm _ e).1 rfl)

theorem alternative (hs : Sound n union function) {t : TypeExpr}
    (h : alternative union function ts = .ok (t, rest)) : Derives n .alternative ts rest := by
  rcases alternative_eq_ok.mp h with ⟨inner, h, -⟩ | ⟨h, -⟩
  · exact .optional (hs.modified h)
  · exact .required (hs.modified h)

theorem alternatives (hs : Sound n union function) {seen es : List TypeExpr}
    (h : Separated .pipe (fun _ => TypeExpr.alternative union function) seen ts es rest) :
    Derives n .alternatives ts rest := by
  induction h with
  | last h => exact .lastAlternative (hs.alternative h)
  | more h _ ih => exact .moreAlternatives (hs.alternative h) ih

theorem argument (hs : Sound n union function) {a : Argument}
    (h : argument union function ts = .ok (a, rest)) : Derives n .argument ts rest := by
  rcases argument_eq_ok.mp h with ⟨tail, t, rfl, h, -⟩ | ⟨tail, t, rfl, h, -⟩ |
    ⟨tail, t, rfl, h, -⟩ | ⟨-, hn, t, h, -⟩
  · rcases paramBody_eq_ok.mp h with ⟨s, tail, inner, rfl, h, -⟩ | ⟨-, h⟩
    · exact .labelledVariadic s (hs.alternative h)
    · exact .variadic (hs.alternative h)
  · exact .binding _ (.inl rfl) (hs.ofUnion h)
  · exact .binding _ (.inr rfl) (hs.ofUnion h)
  · rcases paramBody_eq_ok.mp h with ⟨s, tail, inner, rfl, h, -⟩ | ⟨-, h⟩
    · exact .labelled s (hn s tail rfl) (hs.alternative h)
    · exact .unlabelled (hs.alternative h)

theorem arguments (hs : Sound n union function) {seen args : List Argument}
    (h : Separated .comma (fun _ => TypeExpr.argument union function) seen ts args rest) :
    Derives n .arguments ts rest := by
  induction h with
  | last h => exact .lastArgument (hs.argument h)
  | more h _ ih => exact .moreArguments (hs.argument h) ih

theorem signature (hs : Sound n union function) {t : TypeExpr}
    (h : signature union function (.name "function" :: .openParen :: ts) = .ok (t, rest)) :
    Derives (n + 1) .function (.name "function" :: .openParen :: ts) rest := by
  obtain ⟨args, mid, ha, hr⟩ := signature_eq_ok.mp h
  have hr : Derives n .result mid rest := by
    rcases hr with ⟨tail, r, rfl, hr, -⟩ | ⟨-, rfl, -⟩
    · exact .result (hs.modified hr)
    · exact .noResult
  rcases arguments_eq_ok.mp ha with ⟨rfl, -, -⟩ | ⟨-, ha⟩
  · exact .noArguments hr
  · exact .function (hs.arguments (.of_separated ha)) hr

end Sound

theorem nested_sound (n : Nat) : Sound n (nested n .union) (nested n .function) := by
  induction n with
  | zero =>
    constructor
    · intro _ _ _ h
      cases h
    · intro _ _ _ h
      cases h
  | succ n ih =>
    constructor
    · intro _ _ _ h
      obtain ⟨es, h, -⟩ := nested_union_eq_ok.mp h
      exact .union (ih.alternatives (.of_separated h))
    · intro _ _ _ h
      exact ih.signature h

end DocComment.TypeExpr
