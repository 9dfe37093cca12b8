import DocComment.Proofs.TypeExpr.Soundness
import Mathlib.Data.Fintype.EquivFin

/-!
Where reading fails. What was read before the failure is told by the grammar, so the relation
has one rule for each place in it at which a reader may give up, and says nothing of the trees.
A key that is missing from a record counts among the keys, whatever it was to be.
-/

namespace DocComment.TypeExpr

inductive Fails : Nat → Symbol → List Token → Failure → Prop where
  | unionTooDeep {ts} : Fails 0 .union ts ⟨.tooDeep, ts⟩
  | functionTooDeep {ts} : Fails 0 .function (.name "function" :: .openParen :: ts)
      ⟨.tooDeep, .name "function" :: .openParen :: ts⟩
  | union {n ts e} : Fails n .alternatives ts e → Fails (n + 1) .union ts e
  | firstAlternative {n ts e} : Fails n .alternative ts e → Fails n .alternatives ts e
  | laterAlternative {n ts mid e} : Derives n .alternative ts (.pipe :: mid) →
      Fails n .alternatives mid e → Fails n .alternatives ts e
  | alternative {n ts e} : Fails n .modified ts e → Fails n .alternative ts e
  | modifier {n ts e} (t : Token) (ht : t = .question ∨ t = .bang ∨ t = .ellipsis) :
      Fails n .modified ts e → Fails n .modified (t :: ts) e
  | unmodified {n ts e} : Fails n .suffixed ts e → Fails n .modified ts e
  | suffixed {n ts e} : Fails n .primary ts e → Fails n .suffixed ts e
  | bracket {n ts rest} (k : Nat) :
      Derives n .primary ts (arrays k ++ .openBracket :: rest) →
      Fails n .suffixed ts ⟨.missingBracket, rest⟩
  | noType {n ts} : Fails n .primary ts ⟨.expectedType, ts⟩
  | generic {n ts e} (s : String) (t : Token) (ht : t = .less ∨ t = .dotLess) :
      Fails n .types ts e → Fails n .primary (.name s :: t :: ts) e
  | genericEnd {n ts rest} (s : String) (t : Token) (ht : t = .less ∨ t = .dotLess) :
      Derives n .types ts rest →
      Fails n .primary (.name s :: t :: ts) ⟨.unclosedGeneric s, rest⟩
  | record {n ts e} (keys : List String) (hk : keys.Nodup) : Fails n (.entries keys) ts e →
      Fails n .primary (.openBrace :: ts) e
  | recordEnd {n ts rest} (keys : List String) (hk : keys.Nodup) :
      Derives n (.entries keys) ts rest →
      Fails n .primary (.openBrace :: ts) ⟨.unclosedRecord, rest⟩
  | called {n ts e} : Fails n .function ts e → Fails n .primary ts e
  | group {n ts e} : Fails n .union ts e → Fails n .primary (.openParen :: ts) e
  | groupEnd {n ts rest} : Derives n .union ts rest →
      Fails n .primary (.openParen :: ts) ⟨.unclosedParen, rest⟩
  | firstType {n ts e} : Fails n .union ts e → Fails n .types ts e
  | laterType {n ts mid e} : Derives n .union ts (.comma :: mid) → Fails n .types mid e →
      Fails n .types ts e
  | malformedKey {n ts} (key : String) : Fails n (.entries [key]) ts ⟨.malformedKey, ts⟩
  | duplicateKey {n rest} (t : Token) (key : String) (hk : t.key? = some key) :
      Fails n (.entries []) (t :: rest) ⟨.duplicateKey key, rest⟩
  | lastEntry {n ts e} (t : Token) (key : String) (hk : t.key? = some key) :
      Fails n .value ts e → Fails n (.entries [key]) (t :: ts) e
  | laterEntry {n ts mid e} (t : Token) (key : String) (keys : List String)
      (hk : t.key? = some key) : Derives n .value ts (.comma :: mid) →
      Fails n (.entries keys) mid e → Fails n (.entries (key :: keys)) (t :: ts) e
  | value {n ts e} : Fails n .union ts e → Fails n .value (.colon :: ts) e
  | arguments {n ts e} : Fails n .arguments ts e →
      Fails (n + 1) .function (.name "function" :: .openParen :: ts) e
  | argumentsEnd {n ts rest} : Derives n .arguments ts rest →
      Fails (n + 1) .function (.name "function" :: .openParen :: ts) ⟨.unclosedSignature, rest⟩
  | noArguments {n ts e} : Fails n .result ts e →
      Fails (n + 1) .function (.name "function" :: .openParen :: .closeParen :: ts) e
  | function {n ts mid e} : Derives n .arguments ts (.closeParen :: mid) →
      Fails n .result mid e → Fails (n + 1) .function (.name "function" :: .openParen :: ts) e
  | firstArgument {n ts e} : Fails n .argument ts e → Fails n .arguments ts e
  | laterArgument {n ts mid e} : Derives n .argument ts (.comma :: mid) →
      Fails n .arguments mid e → Fails n .arguments ts e
  | binding {n ts e} (s : String) (hs : s = "this" ∨ s = "new") : Fails n .union ts e →
      Fails n .argument (.name s :: .colon :: ts) e
  | unlabelled {n ts e} : Fails n .alternative ts e → Fails n .argument ts e
  | labelled {n ts e} (s : String) (hs : s ≠ "this" ∧ s ≠ "new") : Fails n .alternative ts e →
      Fails n .argument (.name s :: .colon :: ts) e
  | variadic {n ts e} : Fails n .alternative ts e → Fails n .argument (.ellipsis :: ts) e
  | labelledVariadic {n ts e} (s : String) : Fails n .alternative ts e →
      Fails n .argument (.ellipsis :: .name s :: .colon :: ts) e
  | result {n ts e} : Fails n .modified ts e → Fails n .result (.colon :: ts) e

/-! ### Failing readers -/

theorem expect_eq_error {token : Token} {cause : Cause} {ts : List Token} {e : Failure}
    (h : expect token cause ts = .error e) : ts.head? ≠ some token ∧ e = ⟨cause, ts⟩ := by
  cases ts with
  | nil =>
    cases h
    exact ⟨by simp, rfl⟩
  | cons t ts =>
    by_cases ht : t = token
    · rw [expect, if_pos ht] at h
      cases h
    · rw [expect, if_neg ht] at h
      cases h
      exact ⟨by simpa using ht, rfl⟩

/-- A reader of something that is followed by a token of its own fails in it or behind it. -/
theorem closed_eq_error {α β : Type} {x : Except Failure (α × List Token)} {token : Token}
    {cause : Cause} {build : α → β} {e : Failure}
    (h : (do
      let (a, ts) ← x
      let ts ← expect token cause ts
      return (build a, ts)) = .error e) :
    x = .error e ∨ ∃ a rest, x = .ok (a, rest) ∧ e = ⟨cause, rest⟩ := by
  rcases Except.bind_eq_error.mp h with h | ⟨⟨a, rest⟩, hx, h⟩
  · exact .inl h
  · rcases Except.bind_eq_error.mp h with h | ⟨_, -, h⟩
    · exact .inr ⟨a, rest, hx, (expect_eq_error h).2⟩
    · cases h

/-- The items before the one that fails, each with a separator after it. -/
inductive Broken {α : Type} (separator : Token) (item : List α → Reader α) :
    List α → List Token → Failure → Prop where
  | first {seen ts e} : item seen ts = .error e → Broken separator item seen ts e
  | later {seen ts x mid e} : item seen ts = .ok (x, separator :: mid) →
      Broken separator item (x :: seen) mid e → Broken separator item seen ts e

theorem Broken.of_separatedFrom {α : Type} {separator : Token} {item : List α → Reader α}
    {bound : Nat} {seen : List α} {ts : List Token} {e : Failure}
    (h : separatedFrom separator item bound seen ts = .error e) :
    Broken separator item seen ts e := by
  induction bound generalizing seen ts with
  | zero =>
    rcases Except.bind_eq_error.mp h with h | ⟨_, -, h⟩
    · exact .first h
    · cases h
  | succ bound ih =>
    rcases Except.bind_eq_error.mp h with h | ⟨⟨x, rest⟩, hx, h⟩
    · exact .first h
    · cases rest with
      | nil => cases h
      | cons t mid =>
        dsimp only at h
        split at h
        · next ht =>
          subst t
          rcases Except.bind_eq_error.mp h with h | ⟨_, -, h⟩
          · exact .later hx (ih h)
          · cases h
        · cases h

theorem Broken.of_separated {α : Type} {separator : Token} {item : List α → Reader α}
    {ts : List Token} {e : Failure} (h : separated separator item ts = .error e) :
    Broken separator item [] ts e := .of_separatedFrom h

theorem brackets_eq_error {p : TypeExpr} {ts : List Token} {e : Failure}
    (h : brackets p ts = .error e) :
    ∃ k rest, ts = arrays k ++ .openBracket :: rest ∧ e = ⟨.missingBracket, rest⟩ := by
  fun_induction brackets p ts with
  | case1 p rest ih =>
    obtain ⟨k, tail, rfl, rfl⟩ := ih h
    exact ⟨k + 1, tail, rfl, rfl⟩
  | case2 p rest =>
    cases h
    exact ⟨0, rest, rfl, rfl⟩
  | case3 => cases h

theorem recordKey_eq_error {ts : List Token} {e : Failure} (h : recordKey ts = .error e) :
    e = ⟨.malformedKey, ts⟩ := by
  cases ts with
  | nil =>
    cases h
    rfl
  | cons t ts =>
    rw [recordKey_cons] at h
    cases hk : t.key? with
    | none =>
      rw [hk] at h
      cases h
      rfl
    | some key =>
      rw [hk] at h
      cases h

/-- A part after a colon is all that can fail where a colon decides. -/
theorem colon_eq_error {reader : Reader TypeExpr} (build : Option TypeExpr → TypeExpr)
    {ts : List Token} {e : Failure}
    (h : (match (motive := List Token → Except Failure (TypeExpr × List Token)) ts with
      | .colon :: tail => do
        let (v, ts) ← reader tail
        return (build (some v), ts)
      | ts => return (build none, ts)) = .error e) :
    ∃ tail, ts = .colon :: tail ∧ reader tail = .error e := by
  split at h
  · next tail =>
    rcases Except.bind_eq_error.mp h with h | ⟨_, -, h⟩
    · exact ⟨tail, rfl, h⟩
    · cases h
  · cases h

theorem Fails.modifiers {n : Nat} {ts : List Token} {e : Failure}
    (h : Fails n .modified (modifiers ts).2 e) : Fails n .modified ts e := by
  induction ts with
  | nil => exact h
  | cons t ts ih =>
    rcases modifiers_cons t ts with ht | ⟨rfl, he⟩ | ⟨ht, m, -, hm⟩
    · rwa [modifiers_operand ht] at h
    · rwa [modifiers_bare he] at h
    · rw [hm] at h
      exact .modifier _ ht (ih h)

/-- What the readers of the next level are assumed to do when they fail. -/
structure Failing (n : Nat) (union function : Reader TypeExpr) : Prop
    extends Sound n union function where
  unionFails {ts e} : union ts = .error e → Fails n .union ts e
  functionFails {ts e} : function (.name "function" :: .openParen :: ts) = .error e →
    Fails n .function (.name "function" :: .openParen :: ts) e

namespace Failing

variable {n : Nat} {union function : Reader TypeExpr} {ts : List Token} {e : Failure}

theorem types (hs : Failing n union function) {seen : List TypeExpr}
    (h : Broken .comma (fun _ => union) seen ts e) : Fails n .types ts e := by
  induction h with
  | first h => exact .firstType (hs.unionFails h)
  | later h _ ih => exact .laterType (hs.ofUnion h) ih

theorem entry (hs : Failing n union function) {seen : List TypeExpr}
    (h : recordEntry union seen ts = .error e) :
    ∃ keys, Fails n (.entries keys) ts e ∧ keys.Nodup ∧
      ∀ key ∈ keys, ∀ f ∈ seen, entryKey f ≠ some key := by
  rcases Except.bind_eq_error.mp h with hbad | ⟨⟨key, mid⟩, hkey, hrest⟩
  · obtain rfl := recordKey_eq_error hbad
    -- Any key that is not there yet could have come.
    obtain ⟨key, hnew⟩ := Infinite.exists_notMem_finset (seen.filterMap entryKey).toFinset
    refine ⟨[key], .malformedKey key, List.nodup_singleton key, ?_⟩
    rintro _ hm f hf hfk
    obtain rfl := List.mem_singleton.mp hm
    exact hnew (List.mem_toFinset.mpr (List.mem_filterMap.mpr ⟨f, hf, hfk⟩))
  · obtain ⟨t, ht, rfl⟩ := recordKey_eq_ok.mp hkey
    dsimp only at hrest
    split at hrest
    · cases hrest
      exact ⟨[], .duplicateKey t key ht, List.nodup_nil, by simp⟩
    · next hnew =>
      obtain ⟨tail, rfl, hv⟩ := colon_eq_error (TypeExpr.field key) hrest
      refine ⟨[key], .lastEntry t key ht (.value (hs.unionFails hv)), List.nodup_singleton key, ?_⟩
      simpa using hnew

theorem entries (hs : Failing n union function) {seen : List TypeExpr}
    (h : Broken .comma (recordEntry union) seen ts e) :
    ∃ keys, Fails n (.entries keys) ts e ∧ keys.Nodup ∧
      ∀ key ∈ keys, ∀ f ∈ seen, entryKey f ≠ some key := by
  induction h with
  | first h => exact hs.entry h
  | later h _ ih =>
    obtain ⟨t, key, mid, rfl, ht, hf, hk, hv⟩ := hs.toSound.entry h
    obtain ⟨keys, hfails, hn, hkeys⟩ := ih
    refine ⟨key :: keys, .laterEntry t key keys ht hv hfails, List.nodup_cons.mpr ⟨?_, hn⟩, ?_⟩
    · intro hm
      exact hkeys key hm _ List.mem_cons_self hf
    · intro k hm f hfm
      rcases List.mem_cons.mp hm with rfl | hm
      · exact hk f hfm
      · exact hkeys k hm f (List.mem_cons_of_mem _ hfm)

theorem recordBody (hs : Failing n union function) (h : recordBody union ts = .error e) :
    Fails n .primary (.openBrace :: ts) e := by
  unfold TypeExpr.recordBody at h
  split at h
  · cases h
  · rcases closed_eq_error h with h | ⟨fields, rest, hok, rfl⟩
    · obtain ⟨keys, hfails, hn, -⟩ := hs.entries (.of_separated h)
      exact .record keys hn hfails
    · obtain ⟨keys, hd, hn, -⟩ := hs.toSound.entries (.of_separated hok)
      exact .recordEnd keys hn hd

theorem genericBody (hs : Failing n union function) {s : String} {t : Token}
    (ht : t = .less ∨ t = .dotLess) (h : genericBody union s ts = .error e) :
    Fails n .primary (.name s :: t :: ts) e := by
  rcases closed_eq_error h with h | ⟨params, rest, hok, rfl⟩
  · exact .generic s t ht (hs.types (.of_separated h))
  · exact .genericEnd s t ht (hs.toSound.types (.of_separated hok))

theorem groupBody (hs : Failing n union function) (h : groupBody union ts = .error e) :
    Fails n .primary (.openParen :: ts) e := by
  rcases closed_eq_error h with h | ⟨inner, rest, hok, rfl⟩
  · exact .group (hs.unionFails h)
  · exact .groupEnd (hs.ofUnion hok)

theorem primary (hs : Failing n union function) (h : primary union function ts = .error e) :
    Fails n .primary ts e := by
  unfold TypeExpr.primary at h
  split at h
  · split at h
    · split at h
      · next hs' =>
        subst hs'
        exact .called (hs.functionFails h)
      · cases h
    · exact hs.genericBody (.inl rfl) h
    · exact hs.genericBody (.inr rfl) h
    · cases h
  · cases h
  · cases h
  · cases h
  · cases h
  · exact hs.recordBody h
  · exact hs.groupBody h
  · cases h
    exact .noType

theorem suffixed (hs : Failing n union function) (h : suffixed union function ts = .error e)
    (hq : ts.head? ≠ some .question) : Fails n .suffixed ts e := by
  rcases Except.bind_eq_error.mp h with h | ⟨⟨p, mid⟩, hp, h⟩
  · exact .suffixed (hs.primary h)
  · rcases Except.bind_eq_error.mp h with h | ⟨_, -, h⟩
    · obtain ⟨k, rest, rfl, rfl⟩ := brackets_eq_error h
      exact .bracket k (hs.toSound.primary hp hq)
    · cases h

theorem modified (hs : Failing n union function) (h : modified union function ts = .error e) :
    Fails n .modified ts e := by
  apply Fails.modifiers
  rcases Except.bind_eq_error.mp h with h | ⟨_, -, h⟩
  · rcases modifiers_stop ts with ⟨tail, htail, he⟩ | hm
    · rw [htail, suffixed_bare he] at h
      cases h
    · exact .unmodified (hs.suffixed h fun hq => (hm _ hq).1 rfl)
  · cases h

theorem alternative (hs : Failing n union function)
    (h : alternative union function ts = .error e) : Fails n .alternative ts e := by
  rcases Except.bind_eq_error.mp h with h | ⟨⟨t, mid⟩, -, h⟩
  · exact .alternative (hs.modified h)
  · dsimp only at h
    split at h <;> cases h

theorem alternatives (hs : Failing n union function) {seen : List TypeExpr}
    (h : Broken .pipe (fun _ => TypeExpr.alternative union function) seen ts e) :
    Fails n .alternatives ts e := by
  induction h with
  | first h => exact .firstAlternative (hs.alternative h)
  | later h _ ih => exact .laterAlternative (hs.toSound.alternative h) ih

theorem paramBody (hs : Failing n union function) (h : paramBody union function ts = .error e) :
    (∃ s tail, ts = .name s :: .colon :: tail ∧ Fails n .alternative tail e) ∨
      Fails n .alternative ts e := by
  unfold TypeExpr.paramBody at h
  split at h
  · next s tail =>
    rcases Except.bind_eq_error.mp h with h | ⟨_, -, h⟩
    · exact .inl ⟨s, tail, rfl, hs.alternative h⟩
    · cases h
  · exact .inr (hs.alternative h)

theorem argument (hs : Failing n union function) (h : argument union function ts = .error e) :
    Fails n .argument ts e := by
  unfold TypeExpr.argument at h
  split at h
  · rcases Except.bind_eq_error.mp h with h | ⟨_, -, h⟩
    · rcases hs.paramBody h with ⟨s, tail, rfl, hbody⟩ | hbody
      · exact .labelledVariadic s hbody
      · exact .variadic hbody
    · cases h
  · next s tail =>
    split at h
    · next hthis =>
      rcases Except.bind_eq_error.mp h with h | ⟨_, -, h⟩
      · exact .binding s (.inl hthis) (hs.unionFails h)
      · cases h
    · next hthis =>
      split at h
      · next hnew =>
        rcases Except.bind_eq_error.mp h with h | ⟨_, -, h⟩
        · exact .binding s (.inr hnew) (hs.unionFails h)
        · cases h
      · next hnew =>
        rcases Except.bind_eq_error.mp h with h | ⟨_, -, h⟩
        · rcases hs.paramBody h with ⟨s', tail', heq, h⟩ | h
          · cases heq
            exact .labelled s ⟨hthis, hnew⟩ h
          · exact .unlabelled h
        · cases h
  · next hlabel =>
    rcases Except.bind_eq_error.mp h with h | ⟨_, -, h⟩
    · rcases hs.paramBody h with ⟨s, tail, rfl, -⟩ | h
      · exact absurd rfl (hlabel s tail)
      · exact .unlabelled h
    · cases h

theorem arguments (hs : Failing n union function) {seen : List Argument}
    (h : Broken .comma (fun _ => TypeExpr.argument union function) seen ts e) :
    Fails n .arguments ts e := by
  induction h with
  | first h => exact .firstArgument (hs.argument h)
  | later h _ ih => exact .laterArgument (hs.toSound.argument h) ih

theorem signature (hs : Failing n union function)
    (h : signature union function (.name "function" :: .openParen :: ts) = .error e) :
    Fails (n + 1) .function (.name "function" :: .openParen :: ts) e := by
  rcases Except.bind_eq_error.mp h with h | ⟨⟨args, mid⟩, hargs, h⟩
  · unfold TypeExpr.arguments at h
    split at h
    · cases h
    · exact .arguments (hs.arguments (.of_separated h))
  · rcases Except.bind_eq_error.mp h with hopen | ⟨after, hclose, hcolon⟩
    · obtain ⟨hhead, rfl⟩ := expect_eq_error hopen
      rcases arguments_eq_ok.mp hargs with ⟨-, hend, -⟩ | ⟨-, hargs⟩
      · exact absurd hend hhead
      · exact .argumentsEnd (hs.toSound.arguments (.of_separated hargs))
    · obtain rfl := expect_eq_ok.mp hclose
      obtain ⟨tail, rfl, hread⟩ := colon_eq_error (ofArguments args) hcolon
      have hresult : Fails n .result (.colon :: tail) e := .result (hs.modified hread)
      rcases arguments_eq_ok.mp hargs with ⟨hnone, -, -⟩ | ⟨-, hargs⟩
      · obtain rfl : ts = _ := hnone
        exact .noArguments hresult
      · exact .function (hs.toSound.arguments (.of_separated hargs)) hresult

end Failing

/-- Every level fails as the grammar tells. -/
theorem nested_failing (n : Nat) : Failing n (nested n .union) (nested n .function) := by
  induction n with
  | zero =>
    refine ⟨nested_sound 0, ?_, ?_⟩
    · intro _ _ h
      cases h
      exact .unionTooDeep
    · intro _ _ h
      cases h
      exact .functionTooDeep
  | succ n ih =>
    refine ⟨nested_sound (n + 1), ?_, ?_⟩
    · intro _ _ h
      rcases Except.bind_eq_error.mp h with h | ⟨_, -, h⟩
      · exact .union (ih.alternatives (.of_separated h))
      · cases h
    · intro _ _ h
      exact ih.signature h

/-- A failure in the type itself, or tokens that are left over behind one. -/
theorem ofTokens_eq_error {levels : Nat} {tokens : List Token} {e : Failure}
    (h : ofTokens levels tokens = .error e) :
    Fails levels .union tokens e ∨
      Derives levels .union tokens e.rest ∧ e.rest ≠ [] ∧ e.cause = .leftover := by
  unfold ofTokens at h
  split at h
  · cases h
  · rcases Except.bind_eq_error.mp h with h | ⟨⟨t, rest⟩, hread, h⟩
    · exact .inl ((nested_failing levels).unionFails h)
    · dsimp only at h
      split at h
      · cases h
      · next hrest =>
        cases h
        exact .inr ⟨(nested_sound levels).ofUnion hread, by simpa using hrest, rfl⟩

end DocComment.TypeExpr
