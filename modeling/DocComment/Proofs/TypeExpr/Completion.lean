import DocComment.Proofs.TypeExpr.Completeness
import DocComment.Proofs.TypeExpr.Failing

/-!
What stands before a failure can be completed to a type, unless a level too many was opened or
a key was repeated. The part that failed ends where any operand may end, so those around it can
be completed after it, one by one. No level is opened on the way.
-/

namespace DocComment.TypeExpr

/-- What followed a part may be replaced by something that starts with the same token, or by
what ends an operand anyway. -/
def Replaces (after rest : List Token) : Prop :=
  after.head? = rest.head? ∨ Follows terminators after

theorem Replaces.follows {after rest : List Token} (h : Replaces after rest)
    (hr : ∀ t ∈ rest.head?, t ∈ terminators) : Follows terminators after := by
  rcases h with h | h
  · intro t ht
    exact hr t (h ▸ ht)
  · exact h

/-- A derivation with other tokens behind it. -/
def Movable (n : Nat) (symbol : Symbol) (ts rest : List Token) : Prop :=
  ∃ front, ts = front ++ rest ∧
    ∀ after, Replaces after rest → Derives n symbol (front ++ after) after

section

variable {n m : Nat} {symbol inner later : Symbol} {ts mid rest : List Token}

/-- One part, with some tokens before it. -/
theorem Movable.within (before : List Token)
    (build : ∀ {ts rest}, Derives n inner ts rest → Derives m symbol (before ++ ts) rest)
    (h : Movable n inner ts rest) : Movable m symbol (before ++ ts) rest := by
  obtain ⟨front, rfl, hd⟩ := h
  refine ⟨before ++ front, by simp, fun after ha => ?_⟩
  rw [List.append_assoc]
  exact build (hd after ha)

/-- One part, with a token of its own behind it. -/
theorem Movable.closed (before : List Token) {token : Token}
    (build : ∀ {ts rest}, Derives n inner ts (token :: rest) →
      Derives m symbol (before ++ ts) rest)
    (h : Movable n inner ts (token :: rest)) : Movable m symbol (before ++ ts) rest := by
  obtain ⟨front, rfl, hd⟩ := h
  refine ⟨before ++ (front ++ [token]), by simp, fun after _ => ?_⟩
  simpa using build (hd (token :: after) (.inl rfl))

/-- Two parts, with a token between them. -/
theorem Movable.joined (before : List Token) {token : Token}
    (build : ∀ {ts mid rest}, Derives n inner ts (token :: mid) → Derives n later mid rest →
      Derives m symbol (before ++ ts) rest)
    (h : Movable n inner ts (token :: mid)) (h' : Movable n later mid rest) :
    Movable m symbol (before ++ ts) rest := by
  obtain ⟨front, rfl, hd⟩ := h
  obtain ⟨back, rfl, hd'⟩ := h'
  refine ⟨before ++ (front ++ token :: back), by simp, fun after ha => ?_⟩
  have hjoined := build (hd (token :: (back ++ after)) (.inl rfl)) (hd' after ha)
  simpa using hjoined

/-- Nothing but the tokens themselves. -/
theorem Movable.tokens (before : List Token)
    (build : ∀ rest, Derives n symbol (before ++ rest) rest) :
    Movable n symbol (before ++ rest) rest :=
  ⟨before, rfl, fun after _ => build after⟩

end

theorem Derives.movable {n : Nat} {symbol : Symbol} {ts rest : List Token}
    (h : Derives n symbol ts rest) : Movable n symbol ts rest := by
  induction h with
  | union _ ih => exact ih.within [] .union
  | lastAlternative _ ih => exact ih.within [] .lastAlternative
  | moreAlternatives _ _ ih ih' => exact ih.joined [] .moreAlternatives ih'
  | required _ ih => exact ih.within [] .required
  | optional _ ih => exact ih.closed [] .optional
  | modifier t ht _ ih => exact ih.within [t] (.modifier t ht)
  | unmodified _ ih => exact ih.within [] .unmodified
  | suffixed k marks hm _ ih =>
    obtain ⟨front, rfl, hd⟩ := ih
    refine ⟨front ++ (arrays k ++ marks), by simp, fun after ha => ?_⟩
    rw [List.append_assoc, List.append_assoc]
    refine .suffixed k marks hm (hd _ ?_)
    rcases ha with ha | ha
    · exact .inl (by simp only [List.head?_append, ha])
    · cases k with
      | zero =>
        cases marks with
        | nil => exact .inr ha
        | cons => exact .inl rfl
      | succ => exact .inl rfl
  | bare hr => exact ⟨[.question], rfl, fun after ha => .bare (ha.follows hr)⟩
  | name s => exact .tokens [.name s] fun _ => .name s
  | generic s t ht _ ih => exact ih.closed [.name s, t] (.generic s t ht)
  | star => exact .tokens [.star] fun _ => .star
  | string s => exact .tokens [.string s] fun _ => .string s
  | number s => exact .tokens [.number s] fun _ => .number s
  | emptyRecord => exact .tokens [.openBrace, .closeBrace] fun _ => .emptyRecord
  | record keys hk _ ih => exact ih.closed [.openBrace] (.record keys hk)
  | called _ ih => exact ih.within [] .called
  | group _ ih => exact ih.closed [.openParen] .group
  | lastType _ ih => exact ih.within [] .lastType
  | moreTypes _ _ ih ih' => exact ih.joined [] .moreTypes ih'
  | lastEntry t key hk _ ih => exact ih.within [t] (.lastEntry t key hk)
  | moreEntries t key keys hk _ _ ih ih' =>
    exact ih.joined [t] (.moreEntries t key keys hk) ih'
  | noValue => exact .tokens [] fun _ => .noValue
  | value _ ih => exact ih.within [.colon] .value
  | noArguments _ ih =>
    exact ih.within [.name "function", .openParen, .closeParen] .noArguments
  | function _ _ ih ih' => exact ih.joined [.name "function", .openParen] .function ih'
  | lastArgument _ ih => exact ih.within [] .lastArgument
  | moreArguments _ _ ih ih' => exact ih.joined [] .moreArguments ih'
  | binding s hs _ ih => exact ih.within [.name s, .colon] (.binding s hs)
  | unlabelled _ ih => exact ih.within [] .unlabelled
  | labelled s hs _ ih => exact ih.within [.name s, .colon] (.labelled s hs)
  | variadic _ ih => exact ih.within [.ellipsis] .variadic
  | labelledVariadic s _ ih => exact ih.within [.ellipsis, .name s, .colon] (.labelledVariadic s)
  | noResult => exact .tokens [] fun _ => .noResult
  | result _ ih => exact ih.within [.colon] .result

/-- The tokens before the rest, with more behind them, are a part in front of whatever may end
an operand. -/
def Completable (n : Nat) (symbol : Symbol) (ts rest : List Token) : Prop :=
  ∃ front more, ts = front ++ rest ∧
    ∀ after, Follows terminators after → Derives n symbol (front ++ (more ++ after)) after

section

variable {n m : Nat} {symbol inner later : Symbol} {ts mid rest : List Token}

theorem Completable.within (before : List Token)
    (build : ∀ {ts rest}, Derives n inner ts rest → Derives m symbol (before ++ ts) rest)
    (h : Completable n inner ts rest) : Completable m symbol (before ++ ts) rest := by
  obtain ⟨front, more, rfl, hd⟩ := h
  refine ⟨before ++ front, more, by simp, fun after ha => ?_⟩
  rw [List.append_assoc]
  exact build (hd after ha)

theorem Completable.closed (before : List Token) {token : Token} (ht : token ∈ terminators)
    (build : ∀ {ts rest}, Derives n inner ts (token :: rest) →
      Derives m symbol (before ++ ts) rest)
    (h : Completable n inner ts rest) : Completable m symbol (before ++ ts) rest := by
  obtain ⟨front, more, rfl, hd⟩ := h
  refine ⟨before ++ front, more ++ [token], by simp, fun after _ => ?_⟩
  simpa using build (hd (token :: after) (.cons ht))

theorem Completable.joined (before : List Token) {token : Token}
    (build : ∀ {ts mid rest}, Derives n inner ts (token :: mid) → Derives n later mid rest →
      Derives m symbol (before ++ ts) rest)
    (h : Movable n inner ts (token :: mid)) (h' : Completable n later mid rest) :
    Completable m symbol (before ++ ts) rest := by
  obtain ⟨front, rfl, hd⟩ := h
  obtain ⟨back, more, rfl, hd'⟩ := h'
  refine ⟨before ++ (front ++ token :: back), more, by simp, fun after ha => ?_⟩
  have hjoined := build (hd (token :: (back ++ (more ++ after))) (.inl rfl)) (hd' after ha)
  simpa using hjoined

/-- Only the token at the end is missing. -/
theorem Movable.completable (before : List Token) {token : Token} (ht : token ∈ terminators)
    (build : ∀ {ts rest}, Derives n inner ts (token :: rest) →
      Derives m symbol (before ++ ts) rest)
    (h : Movable n inner ts rest) : Completable m symbol (before ++ ts) rest := by
  obtain ⟨front, rfl, hd⟩ := h
  refine ⟨before ++ front, [token], by simp, fun after _ => ?_⟩
  simpa using build (hd (token :: after) (.inr (.cons ht)))

end

theorem arrays_concat (k : Nat) : arrays (k + 1) = arrays k ++ [.openBracket, .closeBracket] := by
  simp [arrays, List.replicate_succ']

theorem completable_bracket {n k : Nat} {ts rest : List Token}
    (h : Movable n .primary ts (arrays k ++ .openBracket :: rest)) :
    Completable n .suffixed ts rest := by
  obtain ⟨front, rfl, hd⟩ := h
  refine ⟨front ++ (arrays k ++ [.openBracket]), [.closeBracket], by simp, fun after ha => ?_⟩
  have hhead : (arrays (k + 1) ++ ([] ++ after)).head? =
      (arrays k ++ .openBracket :: rest).head? := by
    cases k <;> rfl
  have hread : Derives n .suffixed (front ++ (arrays (k + 1) ++ ([] ++ after))) after :=
    .suffixed (k + 1) [] (by simp) (hd _ (.inl hhead))
  rw [arrays_concat] at hread
  simpa using hread

/-- Every text is a key, in quotes. -/
theorem exists_key (key : String) : ∃ t : Token, t.key? = some key :=
  ⟨.string (String.ofList ('"' :: (key.toList ++ ['"']))), by simp [Token.key?]⟩

theorem completable_key {n : Nat} {ts : List Token} (key : String) :
    Completable n (.entries [key]) ts ts := by
  obtain ⟨t, ht⟩ := exists_key key
  exact ⟨[], [t], rfl, fun _ _ => .lastEntry t key ht .noValue⟩

/-- Whatever failed can be completed, but for the two failures that no tokens mend. -/
theorem Fails.completable {n : Nat} {symbol : Symbol} {ts : List Token} {e : Failure}
    (h : Fails n symbol ts e) (hdeep : e.cause ≠ .tooDeep)
    (hkey : ∀ key, e.cause ≠ .duplicateKey key) : Completable n symbol ts e.rest := by
  induction h with
  | unionTooDeep | functionTooDeep => exact absurd rfl hdeep
  | duplicateKey _ key => exact absurd rfl (hkey key)
  | noType => exact ⟨[], [.star], rfl, fun _ _ => .star⟩
  | malformedKey key => exact completable_key key
  | bracket k hread => exact completable_bracket hread.movable
  | union _ ih => exact (ih hdeep hkey).within [] .union
  | firstAlternative _ ih => exact (ih hdeep hkey).within [] .lastAlternative
  | laterAlternative hread _ ih =>
    exact .joined [] .moreAlternatives hread.movable (ih hdeep hkey)
  | alternative _ ih => exact (ih hdeep hkey).within [] .required
  | modifier t ht _ ih => exact (ih hdeep hkey).within [t] (.modifier t ht)
  | unmodified _ ih => exact (ih hdeep hkey).within [] .unmodified
  | suffixed _ ih => exact (ih hdeep hkey).within [] fun hd => .suffixed 0 [] (by simp) hd
  | generic s t ht _ ih => exact (ih hdeep hkey).closed [.name s, t] (by decide) (.generic s t ht)
  | genericEnd s t ht hread =>
    exact hread.movable.completable [.name s, t] (by decide) (.generic s t ht)
  | record keys hk _ ih =>
    exact (ih hdeep hkey).closed [.openBrace] (by decide) (.record keys hk)
  | recordEnd keys hk hread =>
    exact hread.movable.completable [.openBrace] (by decide) (.record keys hk)
  | called _ ih => exact (ih hdeep hkey).within [] .called
  | group _ ih => exact (ih hdeep hkey).closed [.openParen] (by decide) .group
  | groupEnd hread => exact hread.movable.completable [.openParen] (by decide) .group
  | firstType _ ih => exact (ih hdeep hkey).within [] .lastType
  | laterType hread _ ih => exact .joined [] .moreTypes hread.movable (ih hdeep hkey)
  | lastEntry t key hk _ ih => exact (ih hdeep hkey).within [t] (.lastEntry t key hk)
  | laterEntry t key keys hk hread _ ih =>
    exact .joined [t] (.moreEntries t key keys hk) hread.movable (ih hdeep hkey)
  | value _ ih => exact (ih hdeep hkey).within [.colon] .value
  | arguments _ ih =>
    exact (ih hdeep hkey).closed [.name "function", .openParen] (by decide)
      fun hd => .function hd .noResult
  | argumentsEnd hread =>
    exact hread.movable.completable [.name "function", .openParen] (by decide)
      fun hd => .function hd .noResult
  | noArguments _ ih =>
    exact (ih hdeep hkey).within [.name "function", .openParen, .closeParen] .noArguments
  | function hread _ ih =>
    exact .joined [.name "function", .openParen] .function hread.movable (ih hdeep hkey)
  | firstArgument _ ih => exact (ih hdeep hkey).within [] .lastArgument
  | laterArgument hread _ ih => exact .joined [] .moreArguments hread.movable (ih hdeep hkey)
  | binding s hs _ ih => exact (ih hdeep hkey).within [.name s, .colon] (.binding s hs)
  | unlabelled _ ih => exact (ih hdeep hkey).within [] .unlabelled
  | labelled s hs _ ih => exact (ih hdeep hkey).within [.name s, .colon] (.labelled s hs)
  | variadic _ ih => exact (ih hdeep hkey).within [.ellipsis] .variadic
  | labelledVariadic s _ ih =>
    exact (ih hdeep hkey).within [.ellipsis, .name s, .colon] (.labelledVariadic s)
  | result _ ih => exact (ih hdeep hkey).within [.colon] .result

/-- The tokens before a failure begin a type that is read with the same levels. -/
theorem exists_completion {levels : Nat} {tokens : List Token} {e : Failure}
    (h : ofTokens levels tokens = .error e) (hdeep : e.cause ≠ .tooDeep)
    (hkey : ∀ key, e.cause ≠ .duplicateKey key) :
    ∃ front, tokens = front ++ e.rest ∧ ∃ more t, ofTokens levels (front ++ more) = .ok t := by
  have hread {sentence : List Token} (hd : Derives levels .union sentence []) :
      ∃ t, ofTokens levels sentence = .ok t := by
    by_cases hnil : sentence = []
    · exact ⟨.record [], by rw [hnil]; rfl⟩
    · obtain ⟨t, ht⟩ := hd.accepted (by simp [Follows])
      exact ⟨t, (ofTokens_eq_ok hnil).mpr ht⟩
  rcases ofTokens_eq_error h with hfails | ⟨hd, -, -⟩
  · obtain ⟨front, more, htokens, hd⟩ := hfails.completable hdeep hkey
    have hsentence := hd [] (by simp [Follows])
    rw [List.append_nil] at hsentence
    exact ⟨front, htokens, more, hread hsentence⟩
  · obtain ⟨front, htokens, hd⟩ := hd.movable
    exact ⟨front, htokens, [], hread (hd [] (.inr (by simp [Follows])))⟩

end DocComment.TypeExpr
