import DocComment.Proofs.TypeExpr.Failing
import DocComment.Proofs.TypeExpr.Levels

/-!
More levels than it takes make no difference to what is read. A level that is opened takes a
token, but for the first one, so a limit that is not below the number of tokens, the end among
them, is never met. What a caller sees of an error is its message, the literal and the position.
-/

namespace DocComment.TypeExpr

/-- The tokens that are taken at least before a level is opened within a symbol. -/
def Symbol.lead : Symbol → Nat
  | .union | .types => 0
  | _ => 1

/-- Where a level too many is opened, the others have taken their tokens. -/
theorem Fails.levels_le {n : Nat} {symbol : Symbol} {ts : List Token} {e : Failure}
    (h : Fails n symbol ts e) (hd : e.cause = .tooDeep) : n + symbol.lead ≤ ts.length := by
  induction h with
  | unionTooDeep => exact Nat.zero_le _
  | functionTooDeep => simp [Symbol.lead]
  | bracket | noType | genericEnd | recordEnd | groupEnd | malformedKey | duplicateKey
  | argumentsEnd => cases hd
  | union _ ih => exact ih hd
  | firstAlternative _ ih | alternative _ ih | unmodified _ ih | suffixed _ ih | called _ ih
  | firstType _ ih | firstArgument _ ih | unlabelled _ ih => exact ih hd
  | modifier _ _ _ ih | generic _ _ _ _ ih | record _ _ _ ih | group _ ih | lastEntry _ _ _ _ ih
  | value _ ih | arguments _ ih | noArguments _ ih | binding _ _ _ ih | labelled _ _ _ ih
  | variadic _ ih | labelledVariadic _ _ ih | result _ ih =>
    have := ih hd
    simp only [Symbol.lead, List.length_cons] at this ⊢
    omega
  | laterAlternative hread _ ih | laterType hread _ ih | laterArgument hread _ ih
  | laterEntry _ _ _ _ hread _ ih | function hread _ ih =>
    have hmid := hread.suffix.length_le
    have := ih hd
    simp only [Symbol.lead, List.length_cons] at this hmid ⊢
    omega

/-- As many levels as there are tokens, the end among them, are enough. -/
theorem ofTokens_ne_tooDeep {levels : Nat} {tokens : List Token} (h : tokens.length < levels)
    (rest : List Token) : ofTokens levels tokens ≠ .error ⟨.tooDeep, rest⟩ := by
  intro herror
  rcases ofTokens_eq_error herror with hfails | ⟨-, -, hcause⟩
  · have := hfails.levels_le rfl
    omega
  · cases hcause

def SyntaxError.told (e : SyntaxError) : String × String × Nat :=
  (e.message, e.literal, e.position)

/-- The type that is read, or what a caller sees of the error. -/
def outcome (limit : Limit) (literal : String) : Except (String × String × Nat) TypeExpr :=
  (parse limit literal).mapError SyntaxError.told

/-- Only one message tells of the limit. -/
theorem Cause.message_limit {cause : Cause} (h : cause ≠ .tooDeep) (found : Option Token)
    (limit limit' : Limit) : cause.message found limit = cause.message found limit' := by
  cases cause with
  | tooDeep => exact absurd rfl h
  | _ => rfl

theorem ofTokens_of_exceeds {limit : Limit} {literal : String} (h : Exceeds limit literal) :
    ∃ lexemes rest, lex literal.toList = .ok lexemes ∧
      ofTokens limit.levels (lexemes.map (·.token)) = .error ⟨.tooDeep, rest⟩ := by
  obtain ⟨e, found, hparse, hproblem⟩ := h
  unfold parse at hparse
  split at hparse
  · cases hparse
    cases hproblem
  · next lexemes hlex =>
    split at hparse
    · cases hparse
    · next failure hread =>
      cases hparse
      obtain ⟨cause, rest⟩ := failure
      cases hproblem
      exact ⟨lexemes, rest, hlex, hread⟩

/-- A limit that cuts nothing off might as well be higher. -/
theorem outcome_of_le {limit limit' : Limit} {literal : String}
    (hle : limit.levels ≤ limit'.levels) (hlimit : ¬ Exceeds limit literal) :
    outcome limit literal = outcome limit' literal := by
  unfold outcome parse
  cases hlex : lex literal.toList with
  | error stray => rfl
  | ok lexemes =>
    rcases ofTokens_cutOff hle (lexemes.map (·.token)) with hsame | ⟨rest, hcut⟩
    · dsimp only
      rw [← hsame]
      cases hread : ofTokens limit.levels (lexemes.map (·.token)) with
      | ok t => rfl
      | error failure =>
        obtain ⟨cause, rest⟩ := failure
        have hcause : cause ≠ .tooDeep := by
          rintro rfl
          exact hlimit (exceeds_of_ofTokens hlex hread)
        simp [Except.mapError, SyntaxError.told, SyntaxError.message,
          Cause.message_limit hcause rest.head? limit limit']
    · exact absurd (exceeds_of_ofTokens hlex hcut) hlimit

theorem outcome_eq_ok {limit : Limit} {literal : String} {t : TypeExpr} :
    outcome limit literal = .ok t ↔ parse limit literal = .ok t := by
  unfold outcome
  cases parse limit literal <;> simp [Except.mapError]

theorem not_exceeds_of_parse {limit : Limit} {literal : String} {t : TypeExpr}
    (h : parse limit literal = .ok t) : ¬ Exceeds limit literal := by
  rintro ⟨e, _, he, -⟩
  rw [h] at he
  cases he

/-- The limit only cuts off. What is read is read with every higher limit, and what fails for
another reason fails there for the same reason. With as many levels as tokens, the end counted
as one, nothing is cut off, and which limit it is makes no difference. -/
theorem outcome_limits (limit limit' : Limit) (literal : String) :
    (limit.levels ≤ limit'.levels →
        (∀ t, parse limit literal = .ok t → parse limit' literal = .ok t) ∧
          ∀ e, parse limit literal = .error e → ¬ Exceeds limit literal →
            ∃ e', parse limit' literal = .error e' ∧ e'.told = e.told) ∧
      ((∀ lexemes, lex literal.toList = .ok lexemes →
          lexemes.length + 1 ≤ limit.levels ∧ lexemes.length + 1 ≤ limit'.levels) →
        outcome limit literal = outcome limit' literal ∧
          ¬ Exceeds limit literal ∧ ¬ Exceeds limit' literal) := by
  refine ⟨fun hle => ⟨fun t ht => ?_, fun e he hlimit => ?_⟩, fun htokens => ?_⟩
  · rw [← outcome_eq_ok, ← outcome_of_le hle (not_exceeds_of_parse ht)]
    exact outcome_eq_ok.mpr ht
  · have hsame := outcome_of_le hle hlimit
    unfold outcome at hsame
    rw [he] at hsame
    cases he' : parse limit' literal with
    | ok t =>
      rw [he'] at hsame
      cases hsame
    | error e' =>
      rw [he'] at hsame
      exact ⟨e', rfl, (Except.error.inj hsame).symm⟩
  · have henough {l : Limit}
        (hl : ∀ lexemes, lex literal.toList = .ok lexemes → lexemes.length + 1 ≤ l.levels) :
        ¬ Exceeds l literal := by
      intro hexceeds
      obtain ⟨lexemes, rest, hlex, hread⟩ := ofTokens_of_exceeds hexceeds
      refine ofTokens_ne_tooDeep ?_ rest hread
      rw [List.length_map]
      exact hl lexemes hlex
    have hlimit := henough fun lexemes hlex => (htokens lexemes hlex).1
    have hlimit' := henough fun lexemes hlex => (htokens lexemes hlex).2
    refine ⟨?_, hlimit, hlimit'⟩
    rcases Nat.le_total limit.levels limit'.levels with hle | hle
    · exact outcome_of_le hle hlimit
    · exact (outcome_of_le hle hlimit').symm

/-- Three levels are enough to find that a bracket is missing, and six are as many as there are
tokens. -/
theorem outcome_limits_unclosed :
    let literal := "Set<(a b"
    let lexemes : List Lexeme :=
      [⟨.name "Set", 0⟩, ⟨.less, 3⟩, ⟨.openParen, 4⟩, ⟨.name "a", 5⟩, ⟨.name "b", 7⟩]
    let e : SyntaxError := ⟨literal, 7, .grammar .unclosedParen (some (.name "b")) (.ofNat 3)⟩
    (parse (.ofNat 3) literal = .error e ∧ ¬ Exceeds (.ofNat 3) literal ∧
        ∃ e', parse (.ofNat 64) literal = .error e' ∧ e'.told = e.told) ∧
      lex literal.toList = .ok lexemes ∧ lexemes.length + 1 = 6 ∧
        outcome (.ofNat 6) literal = outcome (.ofNat 64) literal := by
  intro literal lexemes e
  have hread : parse (.ofNat 3) literal = .error e := by decide +kernel
  have hlex : lex literal.toList = .ok lexemes := by decide +kernel
  have hlimit : ¬ Exceeds (.ofNat 3) literal := by
    rintro ⟨e', found, he, hproblem⟩
    rw [hread] at he
    cases he
    cases hproblem
  have hhigher := (outcome_limits (.ofNat 3) (.ofNat 64) literal).1 (by decide)
  have henough := (outcome_limits (.ofNat 6) (.ofNat 64) literal).2 fun lexemes' hlex' => by
    rw [hlex] at hlex'
    cases hlex'
    decide
  exact ⟨⟨hread, hlimit, hhigher.2 e hread hlimit⟩, hlex, rfl, henough.1⟩

end DocComment.TypeExpr
