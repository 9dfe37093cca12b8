import DocComment.Proofs.TypeExpr.Completion
import DocComment.Proofs.TypeExpr.Lookahead
import DocComment.TypeExpr.Literal

/-!
The token that an error names is the first that is wrong: what stands before it can still
become a type, and what ends with it cannot. Two errors are told otherwise. A repeated key is
reported behind the key, and a level too many before anything is read on it.
-/

namespace DocComment.TypeExpr

/-- What stands before this token begins a type that is read with so many levels. With the
token it does not, unless this is the end. -/
structure FirstWrong (levels : Nat) (tokens : List Token) (i : Nat) : Prop where
  bound : i ≤ tokens.length
  begins : ∃ more t, ofTokens levels (tokens.take i ++ more) = .ok t
  ends : i < tokens.length → ∀ more t, ofTokens levels (tokens.take (i + 1) ++ more) ≠ .ok t

/-- There is only one such token. -/
theorem FirstWrong.unique {levels : Nat} {tokens : List Token} {i j : Nat}
    (hi : FirstWrong levels tokens i) (hj : FirstWrong levels tokens j) : i = j := by
  have hle {i j : Nat} (hi : FirstWrong levels tokens i) (hj : FirstWrong levels tokens j) :
      j ≤ i := by
    by_contra hlt
    obtain ⟨more, t, hok⟩ := hj.begins
    obtain ⟨between, hbetween⟩ : tokens.take (i + 1) <+: tokens.take j :=
      List.take_prefix_take_left (by omega)
    rw [← hbetween, List.append_assoc] at hok
    exact hi.ends (by have := hj.bound; omega) _ t hok
  exact Nat.le_antisymm (hle hj hi) (hle hi hj)

theorem positionOf_append {lexemes : List Lexeme} {front rest : List Token}
    (h : lexemes.map (·.token) = front ++ rest) (size : Nat) :
    positionOf lexemes size rest =
      (lexemes[front.length]?.map (·.position)).getD size := by
  have hlen := congrArg List.length h
  rw [List.length_map, List.length_append] at hlen
  have hfront : lexemes.length - rest.length = front.length := by omega
  rw [positionOf, hfront]
  cases lexemes[front.length]? <;> rfl

theorem head?_of_append {lexemes : List Lexeme} {front rest : List Token}
    (h : lexemes.map (·.token) = front ++ rest) :
    rest.head? = lexemes[front.length]?.map (·.token) := by
  rw [← List.getElem?_map, h, List.getElem?_append_right (Nat.le_refl _), Nat.sub_self,
    List.head?_eq_getElem?]

theorem firstWrong_of_error {levels : Nat} {front : List Token} {failure : Failure}
    (h : ofTokens levels (front ++ failure.rest) = .error failure)
    (hdeep : failure.cause ≠ .tooDeep)
    (hok : ∃ more t, ofTokens levels (front ++ more) = .ok t) :
    FirstWrong levels (front ++ failure.rest) front.length := by
  refine ⟨by simp, by simpa using hok, fun hlt more t => ?_⟩
  obtain ⟨cause, rest⟩ := failure
  cases rest with
  | nil => simp at hlt
  | cons token rest =>
    have hfront : (front ++ token :: rest).take (front.length + 1) = front ++ [token] :=
      List.take_length_add_append 1
    rw [hfront, List.append_assoc, List.singleton_append, ofTokens_error_stable h hdeep]
    exact nofun

/-- Errors stand at the first token that is wrong, also where it is the end of a literal. -/
theorem ofTokens_error_exact (limit : Limit) (lexemes : List Lexeme) (failure : Failure)
    (h : ofTokens limit.levels (lexemes.map (·.token)) = .error failure)
    (hdeep : failure.cause ≠ .tooDeep) (hkey : ∀ key, failure.cause ≠ .duplicateKey key) :
    ∃ i, FirstWrong limit.levels (lexemes.map (·.token)) i ∧
      (∀ size, positionOf lexemes size failure.rest =
        (lexemes[i]?.map (·.position)).getD size) ∧
      ∀ literal, lex literal.toList = .ok lexemes → parse limit literal =
        .error ⟨literal, (lexemes[i]?.map (·.position)).getD literal.toList.length,
          .grammar failure.cause (lexemes[i]?.map (·.token)) limit⟩ := by
  obtain ⟨front, htokens, hok⟩ := exists_completion h hdeep hkey
  refine ⟨front.length, ?_, positionOf_append htokens, fun literal hlex => ?_⟩
  · rw [htokens] at h ⊢
    exact firstWrong_of_error h hdeep hok
  · simp only [parse, hlex, h]
    rw [positionOf_append htokens, head?_of_append htokens]

/-- A second name where the parameters should end. -/
theorem ofTokens_error_exact_function :
    let lexemes : List Lexeme :=
      [⟨.name "function", 0⟩, ⟨.openParen, 8⟩, ⟨.name "a", 9⟩, ⟨.name "b", 11⟩,
        ⟨.closeParen, 12⟩]
    let failure : Failure := ⟨.unclosedSignature, [.name "b", .closeParen]⟩
    ofTokens 2 (lexemes.map (·.token)) = .error failure ∧
      FirstWrong 2 (lexemes.map (·.token)) 3 ∧ positionOf lexemes 13 failure.rest = 11 ∧
      parse (.ofNat 2) "function(a b)" = .error ⟨"function(a b)", 11,
        .grammar .unclosedSignature (some (.name "b")) (.ofNat 2)⟩ := by
  intro lexemes failure
  have hread : ofTokens 2 (lexemes.map (·.token)) = .error failure := by decide +kernel
  have hlex : lex "function(a b)".toList = .ok lexemes := by decide +kernel
  obtain ⟨i, hwrong, hposition, hparse⟩ := ofTokens_error_exact (.ofNat 2) lexemes failure hread
    (by decide) (fun _ => nofun)
  have hfound := hposition 13
  have hi : i = 3 := by
    have honly : ∀ j ≤ 5, (lexemes[j]?.map (·.position)).getD 13 = 11 → j = 3 := by decide
    exact honly i hwrong.bound hfound.symm
  subst i
  exact ⟨hread, hwrong, hfound, hparse _ hlex⟩

end DocComment.TypeExpr
