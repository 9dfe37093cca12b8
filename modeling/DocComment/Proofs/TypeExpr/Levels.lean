import DocComment.Proofs.TypeExpr.Cutoff
import DocComment.Proofs.TypeExpr.Nesting
import DocComment.Proofs.TypeExpr.RoundTrip

/-!
The levels that it takes to read the text of a type. Its canonical tokens are read with as many
as the type nests, and not with fewer, since no arrays are left in them. So a type may take more
levels when it is read again than it took before: those that its arrays did not open.
-/

namespace DocComment.TypeExpr

theorem notMem_intercalate {u mark : Token} (hm : u ≠ mark) {lists : List (List Token)}
    (h : ∀ ts ∈ lists, u ∉ ts) : u ∉ [mark].intercalate lists := by
  induction lists with
  | nil => simp
  | cons ts lists ih =>
    obtain ⟨hts, hlists⟩ := List.forall_mem_cons.mp h
    cases lists with
    | nil => simpa using hts
    | cons us lists => simpa [List.intercalate_cons_cons, hts, hm] using ih hlists

mutual

/-- No array is printed as one. -/
theorem openBracket_notMem_tokens : (t : TypeExpr) → .openBracket ∉ tokens t
  | .name s => by simp [tokens]
  | .all | .unknown => by simp [tokens]
  | .literal s => by
    unfold tokens literalToken
    split <;> simp
  | .union elements => by
    rw [tokens]
    exact notMem_intercalate (by decide) (openBracket_notMem_tokensEach elements)
  | .group inner | .optional inner | .nullable inner .after | .nonNullable inner .after
  | .nullable inner .before | .nonNullable inner .before | .variadic inner => by
    simpa [tokens] using openBracket_notMem_tokens inner
  | .generic head params => by
    simpa [tokens] using notMem_intercalate (by decide) (openBracket_notMem_tokensEach params)
  | .field key value => by
    have hkey : Token.openBracket ≠ keyToken key := by
      unfold keyToken
      split
      · split <;> simp
      · simp
    simpa [tokens, hkey] using openBracket_notMem_tokensAfter value
  | .record fields => by
    simpa [tokens] using notMem_intercalate (by decide) (openBracket_notMem_tokensEach fields)
  | .parameter label inner => by
    simpa [tokens] using openBracket_notMem_tokens inner
  | .function params result receiver built => by
    have hargs : .openBracket ∉ [Token.comma].intercalate
        (tokensBinding "this" receiver ++ (tokensBinding "new" built ++ tokensEach params)) := by
      refine notMem_intercalate (by decide) ?_
      rw [List.forall_mem_append, List.forall_mem_append]
      exact ⟨openBracket_notMem_tokensBinding "this" receiver,
        openBracket_notMem_tokensBinding "new" built, openBracket_notMem_tokensEach params⟩
    simpa [tokens] using ⟨hargs, openBracket_notMem_tokensAfter result⟩

theorem openBracket_notMem_tokensEach : (ts : List TypeExpr) →
    ∀ us ∈ tokensEach ts, .openBracket ∉ us
  | [] => by simp [tokensEach]
  | t :: ts => by
    rw [tokensEach, List.forall_mem_cons]
    exact ⟨openBracket_notMem_tokens t, openBracket_notMem_tokensEach ts⟩

theorem openBracket_notMem_tokensAfter : (o : Option TypeExpr) → .openBracket ∉ tokensAfter o
  | none => by simp [tokensAfter]
  | some t => by simpa [tokensAfter] using openBracket_notMem_tokens t

theorem openBracket_notMem_tokensBinding (label : String) : (o : Option TypeExpr) →
    ∀ us ∈ tokensBinding label o, .openBracket ∉ us
  | none => by simp [tokensBinding]
  | some t => by simpa [tokensBinding] using openBracket_notMem_tokens t

end

/-- Only the empty record is read from nothing, and it has its braces. -/
theorem Shape.tokens_ne_nil {P : Token → Prop} {t : TypeExpr} (h : Shape P .union t) :
    tokens t ≠ [] := by
  intro e
  have hread := ofTokens_tokens_of_nesting_lt h (Nat.lt_succ_self _)
  rw [e] at hread
  obtain rfl : .record [] = t := Except.ok.inj hread
  cases e

/-- The canonical tokens of a type are not read with fewer levels than it takes, and the limit
is why. -/
theorem ofTokens_tokens_of_le_nesting {P : Token → Prop} {t : TypeExpr} (h : Shape P .union t)
    {levels : Nat} (hl : levels ≤ nesting t) :
    ∃ rest, ofTokens levels (tokens t) = .error ⟨.tooDeep, rest⟩ := by
  have hread := ofTokens_tokens_of_nesting_lt h (Nat.lt_succ_self _)
  rcases ofTokens_cutOff (Nat.le_succ_of_le hl) (tokens t) with hsame | hcut
  · rw [hread] at hsame
    have hfits := (nested_bounded levels).unionFits ((ofTokens_eq_ok h.tokens_ne_nil).mp hsame)
    have hcount : opened (tokens t) = 0 := List.count_eq_zero.mpr (openBracket_notMem_tokens t)
    unfold Fits at hfits
    omega
  · exact hcut

/-- Reading the literal fails because it opens more levels than the limit allows. -/
def Exceeds (limit : Limit) (literal : String) : Prop :=
  ∃ e found, parse limit literal = .error e ∧ e.problem = .grammar .tooDeep found limit

theorem exceeds_of_ofTokens {limit : Limit} {literal : String} {lexemes : List Lexeme}
    {rest : List Token} (hlex : lex literal.toList = .ok lexemes)
    (h : ofTokens limit.levels (lexemes.map (·.token)) = .error ⟨.tooDeep, rest⟩) :
    Exceeds limit literal := by
  refine ⟨⟨literal, positionOf lexemes literal.toList.length rest,
    .grammar .tooDeep rest.head? limit⟩, rest.head?, ?_, rfl⟩
  unfold parse
  rw [hlex]
  dsimp only
  rw [h]

/-- What was read nests no deeper than its levels and its arrays make it. -/
theorem nesting_of_parse {limit : Limit} {literal : String} {t : TypeExpr}
    (h : parse limit literal = .ok t) (hlimit : 1 ≤ limit.levels) :
    ∃ lexemes, lex literal.toList = .ok lexemes ∧
      nesting t < limit.levels + opened (lexemes.map (·.token)) := by
  obtain ⟨lexemes, hlex, ht⟩ := parse_eq_ok.mp h
  refine ⟨lexemes, hlex, ?_⟩
  by_cases hne : lexemes.map (·.token) = []
  · rw [hne] at ht
    obtain rfl : .record [] = t := Except.ok.inj ht
    exact Nat.lt_of_lt_of_le hlimit (Nat.le_add_right _ _)
  · have hfits := (nested_bounded limit.levels).unionFits ((ofTokens_eq_ok hne).mp ht)
    unfold Fits at hfits
    omega

/-- The text of a type that was read takes one level more than the type nests: with that it is
read again, and with less it exceeds the limit. That is not more than the type was read with,
but for the arrays in the literal, of which each may take one level more. -/
theorem parse_print_levels {limit : Limit} {literal : String} {t : TypeExpr}
    (h : parse limit literal = .ok t) (hlimit : 1 ≤ limit.levels)
    (hkeys : ∀ key value, .field key value ∈ t.subtrees → looseQuote key.toList = false)
    (hlabels : ∀ label inner, .parameter label inner ∈ t.subtrees →
      label = "module" ∨ label = "external" ∨ label = "event" →
        startsWith isPathChar inner.print.toList = false) :
    (∃ lexemes, lex literal.toList = .ok lexemes ∧
        nesting t < limit.levels + opened (lexemes.map (·.token))) ∧
      ∀ limit' : Limit, (nesting t < limit'.levels → parse limit' t.print = .ok t) ∧
        (limit'.levels ≤ nesting t → Exceeds limit' t.print) := by
  have hshape := parse_shape h
  obtain ⟨lexemes, hlex, htokens⟩ := lex_eq_tokens h ⟨hkeys, hlabels⟩
  refine ⟨nesting_of_parse h hlimit, fun limit' => ⟨fun hl => ?_, fun hl => ?_⟩⟩
  · refine parse_eq_ok.mpr ⟨lexemes, hlex, ?_⟩
    rw [htokens]
    exact ofTokens_tokens_of_nesting_lt hshape hl
  · obtain ⟨rest, hrest⟩ := ofTokens_tokens_of_le_nesting hshape hl
    exact exceeds_of_ofTokens hlex (by rw [htokens]; exact hrest)

/-- Three levels are enough for the literal, and its text takes one more for the array. -/
theorem parse_print_levels_array :
    let t : TypeExpr := .generic "Set" [.generic "Array" [.group (.name "a")]]
    parse (.ofNat 3) "Set<(a)[]>" = .ok t ∧
      (∃ lexemes, lex "Set<(a)[]>".toList = .ok lexemes ∧
        3 < 3 + opened (lexemes.map (·.token))) ∧
      ∀ limit' : Limit, (3 < limit'.levels → parse limit' t.print = .ok t) ∧
        (limit'.levels ≤ 3 → Exceeds limit' t.print) := by
  intro t
  have h : parse (.ofNat 3) "Set<(a)[]>" = .ok t := by decide +kernel
  refine ⟨h, parse_print_levels h (by decide) ?_ ?_⟩
  · intro key value hm
    simp [t, subtrees, subtreesEach] at hm
  · intro label inner hm
    simp [t, subtrees, subtreesEach] at hm

/-- An array takes a level in its text that it did not take before, and a key may end early in
its text, so that the rest of it is read as a type. -/
theorem parse_print_exceeds :
    let array : TypeExpr := .generic "Array" [.name "a"]
    let quoted : TypeExpr := .record [.field "\": x, \"" none]
    (parse (.ofNat 1) "a[]" = .ok array ∧ Exceeds (.ofNat 1) array.print) ∧
      parse (.ofNat 1) "\x7b'\": x, \"'\x7d" = .ok quoted ∧ Exceeds (.ofNat 1) quoted.print := by
  intro array quoted
  have harray : parse (.ofNat 1) array.print =
      .error ⟨"Array.<a>", 7, .grammar .tooDeep (some (.name "a")) (.ofNat 1)⟩ := by decide +kernel
  have hquoted : parse (.ofNat 1) quoted.print =
      .error ⟨"\x7b\"\": x, \"\"\x7d", 5, .grammar .tooDeep (some (.name "x")) (.ofNat 1)⟩ := by
    decide +kernel
  exact ⟨⟨by decide +kernel, _, _, harray, rfl⟩, by decide +kernel, _, _, hquoted, rfl⟩

end DocComment.TypeExpr
