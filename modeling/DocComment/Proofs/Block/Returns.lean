import DocComment.Block.Extract
import DocComment.Block.Validity
import DocComment.Proofs.Block.Declaration
import DocComment.Proofs.Block.Spans
import DocComment.Proofs.Text.Classes

/-!
Blocks of a source with carriage returns before its line feeds. They are the blocks of the
source without them, with the same lines and the same code after them. A block stays valid, but
a directive behind an ornament of several lines is only found without the carriage returns.
-/

namespace DocComment

open Text

namespace Block

variable {cs cs' : List Char}

/-- The two parts of a text that is cut. -/
def CutReturns (cut cut' : List Char × List Char) : Prop :=
  Returns cut.1 cut'.1 ∧ Returns cut.2 cut'.2

theorem closeComment_cons {c : Char} {cs : List Char} (h : c = '*' → ∀ rest, cs ≠ '/' :: rest) :
    closeComment (c :: cs) = (closeComment cs).map fun cut => (c :: cut.1, cut.2) := by
  conv_lhs => unfold closeComment
  split
  · next heq => cases heq
  · next rest heq =>
    cases heq
    exact absurd rfl (h rfl rest)
  · next heq =>
    cases heq
    rfl

theorem closeComment_returns (h : Returns cs cs') :
    Option.Rel CutReturns (closeComment cs) (closeComment cs') := by
  induction h with
  | nil => exact .none
  | @char c cs cs' hc rest ih =>
    by_cases hclose : c = '*' ∧ ∃ more, cs = '/' :: more
    · obtain ⟨rfl, more, rfl⟩ := hclose
      cases rest with
      | char _ rest => exact .some ⟨.char (by decide) (.char (by decide) .nil), rest⟩
    · have hopen : c = '*' → ∀ more, cs ≠ '/' :: more := fun hstar more hm =>
        hclose ⟨hstar, more, hm⟩
      have hopen' : c = '*' → ∀ more, cs' ≠ '/' :: more := by
        rintro hstar more rfl
        cases rest with
        | char _ rest => exact hopen hstar _ rfl
      rw [closeComment_cons hopen, closeComment_cons hopen']
      exact rel_map ih fun _ _ hcut => ⟨.char hc hcut.1, hcut.2⟩
  | newline rest ih =>
    have hother {d : Char} (hd : d ≠ '*') (more : List Char) :
        d = '*' → ∀ rest, more ≠ '/' :: rest := fun hstar => absurd hstar hd
    rw [closeComment_cons (hother (by decide) _), closeComment_cons (hother (by decide) _),
      closeComment_cons (hother (by decide) _), Option.map_map]
    exact rel_map ih fun _ _ hcut => ⟨.newline hcut.1, hcut.2⟩

theorem atFront_open {cs : List Char} (h : ∀ rest, cs ≠ '/' :: rest) :
    atFront ('/' :: '*' :: cs) =
      (closeComment cs).map fun cut => ('/' :: '*' :: cut.1, cut.2) := by
  unfold atFront
  split
  · next rest heq =>
    cases heq
    exact absurd rfl (h rest)
  · next heq =>
    cases heq
    rfl
  · next hne => exact absurd rfl (hne cs)

theorem atFront_eq_none {cs : List Char} (h : ∀ rest, cs ≠ '/' :: '*' :: rest) :
    atFront cs = none := by
  unfold atFront
  split
  · rfl
  · next rest _ => exact absurd rfl (h rest)
  · rfl

/-- Both texts open a comment with the same signs, or neither does. -/
theorem atFront_returns (h : Returns cs cs') :
    Option.Rel CutReturns (atFront cs) (atFront cs') := by
  by_cases hopens : ∃ rest, cs = '/' :: '*' :: rest
  · obtain ⟨rest, rfl⟩ := hopens
    have hcut : '/' :: '*' :: rest = ['/', '*'] ++ rest := rfl
    rw [hcut] at h
    obtain ⟨front, rest', rfl, hfront, hrest⟩ := h.of_append
    obtain rfl := hfront.eq_of_notMem (by decide)
    by_cases hslash : ∃ more, rest = '/' :: more
    · obtain ⟨more, rfl⟩ := hslash
      cases hrest with
      | char _ _ => exact .none
    · have hopen : ∀ more, rest ≠ '/' :: more := fun more hm => hslash ⟨more, hm⟩
      have hopen' : ∀ more, rest' ≠ '/' :: more := by
        rintro more rfl
        cases hrest with
        | char _ rest => exact hopen _ rfl
      rw [List.cons_append, List.cons_append, List.nil_append, atFront_open hopen,
        atFront_open hopen']
      exact rel_map (closeComment_returns hrest) fun _ _ hcut => ⟨hfront.append hcut.1, hcut.2⟩
  · have hopen : ∀ rest, cs ≠ '/' :: '*' :: rest := fun rest hr => hopens ⟨rest, hr⟩
    have hopen' : ∀ rest, cs' ≠ '/' :: '*' :: rest := by
      rintro rest rfl
      cases h with
      | char _ h =>
        cases h with
        | char _ h => exact hopen _ rfl
    rw [atFront_eq_none hopen, atFront_eq_none hopen']
    exact .none

/-- The same comment in two sources, one with carriage returns. -/
structure Span.Counterpart (span span' : Span) : Prop where
  newlines : span'.newlines = span.newlines
  raw : Returns span.raw span'.raw
  after : Returns span.after span'.after

theorem spansFrom_of_some {start newlines : Nat} {raw after : List Char}
    (h : atFront cs = some (raw, after)) :
    spansFrom start newlines cs = ⟨start, newlines, raw, after⟩ ::
      spansFrom (start + raw.length) (newlines + newlinesIn raw) after := by
  rw [spansFrom]
  split
  · next h' =>
    rw [h] at h'
    cases h'
    rfl
  · next h' =>
    rw [h] at h'
    cases h'

theorem spansFrom_of_none {start newlines : Nat} {c : Char} (h : atFront (c :: cs) = none) :
    spansFrom start newlines (c :: cs) =
      spansFrom (start + 1) (newlines + newlinesIn [c]) cs := by
  rw [spansFrom]
  split
  · next h' =>
    rw [h] at h'
    cases h'
  · rfl

theorem spansFrom_returns (start newlines : Nat) (cs : List Char) :
    ∀ start' cs', Returns cs cs' →
      List.Forall₂ Span.Counterpart (spansFrom start newlines cs)
        (spansFrom start' newlines cs') := by
  fun_induction spansFrom start newlines cs with
  | case1 start newlines cs raw after h ih =>
    intro start' cs' hreturns
    have hfront := atFront_returns hreturns
    rw [h] at hfront
    cases hfront' : atFront cs' with
    | none =>
      rw [hfront'] at hfront
      cases hfront
    | some cut =>
      rw [hfront'] at hfront
      cases hfront with
      | some hcut =>
        have hsame : newlinesIn cut.1 = newlinesIn raw := hcut.1.newlines
        rw [spansFrom_of_some hfront', hsame]
        exact .cons ⟨rfl, hcut.1, hcut.2⟩ (ih _ _ hcut.2)
  | case2 start newlines h =>
    intro start' cs' hreturns
    cases hreturns
    rw [spansFrom]
    exact .nil
  | case3 start newlines c rest h ih =>
    intro start' cs' hreturns
    have hfront := atFront_returns hreturns
    rw [h] at hfront
    cases hfront' : atFront cs' with
    | some cut =>
      rw [hfront'] at hfront
      cases hfront
    | none =>
      cases hreturns with
      | char _ hrest =>
        rw [spansFrom_of_none hfront']
        exact ih _ _ hrest
      | newline hrest =>
        rw [spansFrom_of_none hfront', spansFrom_of_none (atFront_eq_none (by simp))]
        exact ih _ _ hrest

theorem IsComment.eq_wrapped {raw : List Char} (h : IsComment raw) :
    ∃ inner, raw = ['/', '*'] ++ inner ++ ['*', '/'] := by
  obtain ⟨rest, rfl, -⟩ := opensAt_zero_iff.mp h.opens
  obtain ⟨back, hback⟩ := h.closes
  have hlong := h.long
  simp only [List.length_cons] at hlong hback
  have hnil : back = [] := by
    have hlength := congrArg List.length hback
    simp only [List.length_append, List.length_drop, List.length_cons] at hlength
    exact List.eq_nil_of_length_eq_zero (by simp at hlength; omega)
  refine ⟨rest.take (rest.length - 2), ?_⟩
  obtain ⟨k, hk⟩ : ∃ k, rest.length = k + 2 := ⟨rest.length - 2, by omega⟩
  rw [hnil, hk, List.append_nil] at hback
  have hdrop : rest.drop k = ['*', '/'] := by
    simpa using hback.symm
  rw [hk, Nat.add_sub_cancel, List.append_assoc, ← hdrop, List.take_append_drop]
  rfl

theorem bodyOf_wrapped (inner : List Char) :
    bodyOf (['/', '*'] ++ inner ++ ['*', '/']) = withoutMark '!' (withoutMark '*' inner) := by
  have hdrop : ((['/', '*'] ++ inner ++ ['*', '/']).drop 2).dropLast.dropLast = inner := by
    have happend : inner ++ ['*', '/'] = inner ++ ['*'] ++ ['/'] := by simp
    rw [List.append_assoc, happend]
    exact (congrArg List.dropLast List.dropLast_concat).trans List.dropLast_concat
  rw [bodyOf, hdrop]
  split
  · next rest hbang =>
    split at hbang
    · cases hbang
      rfl
    · next hstar =>
      rw [withoutMark_of_ne hstar, hbang]
      rfl
  · next hbang =>
    split at hbang
    · exact (withoutMark_of_ne hbang).symm
    · next hstar => rw [withoutMark_of_ne hstar, withoutMark_of_ne hbang]

theorem bodyOf_returns {raw raw' : List Char} (hc : IsComment raw) (h : Returns raw raw') :
    Returns (bodyOf raw) (bodyOf raw') := by
  obtain ⟨inner, rfl⟩ := hc.eq_wrapped
  obtain ⟨front, back, rfl, hfront, hback⟩ := h.of_append
  obtain ⟨opening, inner', rfl, hopening, hinner⟩ := hfront.of_append
  obtain rfl := hopening.eq_of_notMem (by decide)
  obtain rfl := hback.eq_of_notMem (by decide)
  rw [bodyOf_wrapped, bodyOf_wrapped]
  exact (hinner.withoutMark (by decide) (by decide)).withoutMark (by decide) (by decide)

/-- The same block in two sources, one with carriage returns. -/
structure Counterpart (b b' : Block) : Prop where
  raw : Returns b.raw.toList b'.raw.toList
  value : Returns b.value.toList b'.value.toList
  body : b'.value.toList = bodyOf b'.raw.toList
  code : b'.code = b.code
  lines : b'.location.map (fun l => (l.startLine, l.endLine)) =
    b.location.map fun l => (l.startLine, l.endLine)

theorem extract_returns {source source' : String} (h : Returns source.toList source'.toList) :
    List.Forall₂ Counterpart (extract source) (extract source') := by
  have hcomments : ∀ span ∈ spans source.toList, IsComment span.raw := fun span hm =>
    (spansFrom_fits rfl rfl span hm : span.Fits ([] ++ source.toList)).comment
  have hspans := (List.forall₂_and_left ..).mpr ⟨hcomments, spansFrom_returns 0 0 _ 0 _ h⟩
  have hblock {span span' : Span} (hc : IsComment span.raw) (hs : span.Counterpart span') :
      Counterpart span.toBlock span'.toBlock := by
    have hlines : newlinesIn span'.raw = newlinesIn span.raw := hs.raw.newlines
    refine ⟨?_, ?_, ?_, ?_, ?_⟩
    · simpa [Span.toBlock] using hs.raw
    · simpa [Span.toBlock] using bodyOf_returns hc hs.raw
    · simp [Span.toBlock]
    · simp only [Span.toBlock, hs.newlines, hlines]
      exact CodeContext.ofText?_returns hs.after _
    · simp only [Span.toBlock, hs.newlines, hlines, Option.map_some]
  rw [extract, extract, List.forall₂_map_left_iff, List.forall₂_map_right_iff]
  exact hspans.imp fun _ _ hs => hblock hs.1 hs.2

/-! ### Validity -/

theorem isDocumentation_counterpart {b b' : Block} (h : Counterpart b b') :
    isDocumentation b'.raw = isDocumentation b.raw := by
  have hopening := h.raw.trimStart
  have hempty : (trimStart b'.raw.toList = "/**/".toList) =
      (trimStart b.raw.toList = "/**/".toList) :=
    propext (hopening.eq_iff (by decide) (by decide))
  simp only [isDocumentation, isPrefixOf_returns hopening (by decide : '\n' ∉ "/**".toList)
    (by decide), isPrefixOf_returns hopening (by decide : '\n' ∉ "/***".toList) (by decide),
    bne, Bool.beq_eq_decide_eq, hempty]

theorem opensDirective_eq (cs : List Char) (directive : String) :
    opensDirective cs directive =
      (directive.toList.isPrefixOf? cs).any fun rest => endsWord (withoutMark 's' rest) := by
  unfold opensDirective
  split
  · next heq => rw [heq, Option.any_none]
  · next heq =>
    rw [heq]
    rfl
  · next hne heq => rw [heq, Option.any_some, withoutMark_of_ne hne]

theorem opensDirective_returns (h : Returns cs cs') {directive : String}
    (hd : directive ∈ directives) : opensDirective cs' directive = opensDirective cs directive := by
  have hplain : ∀ d ∈ directives, '\n' ∉ d.toList ∧ '\r' ∉ d.toList := by decide
  have hends {rest rest' : List Char} (h : Returns rest rest') :
      endsWord rest' = endsWord rest := by
    cases h with
    | nil => rfl
    | char => rfl
    | newline =>
      have hr : isWord '\r' = false := isWord_of_isBlank (by decide)
      have hn : isWord '\n' = false := isWord_of_isBlank (by decide)
      rw [endsWord, endsWord, hr, hn]
  have hrest := isPrefixOf?_returns h (hplain _ hd).1 (hplain _ hd).2
  rw [opensDirective_eq, opensDirective_eq]
  generalize directive.toList.isPrefixOf? cs = found at hrest ⊢
  generalize directive.toList.isPrefixOf? cs' = found' at hrest ⊢
  cases hrest with
  | none => rfl
  | some hrest => exact hends (hrest.withoutMark (by decide) (by decide))

/-- Ornaments before a carriage return are left aside as they are without it, and those behind
it are not. -/
theorem dropWhile_ornament_returns (h : Returns cs cs') :
    Returns (cs.dropWhile isOrnament) (cs'.dropWhile isOrnament) ∨
      ∃ later later', Returns later later' ∧
        cs.dropWhile isOrnament = later.dropWhile isOrnament ∧
        cs'.dropWhile isOrnament = '\r' :: '\n' :: later' := by
  induction h with
  | nil => exact .inl .nil
  | @char c cs cs' hc rest ih =>
    by_cases ho : isOrnament c = true
    · rw [List.dropWhile_cons_of_pos ho, List.dropWhile_cons_of_pos ho]
      exact ih
    · rw [List.dropWhile_cons_of_neg ho, List.dropWhile_cons_of_neg ho]
      exact .inl (.char hc rest)
  | @newline cs cs' rest ih =>
    exact .inr ⟨cs, cs', rest, List.dropWhile_cons_of_pos (by decide),
      List.dropWhile_cons_of_neg (by decide)⟩

/-- Ornaments are blanks if the first character behind blanks is no ornament. -/
theorem trimStart_dropWhile_ornament {c : Char} {rest : List Char} (h : trimStart cs = c :: rest)
    (hc : isOrnament c = false) : trimStart (cs.dropWhile isOrnament) = c :: rest := by
  induction cs with
  | nil => cases h
  | cons d cs ih =>
    by_cases ho : isOrnament d = true
    · rw [List.dropWhile_cons_of_pos ho]
      by_cases hb : isBlank d = true
      · rw [trimStart, List.dropWhile_cons_of_pos hb] at h
        exact ih h
      · rw [trimStart, List.dropWhile_cons_of_neg hb] at h
        cases h
        rw [hc] at ho
        cases ho
    · rwa [List.dropWhile_cons_of_neg ho]

/-- A directive that is found in spite of carriage returns is also found without them. -/
theorem isDirective_returns {value value' : String} (h : Returns value.toList value'.toList)
    (hd : isDirective value' = true) : isDirective value = true := by
  obtain ⟨directive, hm, hopens⟩ := List.any_eq_true.mp hd
  refine List.any_eq_true.mpr ⟨directive, hm, ?_⟩
  rcases dropWhile_ornament_returns h with hrest | ⟨later, later', hlater, hcs, hcs'⟩
  · rwa [← opensDirective_returns hrest.trimStart hm]
  · have hstart : trimStart ('\r' :: '\n' :: later') = trimStart later' := by
      rw [trimStart, List.dropWhile_cons_of_pos (by decide), List.dropWhile_cons_of_pos (by decide)]
      rfl
    rw [hcs', hstart, opensDirective_returns hlater.trimStart hm] at hopens
    rw [hcs]
    have hfirst : ∀ d ∈ directives, d.toList.head?.any (fun c => !isOrnament c) = true := by
      decide
    obtain ⟨c, hc, hornament⟩ := (Option.any_eq_true ..).mp (hfirst directive hm)
    obtain ⟨tail, htail⟩ := List.head?_eq_some_iff.mp hc
    have hfound := opensDirective_eq (trimStart later) directive ▸ hopens
    obtain ⟨rest, hprefix, -⟩ := (Option.any_eq_true ..).mp hfound
    have htext := isPrefixOf?_append hprefix
    rw [htail] at htext
    have hsame : trimStart (later.dropWhile isOrnament) = trimStart later :=
      (trimStart_dropWhile_ornament htext.symm (by simpa using hornament)).trans htext
    rwa [hsame]

/-- Whether a block is a directive once its carriage returns are left out. -/
def saysDirective (raw : String) : Bool :=
  isDirective (String.ofList (withoutReturns (bodyOf raw.toList)))

/-- With its carriage returns a block is valid where it is without them, and also where only
they hide a directive. -/
theorem isValid_counterpart {b b' : Block} (h : Counterpart b b') :
    isValid true b = (isValid true b' && !saysDirective b'.raw) := by
  have hvalid (b : Block) : isValid true b = (isDocumentation b.raw && !isDirective b.value) := by
    rw [isValid, Bool.true_or, Bool.and_true]
  have hplain : saysDirective b'.raw = isDirective b.value := by
    rw [saysDirective, ← h.body, h.value.withoutReturns_eq, String.ofList_toList]
  rw [hvalid, hvalid, isDocumentation_counterpart h, hplain, Bool.and_assoc]
  cases hd : isDirective b'.value with
  | false => rw [Bool.not_false, Bool.true_and]
  | true => rw [isDirective_returns h.value hd, Bool.not_true, Bool.false_and]

end Block

end DocComment
