import DocComment.Proofs.TypeExpr.Scanning

/-!
What stands behind a token decides where the token ends, and two characters of it are enough
for that. So the text behind a token may be exchanged for any other that offers no more to go
on with: for white space, for a mark, or for the same text spread out.
-/

namespace DocComment.TypeExpr

open Text

/-- A character behind which a word goes on if a character of a word follows. -/
def isJoint (c : Char) : Bool := isSeparator c || c == ':'

/-- A character that a word or a number may go on with. -/
def goesOn (c : Char) : Bool := isPathChar c || isDigit c

/-- What the second text could lengthen a token by, the first one starts with as well. -/
structure Tamer (s s' : List Char) : Prop where
  head {c rest} : s' = c :: rest → goesOn c = true → ∃ more, s = c :: more
  next {c d rest} : s' = c :: d :: rest → isJoint c = true → goesOn d = true →
    ∃ more, s = c :: d :: more

theorem goesOn_of_isDigit {c : Char} (h : isDigit c = true) : goesOn c = true := by
  simp [goesOn, h]

theorem goesOn_of_isPathChar {c : Char} (h : isPathChar c = true) : goesOn c = true := by
  simp [goesOn, h]

theorem goesOn_of_isNameChar {c : Char} (h : isNameChar c = true) : goesOn c = true := by
  simp [goesOn, isPathChar, h]

theorem goesOn_of_isNameStart {c : Char} (h : isNameStart c = true) : goesOn c = true :=
  goesOn_of_isNameChar (isNameChar_of_isNameStart h)

theorem goesOn_of_isBlank {c : Char} (h : isBlank c = true) : goesOn c = false := by
  have hdigit : isDigit c = false := by
    refine Bool.eq_false_iff.mpr fun hd => ?_
    rw [isBlank_of_isDigit hd] at h
    cases h
  have hother : c ≠ '$' ∧ c ≠ '/' ∧ c ≠ '-' ∧ c ≠ '#' ∧ c ≠ '~' := by
    refine ⟨?_, ?_, ?_, ?_, ?_⟩ <;> rintro rfl <;> cases h
  simp [goesOn, isPathChar, isNameChar, isWord_of_isBlank h, hdigit, hother]

theorem isJoint_of_isBlank {c : Char} (h : isBlank c = true) : isJoint c = false := by
  have hother : c ≠ '#' ∧ c ≠ '~' ∧ c ≠ '.' ∧ c ≠ ':' := by
    refine ⟨?_, ?_, ?_, ?_⟩ <;> rintro rfl <;> cases h
  simp [isJoint, isSeparator, hother]

namespace Tamer

variable {s s' : List Char}

theorem refl (s : List Char) : Tamer s s :=
  ⟨fun h _ => ⟨_, h⟩, fun h _ _ => ⟨_, h⟩⟩

/-- A text that starts with no character of a word, and with no joint before one. -/
theorem of_neutral (hhead : startsWith goesOn s' = false)
    (hnext : ∀ c rest, s' = c :: rest → isJoint c = true → startsWith goesOn rest = false) :
    Tamer s s' := by
  refine ⟨fun e hc => ?_, fun e hc hd => ?_⟩
  · subst s'
    exact absurd hc (Bool.eq_false_iff.mp hhead)
  · exact absurd hd (Bool.eq_false_iff.mp (hnext _ _ e hc))

theorem nil : Tamer s [] := of_neutral rfl (by simp)

theorem blank {c : Char} (h : isBlank c = true) : Tamer s (c :: s') := by
  refine of_neutral (goesOn_of_isBlank h) fun d rest e hd => ?_
  obtain ⟨rfl, -⟩ := List.cons.inj e
  rw [isJoint_of_isBlank h] at hd
  cases hd

/-- Behind a mark that joins nothing it makes no difference what comes. -/
theorem mark {c : Char} (h : goesOn c = false) (hj : isJoint c = false) :
    Tamer s (c :: s') := by
  refine of_neutral h fun d rest e hd => ?_
  obtain ⟨rfl, -⟩ := List.cons.inj e
  rw [hj] at hd
  cases hd

theorem dotLess : Tamer s ('.' :: '<' :: s') := by
  have hmark : goesOn '.' = false ∧ goesOn '<' = false := by decide
  refine of_neutral hmark.1 fun c rest e _ => ?_
  obtain ⟨-, rfl⟩ := List.cons.inj e
  exact hmark.2

theorem append_left (h : Tamer s s') (w : List Char) : Tamer (w ++ s) (w ++ s') := by
  match w with
  | [] => exact h
  | [c] =>
    refine ⟨fun e _ => ⟨s, by rw [← (List.cons.inj e).1]; rfl⟩, fun e _ hd => ?_⟩
    obtain ⟨hc, e⟩ := List.cons.inj e
    obtain ⟨more, rfl⟩ := h.head e hd
    exact ⟨more, by rw [← hc]; rfl⟩
  | c :: d :: w =>
    refine ⟨fun e _ => ⟨d :: w ++ s, by rw [← (List.cons.inj e).1]; rfl⟩, fun e _ _ => ?_⟩
    obtain ⟨hc, e⟩ := List.cons.inj e
    exact ⟨w ++ s, by rw [← hc, ← (List.cons.inj e).1]; rfl⟩

theorem of_append (h : Tamer [] s') : Tamer s (s ++ s') := by
  simpa using h.append_left s

theorem of_opening (h : s' <+: s) : Tamer s s' := by
  obtain ⟨more, rfl⟩ := h
  simpa using (nil (s := more)).append_left s'

/-! What is told by one character of a word is told of the tamer text only if it was told of
the other. -/

theorem startsWith {p : Char → Bool} (h : Tamer s s')
    (hp : ∀ {c}, p c = true → goesOn c = true) (hs : startsWith p s = false) :
    startsWith p s' = false := by
  cases s' with
  | nil => rfl
  | cons c rest =>
    refine Bool.eq_false_iff.mpr fun hc => ?_
    obtain ⟨more, rfl⟩ := h.head rfl (hp hc)
    exact absurd hc (Bool.eq_false_iff.mp hs)

theorem behind {p : Char → Bool} (h : Tamer s s') (hp : ∀ {c}, p c = true → goesOn c = true)
    {c : Char} {rest : List Char} (hc : isJoint c = true) (e : s' = c :: rest)
    (hr : TypeExpr.startsWith p rest = true) :
    ∃ more, s = c :: more ∧ TypeExpr.startsWith p more = true := by
  cases rest with
  | nil => cases hr
  | cons d rest =>
    obtain ⟨more, rfl⟩ := h.next e hc (hp hr)
    exact ⟨_, rfl, hr⟩

end Tamer

/-! ### Words that end -/

theorem spanName_eq_nil_iff {s : List Char} :
    spanName s = ([], s) ↔ startsWith isNameChar s = false ∧
      ∀ c rest, s = c :: rest → isSeparator c = true → startsWith isNameStart rest = false := by
  cases s with
  | nil => simp [spanName, startsWith]
  | cons c rest =>
    by_cases h : (isNameChar c || (isSeparator c && startsWith isNameStart rest)) = true
    · simp only [spanName, h, if_true, Prod.mk.injEq, reduceCtorEq, false_and, false_iff, not_and]
      intro hc hs
      have hc : isNameChar c = false := hc
      simp only [hc, Bool.false_or, Bool.and_eq_true] at h
      rw [hs c rest rfl h.1] at h
      cases h.2
    · have h' := Bool.or_eq_false_iff.mp (Bool.eq_false_iff.mpr h)
      simp only [spanName, if_neg h, true_iff]
      refine ⟨h'.1, fun d tail e hd => ?_⟩
      obtain ⟨rfl, rfl⟩ := List.cons.inj e
      simpa [hd] using h'.2

theorem spanPath_eq_nil_iff {s : List Char} :
    spanPath s = ([], s) ↔ startsWith isPathChar s = false ∧
      ∀ rest, s = '.' :: rest → startsWith isPathChar rest = false := by
  cases s with
  | nil => simp [spanPath, startsWith]
  | cons c rest =>
    by_cases h : (isPathChar c || (c == '.' && startsWith isPathChar rest)) = true
    · simp only [spanPath, h, if_true, Prod.mk.injEq, reduceCtorEq, false_and, false_iff, not_and]
      intro hc hs
      have hc : isPathChar c = false := hc
      simp only [hc, Bool.false_or, Bool.and_eq_true, beq_iff_eq] at h
      rw [hs rest (by rw [h.1])] at h
      cases h.2
    · have h' := Bool.or_eq_false_iff.mp (Bool.eq_false_iff.mpr h)
      simp only [spanPath, if_neg h, true_iff]
      refine ⟨h'.1, fun tail e => ?_⟩
      obtain ⟨rfl, rfl⟩ := List.cons.inj e
      simpa using h'.2

theorem spanName_rest (cs : List Char) : spanName (spanName cs).2 = ([], (spanName cs).2) := by
  fun_induction spanName cs with
  | case1 => rfl
  | case2 c rest hc ih => exact ih
  | case3 c rest hc => simp only [spanName, if_neg hc]

theorem spanPath_rest (cs : List Char) : spanPath (spanPath cs).2 = ([], (spanPath cs).2) := by
  fun_induction spanPath cs with
  | case1 => rfl
  | case2 c rest hc ih => exact ih
  | case3 c rest hc => simp only [spanPath, if_neg hc]

theorem startsWith_dropWhile (p : Char → Bool) (cs : List Char) :
    startsWith p (cs.dropWhile p) = false := by
  induction cs with
  | nil => rfl
  | cons c cs ih =>
    by_cases hc : p c = true
    · rwa [List.dropWhile_cons_of_pos hc]
    · rw [List.dropWhile_cons_of_neg hc]
      exact Bool.eq_false_iff.mpr hc

theorem spanNumber_rest (cs : List Char) : EndsNumber (spanNumber cs).1 (spanNumber cs).2 := by
  unfold spanNumber
  split
  · next rest e =>
    split
    · exact ⟨startsWith_dropWhile _ rest, fun hdot => absurd (by simp) hdot⟩
    · next hs =>
      refine ⟨by change isDigit '.' = false; decide, fun _ rest' e' => ?_⟩
      obtain ⟨-, rfl⟩ := List.cons.inj e'
      exact Bool.eq_false_iff.mpr hs
  · next hne => exact ⟨startsWith_dropWhile _ cs, fun _ rest e => absurd e (hne rest)⟩

theorem scanPath_rest {label cs rest : List Char} {t : Token}
    (h : scanPath label cs = some (t, rest)) : spanPath rest = ([], rest) := by
  unfold scanPath at h
  split at h
  · cases h
  · split at h
    · obtain ⟨-, rfl⟩ := Prod.mk.inj (Option.some.inj h)
      exact spanPath_rest _
    · cases h

theorem scanName_rest {cs rest : List Char} {t : Token} (h : scanName cs = some (t, rest)) :
    spanName rest = ([], rest) := by
  unfold scanName at h
  split at h
  · obtain ⟨-, rfl⟩ := Prod.mk.inj (Option.some.inj h)
    exact spanName_rest cs
  · cases h

theorem scanNumber_rest {cs rest : List Char} {t : Token} (h : scanNumber cs = some (t, rest)) :
    EndsNumber t.text.toList rest := by
  unfold scanNumber at h
  split at h
  · cases h
  · next c cs =>
    split at h
    · split at h
      · obtain ⟨rfl, rfl⟩ := Prod.mk.inj (Option.some.inj h)
        simpa [EndsNumber, Token.text] using spanNumber_rest cs
      · cases h
    · split at h
      · obtain ⟨rfl, rfl⟩ := Prod.mk.inj (Option.some.inj h)
        simpa [EndsNumber, Token.text] using spanNumber_rest (c :: cs)
      · cases h

theorem spanName_tamer {s s' : List Char} (h : spanName s = ([], s)) (ht : Tamer s s') :
    spanName s' = ([], s') := by
  obtain ⟨hhead, hnext⟩ := spanName_eq_nil_iff.mp h
  refine spanName_eq_nil_iff.mpr ⟨ht.startsWith goesOn_of_isNameChar hhead, ?_⟩
  intro c rest e hc
  refine Bool.eq_false_iff.mpr fun hr => ?_
  obtain ⟨more, es, hmore⟩ := ht.behind goesOn_of_isNameStart (by simp [isJoint, hc]) e hr
  exact absurd hmore (Bool.eq_false_iff.mp (hnext c more es hc))

theorem spanPath_tamer {s s' : List Char} (h : spanPath s = ([], s)) (ht : Tamer s s') :
    spanPath s' = ([], s') := by
  obtain ⟨hhead, hnext⟩ := spanPath_eq_nil_iff.mp h
  refine spanPath_eq_nil_iff.mpr ⟨ht.startsWith goesOn_of_isPathChar hhead, fun rest e => ?_⟩
  refine Bool.eq_false_iff.mpr fun hr => ?_
  obtain ⟨more, es, hmore⟩ := ht.behind goesOn_of_isPathChar (by decide) e hr
  exact absurd hmore (Bool.eq_false_iff.mp (hnext more es))

theorem EndsNumber.tamer {word s s' : List Char} (h : EndsNumber word s) (ht : Tamer s s') :
    EndsNumber word s' := by
  refine ⟨ht.startsWith goesOn_of_isDigit h.1, fun hdot rest e => ?_⟩
  refine Bool.eq_false_iff.mpr fun hr => ?_
  obtain ⟨more, es, hmore⟩ := ht.behind goesOn_of_isDigit (by decide) e hr
  exact absurd hmore (Bool.eq_false_iff.mp (h.2 hdot more es))

/-- A word that is no label stays none. -/
theorem scanPath_tamer {word s s' : List Char} (hw : ':' ∉ word)
    (hs : spanName s' = ([], s')) (ht : Tamer s s')
    (h : ∀ label ∈ namespaces, scanPath label (word ++ s) = none) :
    ∀ label ∈ namespaces, scanPath label (word ++ s') = none := by
  intro label hl
  have hname : startsWith isNameStart s' = false := by
    have hfirst := (spanName_eq_nil_iff.mp hs).1
    cases s' with
    | nil => rfl
    | cons c s' =>
      refine Bool.eq_false_iff.mpr fun hc => ?_
      exact absurd (isNameChar_of_isNameStart hc) (Bool.eq_false_iff.mp hfirst)
  cases hfound : label.isPrefixOf? (word ++ s') with
  | none => simp [scanPath, hfound]
  | some rest =>
    obtain ⟨rfl, rfl⟩ := label_of_word hl hw hname hfound
    have hrest : startsWith isPathChar rest = false := by
      refine Bool.eq_false_iff.mpr fun hr => ?_
      obtain ⟨more, rfl, hmore⟩ := ht.behind goesOn_of_isPathChar (by decide) rfl hr
      have hself := isPrefixOf?_self (word ++ [':']) more
      rw [List.append_assoc] at hself
      have hpath := h _ hl
      simp only [scanPath, List.singleton_append] at hpath hself
      rw [hself] at hpath
      simp [hmore] at hpath
    simp [scanPath, hfound, hrest]

/-- A token that was cut off is cut off again before any tamer text. -/
theorem scan_tamer {t : Token} {s s' : List Char} (h : scan (t.text.toList ++ s) = some (t, s))
    (ht : Tamer s s') : scan (t.text.toList ++ s') = some (t, s') := by
  rcases scan_cases h with ⟨label, hl, h⟩ | ⟨hp, h⟩ | h | h | h
  · exact scanPath_again hl h (spanPath_tamer (scanPath_rest h) ht)
  · have hs' := spanName_tamer (scanName_rest h) ht
    exact scanName_again h hs' (scanPath_tamer (colon_notMem_of_scanName h) hs' ht hp)
  · exact scanString_again h s'
  · exact scanNumber_again h ((scanNumber_rest h).tamer ht)
  · exact scanMark_again h s'

end DocComment.TypeExpr
