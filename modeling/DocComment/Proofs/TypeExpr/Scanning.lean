import DocComment.Proofs.Text.Classes
import DocComment.TypeExpr.Printer

/-!
Scanning a token's own text gives the token back, whatever comes after it, as long as that
cannot be read as more of the token. Marks and strings are closed by themselves. Words and
numbers go on, so what may follow them is listed.
-/

namespace DocComment.TypeExpr

open Text

/-- What may stand right after a type, a record key or the word that opens a function. -/
def enders : List Char := ['|', '=', '?', '!', '(', ')', '>', ',', '\x7d']

/-- What may follow a word that is to end here. A colon would turn the word into the label of
a path if the word is one and a path comes next. -/
inductive Stop (word : List Char) : List Char → Prop where
  | nil : Stop word []
  | ender {c rest} : c ∈ enders → Stop word (c :: rest)
  | less {rest} : Stop word ('.' :: '<' :: rest)
  | colon {rest} : word ++ [':'] ∉ namespaces ∨ startsWith isPathChar rest = false →
      Stop word (':' :: rest)

/-- No word and no number goes on with a character that ends a type. -/
theorem outside_of_mem_enders {c : Char} (h : c ∈ enders) :
    (isNameChar c || isSeparator c) = false ∧ (isPathChar c || c == '.') = false ∧
      isNameStart c = false ∧ isDigit c = false ∧ c ≠ '.' := by
  simp only [enders, List.mem_cons, List.not_mem_nil, or_false] at h
  rcases h with rfl | rfl | rfl | rfl | rfl | rfl | rfl | rfl | rfl <;> decide

theorem Stop.spanName {word suffix : List Char} (h : Stop word suffix) :
    spanName suffix = ([], suffix) := by
  cases h with
  | nil => rfl
  | ender hc =>
    have := Bool.or_eq_false_iff.mp (outside_of_mem_enders hc).1
    simp [TypeExpr.spanName, this]
  | less => rfl
  | colon =>
    have : (isNameChar ':' || isSeparator ':') = false := by decide
    have := Bool.or_eq_false_iff.mp this
    simp [TypeExpr.spanName, this]

theorem Stop.spanPath {word suffix : List Char} (h : Stop word suffix) :
    spanPath suffix = ([], suffix) := by
  cases h with
  | nil => rfl
  | ender hc =>
    have := Bool.or_eq_false_iff.mp (outside_of_mem_enders hc).2.1
    simp [TypeExpr.spanPath, this]
  | less => rfl
  | colon =>
    have : (isPathChar ':' || ':' == '.') = false := by decide
    have := Bool.or_eq_false_iff.mp this
    simp [TypeExpr.spanPath, this]

theorem Stop.not_name {word suffix : List Char} (h : Stop word suffix) :
    startsWith isNameStart suffix = false := by
  cases h with
  | nil | less | colon => rfl
  | ender hc => exact (outside_of_mem_enders hc).2.2.1

/-- No digit follows a number, and no fraction unless it has one already. -/
def EndsNumber (word suffix : List Char) : Prop :=
  startsWith isDigit suffix = false ∧
    ('.' ∉ word → ∀ rest, suffix = '.' :: rest → startsWith isDigit rest = false)

theorem Stop.endsNumber {word suffix : List Char} (h : Stop word suffix) :
    EndsNumber word suffix := by
  cases h with
  | nil => exact ⟨rfl, by simp⟩
  | ender hc =>
    obtain ⟨-, -, -, hd, hdot⟩ := outside_of_mem_enders hc
    exact ⟨hd, fun _ rest e => absurd (List.cons.inj e).1 hdot⟩
  | less =>
    refine ⟨rfl, fun _ rest e => ?_⟩
    rw [← (List.cons.inj e).2]
    rfl
  | colon => exact ⟨rfl, by simp⟩

theorem startsWith_append {p : Char → Bool} {cs : List Char} (h : startsWith p cs = true)
    (suffix : List Char) : startsWith p (cs ++ suffix) = true := by
  cases cs with
  | nil => cases h
  | cons c cs => exact h

theorem startsWith_spanName {cs : List Char} (h : startsWith isNameStart cs = true) :
    startsWith isNameStart (spanName cs).1 = true := by
  cases cs with
  | nil => cases h
  | cons c cs => simpa [spanName, isNameChar_of_isNameStart h, startsWith] using h

theorem startsWith_spanPath {cs : List Char} (h : startsWith isPathChar cs = true) :
    startsWith isPathChar (spanPath cs).1 = true := by
  cases cs with
  | nil => cases h
  | cons c cs =>
    have hc : isPathChar c = true := h
    simp [spanPath, startsWith, hc]

theorem spanName_again (cs : List Char) {suffix : List Char}
    (h : spanName suffix = ([], suffix)) :
    spanName ((spanName cs).1 ++ suffix) = ((spanName cs).1, suffix) := by
  induction cs with
  | nil => exact h
  | cons c cs ih =>
    by_cases hc : (isNameChar c || (isSeparator c && startsWith isNameStart cs)) = true
    · have hc' : (isNameChar c ||
          (isSeparator c && startsWith isNameStart ((spanName cs).1 ++ suffix))) = true := by
        rcases Bool.or_eq_true_iff.mp hc with hc | hc
        · simp [hc]
        · obtain ⟨hs, hc⟩ := Bool.and_eq_true_iff.mp hc
          simp [hs, startsWith_append (startsWith_spanName hc)]
      simp only [spanName, hc, if_true, List.cons_append, hc', ih]
    · simp only [spanName, hc, Bool.false_eq_true, if_false]
      exact h

theorem spanPath_again (cs : List Char) {suffix : List Char}
    (h : spanPath suffix = ([], suffix)) :
    spanPath ((spanPath cs).1 ++ suffix) = ((spanPath cs).1, suffix) := by
  induction cs with
  | nil => exact h
  | cons c cs ih =>
    by_cases hc : (isPathChar c || (c == '.' && startsWith isPathChar cs)) = true
    · have hc' : (isPathChar c ||
          (c == '.' && startsWith isPathChar ((spanPath cs).1 ++ suffix))) = true := by
        rcases Bool.or_eq_true_iff.mp hc with hc | hc
        · simp [hc]
        · obtain ⟨hs, hc⟩ := Bool.and_eq_true_iff.mp hc
          simp [hs, startsWith_append (startsWith_spanPath hc)]
      simp only [spanPath, hc, if_true, List.cons_append, hc', ih]
    · simp only [spanPath, hc, Bool.false_eq_true, if_false]
      exact h

theorem closeQuote_cons {quote c : Char} (rest : List Char) (hc : c ≠ '\\') :
    closeQuote quote (c :: rest) =
      if c = quote then some ([c], rest)
      else (closeQuote quote rest).map fun (front, back) => (c :: front, back) := by
  rw [closeQuote]
  · simp [hc]
  · rintro d rest' e -
    exact hc e

/-- A closing quote closes the string, whatever comes after it. -/
theorem closeQuote_again {quote : Char} {cs front back : List Char} (hquote : quote ≠ '\\')
    (h : closeQuote quote cs = some (front, back)) (suffix : List Char) :
    closeQuote quote (front ++ suffix) = some (front, suffix) := by
  fun_induction closeQuote quote cs generalizing front with
  | case1 => cases h
  | case2 => cases h
  | case3 c rest hc ih =>
    obtain ⟨⟨f, b⟩, hfb, e⟩ := Option.map_eq_some_iff.mp h
    obtain ⟨rfl, rfl⟩ := Prod.mk.inj e
    simp [closeQuote, hc, ih hfb]
  | case4 rest hne =>
    obtain ⟨rfl, rfl⟩ := Prod.mk.inj (Option.some.inj h)
    simp [closeQuote_cons _ hquote]
  | case5 => cases h
  | case6 c rest hne hq hb ih =>
    obtain ⟨⟨f, b⟩, hfb, e⟩ := Option.map_eq_some_iff.mp h
    obtain ⟨rfl, rfl⟩ := Prod.mk.inj e
    simp [closeQuote_cons _ hb, hq, ih hfb]

theorem takeDigits {ds rest : List Char} (hds : ∀ d ∈ ds, isDigit d = true)
    (hr : startsWith isDigit rest = false) :
    (ds ++ rest).takeWhile isDigit = ds ∧ (ds ++ rest).dropWhile isDigit = rest := by
  rw [List.takeWhile_append_of_pos hds, List.dropWhile_append_of_pos hds]
  cases rest with
  | nil => simp
  | cons c rest =>
    have hc : isDigit c = false := hr
    simp [hc]

theorem spanNumber_whole {ds rest : List Char} (hds : ∀ d ∈ ds, isDigit d = true)
    (hr : startsWith isDigit rest = false)
    (hf : ∀ tail, rest = '.' :: tail → startsWith isDigit tail = false) :
    spanNumber (ds ++ rest) = (ds, rest) := by
  obtain ⟨ht, hd⟩ := takeDigits hds hr
  unfold spanNumber
  rw [ht, hd]
  split
  · next tail => simp [hf tail rfl]
  · rfl

theorem spanNumber_fraction {ds fs rest : List Char} (hds : ∀ d ∈ ds, isDigit d = true)
    (hfs : ∀ d ∈ fs, isDigit d = true) (hne : startsWith isDigit fs = true)
    (hr : startsWith isDigit rest = false) :
    spanNumber (ds ++ '.' :: (fs ++ rest)) = (ds ++ '.' :: fs, rest) := by
  have hdot : startsWith isDigit ('.' :: (fs ++ rest)) = false := rfl
  obtain ⟨ht, hd⟩ := takeDigits hds hdot
  obtain ⟨hft, hfd⟩ := takeDigits hfs hr
  unfold spanNumber
  rw [ht, hd]
  simp [startsWith_append hne, hft, hfd]

theorem spanNumber_again (cs : List Char) {suffix : List Char}
    (h : EndsNumber (spanNumber cs).1 suffix) :
    spanNumber ((spanNumber cs).1 ++ suffix) = ((spanNumber cs).1, suffix) := by
  have digits (cs : List Char) : ∀ d ∈ cs.takeWhile isDigit, isDigit d = true :=
    List.all_eq_true.mp (List.all_takeWhile)
  have whole (cs : List Char) : '.' ∉ cs.takeWhile isDigit := fun hm =>
    absurd (digits cs '.' hm) (by decide)
  suffices hagain : ∀ word, spanNumber cs = (word, (spanNumber cs).2) → EndsNumber word suffix →
      spanNumber (word ++ suffix) = (word, suffix) from hagain _ rfl h
  intro word e hends
  unfold spanNumber at e
  split at e
  · next rest _ =>
    split at e
    · next hs =>
      obtain ⟨rfl, -⟩ := Prod.mk.inj e
      have hne : startsWith isDigit (rest.takeWhile isDigit) = true := by
        cases rest with
        | nil => cases hs
        | cons c rest =>
          have hc : isDigit c = true := hs
          simp [startsWith, hc]
      simpa using spanNumber_fraction (digits cs) (digits rest) hne hends.1
    · obtain ⟨rfl, -⟩ := Prod.mk.inj e
      exact spanNumber_whole (digits cs) hends.1 (hends.2 (whole cs))
  · obtain ⟨rfl, -⟩ := Prod.mk.inj e
    exact spanNumber_whole (digits cs) hends.1 (hends.2 (whole cs))

/-- Every label is a word of letters and a colon. -/
theorem namespace_word {label : List Char} (h : label ∈ namespaces) :
    ∃ word, label = word ++ [':'] ∧ word ≠ [] ∧ ∀ c ∈ word, isNameStart c = true := by
  simp only [namespaces, List.mem_cons, List.not_mem_nil, or_false] at h
  rcases h with rfl | rfl | rfl
  · exact ⟨"module".toList, rfl, by decide, List.all_eq_true.mp (by decide)⟩
  · exact ⟨"external".toList, rfl, by decide, List.all_eq_true.mp (by decide)⟩
  · exact ⟨"event".toList, rfl, by decide, List.all_eq_true.mp (by decide)⟩

theorem scanPath_of_head {cs : List Char} (h : startsWith isNameStart cs = false) :
    ∀ label ∈ namespaces, scanPath label cs = none := by
  intro label hl
  obtain ⟨word, rfl, hne, hw⟩ := namespace_word hl
  unfold scanPath
  split
  · rfl
  · next rest e =>
    have e := isPrefixOf?_append e
    cases word with
    | nil => exact absurd rfl hne
    | cons c word =>
      subst cs
      have : isNameStart c = false := h
      rw [hw c List.mem_cons_self] at this
      cases this

/-- A label at the front of a word that holds no colon is the word itself, with the colon that
follows it. -/
theorem label_of_word {label word suffix rest : List Char} (hl : label ∈ namespaces)
    (hw : ':' ∉ word) (hs : startsWith isNameStart suffix = false)
    (h : label.isPrefixOf? (word ++ suffix) = some rest) :
    label = word ++ [':'] ∧ suffix = ':' :: rest := by
  obtain ⟨front, rfl, -, hfront⟩ := namespace_word hl
  have e : front ++ (':' :: rest) = word ++ suffix := by simpa using isPrefixOf?_append h
  rcases List.append_eq_append_iff.mp e with ⟨more, rfl, hm⟩ | ⟨more, rfl, hm⟩
  · cases more with
    | nil => exact ⟨by simp, by simpa using hm.symm⟩
    | cons c more =>
      obtain ⟨rfl, -⟩ := List.cons.inj hm
      simp at hw
  · cases more with
    | nil => exact ⟨by simp, by simpa using hm⟩
    | cons c more =>
      have hc := hfront c (by simp)
      rw [hm] at hs
      exact absurd hc (Bool.eq_false_iff.mp hs)

/-- A word that holds no colon reads as a path only if it is a label and a path follows. -/
theorem scanPath_word {word suffix : List Char} (hw : ':' ∉ word) (hs : Stop word suffix) :
    ∀ label ∈ namespaces, scanPath label (word ++ suffix) = none := by
  intro label hl
  unfold scanPath
  split
  · rfl
  · next rest e =>
    obtain ⟨rfl, rfl⟩ := label_of_word hl hw hs.not_name e
    cases hs with
    | ender hm => simp [enders] at hm
    | colon h =>
      rcases h with h | h
      · exact absurd hl h
      · simp [h]

theorem scan_of_paths {cs : List Char} (h : ∀ label ∈ namespaces, scanPath label cs = none) :
    scan cs = (scanName cs <|> scanString cs <|> scanNumber cs <|> scanMark cs) := by
  have : namespaces.findSome? (scanPath · cs) = none := List.findSome?_eq_none_iff.mpr h
  rw [scan, this]
  rfl

theorem mem_spanName {cs : List Char} : ∀ c ∈ (spanName cs).1, isNameChar c = true ∨
    isSeparator c = true := by
  fun_induction spanName cs with
  | case1 => simp
  | case2 c rest hc ih =>
    refine List.forall_mem_cons.mpr ⟨?_, ih⟩
    rcases Bool.or_eq_true_iff.mp hc with hc | hc
    · exact .inl hc
    · exact .inr (Bool.and_eq_true_iff.mp hc).1
  | case3 => simp

/-- No label is the start of another, so each is found by its own text. -/
theorem findSome?_label {label rest : List Char} {found : Token × List Char}
    (hl : label ∈ namespaces) (h : scanPath label (label ++ rest) = some found) :
    namespaces.findSome? (scanPath · (label ++ rest)) = some found := by
  simp only [namespaces, List.mem_cons, List.not_mem_nil, or_false] at hl
  rcases hl with rfl | rfl | rfl
  · rw [namespaces, List.findSome?_cons, h]
  · rw [namespaces, List.findSome?_cons, List.findSome?_cons, h]
    rfl
  · rw [namespaces, List.findSome?_cons, List.findSome?_cons, List.findSome?_cons, h]
    rfl

theorem scanPath_again {label cs rest : List Char} {t : Token} (hl : label ∈ namespaces)
    (h : scanPath label cs = some (t, rest)) {suffix : List Char}
    (hs : spanPath suffix = ([], suffix)) :
    scan (t.text.toList ++ suffix) = some (t, suffix) := by
  unfold scanPath at h
  split at h
  · cases h
  · next tail _ =>
    split at h
    · next hp =>
      obtain ⟨rfl, rfl⟩ := Prod.mk.inj (Option.some.inj h)
      have hagain : startsWith isPathChar ((spanPath tail).1 ++ suffix) = true :=
        startsWith_append (startsWith_spanPath hp) suffix
      have hpath : scanPath label (label ++ ((spanPath tail).1 ++ suffix)) =
          some (.name (String.ofList (label ++ (spanPath tail).1)), suffix) := by
        simp [scanPath, isPrefixOf?_self, hagain, spanPath_again tail hs]
      simp only [Token.text, String.toList_ofList, List.append_assoc]
      simp [scan, findSome?_label hl hpath]
    · cases h

theorem colon_notMem_of_scanName {cs rest : List Char} {t : Token}
    (h : scanName cs = some (t, rest)) : ':' ∉ t.text.toList := by
  unfold scanName at h
  split at h
  · obtain ⟨rfl, rfl⟩ := Prod.mk.inj (Option.some.inj h)
    simp only [Token.text, String.toList_ofList]
    exact fun hm => absurd (mem_spanName _ hm) (by decide)
  · cases h

theorem scanName_again {cs rest : List Char} {t : Token} (h : scanName cs = some (t, rest))
    {suffix : List Char} (hs : spanName suffix = ([], suffix))
    (hp : ∀ label ∈ namespaces, scanPath label (t.text.toList ++ suffix) = none) :
    scan (t.text.toList ++ suffix) = some (t, suffix) := by
  rw [scan_of_paths hp]
  unfold scanName at h
  split at h
  · next hc =>
    obtain ⟨rfl, rfl⟩ := Prod.mk.inj (Option.some.inj h)
    simp [Token.text, scanName, startsWith_append (startsWith_spanName hc), spanName_again cs hs]
  · cases h

theorem scan_of_head {cs : List Char} (h : startsWith isNameStart cs = false) :
    scan cs = (scanString cs <|> scanNumber cs <|> scanMark cs) := by
  rw [scan_of_paths (scanPath_of_head h)]
  simp [scanName, h]

theorem scanString_again {cs rest : List Char} {t : Token} (h : scanString cs = some (t, rest))
    (suffix : List Char) : scan (t.text.toList ++ suffix) = some (t, suffix) := by
  unfold scanString at h
  split at h
  · cases h
  · next quote cs =>
    split at h
    · next hq =>
      obtain ⟨⟨front, back⟩, hb, e⟩ := Option.map_eq_some_iff.mp h
      obtain ⟨rfl, rfl⟩ := Prod.mk.inj e
      simp only [Token.text, String.toList_ofList, List.cons_append]
      have hn : isNameStart quote = false ∧ quote ≠ '\\' := by
        simp only [Bool.or_eq_true, decide_eq_true_eq] at hq
        rcases hq with rfl | rfl <;> decide
      rw [scan_of_head (by exact hn.1)]
      simp [scanString, hq, closeQuote_again hn.2 hb]
    · cases h

theorem startsWith_spanNumber {cs : List Char} (h : startsWith isDigit cs = true) :
    startsWith isDigit (spanNumber cs).1 = true := by
  cases cs with
  | nil => cases h
  | cons c cs =>
    have hc : isDigit c = true := h
    unfold spanNumber
    split
    · split <;> simp [hc, startsWith]
    · simp [hc, startsWith]

theorem scan_digits {word suffix : List Char} (hw : startsWith isDigit word = true)
    (h : spanNumber (word ++ suffix) = (word, suffix)) :
    scan (word ++ suffix) = some (.number (String.ofList word), suffix) := by
  cases word with
  | nil => cases hw
  | cons c word =>
    have hc : isDigit c = true := hw
    have hn : isNameStart c = false := by
      cases hn : isNameStart c with
      | false => rfl
      | true => exact absurd hc (Bool.eq_false_iff.mp (isDigit_of_isNameStart hn))
    have hq : c ≠ '"' ∧ c ≠ '\'' ∧ c ≠ '-' := by
      refine ⟨?_, ?_, ?_⟩ <;> rintro rfl <;> cases hc
    rw [scan_of_head (by exact hn)]
    simp only [List.cons_append] at h ⊢
    simp [scanString, scanNumber, hq, hc, h]

theorem scanNumber_again {cs rest : List Char} {t : Token} (h : scanNumber cs = some (t, rest))
    {suffix : List Char} (hs : EndsNumber t.text.toList suffix) :
    scan (t.text.toList ++ suffix) = some (t, suffix) := by
  unfold scanNumber at h
  split at h
  · cases h
  · next c cs =>
    split at h
    · split at h
      · next hd =>
        obtain ⟨rfl, rfl⟩ := Prod.mk.inj (Option.some.inj h)
        have hagain := startsWith_append (startsWith_spanNumber hd) suffix
        simp only [Token.text, String.toList_ofList, List.cons_append] at hs ⊢
        have hs : EndsNumber (spanNumber cs).1 suffix := by simpa [EndsNumber] using hs
        rw [scan_of_head rfl]
        simp [scanString, scanNumber, hagain, spanNumber_again cs hs]
      · cases h
    · split at h
      · next hd =>
        obtain ⟨rfl, rfl⟩ := Prod.mk.inj (Option.some.inj h)
        have hd : startsWith isDigit (c :: cs) = true := hd
        have hw := startsWith_spanNumber hd
        simp only [Token.text, String.toList_ofList] at hs ⊢
        exact scan_digits hw (spanNumber_again (c :: cs) hs)
      · cases h

theorem scanMark_again {cs rest : List Char} {t : Token} (h : scanMark cs = some (t, rest))
    (suffix : List Char) : scan (t.text.toList ++ suffix) = some (t, suffix) := by
  unfold scanMark at h
  split at h <;> cases h <;> rfl

/-- What the scanners make of a text, by the scanner that takes the token. -/
theorem scan_cases {cs rest : List Char} {t : Token} (h : scan cs = some (t, rest)) :
    (∃ label ∈ namespaces, scanPath label cs = some (t, rest)) ∨
      ((∀ label ∈ namespaces, scanPath label cs = none) ∧ scanName cs = some (t, rest)) ∨
        scanString cs = some (t, rest) ∨ scanNumber cs = some (t, rest) ∨
          scanMark cs = some (t, rest) := by
  unfold scan at h
  simp only [Option.orElse_eq_orElse, Option.orElse_eq_or, Option.or_eq_some_iff] at h
  rcases h with h | ⟨hp, h | ⟨-, h | ⟨-, h | ⟨-, h⟩⟩⟩⟩
  · exact .inl (List.exists_of_findSome?_eq_some h)
  · exact .inr (.inl ⟨List.findSome?_eq_none_iff.mp hp, h⟩)
  · exact .inr (.inr (.inl h))
  · exact .inr (.inr (.inr (.inl h)))
  · exact .inr (.inr (.inr (.inr h)))

theorem scan_again {cs rest : List Char} {t : Token} (h : scan cs = some (t, rest))
    {suffix : List Char} (hs : Stop t.text.toList suffix) :
    scan (t.text.toList ++ suffix) = some (t, suffix) := by
  rcases scan_cases h with ⟨label, hl, h⟩ | ⟨-, h⟩ | h | h | h
  · exact scanPath_again hl h hs.spanPath
  · exact scanName_again h hs.spanName (scanPath_word (colon_notMem_of_scanName h) hs)
  · exact scanString_again h suffix
  · exact scanNumber_again h hs.endsNumber
  · exact scanMark_again h suffix

end DocComment.TypeExpr
