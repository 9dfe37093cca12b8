import DocComment.Proofs.TypeExpr.Grammar
import DocComment.Proofs.TypeExpr.Scanning
import DocComment.TypeExpr.Literal
import DocComment.TypeExpr.Printer

/-!
Texts and the tokens they are cut into, wherever in a literal they stand. The tokens of
literals and of keys are recovered from their texts alone: a key is quoted again unless it is
bare, which only a double quote of its own can upset.
-/

namespace DocComment.TypeExpr

open Text

/-- A token at the front of some text, where no blank stands. -/
def Scanned (t : Token) : Prop :=
  ∃ cs rest, scan cs = some (t, rest) ∧ startsWith isBlank cs = false

theorem Scanned.again {t : Token} (h : Scanned t) {suffix : List Char}
    (hs : Stop t.text.toList suffix) : scan (t.text.toList ++ suffix) = some (t, suffix) := by
  obtain ⟨cs, rest, hscan, -⟩ := h
  exact scan_again hscan hs

theorem Scanned.not_blank {t : Token} (h : Scanned t) (suffix : List Char) :
    startsWith isBlank (t.text.toList ++ suffix) = false := by
  obtain ⟨cs, rest, hscan, hb⟩ := h
  obtain ⟨rfl, hne⟩ := scan_cuts hscan
  cases e : t.text.toList with
  | nil => exact absurd e hne
  | cons c text =>
    rw [e] at hb
    exact hb

/-- The tokens of a text, wherever it stands. -/
def Lexes (cs : List Char) (ts : List Token) : Prop :=
  ∀ position, ∃ lexemes, lexFrom position cs = .ok lexemes ∧ lexemes.map (·.token) = ts

theorem Lexes.nil : Lexes [] [] := fun _ => ⟨[], by rw [lexFrom], rfl⟩

theorem Lexes.blank {c : Char} {cs : List Char} {ts : List Token} (hc : isBlank c = true)
    (h : Lexes cs ts) : Lexes (c :: cs) ts := by
  intro position
  obtain ⟨lexemes, hl, ht⟩ := h (position + 1)
  exact ⟨lexemes, by rw [lexFrom, if_pos hc, hl], ht⟩

theorem Lexes.scan {cs rest : List Char} {t : Token} {ts : List Token}
    (hb : startsWith isBlank cs = false) (hs : scan cs = some (t, rest)) (h : Lexes rest ts) :
    Lexes cs (t :: ts) := by
  intro position
  cases cs with
  | nil => cases hs
  | cons c cs =>
    have hc : ¬ isBlank c = true := Bool.eq_false_iff.mp hb
    obtain ⟨lexemes, hl, ht⟩ := h (position + t.text.length)
    refine ⟨⟨t, position⟩ :: lexemes, ?_, by rw [List.map_cons, ht]⟩
    rw [lexFrom, if_neg hc]
    split
    · next e => rw [hs] at e; cases e
    · next e =>
      rw [hs] at e
      obtain ⟨rfl, rfl⟩ := Prod.mk.inj (Option.some.inj e)
      rw [hl]
      rfl

theorem Lexes.token {t : Token} {ts : List Token} {suffix : List Char} (h : Scanned t)
    (hs : Stop t.text.toList suffix) (hl : Lexes suffix ts) :
    Lexes (t.text.toList ++ suffix) (t :: ts) :=
  .scan (h.not_blank suffix) (h.again hs) hl

theorem lexFrom_scanned {position : Nat} {cs : List Char} {lexemes : List Lexeme}
    (h : lexFrom position cs = .ok lexemes) : ∀ l ∈ lexemes, Scanned l.token := by
  fun_induction lexFrom position cs generalizing lexemes with
  | case1 =>
    obtain rfl := Except.ok.inj h
    simp
  | case2 position c rest hc ih => exact ih h
  | case3 => cases h
  | case4 position c rest hc token rest' hs ih =>
    cases hl : lexFrom (position + token.text.length) rest' with
    | error e =>
      rw [hl] at h
      cases h
    | ok ls =>
      rw [hl] at h
      obtain rfl := Except.ok.inj h
      exact List.forall_mem_cons.mpr ⟨⟨_, _, hs, Bool.eq_false_iff.mpr hc⟩, ih hl⟩

theorem parse_eq_ok {limit : Limit} {literal : String} {t : TypeExpr} :
    parse limit literal = .ok t ↔
      ∃ lexemes, lex literal.toList = .ok lexemes ∧
        ofTokens limit.levels (lexemes.map (·.token)) = .ok t := by
  unfold parse
  split
  · next e => simp [e]
  · next lexemes e =>
    split
    · next h => simp [e, h]
    · next h => simp [e, h]

/-- A literal is a string exactly if it starts with a quote. -/
def literalToken (s : String) : Token :=
  if startsWith (fun c => c == '"' || c == '\'') s.toList then .string s else .number s

def keyToken (key : String) : Token :=
  if isBareKey key.toList then
    if startsWith isNameStart key.toList then .name key else .number key
  else .string ("\"" ++ key ++ "\"")

/-- Whether a double quote stands anywhere but right after a backslash that escapes it. -/
def looseQuote : List Char → Bool
  | [] => false
  | '\\' :: _ :: rest => looseQuote rest
  | c :: rest => c == '"' || looseQuote rest

/-- What the scanners make of a text, one case for each. -/
inductive ScanForm (cs : List Char) : Token → List Char → Prop where
  | path (label rest) : label ∈ namespaces → label.isPrefixOf? cs = some rest →
      ScanForm cs (.name (String.ofList (label ++ (spanPath rest).1))) (spanPath rest).2
  | name : startsWith isNameStart cs = true →
      ScanForm cs (.name (String.ofList (spanName cs).1)) (spanName cs).2
  | string (quote front rest) : quote = '"' ∨ quote = '\'' →
      closeQuote quote (cs.drop 1) = some (front, rest) →
      ScanForm cs (.string (String.ofList (quote :: front))) rest
  | number (sign digits) : sign = [] ∨ sign = ['-'] → startsWith isDigit digits = true →
      ScanForm cs (.number (String.ofList (sign ++ (spanNumber digits).1))) (spanNumber digits).2
  | mark {t rest} : (∀ s, t ≠ .name s ∧ t ≠ .string s ∧ t ≠ .number s) → ScanForm cs t rest

theorem ScanForm.of_scan {cs rest : List Char} {t : Token} (h : scan cs = some (t, rest)) :
    ScanForm cs t rest := by
  replace h := scan_cases h
  rcases h with ⟨label, hl, h⟩ | ⟨-, h⟩ | h | h | h
  · unfold scanPath at h
    split at h
    · cases h
    · next e =>
      split at h
      · cases h
        exact .path label _ hl e
      · cases h
  · unfold scanName at h
    split at h
    · next hs =>
      cases h
      exact .name hs
    · cases h
  · unfold scanString at h
    split at h
    · cases h
    · next quote cs =>
      split at h
      · next hq =>
        obtain ⟨⟨front, back⟩, hb, e⟩ := Option.map_eq_some_iff.mp h
        cases e
        exact .string quote front _ (by simpa using hq) hb
      · cases h
  · unfold scanNumber at h
    split at h
    · cases h
    · next c cs =>
      split at h
      · split at h
        · next hd =>
          cases h
          exact .number ['-'] cs (.inr rfl) hd
        · cases h
      · split at h
        · next hd =>
          cases h
          exact .number [] (c :: cs) (.inl rfl) hd
        · cases h
  · refine .mark ?_
    unfold scanMark at h
    split at h <;> cases h <;> simp

theorem literalToken_string {s : String} (h : Scanned (.string s)) :
    literalToken s = .string s := by
  obtain ⟨cs, rest, h, -⟩ := h
  cases ScanForm.of_scan h with
  | string quote front rest hq =>
    rcases hq with rfl | rfl <;> simp [literalToken, startsWith]
  | mark h => exact absurd rfl (h s).2.1

theorem literalToken_number {s : String} (h : Scanned (.number s)) :
    literalToken s = .number s := by
  obtain ⟨cs, rest, h, -⟩ := h
  cases ScanForm.of_scan h with
  | number sign digits hs hd =>
    have hw := startsWith_spanNumber hd
    have : startsWith (fun c => c == '"' || c == '\'') (sign ++ (spanNumber digits).1) = false := by
      rcases hs with rfl | rfl
      · generalize (spanNumber digits).1 = word at hw
        cases word with
        | nil => rfl
        | cons c word =>
          refine Bool.eq_false_iff.mpr fun hc => ?_
          have hc : c = '"' ∨ c = '\'' := by simpa [startsWith] using hc
          rcases hc with rfl | rfl <;> cases hw
      · rfl
    simp [literalToken, this]
  | mark h => exact absurd rfl (h s).2.2

theorem keyToken_text (key : String) : (keyToken key).text = keyText key := by
  unfold keyToken keyText
  split
  · split <;> rfl
  · rfl

theorem isNameChar_plain {c : Char} (h : isNameChar c = true) :
    (isSeparator c || c == ':') = false := by
  refine Bool.eq_false_iff.mpr fun hc => ?_
  simp only [isSeparator, Bool.or_eq_true, beq_iff_eq] at hc
  rcases hc with ((rfl | rfl) | rfl) | rfl <;> exact absurd h (by decide)

theorem bareKey_name {key : List Char} (h : isBareKey key = true)
    (hs : startsWith isNameStart key = true) : ∀ c ∈ key, isNameChar c = true := by
  simp only [isBareKey, Bool.or_eq_true, Bool.and_eq_true] at h
  rcases h with ⟨-, h⟩ | ⟨-, h⟩
  · exact List.all_eq_true.mp h
  · cases key with
    | nil => cases hs
    | cons c key =>
      have hc := List.all_eq_true.mp h c List.mem_cons_self
      exact absurd hc (Bool.eq_false_iff.mp (isDigit_of_isNameStart hs))

theorem bareKey_digits {key : List Char} (h : isBareKey key = true)
    (hs : ¬ startsWith isNameStart key = true) :
    startsWith isDigit key = true ∧ ∀ c ∈ key, isDigit c = true := by
  simp only [isBareKey, Bool.or_eq_true, Bool.and_eq_true] at h
  rcases h with ⟨h, -⟩ | ⟨hne, h⟩
  · exact absurd h hs
  · have h := List.all_eq_true.mp h
    cases key with
    | nil => cases hne
    | cons c key => exact ⟨h c List.mem_cons_self, h⟩

/-- A key has its own token, whatever token it was read from. -/
theorem keyToken_key? (key : String) : (keyToken key).key? = some key := by
  unfold keyToken
  split
  · next hb =>
    split
    · next hs =>
      have : ¬ key.toList.any (fun c => isSeparator c || c == ':') = true := by
        rw [List.any_eq_true]
        rintro ⟨c, hc, h⟩
        rw [isNameChar_plain (bareKey_name hb hs c hc)] at h
        cases h
      simp only [Token.key?, if_neg this]
    · rfl
  · simp [Token.key?]

theorem scan_bareName {word : List Char} (hs : startsWith isNameStart word = true)
    (h : ∀ c ∈ word, isNameChar c = true) : scan word = some (.name (String.ofList word), []) := by
  have hspan : spanName word = (word, []) := by
    clear hs
    induction word with
    | nil => rfl
    | cons c word ih =>
      obtain ⟨hc, hw⟩ := List.forall_mem_cons.mp h
      simp [spanName, hc, ih hw]
  have hw : ':' ∉ word := fun hm => absurd (h _ hm) (by decide)
  have hp := scanPath_word hw .nil
  rw [List.append_nil] at hp
  rw [scan_of_paths hp]
  simp [scanName, hs, hspan]

theorem closeQuote_ne_nil {quote : Char} {cs front back : List Char}
    (h : closeQuote quote cs = some (front, back)) : front ≠ [] := by
  rintro rfl
  unfold closeQuote at h
  split at h
  · cases h
  · split at h
    · cases h
    · obtain ⟨_, -, e⟩ := Option.map_eq_some_iff.mp h
      cases e
  · split at h
    · cases h
    · split at h
      · cases h
      · obtain ⟨_, -, e⟩ := Option.map_eq_some_iff.mp h
        cases e

/-- What stood between quotes of any kind can stand between double quotes. -/
theorem closeQuote_requoted {quote : Char} {cs front back : List Char}
    (h : closeQuote quote cs = some (front, back)) (hl : looseQuote front.dropLast = false) :
    closeQuote '"' (front.dropLast ++ ['"']) = some (front.dropLast ++ ['"'], []) := by
  fun_induction closeQuote quote cs generalizing front with
  | case1 => cases h
  | case2 => cases h
  | case3 c rest hc ih =>
    obtain ⟨⟨f, b⟩, hfb, e⟩ := Option.map_eq_some_iff.mp h
    obtain ⟨rfl, rfl⟩ := Prod.mk.inj e
    have hne := closeQuote_ne_nil hfb
    simp only [List.dropLast_cons_of_ne_nil (List.cons_ne_nil _ _),
      List.dropLast_cons_of_ne_nil hne, looseQuote] at hl ⊢
    simp [closeQuote, hc, ih hfb hl]
  | case4 rest hne =>
    obtain ⟨rfl, rfl⟩ := Prod.mk.inj (Option.some.inj h)
    rfl
  | case5 => cases h
  | case6 c rest hne hq hb ih =>
    obtain ⟨⟨f, b⟩, hfb, e⟩ := Option.map_eq_some_iff.mp h
    obtain ⟨rfl, rfl⟩ := Prod.mk.inj e
    have hne := closeQuote_ne_nil hfb
    rw [List.dropLast_cons_of_ne_nil hne] at hl ⊢
    have hl : c ≠ '"' ∧ looseQuote f.dropLast = false := by
      rw [looseQuote] at hl
      · simpa using hl
      · exact fun _ _ e => absurd e hb
    simp [closeQuote_cons _ hb, hl.1, ih hfb hl.2]

theorem closeQuote_plain {word : List Char} (h : ∀ c ∈ word, c ≠ '"' ∧ c ≠ '\\') :
    closeQuote '"' (word ++ ['"']) = some (word ++ ['"'], []) := by
  induction word with
  | nil => rfl
  | cons c word ih =>
    obtain ⟨hc, hw⟩ := List.forall_mem_cons.mp h
    simp [closeQuote_cons _ hc.2, hc.1, ih hw]

theorem mem_spanNumber {cs : List Char} :
    ∀ c ∈ (spanNumber cs).1, isDigit c = true ∨ c = '.' := by
  have digits (cs : List Char) : ∀ c ∈ cs.takeWhile isDigit, isDigit c = true :=
    List.all_eq_true.mp List.all_takeWhile
  intro c hc
  unfold spanNumber at hc
  split at hc
  · split at hc
    · rcases List.mem_append.mp hc with hc | hc
      · exact .inl (digits _ c hc)
      · rcases List.mem_cons.mp hc with rfl | hc
        · exact .inr rfl
        · exact .inl (digits _ c hc)
    · exact .inl (digits _ c hc)
  · exact .inl (digits _ c hc)

theorem scan_quoted {key : String}
    (h : closeQuote '"' (key.toList ++ ['"']) = some (key.toList ++ ['"'], [])) :
    scan ('"' :: (key.toList ++ ['"'])) = some (.string ("\"" ++ key ++ "\""), []) := by
  have htext : String.ofList ('"' :: (key.toList ++ ['"'])) = "\"" ++ key ++ "\"" := by
    apply String.toList_inj.mp
    simp
  rw [scan_of_head rfl, ← htext]
  simp only [scanString, h]
  rfl

/-- Names are bare and numbers hold nothing to escape, so only strings give trouble. -/
theorem quotedKey_closes {t : Token} {key : String} (h : Scanned t) (hk : t.key? = some key)
    (hb : ¬ isBareKey key.toList = true) (hq : looseQuote key.toList = false) :
    closeQuote '"' (key.toList ++ ['"']) = some (key.toList ++ ['"'], []) := by
  obtain ⟨cs, rest, h, -⟩ := h
  cases ScanForm.of_scan h with
  | path label rest hl =>
    obtain ⟨word, rfl, -⟩ := namespace_word hl
    simp [Token.key?] at hk
  | name hs =>
    simp only [Token.key?, String.toList_ofList] at hk
    split at hk
    · cases hk
    · next hany =>
      obtain rfl := Option.some.inj hk
      have hall : ∀ c ∈ (spanName cs).1, isNameChar c = true := by
        intro c hc
        rcases mem_spanName c hc with hn | hsep
        · exact hn
        · exact absurd (List.any_eq_true.mpr ⟨c, hc, by simp [hsep]⟩) hany
      refine absurd ?_ hb
      simp [isBareKey, startsWith_spanName hs, List.all_eq_true.mpr hall]
  | string quote front rest hquote hc =>
    obtain rfl := Option.some.inj hk
    simp only [String.toList_ofList, List.drop_one, List.tail_cons] at hq ⊢
    exact closeQuote_requoted hc hq
  | number sign digits hs hd =>
    obtain rfl := Option.some.inj hk
    rw [String.toList_ofList]
    refine closeQuote_plain fun c hc => ?_
    rcases List.mem_append.mp hc with hc | hc
    · rcases hs with rfl | rfl
      · cases hc
      · obtain rfl := List.mem_singleton.mp hc
        decide
    · rcases mem_spanNumber c hc with hc | rfl
      · refine ⟨?_, ?_⟩ <;> rintro rfl <;> cases hc
      · decide
  | mark h =>
    cases t with
    | name s => exact absurd rfl (h s).1
    | string s => exact absurd rfl (h s).2.1
    | number s => exact absurd rfl (h s).2.2
    | _ => cases hk

theorem startsWith_disjoint {p q : Char → Bool} (h : ∀ c, p c = true → q c = false)
    {cs : List Char} (hp : startsWith p cs = true) : startsWith q cs = false := by
  cases cs with
  | nil => rfl
  | cons c cs => exact h c hp

theorem keyToken_scanned {t : Token} {key : String} (h : Scanned t) (hk : t.key? = some key)
    (hq : looseQuote key.toList = false) : Scanned (keyToken key) := by
  unfold keyToken
  split
  · next hb =>
    split
    · next hs =>
      have := scan_bareName hs (bareKey_name hb hs)
      rw [String.ofList_toList] at this
      exact ⟨key.toList, [], this, startsWith_disjoint (fun _ => isBlank_of_isNameStart) hs⟩
    · next hs =>
      obtain ⟨hd, hds⟩ := bareKey_digits hb hs
      have hwhole : spanNumber (key.toList ++ []) = (key.toList, []) :=
        spanNumber_whole hds rfl (by simp)
      have := scan_digits hd hwhole
      rw [List.append_nil, String.ofList_toList] at this
      exact ⟨key.toList, [], this, startsWith_disjoint (fun _ => isBlank_of_isDigit) hd⟩
  · next hb => exact ⟨_, [], scan_quoted (quotedKey_closes h hk hb hq), rfl⟩

end DocComment.TypeExpr
