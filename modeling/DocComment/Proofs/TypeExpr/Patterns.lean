import DocComment.Proofs.TypeExpr.Scanning
import Mathlib.Computability.Language

/-!
The texts that tokens have, as languages. What is scanned belongs to the language of its kind,
and where nothing is scanned, no text of any of these languages stands.
-/

namespace DocComment.TypeExpr

open Text
open scoped Computability

variable {p start more joint : Char → Bool} {cs rest : List Char} {t : Token}

/-- One character of a class. -/
def oneOf (p : Char → Bool) : Language Char := {w | ∃ c, p c = true ∧ w = [c]}

def exactly (w : List Char) : Language Char := {w}

def labelText : Language Char := {label | label ∈ namespaces}

def wordText (start more : Char → Bool) : Language Char := oneOf start * (oneOf more)∗

/-- Words, with a joint between any two. -/
def joinedText (start more joint : Char → Bool) : Language Char :=
  wordText start more * (oneOf joint * wordText start more)∗

/-- What may be quoted: neither the quote nor a backslash, or a backslash and any character but a
line feed. -/
def quotedUnit (quote : Char) : Language Char :=
  oneOf (fun c => c != quote && c != '\\') + exactly ['\\'] * oneOf (fun c => c != '\n')

def quotedText (quote : Char) : Language Char :=
  exactly [quote] * ((quotedUnit quote)∗ * exactly [quote])

def digitsText : Language Char := wordText isDigit isDigit

/-- The texts of tokens of the same kind. -/
def Token.pattern : Token → Language Char
  | .name _ => labelText * joinedText isPathChar isPathChar (· == '.') +
      joinedText isNameStart isNameChar isSeparator
  | .string _ => quotedText '"' + quotedText '\''
  | .number _ => (1 + exactly ['-']) * (digitsText * (1 + exactly ['.'] * digitsText))
  | t => exactly t.text.toList

/-! ### Words of a language -/

theorem mem_oneOf {c : Char} (h : p c = true) : [c] ∈ oneOf p := ⟨c, h, rfl⟩

theorem cons_mem_mul {l : Language Char} {c : Char} {w : List Char} (h : p c = true)
    (hw : w ∈ l) : c :: w ∈ oneOf p * l :=
  Language.append_mem_mul (mem_oneOf h) hw

theorem append_mem_kstar {l : Language Char} {v w : List Char} (hv : v ∈ l) (hw : w ∈ l∗) :
    v ++ w ∈ l∗ :=
  Set.mem_of_mem_of_subset (Language.append_mem_mul hv hw) (mul_kstar_le_kstar (a := l))

theorem mem_kstar_oneOf (h : ∀ c ∈ cs, p c = true) : cs ∈ (oneOf p)∗ := by
  induction cs with
  | nil => exact Language.nil_mem_kstar _
  | cons c cs ih =>
    obtain ⟨hc, hcs⟩ := List.forall_mem_cons.mp h
    exact append_mem_kstar (mem_oneOf hc) (ih hcs)

theorem takeWhile_mem_wordText (h : startsWith p cs = true) : cs.takeWhile p ∈ wordText p p := by
  cases cs with
  | nil => cases h
  | cons c cs =>
    have hc : p c = true := h
    rw [List.takeWhile_cons_of_pos hc]
    exact cons_mem_mul hc (mem_kstar_oneOf (List.all_eq_true.mp List.all_takeWhile))

theorem startsWith_of_mem_mul {l : Language Char} {w : List Char} (h : w ∈ oneOf p * l)
    (suffix : List Char) : startsWith p (w ++ suffix) = true := by
  obtain ⟨_, ⟨c, hc, rfl⟩, tail, -, rfl⟩ := Language.mem_mul.mp h
  exact hc

/-- What follows the first character of joined words. -/
def joinedTail (start more joint : Char → Bool) : Language Char :=
  (oneOf more)∗ * (oneOf joint * wordText start more)∗

theorem joinedText_eq : joinedText start more joint = oneOf start * joinedTail start more joint :=
  mul_assoc ..

theorem nil_mem_joinedTail : [] ∈ joinedTail start more joint :=
  Language.append_mem_mul (Language.nil_mem_kstar _) (Language.nil_mem_kstar _)

theorem joinedTail_more {c : Char} {w : List Char} (hc : more c = true)
    (hw : w ∈ joinedTail start more joint) : c :: w ∈ joinedTail start more joint := by
  obtain ⟨front, hfront, back, hback, rfl⟩ := Language.mem_mul.mp hw
  exact Language.append_mem_mul (append_mem_kstar (mem_oneOf hc) hfront) hback

theorem joinedTail_joint {c : Char} {w : List Char} (hc : joint c = true)
    (hw : w ∈ joinedText start more joint) : c :: w ∈ joinedTail start more joint := by
  obtain ⟨front, hfront, back, hback, rfl⟩ := Language.mem_mul.mp hw
  exact Language.append_mem_mul (Language.nil_mem_kstar _)
    (append_mem_kstar (cons_mem_mul hc hfront) hback)

/-! ### Scanned texts belong to the pattern of their kind -/

/-- A text taken off the front of this one goes on with words, and is made of them if the text
starts with one. -/
structure Joined (start more joint : Char → Bool) (cs w : List Char) : Prop where
  tail : w ∈ joinedTail start more joint
  words : startsWith start cs = true → w ∈ joinedText start more joint

theorem Joined.nil (h : startsWith start cs = false) : Joined start more joint cs [] :=
  ⟨nil_mem_joinedTail, fun hstart => by rw [h] at hstart; cases hstart⟩

theorem Joined.cons {c : Char} {w : List Char} (h : Joined start more joint cs w)
    (hc : (more c || (joint c && startsWith start cs)) = true) :
    Joined start more joint (c :: cs) (c :: w) := by
  refine ⟨?_, fun hstart => joinedText_eq ▸ cons_mem_mul hstart h.tail⟩
  rcases Bool.or_eq_true_iff.mp hc with hc | hc
  · exact joinedTail_more hc h.tail
  · obtain ⟨hjoint, hnext⟩ := Bool.and_eq_true_iff.mp hc
    exact joinedTail_joint hjoint (h.words hnext)

theorem spanPath_joined (cs : List Char) :
    Joined isPathChar isPathChar (· == '.') cs (spanPath cs).1 := by
  fun_induction spanPath cs with
  | case1 => exact .nil rfl
  | case2 c rest hc ih => exact ih.cons hc
  | case3 c rest hc =>
    exact .nil (Bool.or_eq_false_iff.mp (Bool.eq_false_iff.mpr hc)).1

theorem spanName_joined (cs : List Char) :
    Joined isNameStart isNameChar isSeparator cs (spanName cs).1 := by
  fun_induction spanName cs with
  | case1 => exact .nil rfl
  | case2 c rest hc ih => exact ih.cons hc
  | case3 c rest hc =>
    refine .nil (Bool.eq_false_iff.mpr fun hstart => hc ?_)
    rw [isNameChar_of_isNameStart hstart, Bool.true_or]

theorem closeQuote_mem {quote : Char} {front back : List Char}
    (h : closeQuote quote cs = some (front, back)) :
    front ∈ (quotedUnit quote)∗ * exactly [quote] := by
  have unit {c : List Char} {f : List Char} (hc : c ∈ quotedUnit quote)
      (hf : f ∈ (quotedUnit quote)∗ * exactly [quote]) :
      c ++ f ∈ (quotedUnit quote)∗ * exactly [quote] := by
    obtain ⟨v, hv, w, hw, rfl⟩ := Language.mem_mul.mp hf
    rw [← List.append_assoc]
    exact Language.append_mem_mul (append_mem_kstar hc hv) hw
  fun_induction closeQuote quote cs generalizing front with
  | case1 => cases h
  | case2 => cases h
  | case3 c rest hc ih =>
    obtain ⟨⟨f, b⟩, hfb, e⟩ := Option.map_eq_some_iff.mp h
    obtain ⟨rfl, rfl⟩ := Prod.mk.inj e
    have hescape : ['\\', c] ∈ quotedUnit quote :=
      .inr (Language.append_mem_mul (a := ['\\']) rfl ⟨c, by simpa using hc, rfl⟩)
    exact unit hescape (ih hfb)
  | case4 rest hne =>
    obtain ⟨rfl, rfl⟩ := Prod.mk.inj (Option.some.inj h)
    exact Language.append_mem_mul (Language.nil_mem_kstar _) rfl
  | case5 => cases h
  | case6 c rest hne hq hb ih =>
    obtain ⟨⟨f, b⟩, hfb, e⟩ := Option.map_eq_some_iff.mp h
    obtain ⟨rfl, rfl⟩ := Prod.mk.inj e
    have hplain : [c] ∈ quotedUnit quote := .inl ⟨c, by simp [hq, hb], rfl⟩
    exact unit hplain (ih hfb)

theorem spanNumber_mem (h : startsWith isDigit cs = true) :
    (spanNumber cs).1 ∈ digitsText * (1 + exactly ['.'] * digitsText) := by
  have whole : cs.takeWhile isDigit ∈ digitsText * (1 + exactly ['.'] * digitsText) := by
    rw [← List.append_nil (cs.takeWhile isDigit)]
    exact Language.append_mem_mul (takeWhile_mem_wordText h) (.inl rfl)
  unfold spanNumber
  split
  · split
    · next hf =>
      exact Language.append_mem_mul (takeWhile_mem_wordText h)
        (.inr (Language.append_mem_mul (a := ['.']) rfl (takeWhile_mem_wordText hf)))
    · exact whole
  · exact whole

theorem scanPath_mem {label : List Char} (hl : label ∈ namespaces)
    (h : scanPath label cs = some (t, rest)) : t.text.toList ∈ t.pattern := by
  unfold scanPath at h
  split at h
  · cases h
  · next tail _ =>
    split at h
    · next hp =>
      obtain ⟨rfl, rfl⟩ := Prod.mk.inj (Option.some.inj h)
      rw [Token.text, String.toList_ofList]
      exact .inl (Language.append_mem_mul hl ((spanPath_joined tail).words hp))
    · cases h

theorem scanName_mem (h : scanName cs = some (t, rest)) : t.text.toList ∈ t.pattern := by
  unfold scanName at h
  split at h
  · next hs =>
    obtain ⟨rfl, rfl⟩ := Prod.mk.inj (Option.some.inj h)
    rw [Token.text, String.toList_ofList]
    exact .inr ((spanName_joined cs).words hs)
  · cases h

theorem scanString_mem (h : scanString cs = some (t, rest)) : t.text.toList ∈ t.pattern := by
  unfold scanString at h
  split at h
  · cases h
  · next quote cs =>
    split at h
    · next hq =>
      obtain ⟨⟨front, back⟩, hb, e⟩ := Option.map_eq_some_iff.mp h
      obtain ⟨rfl, rfl⟩ := Prod.mk.inj e
      rw [Token.text, String.toList_ofList]
      have hquoted : quote :: front ∈ quotedText quote :=
        Language.append_mem_mul (a := [quote]) rfl (closeQuote_mem hb)
      simp only [Bool.or_eq_true, decide_eq_true_eq] at hq
      rcases hq with rfl | rfl
      · exact .inl hquoted
      · exact .inr hquoted
    · cases h

theorem scanNumber_mem (h : scanNumber cs = some (t, rest)) : t.text.toList ∈ t.pattern := by
  unfold scanNumber at h
  split at h
  · cases h
  · next c cs =>
    split at h
    · split at h
      · next hd =>
        obtain ⟨rfl, rfl⟩ := Prod.mk.inj (Option.some.inj h)
        rw [Token.text, String.toList_ofList]
        exact Language.append_mem_mul (a := ['-']) (.inr rfl) (spanNumber_mem hd)
      · cases h
    · split at h
      · next hd =>
        obtain ⟨rfl, rfl⟩ := Prod.mk.inj (Option.some.inj h)
        rw [Token.text, String.toList_ofList]
        have hdigits : (spanNumber (c :: cs)).1 ∈ digitsText * (1 + exactly ['.'] * digitsText) :=
          spanNumber_mem hd
        exact Language.append_mem_mul (a := []) (.inl rfl) hdigits
      · cases h

theorem scanMark_mem (h : scanMark cs = some (t, rest)) : t.text.toList ∈ t.pattern := by
  unfold scanMark at h
  split at h <;> cases h <;> rfl

theorem scan_mem (h : scan cs = some (t, rest)) : t.text.toList ∈ t.pattern := by
  rcases scan_cases h with ⟨label, hl, h⟩ | ⟨-, h⟩ | h | h | h
  · exact scanPath_mem hl h
  · exact scanName_mem h
  · exact scanString_mem h
  · exact scanNumber_mem h
  · exact scanMark_mem h

/-! ### Where a pattern matches, something is scanned -/

theorem scan_isSome_of_path {label : List Char} (hl : label ∈ namespaces)
    (h : startsWith isPathChar cs = true) : (scan (label ++ cs)).isSome := by
  have hpath : scanPath label (label ++ cs) ≠ none := by
    simp [scanPath, isPrefixOf?_self, h]
  obtain ⟨found, hfound⟩ := Option.ne_none_iff_exists'.mp hpath
  simp [scan, findSome?_label hl hfound]

theorem scan_isSome_of_name (h : startsWith isNameStart cs = true) : (scan cs).isSome := by
  simp [scan, scanName, h]

theorem closeQuote_isSome {quote : Char} (hquote : quote ≠ '\\') {w : List Char}
    (h : w ∈ (quotedUnit quote)∗) (cs : List Char) :
    (closeQuote quote (w ++ quote :: cs)).isSome := by
  obtain ⟨units, rfl, hunits⟩ := Language.mem_kstar.mp h
  clear h
  induction units with
  | nil => simp [closeQuote_cons _ hquote]
  | cons u units ih =>
    obtain ⟨hu, hunits⟩ := List.forall_mem_cons.mp hunits
    have ih := ih hunits
    rw [List.flatten_cons, List.append_assoc]
    rcases hu with ⟨c, hc, rfl⟩ | hu
    · simp only [Bool.and_eq_true, bne_iff_ne] at hc
      simp [closeQuote_cons _ hc.2, hc.1, ih]
    · obtain ⟨_, rfl, _, ⟨c, hc, rfl⟩, rfl⟩ := Language.mem_mul.mp hu
      have hc : c ≠ '\n' := by simpa using hc
      simp [closeQuote, hc, ih]

theorem scan_isSome_of_quoted {quote : Char} (hquote : quote = '"' ∨ quote = '\'')
    {w : List Char} (h : w ∈ quotedText quote) : (scan (w ++ cs)).isSome := by
  obtain ⟨_, rfl, _, hback, rfl⟩ := Language.mem_mul.mp h
  obtain ⟨units, hunits, _, rfl, rfl⟩ := Language.mem_mul.mp hback
  have hn : isNameStart quote = false ∧ quote ≠ '\\' := by rcases hquote with rfl | rfl <;> decide
  obtain ⟨found, hfound⟩ := Option.isSome_iff_exists.mp (closeQuote_isSome hn.2 hunits cs)
  simp only [List.cons_append, List.nil_append, List.append_assoc]
  rw [scan_of_head (by exact hn.1)]
  simp [scanString, hquote, hfound]

theorem scan_isSome_of_number (h : startsWith isDigit cs = true) :
    (scan cs).isSome ∧ (scan ('-' :: cs)).isSome := by
  cases cs with
  | nil => cases h
  | cons c cs =>
    have hc : isDigit c = true := h
    have hsign : c ≠ '-' := by rintro rfl; cases hc
    constructor
    · simp [scan, scanNumber, hsign, hc]
    · simp [scan, scanNumber, h]

theorem scan_isSome_of_mem {w : List Char} (h : w ∈ t.pattern) (suffix : List Char) :
    (scan (w ++ suffix)).isSome := by
  cases t with
  | name =>
    rcases h with h | h
    · obtain ⟨label, hl, path, hpath, rfl⟩ := Language.mem_mul.mp h
      rw [joinedText_eq] at hpath
      rw [List.append_assoc]
      exact scan_isSome_of_path hl (startsWith_of_mem_mul hpath suffix)
    · rw [joinedText_eq] at h
      exact scan_isSome_of_name (startsWith_of_mem_mul h suffix)
  | string =>
    rcases h with h | h
    · exact scan_isSome_of_quoted (.inl rfl) h
    · exact scan_isSome_of_quoted (.inr rfl) h
  | number =>
    obtain ⟨sign, hsign, digits, hdigits, rfl⟩ := Language.mem_mul.mp h
    rw [digitsText, wordText, mul_assoc] at hdigits
    have hnumber := scan_isSome_of_number (startsWith_of_mem_mul hdigits suffix)
    rw [List.append_assoc]
    rcases hsign with rfl | rfl
    · exact hnumber.1
    · exact hnumber.2
  | _ =>
    obtain rfl := h
    simp [scan, scanMark, Token.text]

/-- No token is scanned exactly where no text of any pattern stands. -/
theorem scan_eq_none_iff : scan cs = none ↔ ∀ t : Token, ∀ w ∈ t.pattern, ¬ w <+: cs := by
  constructor
  · rintro h t w hw ⟨suffix, rfl⟩
    have hsome := scan_isSome_of_mem hw suffix
    rw [h] at hsome
    cases hsome
  · intro h
    cases hs : scan cs with
    | none => rfl
    | some found =>
      obtain ⟨t, rest⟩ := found
      exact absurd ⟨rest, (scan_cuts hs).1⟩ (h t _ (scan_mem hs))

end DocComment.TypeExpr
