import DocComment.Proofs.Text.Closing
import DocComment.Proofs.TypeExpr.Lexing
import DocComment.Proofs.TypeExpr.Soundness

/-!
Braces of a type literal. The grammar closes each brace that it opens, and no word or number
holds one, so only the braces inside strings can upset the count over the whole text.
-/

namespace DocComment.TypeExpr

open Text

/-- How many braces are open after these tokens, unless one is closed that was not open. -/
def braceDepth : Nat → List Token → Option Nat
  | depth, [] => some depth
  | depth, .openBrace :: ts => braceDepth (depth + 1) ts
  | 0, .closeBrace :: _ => none
  | depth + 1, .closeBrace :: ts => braceDepth depth ts
  | depth, _ :: ts => braceDepth depth ts

theorem braceDepth_other {t : Token} (ho : t ≠ .openBrace) (hc : t ≠ .closeBrace) (depth : Nat)
    (ts : List Token) : braceDepth depth (t :: ts) = braceDepth depth ts := by
  cases t <;> first | rfl | exact absurd rfl ho | exact absurd rfl hc

theorem braceDepth_marks {marks : List Token} (hm : ∀ m ∈ marks, m = .question ∨ m = .bang)
    (depth : Nat) (ts : List Token) : braceDepth depth (marks ++ ts) = braceDepth depth ts := by
  induction marks with
  | nil => rfl
  | cons m marks ih =>
    obtain ⟨hm, hmarks⟩ := List.forall_mem_cons.mp hm
    rcases hm with rfl | rfl
    · exact ih hmarks
    · exact ih hmarks

theorem braceDepth_arrays (k depth : Nat) (ts : List Token) :
    braceDepth depth (arrays k ++ ts) = braceDepth depth ts := by
  induction k with
  | zero => rfl
  | succ k ih => exact ih

theorem braceDepth_key {t : Token} {key : String} (hk : t.key? = some key) (depth : Nat)
    (ts : List Token) : braceDepth depth (t :: ts) = braceDepth depth ts := by
  refine braceDepth_other ?_ ?_ depth ts
  · rintro rfl
    cases hk
  · rintro rfl
    cases hk

/-- What a symbol derives leaves as many braces open as there were. -/
theorem Derives.braceDepth {n : Nat} {symbol : Symbol} {ts rest : List Token}
    (h : Derives n symbol ts rest) (depth : Nat) :
    braceDepth depth ts = braceDepth depth rest := by
  induction h generalizing depth with
  | bare | name | star | string | number | emptyRecord | noValue | noResult => rfl
  | union _ ih | lastAlternative _ ih | required _ ih | unmodified _ ih | called _ ih
  | lastType _ ih | lastArgument _ ih | unlabelled _ ih => exact ih depth
  | optional _ ih | value _ ih | noArguments _ ih | binding _ _ _ ih | labelled _ _ _ ih
  | variadic _ ih | labelledVariadic _ _ ih | result _ ih | group _ ih => exact ih depth
  | moreAlternatives _ _ ih ih' | moreTypes _ _ ih ih' | moreArguments _ _ ih ih'
  | function _ _ ih ih' => exact (ih depth).trans (ih' depth)
  | modifier t ht _ ih =>
    rcases ht with rfl | rfl | rfl
    · exact ih depth
    · exact ih depth
    · exact ih depth
  | suffixed k marks hm _ ih =>
    rw [ih, braceDepth_arrays, braceDepth_marks hm]
  | generic s t ht _ ih =>
    rcases ht with rfl | rfl
    · exact ih depth
    · exact ih depth
  | record keys hk _ ih => exact ih (depth + 1)
  | lastEntry t key hk _ ih => exact (braceDepth_key hk depth _).trans (ih depth)
  | moreEntries t key keys hk _ _ ih ih' =>
    exact ((braceDepth_key hk depth _).trans (ih depth)).trans (ih' depth)

/-- Braces match when counted one by one, wherever they stand. -/
abbrev BracesMatch (cs : List Char) : Prop := Matched '\x7b' '\x7d' cs

/-- With so many braces open before a text, so many are open after it, and none is closed that
was not open. -/
structure Leads (before : Nat) (cs : List Char) (after : Nat) : Prop where
  equal : before + cs.count '\x7b' = after + cs.count '\x7d'
  covered : ∀ front, front <+: cs → front.count '\x7d' ≤ before + front.count '\x7b'

namespace Leads

variable {a b c : Nat} {cs cs' : List Char}

theorem bracesMatch (h : Leads 0 cs 0) : BracesMatch cs := by
  constructor
  · have := h.equal
    omega
  · intro front hf
    have := h.covered front hf
    omega

theorem of_bracesMatch (h : BracesMatch cs) (a : Nat) : Leads a cs a := by
  constructor
  · rw [h.equal]
  · intro front hf
    have := h.covered front hf
    omega

theorem append (h : Leads a cs b) (h' : Leads b cs' c) : Leads a (cs ++ cs') c := by
  constructor
  · have := h.equal
    have := h'.equal
    rw [List.count_append, List.count_append]
    omega
  · intro front hf
    rcases List.prefix_or_prefix_of_prefix hf (List.prefix_append cs cs') with hf | ⟨more, rfl⟩
    · exact h.covered front hf
    · have := h.equal
      have := h'.covered more ((List.prefix_append_right_inj cs).mp hf)
      rw [List.count_append, List.count_append]
      omega

theorem plain (h : ∀ c ∈ cs, c ≠ '\x7b' ∧ c ≠ '\x7d') (a : Nat) : Leads a cs a := by
  have none {front : List Char} (hf : front ⊆ cs) :
      front.count '\x7b' = 0 ∧ front.count '\x7d' = 0 :=
    ⟨List.count_eq_zero.mpr fun hm => (h _ (hf hm)).1 rfl,
      List.count_eq_zero.mpr fun hm => (h _ (hf hm)).2 rfl⟩
  constructor
  · obtain ⟨ho, hc⟩ := none (List.Subset.refl cs)
    rw [ho, hc]
  · intro front hf
    rw [(none hf.subset).2]
    exact Nat.zero_le _

theorem openBrace (a : Nat) : Leads a ['\x7b'] (a + 1) := by
  constructor
  · rfl
  · intro front hf
    exact (hf.sublist.count_le '\x7d').trans (Nat.zero_le _)

theorem closeBrace (a : Nat) : Leads (a + 1) ['\x7d'] a := by
  constructor
  · rfl
  · intro front hf
    have hone : front.count '\x7d' ≤ 1 := hf.sublist.count_le '\x7d'
    omega

end Leads

theorem mem_spanPath {cs : List Char} :
    ∀ c ∈ (spanPath cs).1, isPathChar c = true ∨ c = '.' := by
  fun_induction spanPath cs with
  | case1 => simp
  | case2 c rest hc ih =>
    refine List.forall_mem_cons.mpr ⟨?_, ih⟩
    rcases Bool.or_eq_true_iff.mp hc with hc | hc
    · exact .inl hc
    · exact .inr (by simpa using (Bool.and_eq_true_iff.mp hc).1)
  | case3 => simp

/-- Only strings and braces have braces in their text. -/
theorem Scanned.braceless {t : Token} (h : Scanned t) (hs : ∀ s, t ≠ .string s)
    (ho : t ≠ .openBrace) (hc : t ≠ .closeBrace) :
    ∀ c ∈ t.text.toList, c ≠ '\x7b' ∧ c ≠ '\x7d' := by
  obtain ⟨cs, rest, h, -⟩ := h
  have apart {p : Char → Bool} (ho : p '\x7b' = false) (hc : p '\x7d' = false) {c : Char}
      (h : p c = true) : c ≠ '\x7b' ∧ c ≠ '\x7d' := by
    constructor
    · rintro rfl
      rw [ho] at h
      cases h
    · rintro rfl
      rw [hc] at h
      cases h
  have dot : '.' ≠ '\x7b' ∧ '.' ≠ '\x7d' := by decide
  cases ScanForm.of_scan h with
  | path label rest hl =>
    obtain ⟨word, rfl, -, hw⟩ := namespace_word hl
    intro c hm
    simp only [Token.text, String.toList_ofList, List.mem_append, List.mem_singleton] at hm
    rcases hm with (hm | rfl) | hm
    · exact apart (by decide) (by decide) (hw c hm)
    · decide
    · rcases mem_spanPath c hm with hm | rfl
      · exact apart (by decide) (by decide) hm
      · exact dot
  | name =>
    intro c hm
    simp only [Token.text, String.toList_ofList] at hm
    rcases mem_spanName c hm with hm | hm
    · exact apart (by decide) (by decide) hm
    · exact apart (by decide) (by decide) hm
  | string => exact absurd rfl (hs _)
  | number sign digits hsign =>
    intro c hm
    simp only [Token.text, String.toList_ofList, List.mem_append] at hm
    rcases hm with hm | hm
    · rcases hsign with rfl | rfl
      · cases hm
      · rw [List.mem_singleton.mp hm]
        decide
    · rcases mem_spanNumber c hm with hm | rfl
      · exact apart (by decide) (by decide) hm
      · exact dot
  | mark hw =>
    cases t with
    | name s => exact absurd rfl (hw s).1
    | string s => exact absurd rfl (hs s)
    | number s => exact absurd rfl (hw s).2.2
    | openBrace => exact absurd rfl ho
    | closeBrace => exact absurd rfl hc
    | _ => simp [Token.text]

/-- Over a literal whose strings each have matching braces, counting characters is counting
tokens. -/
theorem lexFrom_leads {position : Nat} {cs : List Char} {lexemes : List Lexeme}
    (h : lexFrom position cs = .ok lexemes)
    (hs : ∀ s, .string s ∈ lexemes.map (·.token) → BracesMatch s.toList) {a b : Nat}
    (hd : braceDepth a (lexemes.map (·.token)) = some b) : Leads a cs b := by
  fun_induction lexFrom position cs generalizing lexemes a with
  | case1 =>
    obtain rfl := Except.ok.inj h
    obtain rfl := Option.some.inj hd
    exact .plain (by simp) a
  | case2 position c rest hc ih =>
    have hblank : Leads a [c] a := by
      refine .plain (List.forall_mem_singleton.mpr ⟨?_, ?_⟩) a
      · rintro rfl
        cases hc
      · rintro rfl
        cases hc
    exact hblank.append (ih h hs hd)
  | case3 => cases h
  | case4 position c rest hc token rest' hscan ih =>
    cases hl : lexFrom (position + token.text.length) rest' with
    | error e =>
      rw [hl] at h
      cases h
    | ok ls =>
      rw [hl] at h
      obtain rfl := Except.ok.inj h
      obtain ⟨hcut, -⟩ := scan_cuts hscan
      obtain ⟨hstring, hmore⟩ : (∀ s, token = .string s → BracesMatch s.toList) ∧
          ∀ s, .string s ∈ ls.map (·.token) → BracesMatch s.toList :=
        ⟨fun s e => hs s (by simp [e]), fun s hm => hs s (List.mem_cons_of_mem _ hm)⟩
      rw [← hcut]
      have other (ho : token ≠ .openBrace) (hc : token ≠ .closeBrace)
          (ht : Leads a token.text.toList a) : Leads a (token.text.toList ++ rest') b :=
        ht.append (ih hl hmore ((braceDepth_other ho hc a _).symm.trans hd))
      by_cases ho : token = .openBrace
      · subst token
        exact (Leads.openBrace a).append (ih hl hmore hd)
      by_cases hcl : token = .closeBrace
      · subst token
        cases a with
        | zero => cases hd
        | succ a => exact (Leads.closeBrace a).append (ih hl hmore hd)
      by_cases hstr : ∃ s, token = .string s
      · obtain ⟨s, rfl⟩ := hstr
        exact other ho hcl (.of_bracesMatch (hstring s rfl) a)
      · have hscanned : Scanned token := ⟨_, _, hscan, Bool.eq_false_iff.mpr hc⟩
        exact other ho hcl (.plain (hscanned.braceless (fun s e => hstr ⟨s, e⟩) ho hcl) a)

/-- The braces of a type literal match, quoted ones included, if those of each string do. -/
theorem bracesMatch_of_parse {limit : Limit} {literal : String} {t : TypeExpr}
    (h : parse limit literal = .ok t)
    (hs : ∀ lexemes, lex literal.toList = .ok lexemes →
      ∀ s, .string s ∈ lexemes.map (·.token) → BracesMatch s.toList) :
    BracesMatch literal.toList := by
  obtain ⟨lexemes, hlex, ht⟩ := parse_eq_ok.mp h
  refine (lexFrom_leads hlex (hs lexemes hlex) ?_).bracesMatch
  by_cases hne : lexemes.map (·.token) = []
  · rw [hne]
    rfl
  · exact ((nested_sound _).ofUnion ((ofTokens_eq_ok hne).mp ht)).braceDepth 0

end DocComment.TypeExpr
