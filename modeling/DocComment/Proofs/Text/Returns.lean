import DocComment.Proofs.Text.Lines
import DocComment.Text.Search
import Mathlib.Data.List.Forall2

/-!
Carriage returns before line feeds. A line then has one at its end, where a trim takes it off
with the other blanks, and what a line begins with is the same in both texts.
-/

namespace DocComment.Text

/-- A text with a carriage return before each of its line feeds. -/
def crlf (cs : List Char) : List Char :=
  cs.flatMap fun c => if c = '\n' then ['\r', '\n'] else [c]

def withoutReturns (cs : List Char) : List Char := cs.filter (· != '\r')

/-- The second text is the first one with carriage returns before some of its line feeds. -/
inductive Returns : List Char → List Char → Prop
  | nil : Returns [] []
  | char {c : Char} {cs cs' : List Char} (hc : c ≠ '\r') (rest : Returns cs cs') :
    Returns (c :: cs) (c :: cs')
  | newline {cs cs' : List Char} (rest : Returns cs cs') :
    Returns ('\n' :: cs) ('\r' :: '\n' :: cs')

theorem isBlank_return : isBlank '\r' = true := by decide

/-- A text less a mark at its front. -/
def withoutMark (mark : Char) : List Char → List Char
  | [] => []
  | c :: rest => if c = mark then rest else c :: rest

theorem withoutMark_of_ne {mark : Char} {cs : List Char} (h : ∀ rest, cs ≠ mark :: rest) :
    withoutMark mark cs = cs := by
  cases cs with
  | nil => rfl
  | cons c rest => exact if_neg fun hc => h rest (by rw [hc])

section

variable {cs cs' as as' bs bs' : List Char}

theorem returns_crlf (h : '\r' ∉ cs) : Returns cs (crlf cs) := by
  induction cs with
  | nil => exact .nil
  | cons c cs ih =>
    obtain ⟨hc, hcs⟩ := List.ne_and_not_mem_of_not_mem_cons h
    by_cases hn : c = '\n'
    · subst c
      exact .newline (ih hcs)
    · rw [crlf, List.flatMap_cons, if_neg hn]
      exact .char hc.symm (ih hcs)

theorem withoutReturns_append (as bs : List Char) :
    withoutReturns (as ++ bs) = withoutReturns as ++ withoutReturns bs := List.filter_append ..

theorem withoutReturns_of_notMem (h : '\r' ∉ cs) : withoutReturns cs = cs := by
  rw [withoutReturns, List.filter_eq_self]
  intro c hc
  rw [bne_iff_ne]
  rintro rfl
  exact h hc

theorem filter_dropWhile {p q : Char → Bool} (hq : ∀ c, q c = false → p c = true)
    (cs : List Char) : (cs.dropWhile p).filter q = (cs.filter q).dropWhile p := by
  induction cs with
  | nil => rfl
  | cons c cs ih =>
    by_cases hp : p c = true
    · rw [List.dropWhile_cons_of_pos hp, ih, List.filter_cons]
      split
      · rw [List.dropWhile_cons_of_pos hp]
      · rfl
    · have hc : q c = true := by
        by_contra hc
        exact hp (hq c (Bool.eq_false_iff.mpr hc))
      rw [List.dropWhile_cons_of_neg hp, List.filter_cons_of_pos hc,
        List.dropWhile_cons_of_neg hp]

/-- Only blanks are taken out, which a trim may come before or after. -/
theorem withoutReturns_trimEnd (cs : List Char) :
    withoutReturns (trimEnd cs) = trimEnd (withoutReturns cs) := by
  have hreturn (c : Char) (hc : (c != '\r') = false) : isBlank c = true := by
    rw [bne_eq_false_iff_eq] at hc
    rw [hc, isBlank_return]
  simp only [withoutReturns, trimEnd, trimEndBy, List.filter_reverse, filter_dropWhile hreturn]

namespace Returns

theorem refl (h : '\r' ∉ cs) : Returns cs cs := by
  induction cs with
  | nil => exact .nil
  | cons c cs ih =>
    obtain ⟨hc, hcs⟩ := List.ne_and_not_mem_of_not_mem_cons h
    exact .char hc.symm (ih hcs)

theorem withoutReturns_eq (h : Returns cs cs') : withoutReturns cs' = cs := by
  induction h with
  | nil => rfl
  | char hc _ ih =>
    rw [withoutReturns, List.filter_cons_of_pos (by simpa using hc)]
    exact congrArg _ ih
  | newline _ ih =>
    rw [withoutReturns, List.filter_cons_of_neg (by decide), List.filter_cons_of_pos (by decide)]
    exact congrArg _ ih

theorem append (h : Returns as as') (h' : Returns bs bs') : Returns (as ++ bs) (as' ++ bs') := by
  induction h with
  | nil => exact h'
  | char hc _ ih => exact .char hc ih
  | newline _ ih => exact .newline ih

/-- A text can be cut where the text without carriage returns is cut. -/
theorem of_append (h : Returns (as ++ bs) cs') :
    ∃ as' bs', cs' = as' ++ bs' ∧ Returns as as' ∧ Returns bs bs' := by
  induction as generalizing cs' with
  | nil => exact ⟨[], cs', rfl, .nil, h⟩
  | cons a as ih =>
    cases h with
    | char hc rest =>
      obtain ⟨as', bs', rfl, ha, hb⟩ := ih rest
      exact ⟨a :: as', bs', rfl, .char hc ha, hb⟩
    | newline rest =>
      obtain ⟨as', bs', rfl, ha, hb⟩ := ih rest
      exact ⟨'\r' :: '\n' :: as', bs', rfl, .newline ha, hb⟩

theorem newlines (h : Returns cs cs') : cs'.countP isNewline = cs.countP isNewline := by
  induction h with
  | nil => rfl
  | char _ _ ih => rw [List.countP_cons, List.countP_cons, ih]
  | newline _ ih =>
    rw [List.countP_cons, List.countP_cons, List.countP_cons, ih]
    rfl

theorem all {p : Char → Bool} (hp : p '\r' = p '\n') (h : Returns cs cs') :
    cs'.all p = cs.all p := by
  induction h with
  | nil => rfl
  | char _ _ ih => rw [List.all_cons, List.all_cons, ih]
  | newline _ ih =>
    rw [List.all_cons, List.all_cons, List.all_cons, ih, hp, ← Bool.and_assoc, Bool.and_self]

/-- Characters in front come off both texts if line ends are treated as one sign. -/
theorem dropWhile (h : Returns cs cs') {p : Char → Bool} (hp : p '\r' = p '\n') :
    Returns (cs.dropWhile p) (cs'.dropWhile p) := by
  induction h with
  | nil => exact .nil
  | @char c cs cs' hc rest ih =>
    rw [List.dropWhile_cons, List.dropWhile_cons]
    split
    · exact ih
    · exact .char hc rest
  | newline rest ih =>
    rw [List.dropWhile_cons, List.dropWhile_cons, List.dropWhile_cons, hp]
    split
    · exact ih
    · exact .newline rest

theorem trimStart (h : Returns cs cs') : Returns (trimStart cs) (trimStart cs') :=
  h.dropWhile (by decide)

theorem takeWhile_eq (h : Returns cs cs') {p : Char → Bool} (hr : p '\r' = false)
    (hn : p '\n' = false) : cs'.takeWhile p = cs.takeWhile p := by
  induction h with
  | nil => rfl
  | char _ _ ih => rw [List.takeWhile_cons, List.takeWhile_cons, ih]
  | newline =>
    rw [List.takeWhile_cons_of_neg (by rw [hr]; decide),
      List.takeWhile_cons_of_neg (by rw [hn]; decide)]

theorem filter_eq (h : Returns cs cs') {p : Char → Bool} (hr : p '\r' = false) :
    cs'.filter p = cs.filter p := by
  induction h with
  | nil => rfl
  | char _ _ ih => rw [List.filter_cons, List.filter_cons, ih]
  | newline _ ih =>
    rw [List.filter_cons_of_neg (by rw [hr]; decide), List.filter_cons, List.filter_cons, ih]

theorem getLast?_eq (h : Returns cs cs') : cs'.getLast? = cs.getLast? := by
  induction h with
  | nil => rfl
  | char _ _ ih => rw [List.getLast?_cons, List.getLast?_cons, ih]
  | newline _ ih => rw [List.getLast?_cons_cons, List.getLast?_cons, List.getLast?_cons, ih]

theorem trimEnd (h : Returns cs cs') : Returns (trimEnd cs) (trimEnd cs') := by
  have hcs : Text.trimEnd cs ++ cs.rtakeWhile isBlank = cs := List.rdropWhile_append_rtakeWhile
  rw [← hcs] at h
  obtain ⟨front, back, rfl, hfront, hback⟩ := h.of_append
  have hblank : ∀ c ∈ back, isBlank c = true := by
    rw [← List.all_eq_true, hback.all (by decide), List.all_eq_true]
    exact fun _ => List.mem_rtakeWhile_imp
  have hend : Text.trimEnd front = front := by
    refine (List.rdropWhile_eq_self_iff ..).mpr fun hne => ?_
    have hlast := hfront.getLast?_eq
    have hne' : Text.trimEnd cs ≠ [] := by
      intro hnil
      rw [hnil, List.getLast?_eq_some_getLast hne] at hlast
      cases hlast
    rw [List.getLast?_eq_some_getLast hne, List.getLast?_eq_some_getLast hne'] at hlast
    rw [Option.some.inj hlast]
    exact List.rdropWhile_last_not isBlank cs hne'
  rw [show Text.trimEnd (front ++ back) = front from
    (trimEndBy_append_of_forall hblank front).trans hend]
  exact hfront

theorem trim (h : Returns cs cs') : Returns (trim cs) (trim cs') := h.trimStart.trimEnd

theorem eq_of_notMem (h : Returns cs cs') (hn : '\n' ∉ cs) : cs' = cs := by
  induction h with
  | nil => rfl
  | char _ _ ih => rw [ih (fun hm => hn (List.mem_cons_of_mem _ hm))]
  | newline => exact absurd List.mem_cons_self hn

theorem eq_iff {text : List Char} (h : Returns cs cs') (hn : '\n' ∉ text) (hr : '\r' ∉ text) :
    cs' = text ↔ cs = text := by
  constructor
  · rintro rfl
    rw [← h.withoutReturns_eq, withoutReturns_of_notMem hr]
  · rintro rfl
    exact h.eq_of_notMem hn

theorem withoutMark (h : Returns cs cs') {mark : Char} (hn : mark ≠ '\n') (hr : mark ≠ '\r') :
    Returns (Text.withoutMark mark cs) (Text.withoutMark mark cs') := by
  cases h with
  | nil => exact .nil
  | char hc rest =>
    rw [Text.withoutMark, Text.withoutMark]
    split
    · exact rest
    · exact .char hc rest
  | newline rest =>
    rw [Text.withoutMark, Text.withoutMark, if_neg hn.symm, if_neg hr.symm]
    exact .newline rest

end Returns

end

section

variable {α β γ δ : Type} {R : α → β → Prop} {S : γ → δ → Prop} {x : Option α} {y : Option β}

theorem rel_isSome (h : Option.Rel R x y) : y.isSome = x.isSome := by
  cases h <;> rfl

theorem rel_cases (h : Option.Rel R x y) :
    x = none ∧ y = none ∨ ∃ a b, x = some a ∧ y = some b ∧ R a b := by
  cases h with
  | none => exact .inl ⟨rfl, rfl⟩
  | some hr => exact .inr ⟨_, _, rfl, rfl, hr⟩

theorem eq_none_of_rel (h : Option.Rel R none y) : y = none := by
  cases h
  rfl

theorem rel_map {f : α → γ} {g : β → δ} (h : Option.Rel R x y)
    (hfg : ∀ a b, R a b → S (f a) (g b)) : Option.Rel S (x.map f) (y.map g) := by
  cases h with
  | none => exact .none
  | some hr => exact .some (hfg _ _ hr)

end

section

variable {cs cs' text : List Char}

/-- A text of one line stands in front of both or of neither. -/
theorem isPrefixOf?_returns (h : Returns cs cs') (hn : '\n' ∉ text) (hr : '\r' ∉ text) :
    Option.Rel Returns (text.isPrefixOf? cs) (text.isPrefixOf? cs') := by
  induction text generalizing cs cs' with
  | nil => exact .some h
  | cons t text ih =>
    obtain ⟨htn, hn⟩ := List.ne_and_not_mem_of_not_mem_cons hn
    obtain ⟨htr, hr⟩ := List.ne_and_not_mem_of_not_mem_cons hr
    cases h with
    | nil => exact .none
    | @char c cs cs' _ rest =>
      change Option.Rel Returns (if t == c then _ else _) (if t == c then _ else _)
      split
      · exact ih rest hn hr
      · exact .none
    | newline rest =>
      change Option.Rel Returns (if t == '\n' then _ else _) (if t == '\r' then _ else _)
      rw [if_neg (by simpa using htn.symm), if_neg (by simpa using htr.symm)]
      exact .none

theorem isPrefixOf_returns (h : Returns cs cs') (hn : '\n' ∉ text) (hr : '\r' ∉ text) :
    text.isPrefixOf cs' = text.isPrefixOf cs := by
  rw [← List.isSome_isPrefixOf?_eq_isPrefixOf, ← List.isSome_isPrefixOf?_eq_isPrefixOf]
  exact rel_isSome (isPrefixOf?_returns h hn hr)

theorem isPrefixOf?_concat (hr : '\r' ∉ text) (cs : List Char) :
    text.isPrefixOf? (cs ++ ['\r']) = (text.isPrefixOf? cs).map (· ++ ['\r']) := by
  induction text generalizing cs with
  | nil => rfl
  | cons t text ih =>
    obtain ⟨ht, htext⟩ := List.ne_and_not_mem_of_not_mem_cons hr
    cases cs with
    | nil =>
      change (if t == '\r' then _ else _) = _
      rw [if_neg (by simpa using ht.symm)]
      rfl
    | cons c cs =>
      change (if t == c then _ else _) = Option.map _ (if t == c then _ else _)
      split
      · exact ih htext cs
      · rfl

end

/-- The second line is the first one, or ends with a carriage return behind it. -/
structure Returned (line line' : List Char) : Prop where
  notMem : '\r' ∉ line
  ends : line' = line ∨ line' = line ++ ['\r']

section

variable {line line' : List Char}

theorem returned_self (h : '\r' ∉ line) : Returned line line := ⟨h, .inl rfl⟩

theorem returned_concat (h : '\r' ∉ line) : Returned line (line ++ ['\r']) := ⟨h, .inr rfl⟩

namespace Returned

theorem withoutReturns_eq (h : Returned line line') : withoutReturns line' = line := by
  rcases h.ends with rfl | rfl
  · exact withoutReturns_of_notMem h.notMem
  · rw [withoutReturns_append, withoutReturns_of_notMem h.notMem]
    exact List.append_nil line

theorem cons (h : Returned line line') {c : Char} (hc : c ≠ '\r') :
    Returned (c :: line) (c :: line') := by
  refine ⟨List.not_mem_cons_of_ne_of_not_mem hc.symm h.notMem, ?_⟩
  rcases h.ends with rfl | rfl
  · exact .inl rfl
  · exact .inr rfl

theorem trim_eq (h : Returned line line') : trim line' = trim line := by
  rcases h.ends with rfl | rfl
  · rfl
  · exact trim_concat_of_blank isBlank_return line

theorem all_eq (h : Returned line line') {p : Char → Bool} (hp : p '\r' = true) :
    line'.all p = line.all p := by
  rcases h.ends with rfl | rfl
  · rfl
  · rw [List.all_append, List.all_cons, hp, List.all_nil, Bool.and_true, Bool.and_true]

/-- A carriage return at the end is dropped only with all of the line. -/
theorem dropWhile (h : Returned line line') (p : Char → Bool) :
    Returned (line.dropWhile p) (line'.dropWhile p) := by
  have hnotMem : '\r' ∉ line.dropWhile p := fun hm =>
    h.notMem ((List.dropWhile_sublist p).subset hm)
  rcases h.ends with rfl | rfl
  · exact returned_self hnotMem
  · rw [List.dropWhile_append]
    split
    · next hnil =>
      rw [List.isEmpty_iff.mp hnil, List.dropWhile_cons]
      split
      · exact returned_self List.not_mem_nil
      · exact returned_concat List.not_mem_nil
    · exact returned_concat hnotMem

theorem trimStart (h : Returned line line') : Returned (trimStart line) (trimStart line') :=
  h.dropWhile isBlank

theorem takeWhile_eq (h : Returned line line') {p : Char → Bool} (hp : p '\r' = false) :
    line'.takeWhile p = line.takeWhile p := by
  rcases h.ends with rfl | rfl
  · rfl
  · rw [List.takeWhile_append, List.takeWhile_cons_of_neg (by rw [hp]; decide), List.append_nil]
    split
    · next hall => exact ((List.takeWhile_prefix p).eq_of_length hall).symm
    · rfl

theorem nil_or_cons (h : Returned line line') :
    line = [] ∧ (line' = [] ∨ line' = ['\r']) ∨
      ∃ c rest rest', line = c :: rest ∧ line' = c :: rest' ∧ Returned rest rest' := by
  cases line with
  | nil => exact .inl ⟨rfl, h.ends⟩
  | cons c rest =>
    have hrest : '\r' ∉ rest := fun hm => h.notMem (List.mem_cons_of_mem _ hm)
    rcases h.ends with rfl | rfl
    · exact .inr ⟨c, rest, rest, rfl, rfl, returned_self hrest⟩
    · exact .inr ⟨c, rest, rest ++ ['\r'], rfl, rfl, returned_concat hrest⟩

theorem head?_any (h : Returned line line') {p : Char → Bool} (hp : p '\r' = false) :
    line'.head?.any p = line.head?.any p := by
  rcases h.nil_or_cons with ⟨rfl, rfl | rfl⟩ | ⟨c, rest, rest', rfl, rfl, -⟩
  · rfl
  · exact hp
  · rfl

theorem withoutMark (h : Returned line line') {mark : Char} (hr : mark ≠ '\r') :
    Returned (withoutMark mark line) (withoutMark mark line') := by
  rcases h.nil_or_cons with ⟨rfl, rfl | rfl⟩ | ⟨c, rest, rest', rfl, rfl, hrest⟩
  · exact h
  · rw [Text.withoutMark, Text.withoutMark, if_neg hr.symm]
    exact h
  · rw [Text.withoutMark, Text.withoutMark]
    split
    · exact hrest
    · exact h

theorem isPrefixOf? (h : Returned line line') {text : List Char} (hr : '\r' ∉ text) :
    Option.Rel Returned (text.isPrefixOf? line) (text.isPrefixOf? line') := by
  have hnotMem {rest : List Char} (hrest : text.isPrefixOf? line = some rest) : '\r' ∉ rest := by
    rw [← isPrefixOf?_append hrest] at h
    exact fun hm => h.notMem (List.mem_append_right _ hm)
  rcases h.ends with hends | hends
  · rw [hends]
    cases hrest : text.isPrefixOf? line with
    | none => exact .none
    | some rest => exact .some (returned_self (hnotMem hrest))
  · rw [hends, isPrefixOf?_concat hr]
    cases hrest : text.isPrefixOf? line with
    | none => exact .none
    | some rest => exact .some (returned_concat (hnotMem hrest))

theorem isPrefixOf_eq (h : Returned line line') {text : List Char} (hr : '\r' ∉ text) :
    text.isPrefixOf line' = text.isPrefixOf line := by
  rw [← List.isSome_isPrefixOf?_eq_isPrefixOf, ← List.isSome_isPrefixOf?_eq_isPrefixOf]
  exact rel_isSome (h.isPrefixOf? hr)

end Returned

/-- The lines of a text, with the carriage returns at their ends. -/
theorem Returns.splitLines {cs cs' : List Char} (h : Returns cs cs') :
    List.Forall₂ Returned (splitLines cs) (splitLines cs') := by
  induction h with
  | nil => exact .cons (returned_self List.not_mem_nil) .nil
  | @char c cs cs' hc rest ih =>
    by_cases hn : c = '\n'
    · subst c
      rw [splitLines_cons_newline, splitLines_cons_newline]
      exact .cons (returned_self List.not_mem_nil) ih
    · obtain ⟨first, others, hcs, hcons⟩ := splitLines_cons hn cs
      obtain ⟨first', others', hcs', hcons'⟩ := splitLines_cons hn cs'
      rw [hcs, hcs'] at ih
      rw [hcons, hcons']
      cases ih with
      | cons hfirst hothers => exact .cons (hfirst.cons hc) hothers
  | @newline cs cs' rest ih =>
    obtain ⟨first, others, hcs, hcons⟩ := splitLines_cons (by decide : '\r' ≠ '\n') ('\n' :: cs')
    rw [splitLines_cons_newline] at hcs ⊢
    rw [hcons]
    cases hcs
    exact .cons (returned_concat List.not_mem_nil) ih

end

section

variable {lines lines' : List (List Char)}

theorem kept_returned (h : List.Forall₂ Returned lines lines') : kept lines' = kept lines := by
  have hmap : lines'.map trim = lines.map trim := by
    induction h with
    | nil => rfl
    | cons hline _ ih => rw [List.map_cons, List.map_cons, hline.trim_eq, ih]
  rw [kept, hmap, kept]

/-- Joined, all lines but the last have a line feed behind them. -/
theorem joinLines_returned (h : List.Forall₂ Returned lines lines') :
    ∃ text, Returns (joinLines lines) text ∧
      (joinLines lines' = text ∨ joinLines lines' = text ++ ['\r']) := by
  induction h with
  | nil => exact ⟨[], .nil, .inl rfl⟩
  | @cons line line' lines lines' hline hlines ih =>
    cases hlines with
    | nil =>
      refine ⟨line, ?_, ?_⟩
      · simpa [joinLines] using Returns.refl hline.notMem
      · simpa [joinLines] using hline.ends
    | @cons next next' rest rest' hnext hrest =>
      obtain ⟨text, htext, hends⟩ := ih
      have hfront : Returns (line ++ ['\n']) (line' ++ ['\n']) := by
        rcases hline.ends with rfl | rfl
        · exact (Returns.refl hline.notMem).append (.char (by decide) .nil)
        · rw [List.append_assoc]
          exact (Returns.refl hline.notMem).append (.newline .nil)
      refine ⟨line' ++ ['\n'] ++ text, ?_, ?_⟩
      · rw [joinLines_cons_cons]
        exact hfront.append htext
      · rw [joinLines_cons_cons]
        rcases hends with h | h
        · exact .inl (by rw [h])
        · exact .inr (by rw [h, ← List.append_assoc])

theorem withoutReturns_joinLines (h : List.Forall₂ Returned lines lines') :
    withoutReturns (joinLines lines') = joinLines lines := by
  obtain ⟨text, htext, hends | hends⟩ := joinLines_returned h
  · rw [hends, htext.withoutReturns_eq]
  · rw [hends, withoutReturns_append, htext.withoutReturns_eq]
    exact List.append_nil _

theorem trim_joinLines_returned (h : List.Forall₂ Returned lines lines') :
    Returns (trim (joinLines lines)) (trim (joinLines lines')) := by
  obtain ⟨text, htext, hends | hends⟩ := joinLines_returned h
  · rw [hends]
    exact htext.trim
  · rw [hends, trim_concat_of_blank isBlank_return]
    exact htext.trim

end

end DocComment.Text
