import DocComment.Text.Blank
import Mathlib.Data.List.DropRight

/-!
Trimmed text. What is left of a text after a trim has no character to trim at either end, so
a second trim changes nothing, and blanks at either end make no difference to it. What a trim
takes off is not there in the dense text, which has none of its blanks.
-/

namespace DocComment.Text

variable {p : Char → Bool}

section

variable {front back : List Char}

theorem takeWhile_eq_nil_of_head (h : ∀ c ∈ back.head?, p c = false) : back.takeWhile p = [] := by
  cases back with
  | nil => rfl
  | cons c back => exact List.takeWhile_cons_of_neg (by simp [h c rfl])

theorem dropWhile_eq_self_of_head (h : ∀ c ∈ back.head?, p c = false) :
    back.dropWhile p = back := by
  cases back with
  | nil => rfl
  | cons c back => exact List.dropWhile_cons_of_neg (by simp [h c rfl])

/-- A run of characters ends before the first that it is not one of. -/
theorem takeWhile_append_of_head (hfront : ∀ c ∈ front, p c = true)
    (hback : ∀ c ∈ back.head?, p c = false) : (front ++ back).takeWhile p = front := by
  rw [List.takeWhile_append_of_pos hfront, takeWhile_eq_nil_of_head hback, List.append_nil]

theorem dropWhile_append_of_head (hfront : ∀ c ∈ front, p c = true)
    (hback : ∀ c ∈ back.head?, p c = false) : (front ++ back).dropWhile p = back := by
  rw [List.dropWhile_append_of_pos hfront, dropWhile_eq_self_of_head hback]

theorem head?_dropWhile_neg (p : Char → Bool) (cs : List Char) :
    ∀ c ∈ (cs.dropWhile p).head?, p c = false := by
  intro c hc
  have hhead := List.head?_dropWhile_not p cs
  rw [Option.mem_def.mp hc] at hhead
  exact hhead

end

theorem trimBy_prefix (p : Char → Bool) (cs : List Char) : trimBy p cs <+: cs.dropWhile p :=
  List.rdropWhile_prefix p _

theorem trimBy_head {cs rest : List Char} {c : Char} (h : trimBy p cs = c :: rest) :
    p c = false := by
  obtain ⟨tail, ht⟩ := trimBy_prefix p cs
  apply head?_dropWhile_neg p cs
  rw [← ht, h]
  rfl

theorem dropWhile_trimBy (p : Char → Bool) (cs : List Char) :
    (trimBy p cs).dropWhile p = trimBy p cs := by
  apply dropWhile_eq_self_of_head
  intro c hc
  obtain ⟨rest, h⟩ := List.head?_eq_some_iff.mp hc
  exact trimBy_head h

theorem trimBy_trimBy (p : Char → Bool) (cs : List Char) :
    trimBy p (trimBy p cs) = trimBy p cs := by
  refine (congrArg (List.rdropWhile p) (dropWhile_trimBy p cs)).trans ?_
  exact List.rdropWhile_idempotent p _

theorem trimEndBy_append_of_forall {back : List Char} (h : ∀ c ∈ back, p c = true)
    (cs : List Char) : trimEndBy p (cs ++ back) = trimEndBy p cs := by
  rw [trimEndBy, List.reverse_append,
    List.dropWhile_append_of_pos fun c hc => h c (List.mem_reverse.mp hc)]
  rfl

theorem trimBy_append_of_forall {back : List Char} (h : ∀ c ∈ back, p c = true)
    (cs : List Char) : trimBy p (cs ++ back) = trimBy p cs := by
  rw [trimBy, List.dropWhile_append]
  split
  · next he =>
    rw [List.isEmpty_iff] at he
    rw [List.dropWhile_eq_nil_iff.mpr h, trimBy, he]
  · exact trimEndBy_append_of_forall h _

theorem trimBy_append_front {front : List Char} (h : ∀ c ∈ front, p c = true) (cs : List Char) :
    trimBy p (front ++ cs) = trimBy p cs := by
  rw [trimBy, List.dropWhile_append_of_pos h]
  rfl

/-- What a trim takes off at both ends. -/
theorem exists_trimBy_eq (p : Char → Bool) (cs : List Char) :
    ∃ front back, cs = front ++ trimBy p cs ++ back ∧ (∀ c ∈ front, p c = true) ∧
      ∀ c ∈ back, p c = true := by
  refine ⟨cs.takeWhile p, (cs.dropWhile p).rtakeWhile p, ?_, fun _ => List.mem_takeWhile_imp,
    fun _ => List.mem_rtakeWhile_imp⟩
  have hback : trimBy p cs ++ (cs.dropWhile p).rtakeWhile p = cs.dropWhile p :=
    List.rdropWhile_append_rtakeWhile
  rw [List.append_assoc, hback, List.takeWhile_append_dropWhile]

theorem trimStart_trim (cs : List Char) : trimStart (trim cs) = trim cs :=
  dropWhile_trimBy isBlank cs

theorem trim_trim (cs : List Char) : trim (trim cs) = trim cs := trimBy_trimBy isBlank cs

/-- What a trim takes off at the end is blank. -/
theorem trimStart_eq_trim_append (cs : List Char) :
    ∃ tail, trimStart cs = trim cs ++ tail ∧ ∀ c ∈ tail, isBlank c = true :=
  ⟨(trimStart cs).rtakeWhile isBlank, List.rdropWhile_append_rtakeWhile.symm,
    fun _ => List.mem_rtakeWhile_imp⟩

theorem trim_subset (cs : List Char) : trim cs ⊆ cs := by
  have hfront := trimBy_prefix isBlank cs
  exact fun _ hc => (List.dropWhile_sublist isBlank).subset (hfront.subset hc)

section

variable {cs : List Char} {c : Char}

theorem trim_cons_of_blank (h : isBlank c = true) (cs : List Char) :
    trim (c :: cs) = trim cs := by
  rw [trim, trimBy, List.dropWhile_cons_of_pos h]
  rfl

theorem trim_append_of_blank {front : List Char} (h : ∀ c ∈ front, isBlank c = true)
    (cs : List Char) : trim (front ++ cs) = trim cs :=
  trimBy_append_front h cs

theorem trim_concat_of_blank (h : isBlank c = true) (cs : List Char) :
    trim (cs ++ [c]) = trim cs :=
  trimBy_append_of_forall (by simpa using h) cs

theorem trim_eq_nil_iff : trim cs = [] ↔ ∀ c ∈ cs, isBlank c = true := by
  refine ⟨fun h => ?_, fun h => ?_⟩
  · have hall := List.rdropWhile_eq_nil_iff.mp h
    rw [← List.dropWhile_eq_nil_iff]
    refine Classical.byContradiction fun hne => ?_
    have hhead := List.head_dropWhile_not isBlank hne
    rw [hall _ (List.head_mem hne)] at hhead
    cases hhead
  · have := trim_append_of_blank h []
    rwa [List.append_nil] at this

end

/-- A trim takes none of the characters that are not blank. -/
theorem filter_trim {q : Char → Bool} (hq : ∀ c, isBlank c = true → q c = false)
    (cs : List Char) : (trim cs).filter q = cs.filter q := by
  have hblanks {blanks : List Char} (h : ∀ c ∈ blanks, isBlank c = true) :
      blanks.filter q = [] := by
    rw [List.filter_eq_nil_iff]
    intro c hc
    rw [hq c (h c hc)]
    decide
  obtain ⟨front, back, hcs, hfront, hback⟩ := exists_trimBy_eq isBlank cs
  conv_rhs => rw [hcs]
  rw [List.filter_append, List.filter_append, hblanks hfront, hblanks hback, List.nil_append,
    List.append_nil]
  rfl

theorem trimEndBy_eq_self_iff {cs : List Char} :
    trimEndBy p cs = cs ↔ ∀ c ∈ cs.getLast?, p c = false := by
  refine List.rdropWhile_eq_self_iff.trans ⟨fun h c hc => ?_, fun h hne => ?_⟩
  · obtain ⟨hne, rfl⟩ := List.mem_getLast?_eq_getLast hc
    exact Bool.eq_false_iff.mpr (h hne)
  · rw [h _ (List.getLast?_eq_some_getLast hne)]
    decide

theorem trimBy_eq_self_iff {cs : List Char} :
    trimBy p cs = cs ↔ (∀ c ∈ cs.head?, p c = false) ∧ (∀ c ∈ cs.getLast?, p c = false) := by
  constructor
  · intro h
    have hhead : ∀ c ∈ cs.head?, p c = false := by
      intro c hc
      obtain ⟨rest, rfl⟩ := List.head?_eq_some_iff.mp hc
      exact trimBy_head h
    rw [trimBy, dropWhile_eq_self_of_head hhead] at h
    exact ⟨hhead, trimEndBy_eq_self_iff.mp h⟩
  · rintro ⟨hhead, hlast⟩
    rw [trimBy, dropWhile_eq_self_of_head hhead]
    exact trimEndBy_eq_self_iff.mpr hlast

/-- A text is trimmed if it neither starts nor ends with a blank. -/
theorem trim_eq_self_iff {cs : List Char} :
    trim cs = cs ↔
      (∀ c ∈ cs.head?, isBlank c = false) ∧ (∀ c ∈ cs.getLast?, isBlank c = false) :=
  trimBy_eq_self_iff

theorem trim_append_of_trimmed {front middle back : List Char} (hf : trim front = front)
    (hfn : front ≠ []) (hb : trim back = back) (hbn : back ≠ []) :
    trim (front ++ middle ++ back) = front ++ middle ++ back := by
  rw [trim_eq_self_iff]
  constructor
  · rw [List.append_assoc, List.head?_append_of_ne_nil front hfn]
    exact (trim_eq_self_iff.mp hf).1
  · rw [List.getLast?_append_of_ne_nil _ hbn]
    exact (trim_eq_self_iff.mp hb).2

/-! ### Text without its blanks -/

def dense (cs : List Char) : List Char := cs.filter fun c => !isBlank c

@[simp] theorem dense_append (front back : List Char) :
    dense (front ++ back) = dense front ++ dense back := List.filter_append ..

@[simp] theorem dense_trim (cs : List Char) : dense (trim cs) = dense cs :=
  filter_trim (fun c hc => by rw [hc]; rfl) cs

theorem dense_of_blank {cs : List Char} (h : ∀ c ∈ cs, isBlank c = true) : dense cs = [] := by
  rw [dense, List.filter_eq_nil_iff]
  intro c hc
  rw [h c hc]
  decide

end DocComment.Text
