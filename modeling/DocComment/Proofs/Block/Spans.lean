import DocComment.Block.Extract

/-!
Where the comments of a source stand. The scan takes the first close after an opening, goes on
behind it, and steps over an opening only if nothing closes it any more. So the spans follow
one another, each is a comment with nothing behind its first close, and an opening outside of
them is never closed.
-/

namespace DocComment.Block

open Text

/-- A slash and a star stand at an offset, and no slash follows at once. -/
def OpensAt (source : List Char) (offset : Nat) : Prop :=
  "/*".toList <+: source.drop offset ∧ ¬ "/*/".toList <+: source.drop offset

/-- A star and a slash stand at an offset. -/
def ClosesAt (source : List Char) (offset : Nat) : Prop :=
  "*/".toList <+: source.drop offset

theorem opensAt_append (front cs : List Char) (p : Nat) :
    OpensAt (front ++ cs) (front.length + p) ↔ OpensAt cs p := by
  rw [OpensAt, OpensAt, List.drop_length_add_append]

theorem closesAt_append (front cs : List Char) (p : Nat) :
    ClosesAt (front ++ cs) (front.length + p) ↔ ClosesAt cs p := by
  rw [ClosesAt, ClosesAt, List.drop_length_add_append]

theorem opensAt_zero_iff {cs : List Char} :
    OpensAt cs 0 ↔ ∃ rest, cs = '/' :: '*' :: rest ∧ ∀ more, rest ≠ '/' :: more := by
  constructor
  · rintro ⟨⟨rest, rfl⟩, hslash⟩
    refine ⟨rest, rfl, ?_⟩
    rintro more rfl
    exact hslash ⟨more, rfl⟩
  · rintro ⟨rest, rfl, hslash⟩
    refine ⟨⟨rest, rfl⟩, ?_⟩
    rintro ⟨more, hmore⟩
    exact hslash more (by simpa using hmore.symm)

theorem closesAt_zero_iff {cs : List Char} :
    ClosesAt cs 0 ↔ ∃ rest, cs = '*' :: '/' :: rest := by
  constructor
  · rintro ⟨rest, rfl⟩
    exact ⟨rest, rfl⟩
  · rintro ⟨rest, rfl⟩
    exact ⟨rest, rfl⟩

/-- A comment ends with the first star and slash behind its opening. -/
structure IsComment (raw : List Char) : Prop where
  opens : OpensAt raw 0
  long : 4 ≤ raw.length
  closes : ClosesAt raw (raw.length - 2)
  first : ∀ p, 2 ≤ p → p < raw.length - 2 → ¬ ClosesAt raw p

theorem closeComment_first {cs front back : List Char}
    (h : closeComment cs = some (front, back)) :
    2 ≤ front.length ∧ ClosesAt front (front.length - 2) ∧
      ∀ p < front.length - 2, ¬ ClosesAt front p := by
  fun_induction closeComment cs generalizing front with
  | case1 => cases h
  | case2 rest =>
    cases h
    refine ⟨Nat.le_refl 2, closesAt_zero_iff.mpr ⟨[], rfl⟩, ?_⟩
    intro p hp
    cases hp
  | case3 c rest hother ih =>
    obtain ⟨⟨f, b⟩, hf, he⟩ := Option.map_eq_some_iff.mp h
    cases he
    obtain ⟨hlong, hcloses, hfirst⟩ := ih hf
    have hlength : (c :: f).length - 2 = (f.length - 2) + 1 := by
      rw [List.length_cons]
      omega
    rw [hlength]
    refine ⟨by rw [List.length_cons]; omega, hcloses, ?_⟩
    intro p hp
    cases p with
    | zero =>
      -- A close at the front would have been cut off by the case before this one.
      intro hc
      obtain ⟨more, hmore⟩ := closesAt_zero_iff.mp hc
      injection hmore with hstar hslash
      have hrest := closeComment_append hf
      rw [hslash] at hrest
      exact hother _ hstar hrest.symm
    | succ p => exact hfirst p (by omega)

theorem not_closesAt_of_closeComment_none {cs : List Char} (h : closeComment cs = none)
    (p : Nat) : ¬ ClosesAt cs p := by
  fun_induction closeComment cs generalizing p with
  | case1 =>
    rw [ClosesAt, List.drop_nil]
    decide
  | case2 rest => cases h
  | case3 c rest hother ih =>
    have hnone := Option.map_eq_none_iff.mp h
    cases p with
    | zero =>
      intro hc
      obtain ⟨more, hmore⟩ := closesAt_zero_iff.mp hc
      injection hmore with hstar hslash
      exact hother more hstar hslash
    | succ p => exact ih hnone p

theorem isComment_of_atFront {cs raw after : List Char} (h : atFront cs = some (raw, after)) :
    IsComment raw := by
  unfold atFront at h
  split at h
  · cases h
  · next rest hopen =>
    obtain ⟨⟨f, b⟩, hf, he⟩ := Option.map_eq_some_iff.mp h
    cases he
    obtain ⟨hlong, hcloses, hfirst⟩ := closeComment_first hf
    have hslash : ∀ more, f ≠ '/' :: more := by
      rintro more rfl
      exact hopen (more ++ after) (closeComment_append hf).symm
    have hlength : ('/' :: '*' :: f).length - 2 = (f.length - 2) + 2 := by
      simp only [List.length_cons]
      omega
    refine ⟨opensAt_zero_iff.mpr ⟨f, rfl, hslash⟩, ?_, ?_, ?_⟩
    · simp only [List.length_cons]
      omega
    · rw [hlength]
      exact hcloses
    · intro p hp hlt
      obtain ⟨p, rfl⟩ := Nat.exists_eq_add_of_le' hp
      exact hfirst p (by omega)
  · cases h

theorem not_closesAt_of_atFront_none {cs : List Char} (h : atFront cs = none)
    (ho : OpensAt cs 0) {q : Nat} (hq : 2 ≤ q) : ¬ ClosesAt cs q := by
  obtain ⟨rest, rfl, hslash⟩ := opensAt_zero_iff.mp ho
  have hnone : closeComment rest = none := by
    unfold atFront at h
    split at h
    · next more heq =>
      injection heq with _ heq
      injection heq with _ heq
      exact absurd heq (hslash more)
    · next more hother heq =>
      injection heq with _ heq
      injection heq with _ heq
      rw [heq]
      exact Option.map_eq_none_iff.mp h
    · next hother => exact absurd rfl (hother rest)
  obtain ⟨q, rfl⟩ := Nat.exists_eq_add_of_le' hq
  exact not_closesAt_of_closeComment_none hnone q

/-- Where a comment ends, which is before what follows it. -/
def Span.finish (span : Span) : Nat := span.start + span.raw.length

/-- A span is a comment of the source, with what stands around it. -/
structure Span.Fits (span : Span) (source : List Char) : Prop where
  around : ∃ before, before ++ span.raw ++ span.after = source ∧
    before.length = span.start ∧ newlinesIn before = span.newlines
  comment : IsComment span.raw

theorem newlinesIn_append (front back : List Char) :
    newlinesIn (front ++ back) = newlinesIn front + newlinesIn back := List.countP_append

theorem spansFrom_fits {start newlines : Nat} {before cs : List Char}
    (hs : before.length = start) (hn : newlinesIn before = newlines) :
    ∀ span ∈ spansFrom start newlines cs, span.Fits (before ++ cs) := by
  fun_induction spansFrom start newlines cs generalizing before with
  | case1 start newlines cs raw after h ih =>
    obtain ⟨rfl, -⟩ := atFront_append h
    rw [List.forall_mem_cons, ← List.append_assoc]
    refine ⟨⟨⟨before, rfl, hs, hn⟩, isComment_of_atFront h⟩, ih ?_ ?_⟩
    · rw [List.length_append, hs]
    · rw [newlinesIn_append, hn]
  | case2 => simp
  | case3 start newlines c rest h ih =>
    rw [List.append_cons]
    refine ih ?_ ?_
    · rw [List.length_append, hs]
      rfl
    · rw [newlinesIn_append, hn]

theorem spansFrom_start_le (start newlines : Nat) (cs : List Char) :
    ∀ span ∈ spansFrom start newlines cs, start ≤ span.start := by
  fun_induction spansFrom start newlines cs with
  | case1 start newlines cs raw after h ih =>
    rw [List.forall_mem_cons]
    refine ⟨Nat.le_refl start, ?_⟩
    intro span hm
    have := ih span hm
    omega
  | case2 => simp
  | case3 start newlines c rest h ih =>
    intro span hm
    have := ih span hm
    omega

/-- A comment ends before the next one starts. -/
theorem spansFrom_pairwise (start newlines : Nat) (cs : List Char) :
    (spansFrom start newlines cs).Pairwise fun a b => a.finish ≤ b.start := by
  fun_induction spansFrom start newlines cs with
  | case1 start newlines cs raw after h ih =>
    rw [List.pairwise_cons]
    exact ⟨spansFrom_start_le _ _ after, ih⟩
  | case2 => exact List.Pairwise.nil
  | case3 start newlines c rest h ih => exact ih

/-- An opening that no span covers has no close behind it. -/
theorem not_closesAt_of_uncovered {start newlines : Nat} {cs : List Char} {p : Nat}
    (ho : OpensAt cs p)
    (hout : ∀ span ∈ spansFrom start newlines cs,
      ¬ (span.start ≤ start + p ∧ start + p < span.finish))
    {q : Nat} (hq : p + 2 ≤ q) : ¬ ClosesAt cs q := by
  fun_induction spansFrom start newlines cs generalizing p q with
  | case1 start newlines cs raw after h ih =>
    obtain ⟨rfl, -⟩ := atFront_append h
    obtain ⟨hfirst, hrest⟩ := List.forall_mem_cons.mp hout
    -- The comment at the front covers its own characters, so the opening comes after it.
    have hbehind : raw.length ≤ p := by
      refine Nat.le_of_not_lt fun hlt => hfirst ⟨Nat.le_add_right start p, ?_⟩
      exact Nat.add_lt_add_left hlt start
    obtain ⟨p, rfl⟩ := Nat.exists_eq_add_of_le hbehind
    obtain ⟨q, rfl⟩ := Nat.exists_eq_add_of_le (show raw.length ≤ q by omega)
    rw [closesAt_append]
    refine ih ((opensAt_append raw after p).mp ho) ?_ (by omega)
    intro span hm
    rw [Nat.add_assoc]
    exact hrest span hm
  | case2 =>
    rw [OpensAt, List.drop_nil] at ho
    exact absurd (List.prefix_nil.mp ho.1) (by decide)
  | case3 start newlines c rest h ih =>
    cases p with
    | zero => exact not_closesAt_of_atFront_none h ho hq
    | succ p =>
      obtain ⟨q, rfl⟩ := Nat.exists_eq_add_of_le' (show 1 ≤ q by omega)
      refine ih (p := p) (q := q) ho ?_ (by omega)
      intro span hm
      rw [Nat.add_assoc, Nat.add_comm 1]
      exact hout span hm

end DocComment.Block
