import DocComment.Proofs.Text.Lines

/-!
The words of a text, and its lines that are not empty. Both are the runs of characters between
cuts, so they are told together. How much is cut off between two runs makes no difference, nor
what is cut off before the first and after the last of them.
-/

namespace DocComment.Text

/-- The maximal runs of characters at which nothing is cut. -/
def segments (p : Char → Bool) (cs : List Char) : List (List Char) :=
  (splitBy p cs).filter fun piece => !piece.isEmpty

theorem words_eq_segments (cs : List Char) : words cs = segments isBlank cs := rfl

section

variable {p q : Char → Bool} {cs : List Char}

theorem segments_append_cons {c : Char} (h : p c = true) (as bs : List Char) :
    segments p (as ++ c :: bs) = segments p as ++ segments p bs := by
  rw [segments, splitBy_append_cons p h, List.filter_append]
  rfl

theorem segments_cons_of_pos {c : Char} (h : p c = true) (cs : List Char) :
    segments p (c :: cs) = segments p cs :=
  segments_append_cons h [] cs

theorem segments_append_front {front : List Char} (h : ∀ c ∈ front, p c = true)
    (cs : List Char) : segments p (front ++ cs) = segments p cs := by
  induction front with
  | nil => rfl
  | cons c front ih =>
    obtain ⟨hc, hfront⟩ := List.forall_mem_cons.mp h
    rw [List.cons_append, segments_cons_of_pos hc, ih hfront]

theorem segments_of_forall (h : ∀ c ∈ cs, p c = true) : segments p cs = [] := by
  have hnone := segments_append_front h []
  rwa [List.append_nil] at hnone

theorem segments_dropWhile (cs : List Char) : segments p (cs.dropWhile p) = segments p cs := by
  have hfront : ∀ c ∈ cs.takeWhile p, p c = true := fun _ => List.mem_takeWhile_imp
  have hsame := segments_append_front hfront (cs.dropWhile p)
  rwa [List.takeWhile_append_dropWhile, eq_comm] at hsame

theorem segments_append_back {back : List Char} (h : ∀ c ∈ back, p c = true) (cs : List Char) :
    segments p (cs ++ back) = segments p cs := by
  cases back with
  | nil => rw [List.append_nil]
  | cons c back =>
    obtain ⟨hc, hback⟩ := List.forall_mem_cons.mp h
    rw [segments_append_cons hc, segments_of_forall hback, List.append_nil]

theorem segments_trimBy (hq : ∀ c, q c = true → p c = true) (cs : List Char) :
    segments p (trimBy q cs) = segments p cs := by
  obtain ⟨front, back, hcs, hfront, hback⟩ := exists_trimBy_eq q cs
  conv_rhs => rw [hcs]
  rw [segments_append_back fun c hc => hq c (hback c hc),
    segments_append_front fun c hc => hq c (hfront c hc)]

theorem of_mem_segments {run : List Char} (h : run ∈ segments p cs) :
    run ≠ [] ∧ ∀ c ∈ run, p c = false := by
  obtain ⟨hm, hne⟩ := List.mem_filter.mp h
  exact ⟨by simpa using hne, not_of_mem_splitBy p hm⟩

/-- A run goes on up to the first cut. -/
theorem segments_run_append {run back : List Char} (hne : run ≠ [])
    (hrun : ∀ c ∈ run, p c = false) (hback : ∀ c ∈ back.head?, p c = true) :
    segments p (run ++ back) = run :: segments p back := by
  have hone : segments p run = [run] := by
    rw [segments, splitBy_of_forall p hrun]
    exact List.filter_cons_of_pos (by simpa using hne)
  cases back with
  | nil => rw [List.append_nil, hone]; rfl
  | cons c back =>
    have hc := hback c rfl
    rw [segments_append_cons hc, hone, segments_cons_of_pos hc, List.singleton_append]

/-- The first run of a text, with what stands before and behind it. -/
theorem segments_eq_cons {run : List Char} {others : List (List Char)}
    (h : segments p cs = run :: others) :
    ∃ front back, cs = front ++ run ++ back ∧ (∀ c ∈ front, p c = true) ∧
      (∀ c ∈ back.head?, p c = true) ∧ segments p back = others := by
  have hfront : ∀ c ∈ cs.takeWhile p, p c = true := fun _ => List.mem_takeWhile_imp
  have hcs : cs = cs.takeWhile p ++ cs.dropWhile p := List.takeWhile_append_dropWhile.symm
  have hhead := head?_dropWhile_neg p cs
  rw [← segments_dropWhile] at h
  generalize cs.dropWhile p = body at hcs hhead h
  -- What is left starts with its first run, which ends where the next cut is made.
  obtain ⟨first, hfirst⟩ : ∃ first, body.takeWhile (fun c => !p c) = first := ⟨_, rfl⟩
  obtain ⟨back, hback⟩ : ∃ back, body.dropWhile (fun c => !p c) = back := ⟨_, rfl⟩
  have hbody : body = first ++ back := by
    rw [← hfirst, ← hback, List.takeWhile_append_dropWhile]
  have huncut : ∀ c ∈ first, p c = false := by
    intro c hc
    have := List.mem_takeWhile_imp (hfirst ▸ hc)
    simpa using this
  have hcut : ∀ c ∈ back.head?, p c = true := by
    intro c hc
    have := head?_dropWhile_neg (fun c => !p c) body c (hback ▸ hc)
    simpa using this
  have hne : first ≠ [] := by
    cases body with
    | nil => cases h
    | cons c body =>
      rw [List.takeWhile_cons_of_pos (by simp [hhead c rfl])] at hfirst
      exact hfirst ▸ List.cons_ne_nil c _
  rw [hbody, segments_run_append hne huncut hcut] at h
  obtain ⟨rfl, rfl⟩ := List.cons.inj h
  exact ⟨_, back, by rw [List.append_assoc, ← hbody, ← hcs], hfront, hcut, rfl⟩

theorem segments_joinLines (hp : p '\n' = true) (lines : List (List Char)) :
    segments p (joinLines lines) = lines.flatMap (segments p) := by
  induction lines with
  | nil => rfl
  | cons line rest ih =>
    cases rest with
    | nil => simp [joinLines]
    | cons next rest =>
      rw [joinLines_cons_cons, List.append_assoc, List.singleton_append,
        segments_append_cons hp, ih]
      rfl

/-- Lines at which nothing is cut are their own runs, but for the empty ones. -/
theorem flatMap_segments {lines : List (List Char)} (h : ∀ line ∈ lines, ∀ c ∈ line, p c = false) :
    lines.flatMap (segments p) = lines.filter fun line => !line.isEmpty := by
  induction lines with
  | nil => rfl
  | cons line lines ih =>
    obtain ⟨hline, hlines⟩ := List.forall_mem_cons.mp h
    rw [List.flatMap_cons, ih hlines, segments, splitBy_of_forall p hline, ← List.filter_append,
      List.singleton_append]

end

theorem words_congr {as bs : List Char} (h : trim as = trim bs) : words as = words bs := by
  have htrim (cs : List Char) : words (trim cs) = words cs := segments_trimBy (fun _ h => h) cs
  rw [← htrim as, h, htrim bs]

theorem words_trimEnd (cs : List Char) : words (trimEnd cs) = words cs := by
  obtain ⟨tail, hcs, htail⟩ : ∃ tail, cs = trimEnd cs ++ tail ∧ ∀ c ∈ tail, isBlank c = true :=
    ⟨cs.rtakeWhile isBlank, List.rdropWhile_append_rtakeWhile.symm,
      fun _ => List.mem_rtakeWhile_imp⟩
  conv_rhs => rw [hcs]
  exact (segments_append_back htail _).symm

theorem words_joinLines (lines : List (List Char)) :
    words (joinLines lines) = lines.flatMap words :=
  segments_joinLines isBlank_newline lines

theorem words_dedent (lines : List (List Char)) :
    (dedent lines).flatMap words = lines.flatMap words := by
  have htrim : words ∘ trim = words := funext fun line => words_congr (trim_trim line)
  have hlines (lines : List (List Char)) : lines.flatMap words = (lines.map trim).flatMap words := by
    rw [List.flatMap_map]
    exact congrArg lines.flatMap htrim.symm
  rw [hlines (dedent lines), map_trim_dedent, ← hlines]

/-- Words with one space between two of them are these words. -/
theorem words_intercalate {ws : List (List Char)}
    (h : ∀ w ∈ ws, w ≠ [] ∧ ∀ c ∈ w, isBlank c = false) : words ([' '].intercalate ws) = ws := by
  have hspace : isBlank ' ' = true := by decide
  induction ws with
  | nil => rfl
  | cons w ws ih =>
    obtain ⟨⟨hne, hw⟩, hws⟩ := List.forall_mem_cons.mp h
    cases ws with
    | nil =>
      rw [List.intercalate_singleton]
      have hone : words (w ++ []) = [w] := segments_run_append hne hw nofun
      rwa [List.append_nil] at hone
    | cons next ws =>
      rw [List.intercalate_cons_cons, List.append_assoc, List.singleton_append, words_eq_segments,
        segments_run_append hne hw (by simpa using hspace), segments_cons_of_pos hspace]
      exact congrArg (w :: ·) (ih hws)

end DocComment.Text
