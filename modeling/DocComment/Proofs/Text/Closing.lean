import DocComment.Text.Closing
import Mathlib.Data.List.Infix

/-!
Matching brackets told by counts. A bracket is closed where as many closing as opening ones have
come, for the first time, and never if more are open wherever one stops reading. A text whose
brackets match on their own can stand inside a pair of them, and nothing else can.
-/

namespace DocComment.Text

variable {opener closer : Char} {cs : List Char}

/-- How many more brackets are opened than closed. -/
def excess (opener closer : Char) (cs : List Char) : Int := cs.count opener - cs.count closer

theorem excess_nil : excess opener closer [] = 0 := rfl

theorem excess_append (as bs : List Char) :
    excess opener closer (as ++ bs) = excess opener closer as + excess opener closer bs := by
  simp only [excess, List.count_append]
  omega

theorem excess_opener (hne : opener ≠ closer) :
    excess opener closer (opener :: cs) = excess opener closer cs + 1 := by
  simp only [excess, List.count_cons_self, List.count_cons_of_ne hne]
  omega

theorem excess_closer (hne : opener ≠ closer) :
    excess opener closer (closer :: cs) = excess opener closer cs - 1 := by
  simp only [excess, List.count_cons_self, List.count_cons_of_ne hne.symm]
  omega

theorem excess_other {c : Char} (ho : c ≠ opener) (hc : c ≠ closer) :
    excess opener closer (c :: cs) = excess opener closer cs := by
  simp only [excess, List.count_cons_of_ne ho, List.count_cons_of_ne hc]

theorem excess_pos_iff : 0 < excess opener closer cs ↔ cs.count closer < cs.count opener := by
  rw [excess]
  omega

/-- The depth returns to zero with the character at this index, and not before. -/
structure ClosesAt (opener closer : Char) (depth : Int) (cs : List Char) (last : Nat) : Prop where
  inside : last < cs.length
  closed : depth + excess opener closer (cs.take (last + 1)) = 0
  opened : ∀ k ≤ last, 0 < depth + excess opener closer (cs.take k)

/-- One character further on, from the depth that it leads to. -/
theorem closesAt_cons {c : Char} {depth next : Int} {last : Nat} (hd : 0 < depth)
    (hn : ∀ cs, depth + excess opener closer (c :: cs) = next + excess opener closer cs) :
    ClosesAt opener closer depth (c :: cs) (last + 1) ↔ ClosesAt opener closer next cs last := by
  constructor
  · rintro ⟨hi, hc, ho⟩
    refine ⟨Nat.lt_of_succ_lt_succ hi, ?_, fun k hk => ?_⟩
    · rw [← hn, ← List.take_succ_cons, hc]
    · rw [← hn, ← List.take_succ_cons]
      exact ho (k + 1) (Nat.succ_le_succ hk)
  · rintro ⟨hi, hc, ho⟩
    refine ⟨Nat.succ_lt_succ hi, ?_, fun k hk => ?_⟩
    · rw [List.take_succ_cons, hn, hc]
    · cases k with
      | zero => simpa [excess_nil] using hd
      | succ k =>
        rw [List.take_succ_cons, hn]
        exact ho k (Nat.le_of_succ_le_succ hk)

theorem closesAt_zero {c : Char} {depth : Int} :
    ClosesAt opener closer depth (c :: cs) 0 ↔
      depth + excess opener closer [c] = 0 ∧ 0 < depth := by
  constructor
  · rintro ⟨-, hc, ho⟩
    exact ⟨by simpa using hc, by simpa [excess_nil] using ho 0 (Nat.le_refl 0)⟩
  · rintro ⟨hc, hd⟩
    refine ⟨Nat.zero_lt_succ _, by simpa using hc, fun k hk => ?_⟩
    obtain rfl := Nat.le_zero.mp hk
    simpa [excess_nil] using hd

theorem closingFrom_eq_some_iff (hne : opener ≠ closer) {depth : Int} (hd : 0 < depth)
    {last : Nat} :
    closingFrom opener closer depth cs = some last ↔ ClosesAt opener closer depth cs last := by
  induction cs generalizing depth last with
  | nil =>
    constructor
    · intro h
      cases h
    · rintro ⟨hi, -, -⟩
      exact absurd hi (Nat.not_lt_zero _)
  | cons c rest ih =>
    -- A bracket or any other character that leaves the depth above zero only shifts the index.
    have shifted {next : Int} (hnext : 0 < next)
        (hn : ∀ cs, depth + excess opener closer (c :: cs) = next + excess opener closer cs) :
        (closingFrom opener closer next rest).map (· + 1) = some last ↔
          ClosesAt opener closer depth (c :: rest) last := by
      cases last with
      | zero =>
        have hstay := hn []
        rw [closesAt_zero, hstay, excess_nil]
        simp only [Option.map_eq_some_iff, Nat.add_eq_zero_iff, Nat.one_ne_zero, and_false,
          exists_false, false_iff]
        omega
      | succ last =>
        rw [closesAt_cons hd hn, ← ih hnext]
        simp
    rw [closingFrom]
    split
    · next ho =>
      subst c
      exact shifted (by omega) fun cs => by rw [excess_opener hne]; omega
    · next ho =>
      split
      · next hc =>
        subst c
        have hone : excess opener closer [closer] = -1 := excess_closer hne
        split
        · next h1 =>
          subst depth
          constructor
          · rintro ⟨⟩
            exact closesAt_zero.mpr ⟨by rw [hone]; rfl, hd⟩
          · rintro ⟨-, -, hopen⟩
            cases last with
            | zero => rfl
            | succ last =>
              have := hopen 1 (Nat.succ_le_succ (Nat.zero_le _))
              simp [hone] at this
        · next h1 =>
          exact shifted (by omega) fun cs => by rw [excess_closer hne]; omega
      · next hc => exact shifted hd fun cs => by rw [excess_other ho hc]

theorem closingFrom_some {depth : Int} {last : Nat}
    (h : closingFrom opener closer depth cs = some last) : cs[last]? = some closer := by
  induction cs generalizing depth last with
  | nil => cases h
  | cons c rest ih =>
    have hrest {depth : Int}
        (h : (closingFrom opener closer depth rest).map (· + 1) = some last) :
        (c :: rest)[last]? = some closer := by
      obtain ⟨last, hl, rfl⟩ := Option.map_eq_some_iff.mp h
      exact ih hl
    rw [closingFrom] at h
    split at h
    · exact hrest h
    · split at h
      · next hc =>
        split at h
        · cases h
          exact congrArg some hc
        · exact hrest h
      · exact hrest h

/-- The bracket at the front opens the first level. -/
theorem closing_eq_some_iff (hne : opener ≠ closer) {last : Nat} :
    closing opener closer (opener :: cs) = some last ↔
      ∃ k, ClosesAt opener closer 1 cs k ∧ k + 1 = last := by
  rw [closing, closingFrom, if_pos rfl]
  simp only [Int.zero_add, Option.map_eq_some_iff, closingFrom_eq_some_iff hne Int.one_pos]

/-- Brackets that match as soon as all of the text is read, and not before. -/
structure Enclosed (opener closer : Char) (cs : List Char) : Prop where
  equal : cs.count opener = cs.count closer
  open_before : ∀ front, front <+: cs → front ≠ [] → front ≠ cs →
    front.count closer < front.count opener

/-- Reading up to the last bracket of an enclosed text closes its first one there. -/
theorem closesAt_iff_enclosed (hne : opener ≠ closer) {k : Nat} (hinside : k < cs.length) :
    ClosesAt opener closer 1 cs k ↔ Enclosed opener closer (opener :: cs.take (k + 1)) := by
  have hall : excess opener closer (opener :: cs.take (k + 1)) = _ := excess_opener hne
  have hlength : (cs.take (k + 1)).length = k + 1 := List.length_take_of_le hinside
  constructor
  · rintro ⟨-, hclosed, hopened⟩
    refine ⟨by rw [excess] at hall; omega, fun front hfront hnil hwhole => ?_⟩
    cases front with
    | nil => exact absurd rfl hnil
    | cons c front =>
      obtain ⟨rfl, htail⟩ := List.cons_prefix_cons.mp hfront
      have hshort : front.length < k + 1 := by
        refine Nat.lt_of_le_of_ne (hlength ▸ htail.length_le) fun heq => hwhole ?_
        rw [htail.eq_of_length (heq.trans hlength.symm)]
      have hcut : front = cs.take front.length :=
        List.prefix_iff_eq_take.mp (htail.trans (List.take_prefix _ _))
      rw [← excess_pos_iff, excess_opener hne, hcut, Int.add_comm]
      exact hopened _ (Nat.le_of_lt_succ hshort)
  · intro h
    refine ⟨hinside, ?_, fun j hj => ?_⟩
    · rw [excess, h.equal] at hall
      omega
    · have hfront : opener :: cs.take j <+: opener :: cs.take (k + 1) :=
        List.cons_prefix_cons.mpr ⟨rfl, List.take_prefix_take_left (Nat.le_succ_of_le hj)⟩
      have hshort : opener :: cs.take j ≠ opener :: cs.take (k + 1) := by
        intro heq
        have := congrArg List.length heq
        simp only [List.length_cons, hlength, List.length_take] at this
        omega
      have := h.open_before _ hfront (List.cons_ne_nil _ _) hshort
      rwa [← excess_pos_iff, excess_opener hne, Int.add_comm] at this

theorem not_enclosed_singleton (hne : opener ≠ closer) : ¬ Enclosed opener closer [opener] := by
  intro h
  have hone : excess opener closer [opener] = excess opener closer [] + 1 := excess_opener hne
  rw [excess, h.equal, excess_nil] at hone
  omega

/-- The bracket at the front is closed where the text from it on is enclosed. -/
theorem closing_iff_enclosed (hne : opener ≠ closer) {last : Nat} :
    closing opener closer (opener :: cs) = some last ↔
      last < (opener :: cs).length ∧
        Enclosed opener closer ((opener :: cs).take (last + 1)) := by
  rw [closing_eq_some_iff hne, List.take_succ_cons, List.length_cons]
  constructor
  · rintro ⟨k, hcloses, rfl⟩
    have hinside := hcloses.inside
    exact ⟨Nat.succ_lt_succ hinside, (closesAt_iff_enclosed hne hinside).mp hcloses⟩
  · rintro ⟨hinside, henclosed⟩
    cases last with
    | zero => exact absurd henclosed (not_enclosed_singleton hne)
    | succ k =>
      exact ⟨k, (closesAt_iff_enclosed hne (Nat.lt_of_succ_lt_succ hinside)).mpr henclosed, rfl⟩

/-- Nothing but what is enclosed has to be read. -/
theorem closing_take (hne : opener ≠ closer) {last : Nat}
    (h : closing opener closer (opener :: cs) = some last) :
    closing opener closer ((opener :: cs).take (last + 1)) = some last := by
  obtain ⟨hinside, henclosed⟩ := (closing_iff_enclosed hne).mp h
  rw [List.take_succ_cons, closing_iff_enclosed hne, ← List.take_succ_cons, List.take_take,
    Nat.min_self, List.length_take_of_le hinside]
  exact ⟨Nat.lt_succ_self last, henclosed⟩

/-- What follows the bracket that closes makes no difference. -/
theorem closing_append (hne : opener ≠ closer) {last : Nat}
    (h : closing opener closer (opener :: cs) = some last) (more : List Char) :
    closing opener closer (opener :: (cs ++ more)) = some last := by
  obtain ⟨hinside, henclosed⟩ := (closing_iff_enclosed hne).mp h
  rw [closing_iff_enclosed hne, ← List.cons_append, List.take_append_of_le_length hinside,
    List.length_append]
  exact ⟨Nat.lt_add_right _ hinside, henclosed⟩

/-- What a bracket closes ends with the closing bracket. -/
theorem take_closing {rest : List Char} {last : Nat}
    (h : closing opener closer (opener :: rest) = some last) :
    ∃ inner, (opener :: rest).take (last + 1) = opener :: inner ++ [closer] := by
  rw [closing, closingFrom, if_pos rfl] at h
  obtain ⟨last, hl, rfl⟩ := Option.map_eq_some_iff.mp h
  refine ⟨rest.take last, ?_⟩
  rw [List.take_succ_cons, List.take_add_one, closingFrom_some hl]
  rfl

/-- Every closing bracket has its opening one before it, and none is left open. -/
structure Matched (opener closer : Char) (cs : List Char) : Prop where
  equal : cs.count opener = cs.count closer
  covered : ∀ front, front <+: cs → front.count closer ≤ front.count opener

/-- A bracket before a text and one after it belong together exactly if the text is matched. -/
theorem closing_wrapped_iff (hne : opener ≠ closer) :
    closing opener closer (opener :: (cs ++ [closer])) = some (cs.length + 1) ↔
      Matched opener closer cs := by
  have hone : excess opener closer [closer] = -1 := excess_closer hne
  simp only [closing_eq_some_iff hne, Nat.add_right_cancel_iff, exists_eq_right]
  constructor
  · rintro ⟨-, hc, ho⟩
    constructor
    · rw [List.take_of_length_le (by simp), excess_append, hone, excess] at hc
      omega
    · rintro front ⟨back, rfl⟩
      have hk := ho front.length (by simp)
      rw [List.append_assoc, List.take_left, excess] at hk
      omega
  · rintro ⟨he, hc⟩
    refine ⟨by simp, ?_, fun k hk => ?_⟩
    · rw [List.take_of_length_le (by simp), excess_append, hone, excess]
      omega
    · rw [List.take_append_of_le_length hk, excess]
      have := hc _ (List.take_prefix k cs)
      omega

theorem count_opener_filter (cs : List Char) :
    (cs.filter fun c => c == opener || c == closer).count opener = cs.count opener :=
  List.count_filter (by simp)

theorem count_closer_filter (cs : List Char) :
    (cs.filter fun c => c == opener || c == closer).count closer = cs.count closer :=
  List.count_filter (by simp)

/-- Only the brackets of a text decide whether they match. -/
theorem matched_filter_iff :
    Matched opener closer (cs.filter fun c => c == opener || c == closer) ↔
      Matched opener closer cs := by
  constructor
  · rintro ⟨he, hc⟩
    refine ⟨by rwa [count_opener_filter, count_closer_filter] at he, fun front hfront => ?_⟩
    have := hc _ (hfront.filter _)
    rwa [count_opener_filter, count_closer_filter] at this
  · rintro ⟨he, hc⟩
    refine ⟨by rwa [count_opener_filter, count_closer_filter], fun front hfront => ?_⟩
    obtain ⟨front, hprefix, rfl⟩ := List.prefix_filter_iff.mp hfront
    rw [count_opener_filter, count_closer_filter]
    exact hc front hprefix

/-- A bracket that is closed has a matched text behind it, up to the bracket that closes it. -/
theorem exists_matched_of_closing (hne : opener ≠ closer) {last : Nat}
    (h : closing opener closer (opener :: cs) = some last) :
    ∃ inner rest, cs = inner ++ closer :: rest ∧ last = inner.length + 1 ∧
      Matched opener closer inner := by
  obtain ⟨inner, hinner⟩ := take_closing h
  have hwrapped := closing_take hne h
  have hinside := ((closing_iff_enclosed hne).mp h).1
  obtain rfl : last = inner.length + 1 := by
    have hlength := congrArg List.length hinner
    rw [List.length_take_of_le hinside] at hlength
    simpa using hlength
  rw [hinner] at hwrapped
  refine ⟨inner, cs.drop (inner.length + 1), ?_, rfl, (closing_wrapped_iff hne).mp hwrapped⟩
  rw [List.take_succ_cons, List.cons_append] at hinner
  rw [← List.singleton_append, ← List.append_assoc, ← (List.cons.inj hinner).2,
    List.take_append_drop]

theorem closing_of_matched (hne : opener ≠ closer) (h : Matched opener closer cs)
    (rest : List Char) :
    closing opener closer (opener :: (cs ++ closer :: rest)) = some (cs.length + 1) := by
  have hwrapped := closing_append hne ((closing_wrapped_iff hne).mpr h) rest
  rwa [List.append_assoc] at hwrapped

theorem closingFrom_eq_none_iff (hne : opener ≠ closer) {depth : Int} (hd : 0 < depth) :
    closingFrom opener closer depth cs = none ↔
      ∀ k, 0 < depth + excess opener closer (cs.take k) := by
  constructor
  · intro h k
    induction k using Nat.strongRecOn with
    | ind k ih =>
      cases k with
      | zero => simpa [excess_nil] using hd
      | succ k =>
        by_cases hk : k < cs.length
        · -- One character takes the depth down by one at most, and so past zero only through it.
          have hone : excess opener closer (cs.take k) - 1 ≤
              excess opener closer (cs.take (k + 1)) := by
            have := List.count_le_length (a := closer) (l := cs[k]?.toList)
            rw [List.take_add_one, excess_append, excess, excess]
            simp only [List.getElem?_eq_getElem hk, Option.toList_some, List.length_singleton] at *
            omega
          have hzero : depth + excess opener closer (cs.take (k + 1)) ≠ 0 := by
            intro hz
            have hcloses := (closingFrom_eq_some_iff hne hd).mpr
              ⟨hk, hz, fun j hj => ih j (Nat.lt_succ_of_le hj)⟩
            rw [h] at hcloses
            cases hcloses
          have := ih k (Nat.lt_succ_self k)
          omega
        · have hall := ih k (Nat.lt_succ_self k)
          rw [List.take_of_length_le (by omega)] at hall ⊢
          exact hall
  · intro h
    rw [← Option.not_isSome_iff_eq_none, Option.isSome_iff_exists]
    rintro ⟨last, hlast⟩
    have hclosed := ((closingFrom_eq_some_iff hne hd).mp hlast).closed
    have := h (last + 1)
    omega

/-- A bracket is never closed if more brackets are open wherever one stops reading. -/
theorem closing_eq_none_iff (hne : opener ≠ closer) :
    closing opener closer (opener :: cs) = none ↔
      ∀ front, front <+: opener :: cs → front ≠ [] → front.count closer < front.count opener := by
  rw [closing, closingFrom, if_pos rfl, Option.map_eq_none_iff,
    closingFrom_eq_none_iff hne (by decide)]
  constructor
  · intro h front hfront hnil
    cases front with
    | nil => exact absurd rfl hnil
    | cons c front =>
      obtain ⟨hc, htail⟩ := List.cons_prefix_cons.mp hfront
      subst c
      rw [← excess_pos_iff, excess_opener hne, Int.add_comm, List.prefix_iff_eq_take.mp htail]
      exact h front.length
  · intro h k
    have := h (opener :: cs.take k) (List.cons_prefix_cons.mpr ⟨rfl, List.take_prefix k cs⟩)
      (List.cons_ne_nil _ _)
    rw [← excess_pos_iff, excess_opener hne] at this
    omega

/-- Only the brackets of a text decide whether one is closed. -/
theorem closing_filter_eq_none_iff (hne : opener ≠ closer) :
    closing opener closer (opener :: cs.filter fun c => c == opener || c == closer) = none ↔
      closing opener closer (opener :: cs) = none := by
  have hfilter : opener :: cs.filter (fun c => c == opener || c == closer) =
      (opener :: cs).filter fun c => c == opener || c == closer := by
    rw [List.filter_cons_of_pos (by simp)]
  rw [closing_eq_none_iff hne, closing_eq_none_iff hne, hfilter]
  constructor
  · intro h front hfront hnil
    have hbrackets : front.filter (fun c => c == opener || c == closer) ≠ [] := by
      cases front with
      | nil => exact absurd rfl hnil
      | cons c front =>
        obtain ⟨rfl, -⟩ := List.cons_prefix_cons.mp hfront
        rw [List.filter_cons_of_pos (by simp)]
        exact List.cons_ne_nil _ _
    have := h _ (hfront.filter _) hbrackets
    rwa [count_opener_filter, count_closer_filter] at this
  · intro h front hfront hnil
    obtain ⟨front, hprefix, rfl⟩ := List.prefix_filter_iff.mp hfront
    rw [count_opener_filter, count_closer_filter]
    refine h front hprefix ?_
    rintro rfl
    exact hnil rfl

/-- Matching is exact. The bracket at `start` is closed at an index exactly if the text from the
one to the other is enclosed, and nowhere exactly if more brackets are open wherever one stops
reading. -/
theorem closingAt_exact (hne : opener ≠ closer) {text : List Char} {start : Nat}
    (hstart : text[start]? = some opener) :
    (∀ i, closingAt opener closer text start = some i ↔
      start ≤ i ∧ i < text.length ∧ Enclosed opener closer (text.extract start (i + 1))) ∧
    (closingAt opener closer text start = none ↔
      ∀ front, front <+: text.drop start → front ≠ [] →
        front.count closer < front.count opener) := by
  obtain ⟨hinside, hopener⟩ := List.getElem?_eq_some_iff.mp hstart
  have hdrop : text.drop start = opener :: text.drop (start + 1) := by
    rw [List.drop_eq_getElem_cons hinside, hopener]
  have hlength : (opener :: text.drop (start + 1)).length = text.length - start := by
    rw [← hdrop, List.length_drop]
  have hextract (last : Nat) : text.extract start (start + last + 1) =
      (opener :: text.drop (start + 1)).take (last + 1) := by
    rw [← hdrop, List.extract_eq_take_drop, Nat.add_assoc, Nat.add_sub_cancel_left]
  rw [closingAt, hdrop]
  constructor
  · intro i
    rw [Option.map_eq_some_iff]
    constructor
    · rintro ⟨last, hlast, rfl⟩
      obtain ⟨hbound, henclosed⟩ := (closing_iff_enclosed hne).mp hlast
      exact ⟨Nat.le_add_right .., by omega, by rwa [hextract]⟩
    · rintro ⟨hbehind, hbound, henclosed⟩
      obtain ⟨last, rfl⟩ := Nat.exists_eq_add_of_le hbehind
      rw [hextract] at henclosed
      exact ⟨last, (closing_iff_enclosed hne).mpr ⟨by omega, henclosed⟩, rfl⟩
  · rw [Option.map_eq_none_iff]
    exact closing_eq_none_iff hne

/-- The outer opening is never closed, and the one inside it is, behind a pair of its own. -/
theorem closingAt_exact_inner :
    let text := "x\x7d\x7ba\x7bb\x7bc\x7dd\x7d".toList
    (closingAt '\x7b' '\x7d' text 2 = none ∧
      ∀ front, front <+: text.drop 2 → front ≠ [] → front.count '\x7d' < front.count '\x7b') ∧
    closingAt '\x7b' '\x7d' text 4 = some 10 ∧
      Enclosed '\x7b' '\x7d' "\x7bb\x7bc\x7dd\x7d".toList := by
  intro text
  have houter : text[2]? = some '\x7b' := by decide
  have hinner : text[4]? = some '\x7b' := by decide
  have hopen : closingAt '\x7b' '\x7d' text 2 = none := by decide
  have hclosed : closingAt '\x7b' '\x7d' text 4 = some 10 := by decide
  obtain ⟨-, -, henclosed⟩ := ((closingAt_exact (by decide) hinner).1 10).mp hclosed
  exact ⟨⟨hopen, (closingAt_exact (by decide) houter).2.mp hopen⟩, hclosed, henclosed⟩

end DocComment.Text
