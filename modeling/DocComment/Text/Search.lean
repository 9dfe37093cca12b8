/-!
Looking for one text inside another.
-/

namespace DocComment.Text

def occursIn (needle : List Char) : List Char → Bool
  | [] => needle.isEmpty
  | c :: rest => needle.isPrefixOf (c :: rest) || occursIn needle rest

theorem isPrefixOf?_append {front cs rest : List Char} (h : front.isPrefixOf? cs = some rest) :
    front ++ rest = cs := by
  induction front generalizing cs with
  | nil => exact (Option.some.inj h).symm
  | cons a as ih =>
    cases cs with
    | nil => cases h
    | cons b bs =>
      change (if a == b then as.isPrefixOf? bs else none) = some rest at h
      split at h
      · next e => simp [ih h, eq_of_beq e]
      · cases h

theorem isPrefixOf?_self (front rest : List Char) :
    front.isPrefixOf? (front ++ rest) = some rest := by
  induction front with
  | nil => rfl
  | cons c front ih =>
    change (if c == c then front.isPrefixOf? (front ++ rest) else none) = some rest
    rw [if_pos (beq_self_eq_true c)]
    exact ih

end DocComment.Text
