/-!
Tables of code points, written as ascending closed ranges. Membership stops at the first
range above the code point, so a table must be sorted for its later ranges to count.
-/

namespace DocComment.Text

def inRanges : List (Nat × Nat) → Nat → Bool
  | [], _ => false
  | (low, high) :: rest, n => if n < low then false else n ≤ high || inRanges rest n

end DocComment.Text
