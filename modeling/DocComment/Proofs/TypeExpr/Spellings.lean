import DocComment.Proofs.TypeExpr.Alike
import DocComment.Proofs.TypeExpr.Canonical
import DocComment.Proofs.TypeExpr.Cutoff
import DocComment.Proofs.TypeExpr.Layout

/-!
Types that can be spelled in several ways. A generic opens with or without a point, wherever it
stands, and an array is written with brackets or as a generic, whatever type it is an array of.
-/

namespace DocComment.TypeExpr

open Text

/-! ### How generics open -/

variable {n m : Nat} {t : TypeExpr} {ts rest : List Token}

end DocComment.TypeExpr
