/-!
Type expressions, as they stand between the braces of a tag. A marker for null stands either
before its operand or after it, and the two are kept apart. Fields occur in records and
parameters in functions, though the tree itself allows them anywhere.
-/

namespace DocComment

inductive Side
  | before
  | after
  deriving DecidableEq, Repr

inductive TypeExpr
  | name (text : String)
  | all
  | unknown
  | literal (text : String)
  | union (elements : List TypeExpr)
  | group (inner : TypeExpr)
  | optional (inner : TypeExpr)
  | nullable (inner : TypeExpr) (side : Side)
  | nonNullable (inner : TypeExpr) (side : Side)
  | variadic (inner : TypeExpr)
  | generic (name : String) (params : List TypeExpr)
  | field (key : String) (value : Option TypeExpr)
  | record (fields : List TypeExpr)
  | parameter (name : String) (inner : TypeExpr)
  | function (params : List TypeExpr) (result receiver built : Option TypeExpr)
  deriving Repr, Inhabited

namespace TypeExpr

mutual

def decEq (a b : TypeExpr) : Decidable (a = b) :=
  if h : a.ctorIdx = b.ctorIdx then
    match a, b, h with
    | .name s, .name t, _ => decidable_of_iff (s = t) (by simp)
    | .all, .all, _ => isTrue rfl
    | .unknown, .unknown, _ => isTrue rfl
    | .literal s, .literal t, _ => decidable_of_iff (s = t) (by simp)
    | .union as, .union bs, _ =>
      match decEqList as bs with
      | isTrue e => isTrue (by rw [e])
      | isFalse e => isFalse (by simpa using e)
    | .group a, .group b, _ =>
      match decEq a b with
      | isTrue e => isTrue (by rw [e])
      | isFalse e => isFalse (by simpa using e)
    | .optional a, .optional b, _ =>
      match decEq a b with
      | isTrue e => isTrue (by rw [e])
      | isFalse e => isFalse (by simpa using e)
    | .nullable a s, .nullable b t, _ =>
      match decEq a b, (inferInstance : Decidable (s = t)) with
      | isTrue e, isTrue e' => isTrue (by rw [e, e'])
      | isFalse e, _ => isFalse (by simp [e])
      | _, isFalse e => isFalse (by simp [e])
    | .nonNullable a s, .nonNullable b t, _ =>
      match decEq a b, (inferInstance : Decidable (s = t)) with
      | isTrue e, isTrue e' => isTrue (by rw [e, e'])
      | isFalse e, _ => isFalse (by simp [e])
      | _, isFalse e => isFalse (by simp [e])
    | .variadic a, .variadic b, _ =>
      match decEq a b with
      | isTrue e => isTrue (by rw [e])
      | isFalse e => isFalse (by simpa using e)
    | .generic s as, .generic t bs, _ =>
      match (inferInstance : Decidable (s = t)), decEqList as bs with
      | isTrue e, isTrue e' => isTrue (by rw [e, e'])
      | isFalse e, _ => isFalse (by simp [e])
      | _, isFalse e => isFalse (by simp [e])
    | .field s a, .field t b, _ =>
      match (inferInstance : Decidable (s = t)), decEqOption a b with
      | isTrue e, isTrue e' => isTrue (by rw [e, e'])
      | isFalse e, _ => isFalse (by simp [e])
      | _, isFalse e => isFalse (by simp [e])
    | .record as, .record bs, _ =>
      match decEqList as bs with
      | isTrue e => isTrue (by rw [e])
      | isFalse e => isFalse (by simpa using e)
    | .parameter s a, .parameter t b, _ =>
      match (inferInstance : Decidable (s = t)), decEq a b with
      | isTrue e, isTrue e' => isTrue (by rw [e, e'])
      | isFalse e, _ => isFalse (by simp [e])
      | _, isFalse e => isFalse (by simp [e])
    | .function as a₁ a₂ a₃, .function bs b₁ b₂ b₃, _ =>
      match decEqList as bs, decEqOption a₁ b₁, decEqOption a₂ b₂, decEqOption a₃ b₃ with
      | isTrue e, isTrue e₁, isTrue e₂, isTrue e₃ => isTrue (by rw [e, e₁, e₂, e₃])
      | isFalse e, _, _, _ => isFalse (by simp [e])
      | _, isFalse e, _, _ => isFalse (by simp [e])
      | _, _, isFalse e, _ => isFalse (by simp [e])
      | _, _, _, isFalse e => isFalse (by simp [e])
  else isFalse (fun e => h (by rw [e]))

def decEqList : (as bs : List TypeExpr) → Decidable (as = bs)
  | [], [] => isTrue rfl
  | a :: as, b :: bs =>
    match decEq a b, decEqList as bs with
    | isTrue e, isTrue e' => isTrue (by rw [e, e'])
    | isFalse e, _ => isFalse (by simp [e])
    | _, isFalse e => isFalse (by simp [e])
  | [], _ :: _ => isFalse (by simp)
  | _ :: _, [] => isFalse (by simp)

def decEqOption : (a b : Option TypeExpr) → Decidable (a = b)
  | none, none => isTrue rfl
  | some a, some b =>
    match decEq a b with
    | isTrue e => isTrue (by rw [e])
    | isFalse e => isFalse (by simpa using e)
  | none, some _ => isFalse (by simp)
  | some _, none => isFalse (by simp)

end

instance : DecidableEq TypeExpr := decEq

end TypeExpr

end DocComment
