import DocComment.Form
import DocComment.Text.Blank
import DocComment.TypeExpr.Basic

/-!
Type expressions as plain data. A node is an object whose kind says which fields it has.
Reading ignores fields it does not know and fills in those that may be left out.
-/

namespace DocComment.TypeExpr

/-- The kinds of types, as data tells them apart. -/
def kind : TypeExpr → String
  | .name _ => "name"
  | .all => "all"
  | .unknown => "unknown"
  | .literal _ => "literal"
  | .union _ => "union"
  | .group _ => "group"
  | .optional _ => "optional"
  | .nullable _ _ => "nullable"
  | .nonNullable _ _ => "non_nullable"
  | .variadic _ => "variadic"
  | .generic _ _ => "generic"
  | .field _ _ => "field"
  | .record _ => "record"
  | .parameter _ _ => "parameter"
  | .function _ _ _ _ => "function"

/-- The parts of a kind, each with a capital, in front of the word for a type. -/
def classNameOf (kind : String) : String :=
  let capital : List Char → List Char
    | [] => []
    | c :: rest => c.toUpper :: rest
  String.ofList (((Text.splitBy (· == '_') kind.toList).map capital).flatten) ++ "Type"

def className (t : TypeExpr) : String := classNameOf t.kind

def Side.inForm {α : Type} (f : Form α) (side : Side) : α :=
  f.data (.bool (side == .before))

section

variable {α : Type} (f : Form α)

def node (kind : String) (fields : List (String × α)) : α :=
  f.record (classNameOf kind) (("kind", f.text kind) :: fields)

mutual

def inForm : TypeExpr → α
  | .name text => node f "name" [("name", f.text text)]
  | .all => node f "all" []
  | .unknown => node f "unknown" []
  | .literal text => node f "literal" [("value", f.text text)]
  | .union elements => node f "union" [("elements", f.list (eachInForm elements))]
  | .group inner => node f "group" [("expression", inForm inner)]
  | .optional inner => node f "optional" [("expression", inForm inner)]
  | .nullable inner side =>
    node f "nullable" [("expression", inForm inner), ("prefix", Side.inForm f side)]
  | .nonNullable inner side =>
    node f "non_nullable" [("expression", inForm inner), ("prefix", Side.inForm f side)]
  | .variadic inner => node f "variadic" [("expression", inForm inner)]
  | .generic head params =>
    node f "generic" [("name", f.text head), ("params", f.list (eachInForm params))]
  | .field key value => node f "field" [("key", f.text key), ("value", optionInForm value)]
  | .record fields => node f "record" [("fields", f.list (eachInForm fields))]
  | .parameter label inner =>
    node f "parameter" [("name", f.text label), ("expression", inForm inner)]
  | .function params result receiver built =>
    node f "function" [("params", f.list (eachInForm params)), ("result", optionInForm result),
      ("this", optionInForm receiver), ("new", optionInForm built)]

def eachInForm : List TypeExpr → List α
  | [] => []
  | t :: ts => inForm t :: eachInForm ts

def optionInForm : Option TypeExpr → α
  | none => f.data .null
  | some t => inForm t

end

end

def toData (t : TypeExpr) : Data := t.inForm .plain

/-- The value of one field of an object, together with what it can be read as. -/
structure Slot where
  value : Data
  type? : Option TypeExpr
  types? : Option (List TypeExpr)
  entries? : Option (List TypeExpr)

namespace Slot

def find? (slots : List (String × Slot)) (key : String) : Option Slot := slots.lookup key

def text? (slots : List (String × Slot)) (key : String) : Option String :=
  match (find? slots key).map Slot.value with
  | some (.text s) => some s
  | _ => none

def type (slots : List (String × Slot)) (key : String) : Option TypeExpr :=
  (find? slots key).bind (·.type?)

/-- A type that may be left out or null. -/
def optional (slots : List (String × Slot)) (key : String) : Option (Option TypeExpr) :=
  match find? slots key with
  | none => some none
  | some slot => if slot.value.isNull then some none else slot.type?.map some

def types (slots : List (String × Slot)) (key : String) : Option (List TypeExpr) :=
  (find? slots key).bind (·.types?)

def side (slots : List (String × Slot)) : Option Side :=
  match (find? slots "prefix").map Slot.value with
  | none => some .before
  | some (.bool b) => some (if b then .before else .after)
  | some _ => none

end Slot

def readField (slots : List (String × Slot)) : Option TypeExpr := do
  return .field (← Slot.text? slots "key") (← Slot.optional slots "value")

/-- A field of a record, whose kind may be left out. -/
def readEntry (slots : List (String × Slot)) : Option TypeExpr :=
  match (Slot.find? slots "kind").map Slot.value with
  | none => readField slots
  | some (.text kind) => if kind = "field" then readField slots else none
  | some _ => none

def readNode (slots : List (String × Slot)) : Option TypeExpr := do
  match ← Slot.text? slots "kind" with
  | "name" => return .name (← Slot.text? slots "name")
  | "all" => return .all
  | "unknown" => return .unknown
  | "literal" => return .literal (← Slot.text? slots "value")
  | "union" => return .union (← Slot.types slots "elements")
  | "group" => return .group (← Slot.type slots "expression")
  | "optional" => return .optional (← Slot.type slots "expression")
  | "nullable" => return .nullable (← Slot.type slots "expression") (← Slot.side slots)
  | "non_nullable" => return .nonNullable (← Slot.type slots "expression") (← Slot.side slots)
  | "variadic" => return .variadic (← Slot.type slots "expression")
  | "generic" => return .generic (← Slot.text? slots "name") (← Slot.types slots "params")
  | "field" => readField slots
  | "record" =>
    match Slot.find? slots "fields" with
    | none => return .record []
    | some slot => return .record (← slot.entries?)
  | "parameter" => return .parameter (← Slot.text? slots "name") (← Slot.type slots "expression")
  | "function" =>
    let params ← match Slot.find? slots "params" with
      | none => some []
      | some slot => slot.types?
    return .function params (← Slot.optional slots "result") (← Slot.optional slots "this")
      (← Slot.optional slots "new")
  | _ => none

def Slot.ofScalar (d : Data) : Slot := ⟨d, none, none, none⟩

mutual

def readSlot : Data → Slot
  | .list items =>
    let slots := readItems items
    ⟨.list items, none, slots.mapM (·.1), slots.mapM (·.2)⟩
  | .object fields => ⟨.object fields, readNode (readSlots fields), none, none⟩
  | d => Slot.ofScalar d

def readSlots : List (String × Data) → List (String × Slot)
  | [] => []
  | (key, d) :: rest => (key, readSlot d) :: readSlots rest

/-- Each item read as a node and as a field of a record. -/
def readItems : List Data → List (Option TypeExpr × Option TypeExpr)
  | [] => []
  | .object fields :: rest =>
    let slots := readSlots fields
    (readNode slots, readEntry slots) :: readItems rest
  | _ :: rest => (none, none) :: readItems rest

end

def ofData? (d : Data) : Option TypeExpr := (readSlot d).type?

end DocComment.TypeExpr
