import DocComment.Data

/-!
Ways of putting values with fields into another form. A form says what becomes of plain data,
of lists and pairs, and of a value of some class with its fields. Each class lists its fields
once, and all its forms follow from that list.
-/

namespace DocComment

structure Form (α : Type) where
  data : Data → α
  list : List α → α
  pair : α → α → α
  record : String → List (String × α) → α

namespace Form

variable {α β : Type}

def text (f : Form α) (s : String) : α := f.data (.text s)

/-- What is absent becomes null. -/
def option (f : Form α) (put : β → α) : Option β → α
  | none => f.data .null
  | some b => put b

def text? (f : Form α) (s : Option String) : α := f.option f.text s

def int (f : Form α) (n : Int) : α := f.data (.ofInt n)

/-- Plain data, where nothing tells of the class. -/
def plain : Form Data where
  data d := d
  list := .list
  pair a b := .list [a, b]
  record _ fields := .object fields

/-- The form inside messages, with the class in front of the fields. -/
def shown : Form String where
  data := Data.shown
  list items := "[" ++ ", ".intercalate items ++ "]"
  pair a b := "(" ++ a ++ ", " ++ b ++ ")"
  record className fields :=
    className ++ "(" ++ ", ".intercalate (fields.map fun (key, s) => key ++ "=" ++ s) ++ ")"

/-- A form together with the fields that it was put together from. -/
def withFields (f : Form α) : Form (α × List (String × α)) where
  data d := (f.data d, [])
  list items := (f.list (items.map (·.1)), [])
  pair a b := (f.pair a.1 b.1, [])
  record className fields :=
    let fields := fields.map fun (key, a) => (key, a.1)
    (f.record className fields, fields)

end Form

end DocComment
