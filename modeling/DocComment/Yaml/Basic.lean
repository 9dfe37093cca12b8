import DocComment.Data
import DocComment.Text.Blank

/-!
Documents of settings files. Plain scalars stand for null, truth values, numbers and, failing
all these, texts; quoted scalars are always texts. Whole numbers may be binary, octal,
hexadecimal or counted in sixties, and decimals need a point.
-/

namespace DocComment

inductive Yaml
  | scalar (value : Data)
  | list (items : List Yaml)
  | mapping (entries : List (Yaml × Yaml))
  deriving Repr, Inhabited

namespace Yaml

def null : Yaml := .scalar .null

def nullWords : List String := ["", "~", "null", "Null", "NULL"]

def trueWords : List String :=
  ["yes", "Yes", "YES", "true", "True", "TRUE", "on", "On", "ON"]

def falseWords : List String :=
  ["no", "No", "NO", "false", "False", "FALSE", "off", "Off", "OFF"]

def digitValue? (base : Nat) (c : Char) : Option Nat :=
  let value :=
    if c.isDigit then some (c.toNat - '0'.toNat)
    else if 'a' ≤ c ∧ c ≤ 'f' then some (c.toNat - 'a'.toNat + 10)
    else if 'A' ≤ c ∧ c ≤ 'F' then some (c.toNat - 'A'.toNat + 10)
    else none
  value.filter (· < base)

/-- Digits of a base, which underscores may separate. -/
def digits? (base : Nat) (cs : List Char) : Option Nat :=
  match cs.filter (· != '_') with
  | [] => none
  | cs => cs.foldlM (fun n c => (digitValue? base c).map (n * base + ·)) 0

def startsNonzero : List Char → Bool
  | [] => false
  | c :: _ => c.isDigit && c != '0'

/-- A later place of a number counted in sixties. -/
def sixtieth? (cs : List Char) : Option Nat :=
  if cs.length ≤ 2 && cs.all Char.isDigit then (digits? 10 cs).filter (· < 60) else none

def sixties? (cs : List Char) : Option Nat :=
  match Text.splitBy (· == ':') cs with
  | [] => none
  | first :: others =>
    if startsNonzero first && !others.isEmpty then do
      others.foldlM (fun n place => (sixtieth? place).map (n * 60 + ·)) (← digits? 10 first)
    else none

def natural? (cs : List Char) : Option Nat :=
  match cs with
  | ['0'] => some 0
  | '0' :: 'b' :: rest => digits? 2 rest
  | '0' :: 'x' :: rest => digits? 16 rest
  | '0' :: rest => digits? 8 ('0' :: rest)
  | cs => if startsNonzero cs then (digits? 10 cs).orElse fun _ => sixties? cs else none

/-- A power of ten after a decimal. It needs its sign. -/
def power? (cs : List Char) : Option Int :=
  let read (digits : List Char) : Option Int :=
    if digits.all Char.isDigit then (digits? 10 digits).map Int.ofNat else none
  match cs with
  | '+' :: digits => read digits
  | '-' :: digits => (read digits).map fun n => -n
  | _ => none

/-- The digits of a fraction, and the power of ten after them. -/
def fraction? (cs : List Char) : Option (List Char × Int) :=
  let isPower (c : Char) := c == 'e' || c == 'E'
  let digits := (cs.takeWhile (fun c => !isPower c)).filter (· != '_')
  match cs.dropWhile (fun c => !isPower c) with
  | [] => some (digits, 0)
  | _ :: power => (power? power).map fun n => (digits, n)

/-- Digits around a point. Without a sign there may be none before it. -/
def decimal? (signed : Bool) (cs : List Char) : Option Decimal :=
  match Text.splitBy (· == '.') cs with
  | [whole, fraction] =>
    if whole.head?.any Char.isDigit ||
        (whole.isEmpty && !signed && fraction.head?.any Char.isDigit) then do
      let (fraction, power) ← fraction? fraction
      let n ← digits? 10 (whole ++ fraction)
      return { digits := n, exponent := power - Int.ofNat fraction.length }
    else none
  | _ => none

def unsigned? (signed : Bool) (cs : List Char) : Option Number :=
  match natural? cs with
  | some n => some (.whole (Int.ofNat n))
  | none => (decimal? signed cs).map .decimal

def negated : Number → Number
  | .whole n => .whole (-n)
  | .decimal d => .decimal { d with negative := !d.negative }

def number? (cs : List Char) : Option Number :=
  match cs with
  | '-' :: rest => (unsigned? true rest).map negated
  | '+' :: rest => unsigned? true rest
  | cs => unsigned? false cs

/-- What a plain scalar stands for. -/
def resolve (s : String) : Data :=
  if nullWords.contains s then .null
  else if trueWords.contains s then .bool true
  else if falseWords.contains s then .bool false
  else match number? s.toList with
    | some n => .number n
    | none => .text s

end Yaml

end DocComment
