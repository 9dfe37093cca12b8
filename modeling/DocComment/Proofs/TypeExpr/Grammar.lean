import DocComment.TypeExpr.Token

/-!
The grammar of type expressions over tokens, without the trees that reading builds. A symbol
derives what stands between a token list and a later part of it. The number bounds how many
unions and functions may be open at once. The grammar is ambiguous: the markers after the
result of a function may belong to the result or to the function.
-/

namespace DocComment.TypeExpr

/-- The name of a record key: a string without its quotes, a number, or a plain name. -/
def Token.key? : Token → Option String
  | .name s => if s.toList.any (fun c => isSeparator c || c == ':') then none else some s
  | .string s => some (String.ofList (s.toList.drop 1).dropLast)
  | .number s => some s
  | _ => none

inductive Symbol where
  | union
  | alternatives
  | alternative
  | modified
  | suffixed
  | primary
  | types
  | entries (keys : List String)
  | value
  | function
  | arguments
  | argument
  | result
  deriving DecidableEq, Repr

/-- What may follow a question mark that stands for the unknown type, unless nothing does. -/
def terminators : List Token :=
  [.pipe, .comma, .closeParen, .closeBrace, .closeBracket, .greater, .equals]

/-- So many empty pairs of brackets. -/
def arrays (k : Nat) : List Token := (List.replicate k [.openBracket, .closeBracket]).flatten

inductive Derives : Nat → Symbol → List Token → List Token → Prop where
  | union {n ts rest} : Derives n .alternatives ts rest → Derives (n + 1) .union ts rest
  | lastAlternative {n ts rest} : Derives n .alternative ts rest →
      Derives n .alternatives ts rest
  | moreAlternatives {n ts mid rest} : Derives n .alternative ts (.pipe :: mid) →
      Derives n .alternatives mid rest → Derives n .alternatives ts rest
  | required {n ts rest} : Derives n .modified ts rest → Derives n .alternative ts rest
  | optional {n ts rest} : Derives n .modified ts (.equals :: rest) →
      Derives n .alternative ts rest
  | modifier {n ts rest} (t : Token) (ht : t = .question ∨ t = .bang ∨ t = .ellipsis) :
      Derives n .modified ts rest → Derives n .modified (t :: ts) rest
  | unmodified {n ts rest} : Derives n .suffixed ts rest → Derives n .modified ts rest
  | suffixed {n ts rest} (k : Nat) (marks : List Token)
      (hm : ∀ m ∈ marks, m = .question ∨ m = .bang) :
      Derives n .primary ts (arrays k ++ (marks ++ rest)) → Derives n .suffixed ts rest
  | bare {n rest} (hr : ∀ t ∈ rest.head?, t ∈ terminators) :
      Derives n .suffixed (.question :: rest) rest
  | name {n rest} (s : String) : Derives n .primary (.name s :: rest) rest
  | generic {n ts rest} (s : String) (t : Token) (ht : t = .less ∨ t = .dotLess) :
      Derives n .types ts (.greater :: rest) → Derives n .primary (.name s :: t :: ts) rest
  | star {n rest} : Derives n .primary (.star :: rest) rest
  | string {n rest} (s : String) : Derives n .primary (.string s :: rest) rest
  | number {n rest} (s : String) : Derives n .primary (.number s :: rest) rest
  | emptyRecord {n rest} : Derives n .primary (.openBrace :: .closeBrace :: rest) rest
  | record {n ts rest} (keys : List String) (hk : keys.Nodup) :
      Derives n (.entries keys) ts (.closeBrace :: rest) →
      Derives n .primary (.openBrace :: ts) rest
  | called {n ts rest} : Derives n .function ts rest → Derives n .primary ts rest
  | group {n ts rest} : Derives n .union ts (.closeParen :: rest) →
      Derives n .primary (.openParen :: ts) rest
  | lastType {n ts rest} : Derives n .union ts rest → Derives n .types ts rest
  | moreTypes {n ts mid rest} : Derives n .union ts (.comma :: mid) →
      Derives n .types mid rest → Derives n .types ts rest
  | lastEntry {n ts rest} (t : Token) (key : String) (hk : t.key? = some key) :
      Derives n .value ts rest → Derives n (.entries [key]) (t :: ts) rest
  | moreEntries {n ts mid rest} (t : Token) (key : String) (keys : List String)
      (hk : t.key? = some key) : Derives n .value ts (.comma :: mid) →
      Derives n (.entries keys) mid rest → Derives n (.entries (key :: keys)) (t :: ts) rest
  | noValue {n rest} : Derives n .value rest rest
  | value {n ts rest} : Derives n .union ts rest → Derives n .value (.colon :: ts) rest
  | noArguments {n ts rest} : Derives n .result ts rest →
      Derives (n + 1) .function (.name "function" :: .openParen :: .closeParen :: ts) rest
  | function {n ts mid rest} : Derives n .arguments ts (.closeParen :: mid) →
      Derives n .result mid rest →
      Derives (n + 1) .function (.name "function" :: .openParen :: ts) rest
  | lastArgument {n ts rest} : Derives n .argument ts rest → Derives n .arguments ts rest
  | moreArguments {n ts mid rest} : Derives n .argument ts (.comma :: mid) →
      Derives n .arguments mid rest → Derives n .arguments ts rest
  | binding {n ts rest} (s : String) (hs : s = "this" ∨ s = "new") :
      Derives n .union ts rest → Derives n .argument (.name s :: .colon :: ts) rest
  | unlabelled {n ts rest} : Derives n .alternative ts rest → Derives n .argument ts rest
  | labelled {n ts rest} (s : String) (hs : s ≠ "this" ∧ s ≠ "new") :
      Derives n .alternative ts rest → Derives n .argument (.name s :: .colon :: ts) rest
  | variadic {n ts rest} : Derives n .alternative ts rest →
      Derives n .argument (.ellipsis :: ts) rest
  | labelledVariadic {n ts rest} (s : String) : Derives n .alternative ts rest →
      Derives n .argument (.ellipsis :: .name s :: .colon :: ts) rest
  | noResult {n rest} : Derives n .result rest rest
  | result {n ts rest} : Derives n .modified ts rest → Derives n .result (.colon :: ts) rest

/-- A derivation takes tokens off the front and leaves the others alone. -/
theorem Derives.suffix {n symbol ts rest} (h : Derives n symbol ts rest) : rest <:+ ts := by
  induction h with
  | noValue | noResult => exact List.suffix_rfl
  | bare | name | star | string | number => exact List.suffix_cons _ _
  | emptyRecord => exact (List.suffix_cons _ _).trans (List.suffix_cons _ _)
  | union _ ih | lastAlternative _ ih | required _ ih | unmodified _ ih | called _ ih
  | lastType _ ih | lastArgument _ ih | unlabelled _ ih => exact ih
  | optional _ ih => exact (List.suffix_cons _ _).trans ih
  | modifier _ _ _ ih | lastEntry _ _ _ _ ih | value _ ih | variadic _ ih | result _ ih =>
    exact ih.trans (List.suffix_cons _ _)
  | binding _ _ _ ih | labelled _ _ _ ih =>
    exact ih.trans ((List.suffix_cons _ _).trans (List.suffix_cons _ _))
  | labelledVariadic _ _ ih | noArguments _ ih =>
    exact ih.trans ((List.suffix_cons _ _).trans
      ((List.suffix_cons _ _).trans (List.suffix_cons _ _)))
  | suffixed k marks _ _ ih =>
    exact ((List.suffix_append _ _).trans (List.suffix_append _ _)).trans ih
  | generic _ _ _ _ ih =>
    exact ((List.suffix_cons _ _).trans ih).trans
      ((List.suffix_cons _ _).trans (List.suffix_cons _ _))
  | record _ _ _ ih | group _ ih =>
    exact ((List.suffix_cons _ _).trans ih).trans (List.suffix_cons _ _)
  | moreAlternatives _ _ ih ih' | moreTypes _ _ ih ih' | moreArguments _ _ ih ih' =>
    exact ih'.trans ((List.suffix_cons _ _).trans ih)
  | moreEntries _ _ _ _ _ _ ih ih' =>
    exact ih'.trans (((List.suffix_cons _ _).trans ih).trans (List.suffix_cons _ _))
  | function _ _ ih ih' =>
    exact ih'.trans (((List.suffix_cons _ _).trans ih).trans
      ((List.suffix_cons _ _).trans (List.suffix_cons _ _)))

end DocComment.TypeExpr
