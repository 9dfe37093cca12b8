import DocComment.Proofs.TypeExpr.Reader
import Mathlib.Algebra.BigOperators.Group.Multiset.Basic
import Mathlib.Tactic.Abel

/-!
The names, literals and keys that a type mentions, counted in the tree and in the tokens of a
literal, and what it is for a reader to account for the tokens that it takes.
-/

namespace DocComment.TypeExpr

inductive Mention
  | word (text : String)
  | label
  deriving DecidableEq, Repr

/-! ### What tokens mention -/

def Token.opens : Token → Bool
  | .openParen | .openBrace | .less | .dotLess => true
  | _ => false

def Token.closes : Token → Bool
  | .closeParen | .closeBrace | .greater => true
  | _ => false

def unquoted (s : String) : String := String.ofList (s.toList.drop 1).dropLast

/-- What a token mentions: a name, a literal, a key without its quotes or the label of a binding.
Keys and labels stand first in an item, which the innermost bracket tells apart. The word before
the parenthesis of a function is not counted, and a pair of square brackets is counted as the
name of the array that it makes. -/
def Token.mention (enclosing : List Token) (first : Bool) (next : Option Token) :
    Token → Multiset Mention
  | .name s =>
    if s = "function" ∧ next = some .openParen then 0
    else if first ∧ enclosing.head? = some .openParen ∧ (s = "this" ∨ s = "new") ∧
        next = some .colon then {.label}
    else {.word s}
  | .string s =>
    {.word (if first ∧ enclosing.head? = some .openBrace then unquoted s else s)}
  | .number s => {.word s}
  | .openBracket => {.word "Array"}
  | _ => 0

/-- The brackets that are open behind a token. -/
def Token.within (enclosing : List Token) (t : Token) : List Token :=
  if t.opens then t :: enclosing else if t.closes then enclosing.tail else enclosing

/-- What tokens mention inside brackets, the innermost first. Items start behind an opening bracket
and behind a comma. -/
def said (enclosing : List Token) (first : Bool) : List Token → Multiset Mention
  | [] => 0
  | t :: rest =>
    t.mention enclosing first rest.head? + said (t.within enclosing) (t.opens || t == .comma) rest

/-! ### What types mention -/

mutual

def mentions : TypeExpr → Multiset Mention
  | .name s | .literal s => {.word s}
  | .all | .unknown => 0
  | .union elements => mentionsEach elements
  | .group inner | .optional inner | .nullable inner _ | .nonNullable inner _
  | .variadic inner => mentions inner
  | .generic head params => {.word head} + mentionsEach params
  | .field key value => {.word key} + mentionsOf value
  | .record fields => mentionsEach fields
  | .parameter label inner => {.word label} + mentions inner
  | .function params result receiver built =>
    mentionsEach params + mentionsOf result + mentionsBound receiver + mentionsBound built

def mentionsEach : List TypeExpr → Multiset Mention
  | [] => 0
  | t :: ts => mentions t + mentionsEach ts

def mentionsOf : Option TypeExpr → Multiset Mention
  | none => 0
  | some t => mentions t

def mentionsBound : Option TypeExpr → Multiset Mention
  | none => 0
  | some t => {.label} + mentions t

end

theorem mentionsEach_eq_sum (ts : List TypeExpr) : mentionsEach ts = (ts.map mentions).sum := by
  induction ts with
  | nil => rfl
  | cons t ts ih => rw [mentionsEach, ih, List.map_cons, List.sum_cons]

/-- What bindings mention that are not in the type any more. -/
def lost (replaced : List TypeExpr) : Multiset Mention :=
  (replaced.map fun t => mentionsBound (some t)).sum

theorem lost_cons (t : TypeExpr) (ts : List TypeExpr) :
    lost (t :: ts) = mentionsBound (some t) + lost ts := by
  rw [lost, List.map_cons, List.sum_cons, lost]

theorem lost_append (ts us : List TypeExpr) : lost (ts ++ us) = lost ts + lost us := by
  simp [lost]

theorem lost_eq_bound (ts : List TypeExpr) :
    lost ts = mentionsBound ts.getLast? + lost ts.dropLast := by
  cases ts using List.reverseRecOn with
  | nil => rfl
  | append_singleton ts t =>
    rw [List.getLast?_concat, List.dropLast_concat, lost_append, add_comm, lost, List.map_singleton,
      List.sum_singleton]

theorem length_le_count_lost (replaced : List TypeExpr) :
    replaced.length ≤ (lost replaced).count .label := by
  induction replaced with
  | nil => exact Nat.zero_le _
  | cons t ts ih =>
    rw [lost_cons, mentionsBound, Multiset.count_add, Multiset.count_add,
      Multiset.count_singleton_self, List.length_cons]
    omega

/-- What an argument mentions where it stands, be it replaced or not. -/
def Argument.mentions : Argument → Multiset Mention
  | .receiver t | .built t => mentionsBound (some t)
  | .param t => TypeExpr.mentions t

theorem sum_mentions_arguments (args : List Argument) :
    (args.map Argument.mentions).sum =
      mentionsEach (args.filterMap Argument.param?) +
        lost (args.filterMap Argument.receiver?) + lost (args.filterMap Argument.built?) := by
  induction args with
  | nil => rfl
  | cons a args ih =>
    rw [List.map_cons, List.sum_cons, ih]
    cases a <;> simp only [Argument.mentions, List.filterMap_cons, Argument.param?,
      Argument.receiver?, Argument.built?, mentionsEach, lost_cons] <;> abel

/-- Arguments mention what their function does, and the bindings before the last ones. -/
theorem mentions_ofArguments (args : List Argument) (result : Option TypeExpr) :
    (args.map Argument.mentions).sum + mentionsOf result =
      mentions (ofArguments args result) +
        lost ((args.filterMap Argument.receiver?).dropLast ++
          (args.filterMap Argument.built?).dropLast) := by
  rw [sum_mentions_arguments, lost_eq_bound (args.filterMap Argument.receiver?),
    lost_eq_bound (args.filterMap Argument.built?), ofArguments, mentions, lost_append]
  abel

/-! ### Tokens that have been read -/

variable {enclosing : List Token} {first : Bool} {ts mid rest : List Token} {t : Token}
  {m m' : Multiset Mention}

theorem said_silent (h : t.mention enclosing first ts.head? = 0) :
    said enclosing first (t :: ts) = said (t.within enclosing) (t.opens || t == .comma) ts := by
  rw [said, h, zero_add]

/-- A name is a word, unless it calls a function. -/
theorem said_name {s : String} (h : ¬ (s = "function" ∧ ts.head? = some .openParen)) :
    said enclosing false (.name s :: ts) = {.word s} + said enclosing false ts := by
  rw [said, Token.mention, if_neg h]
  rfl

theorem said_literal {s : String} (ht : t = .string s ∨ t = .number s) :
    said enclosing false (t :: ts) = {.word s} + said enclosing false ts := by
  rcases ht with rfl | rfl <;> rfl

theorem said_key {key : String} (hkey : t.key? = some key)
    (h : ts.head? ≠ some .openParen) :
    said (.openBrace :: enclosing) true (t :: ts) =
      {.word key} + said (.openBrace :: enclosing) false ts := by
  cases t with
  | name s =>
    obtain rfl : s = key := by
      rw [Token.key?] at hkey
      split at hkey
      · cases hkey
      · exact Option.some.inj hkey
    rw [said, Token.mention, if_neg fun hcall => h hcall.2]
    rfl
  | string s | number s =>
    obtain rfl := Option.some.inj hkey
    rfl
  | _ => cases hkey

theorem said_label {s : String} (hs : s = "this" ∨ s = "new") :
    said (.openParen :: enclosing) true (.name s :: .colon :: ts) =
      {.label} + said (.openParen :: enclosing) false (.colon :: ts) := by
  rcases hs with rfl | rfl <;> rfl

/-- Whether something stands first in an item makes a difference to keys and labels only. -/
theorem said_first (hbrace : enclosing.head? ≠ some .openBrace)
    (hparen : enclosing.head? = some .openParen →
      ∀ s tail, ts = .name s :: .colon :: tail → s ≠ "this" ∧ s ≠ "new") :
    said enclosing true ts = said enclosing false ts := by
  cases ts with
  | nil => rfl
  | cons t ts =>
    rw [said, said]
    congr 1
    cases t with
    | name s =>
      have hlabel : ¬ (enclosing.head? = some .openParen ∧ (s = "this" ∨ s = "new") ∧
          ts.head? = some .colon) := by
        rintro ⟨hopen, hs, hcolon⟩
        obtain ⟨tail, rfl⟩ := List.head?_eq_some_iff.mp hcolon
        obtain ⟨hthis, hnew⟩ := hparen hopen s tail rfl
        exact hs.elim hthis hnew
      simp [Token.mention, hlabel]
    | string s => simp [Token.mention, hbrace]
    | _ => rfl

/-- Up to the rest the tokens say these mentions, and those of some bindings that are lost. Readers
keep this as an equation, so what they take is neither left out nor counted twice. -/
def Accounted (enclosing : List Token) (first : Bool) (ts rest : List Token)
    (m : Multiset Mention) : Prop :=
  ∃ replaced, said enclosing first ts = m + lost replaced + said enclosing false rest

theorem Accounted.refl (enclosing ts : List Token) : Accounted enclosing false ts ts 0 :=
  ⟨[], by simp [lost]⟩

theorem Accounted.trans (h : Accounted enclosing first ts mid m)
    (h' : Accounted enclosing false mid rest m') :
    Accounted enclosing first ts rest (m + m') := by
  obtain ⟨replaced, h⟩ := h
  obtain ⟨replaced', h'⟩ := h'
  refine ⟨replaced ++ replaced', ?_⟩
  rw [h, h', lost_append]
  abel

theorem Accounted.cons {next : Bool}
    (ht : said enclosing first (t :: ts) = m + said enclosing next ts)
    (h : Accounted enclosing next ts rest m') :
    Accounted enclosing first (t :: ts) rest (m + m') := by
  obtain ⟨replaced, h⟩ := h
  exact ⟨replaced, by rw [ht, h, add_assoc, add_assoc, add_assoc]⟩

theorem Accounted.silent {next : Bool} (hts : said enclosing first ts = said enclosing next mid)
    (h : Accounted enclosing next mid rest m) : Accounted enclosing first ts rest m := by
  obtain ⟨replaced, h⟩ := h
  exact ⟨replaced, hts.trans h⟩

/-- What was read, after which something is taken that changes what it mentions. -/
theorem Accounted.exchange (h : Accounted enclosing first ts mid m)
    (hmid : m + said enclosing false mid = m' + said enclosing false rest) :
    Accounted enclosing first ts rest m' := by
  obtain ⟨replaced, h⟩ := h
  exact ⟨replaced, by rw [h, add_right_comm, hmid, add_right_comm]⟩

/-- What is read may count the bindings as lost that it replaces. -/
theorem Accounted.replaced {us : List TypeExpr} (h : Accounted enclosing first ts rest m)
    (hm : m = m' + lost us) : Accounted enclosing first ts rest m' := by
  obtain ⟨replaced, h⟩ := h
  exact ⟨us ++ replaced, by rw [h, hm, lost_append, add_assoc m']⟩

/-- What stands between an opening and a closing token. -/
theorem Accounted.enclosed {opening closing : Token}
    (hopen : opening.opens = true ∧ ∀ next, opening.mention enclosing first next = 0)
    (hclose : closing = .closeParen ∨ closing = .closeBrace ∨ closing = .greater)
    (h : Accounted (opening :: enclosing) true ts (closing :: rest) m) :
    Accounted enclosing first (opening :: ts) rest m := by
  obtain ⟨replaced, h⟩ := h
  refine ⟨replaced, ?_⟩
  rw [said_silent (hopen.2 _), Token.within, if_pos hopen.1, hopen.1, Bool.true_or, h]
  rcases hclose with rfl | rfl | rfl <;> rw [said_silent rfl] <;> rfl

end DocComment.TypeExpr
