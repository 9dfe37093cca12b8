import DocComment.Proofs.TypeExpr.Lexing
import DocComment.Proofs.TypeExpr.Mentions

/-!
Whatever a literal mentions is in the type that is read from it, as often as the literal has it.
Only a function that binds `this` or `new` again keeps the last binding alone, and what the
earlier ones mention is lost with them.
-/

namespace DocComment.TypeExpr

variable {enclosing : List Token} {first : Bool} {ts mid rest : List Token}

section

variable {α : Type} {separator : Token} {item : List α → Reader α} {mention : α → Multiset Mention}

/-- Items are accounted for one by one. Each may count on what follows it, which is a separator
or what follows them all. -/
theorem Separated.accounted {seen xs : List α} (h : Separated separator item seen ts xs rest)
    (hsep : ∀ ts, said enclosing false (separator :: ts) = said enclosing first ts)
    (hitem : ∀ {seen ts x behind}, item seen ts = .ok (x, behind) →
      behind.head? = some separator ∨ behind = rest →
        Accounted enclosing first ts behind (mention x)) :
    Accounted enclosing first ts rest (xs.map mention).sum := by
  induction h with
  | last h => simpa using hitem h (.inr rfl)
  | more h _ ih =>
    rw [List.map_cons, List.sum_cons]
    exact (hitem h (.inl rfl)).trans ((ih hitem).silent (hsep _))

end

theorem Accounted.brackets {p q : TypeExpr} (h : Accounted enclosing first ts mid (mentions p))
    (hread : brackets p mid = .ok (q, rest)) :
    Accounted enclosing first ts rest (mentions q) := by
  fun_induction TypeExpr.brackets p mid with
  | case1 p behind ih =>
    refine ih (h.exchange ?_) hread
    have hpair : said enclosing false (.openBracket :: .closeBracket :: behind) =
        {.word "Array"} + said enclosing false behind :=
      congrArg _ (said_silent rfl)
    rw [hpair, mentions, mentionsEach, mentionsEach, add_zero, ← add_assoc, add_comm (mentions p)]
  | case2 => cases hread
  | case3 =>
    obtain ⟨rfl, rfl⟩ := Prod.mk.inj (Except.ok.inj hread)
    exact h

theorem Accounted.marks {p q : TypeExpr} (h : Accounted enclosing first ts mid (mentions p))
    (hread : marks p mid = (q, rest)) : Accounted enclosing first ts rest (mentions q) := by
  fun_induction TypeExpr.marks p mid with
  | case1 p behind ih | case2 p behind ih =>
    refine ih (h.exchange ?_) hread
    rw [mentions, said_silent rfl]
    rfl
  | case3 =>
    obtain ⟨rfl, rfl⟩ := Prod.mk.inj hread
    exact h

theorem said_modifiers (enclosing ts : List Token) :
    said enclosing false ts = said enclosing false (modifiers ts).2 := by
  induction ts with
  | nil => rfl
  | cons t ts ih =>
    rcases modifiers_cons t ts with h | ⟨rfl, he⟩ | ⟨ht, m, -, hm⟩
    · rw [modifiers_operand h]
    · rw [modifiers_bare he]
    · rw [hm, ← ih]
      rcases ht with rfl | rfl | rfl <;> exact said_silent rfl

theorem mentions_modified (ms : List Modifier) (operand : TypeExpr) :
    mentions (ms.foldr Modifier.apply operand) = mentions operand := by
  induction ms with
  | nil => rfl
  | cons m ms ih => cases m <;> simpa [Modifier.apply, mentions] using ih

/-- What the readers of the next level are assumed to account for. A name before a colon is a type
of its own, so that labels are told from types by what follows them. -/
structure Accounting (union function : Reader TypeExpr) : Prop where
  colon {s : String} {ts rest : List Token} {t : TypeExpr} :
    union (.name s :: .colon :: ts) = .ok (t, rest) → rest = .colon :: ts
  function {ts rest : List Token} {t : TypeExpr} :
    function (.name "function" :: .openParen :: ts) = .ok (t, rest) → ∀ enclosing,
      Accounted enclosing false (.name "function" :: .openParen :: ts) rest (mentions t)
  union {ts rest : List Token} {t : TypeExpr} : union ts = .ok (t, rest) → ∀ enclosing,
    Accounted enclosing false ts rest (mentions t)

namespace Accounting

variable {union function : Reader TypeExpr} (h : Accounting union function) {u : TypeExpr}
include h

/-- A type may be the first in generics and the whole of a group. -/
theorem union_first (hread : union ts = .ok (u, rest)) (hbrace : enclosing.head? ≠ some .openBrace)
    (hparen : enclosing.head? = some .openParen → rest.head? ≠ some .colon) :
    Accounted enclosing true ts rest (mentions u) := by
  refine .silent (said_first hbrace fun hopen s tail e => ?_) (h.union hread enclosing)
  -- Only what stands before a colon could be a label, and the type would end at that colon.
  subst e
  rw [h.colon hread] at hparen
  exact absurd rfl (hparen hopen)

theorem types {us : List TypeExpr} (hbrace : enclosing.head? ≠ some .openBrace)
    (hparen : enclosing.head? ≠ some .openParen)
    (hread : separated .comma (fun _ => union) ts = .ok (us, rest)) :
    Accounted enclosing true ts rest (mentionsEach us) := by
  rw [mentionsEach_eq_sum]
  exact (Separated.of_separated hread).accounted (fun _ => said_silent rfl)
    fun hitem _ => h.union_first hitem hbrace fun hopen => absurd hopen hparen

theorem entry {seen : List TypeExpr} (hread : recordEntry union seen ts = .ok (u, rest))
    (hrest : rest.head? ≠ some .openParen) :
    Accounted (.openBrace :: enclosing) true ts rest (mentions u) := by
  obtain ⟨t, key, mid, hkey, rfl, -, hvalue⟩ := recordEntry_eq_ok.mp hread
  -- A key named function counts as a word, since no parenthesis can follow it.
  have hmid : mid.head? ≠ some .openParen := by
    rcases hvalue with ⟨tail, v, rfl, -, -⟩ | ⟨-, rfl, -⟩
    · simp
    · exact hrest
  have hsaid : said (.openBrace :: enclosing) true (t :: mid) =
      {.word key} + said (.openBrace :: enclosing) false mid := said_key hkey hmid
  rcases hvalue with ⟨tail, v, rfl, hv, rfl⟩ | ⟨-, rfl, rfl⟩
  · exact .cons hsaid (.silent (said_silent rfl) (h.union hv _))
  · exact .cons hsaid (.refl _ _)

theorem record {fields : List TypeExpr}
    (hread : separated .comma (recordEntry union) ts = .ok (fields, .closeBrace :: rest)) :
    Accounted (.openBrace :: enclosing) true ts (.closeBrace :: rest) (mentionsEach fields) := by
  rw [mentionsEach_eq_sum]
  refine (Separated.of_separated hread).accounted (fun _ => said_silent rfl)
    fun hitem hbehind => h.entry hitem ?_
  rcases hbehind with hbehind | rfl
  · simp [hbehind]
  · simp

theorem primary (hread : primary union function ts = .ok (u, rest)) :
    Accounted enclosing false ts rest (mentions u) := by
  cases PrimaryForm.of_primary hread with
  | name s =>
    by_cases hcall : s = "function" ∧ rest.head? = some .openParen
    · obtain ⟨rfl, hhead⟩ := hcall
      obtain ⟨tail, rfl⟩ := List.head?_eq_some_iff.mp hhead
      exact h.function hread enclosing
    · exact .cons (said_name hcall) (.refl _ _)
  | called hf => exact h.function hf enclosing
  | generic s mark hmark hparams =>
    have hcall : ∀ tail, ¬ (s = "function" ∧ (mark :: tail).head? = some .openParen) := by
      rcases hmark with rfl | rfl <;> simp
    have hopen : mark.opens = true ∧ ∀ next, mark.mention enclosing false next = 0 := by
      rcases hmark with rfl | rfl <;> exact ⟨rfl, fun _ => rfl⟩
    have hbrace : (mark :: enclosing).head? ≠ some .openBrace := by
      rcases hmark with rfl | rfl <;> simp
    have hparen : (mark :: enclosing).head? ≠ some .openParen := by
      rcases hmark with rfl | rfl <;> simp
    rw [mentions]
    exact .cons (said_name (hcall _)) (.enclosed hopen (by simp) (h.types hbrace hparen hparams))
  | star | unknown => exact .silent (said_silent rfl) (.refl _ _)
  | string s => exact .cons (said_literal (.inl rfl)) (.refl _ _)
  | number s => exact .cons (said_literal (.inr rfl)) (.refl _ _)
  | emptyRecord =>
    have hempty : Accounted (.openBrace :: enclosing) true (.closeBrace :: rest)
        (.closeBrace :: rest) 0 := Accounted.refl (.openBrace :: enclosing) (.closeBrace :: rest)
    exact .enclosed ⟨rfl, fun _ => rfl⟩ (by simp) hempty
  | record hfields =>
    rw [mentions]
    exact .enclosed ⟨rfl, fun _ => rfl⟩ (by simp) (h.record hfields)
  | group hinner =>
    rw [mentions]
    exact .enclosed ⟨rfl, fun _ => rfl⟩ (by simp) (h.union_first hinner (by simp) (by simp))

theorem suffixed (hread : suffixed union function ts = .ok (u, rest)) :
    Accounted enclosing false ts rest (mentions u) := by
  obtain ⟨p, mid, hprimary, q, mid', hbrackets, hmarks⟩ := suffixed_eq_ok.mp hread
  exact ((h.primary hprimary).brackets hbrackets).marks hmarks

theorem modified (hread : modified union function ts = .ok (u, rest)) :
    Accounted enclosing false ts rest (mentions u) := by
  obtain ⟨operand, hoperand, rfl⟩ := modified_eq_ok.mp hread
  rw [mentions_modified]
  exact .silent (said_modifiers enclosing ts) (h.suffixed hoperand)

theorem alternative (hread : alternative union function ts = .ok (u, rest)) :
    Accounted enclosing false ts rest (mentions u) := by
  rcases alternative_eq_ok.mp hread with ⟨inner, hinner, rfl⟩ | ⟨hinner, -⟩
  · rw [mentions]
    exact (h.modified hinner).exchange (congrArg _ (said_silent rfl))
  · exact h.modified hinner

theorem paramBody (hread : paramBody union function ts = .ok (u, rest)) :
    Accounted enclosing false ts rest (mentions u) := by
  rcases paramBody_eq_ok.mp hread with ⟨s, tail, inner, rfl, hinner, rfl⟩ | ⟨-, hinner⟩
  · have hsaid : said enclosing false (.name s :: .colon :: tail) =
        {.word s} + said enclosing false (.colon :: tail) := said_name (by simp)
    rw [mentions]
    exact .cons hsaid (.silent (said_silent rfl) (h.alternative hinner))
  · exact h.alternative hinner

theorem argument {a : Argument} (hread : argument union function ts = .ok (a, rest)) :
    Accounted (.openParen :: enclosing) true ts rest a.mentions := by
  rcases argument_eq_ok.mp hread with ⟨tail, u, rfl, hu, rfl⟩ | ⟨tail, u, rfl, hu, rfl⟩ |
    ⟨tail, u, rfl, hu, rfl⟩ | ⟨-, hbinding, u, hu, rfl⟩
  · rw [Argument.mentions, mentions]
    exact .silent (said_silent rfl) (h.paramBody hu)
  · exact .cons (said_label (.inl rfl)) (.silent (said_silent rfl) (h.union hu _))
  · exact .cons (said_label (.inr rfl)) (.silent (said_silent rfl) (h.union hu _))
  · exact .silent (said_first (by simp) fun _ => hbinding) (h.paramBody hu)

theorem arguments {args : List Argument}
    (hread : arguments union function ts = .ok (args, .closeParen :: rest)) :
    Accounted (.openParen :: enclosing) true ts (.closeParen :: rest)
      (args.map Argument.mentions).sum := by
  rcases arguments_eq_ok.mp hread with ⟨rfl, -, rfl⟩ | ⟨-, hargs⟩
  · exact Accounted.refl (.openParen :: enclosing) (.closeParen :: rest)
  · exact (Separated.of_separated hargs).accounted (fun _ => said_silent rfl)
      fun harg _ => h.argument harg

theorem signature (hread : signature union function (.name "function" :: .openParen :: ts) =
      .ok (u, rest)) :
    Accounted enclosing false (.name "function" :: .openParen :: ts) rest (mentions u) := by
  obtain ⟨args, mid, hargs, hresult⟩ := signature_eq_ok.mp hread
  have hlist : Accounted enclosing false (.openParen :: ts) mid
      (args.map Argument.mentions).sum :=
    .enclosed ⟨rfl, fun _ => rfl⟩ (by simp) (h.arguments hargs)
  have hcalled : Accounted enclosing false (.name "function" :: .openParen :: ts) mid
      (args.map Argument.mentions).sum := .silent (said_silent rfl) hlist
  rcases hresult with ⟨tail, result, rfl, hresult, rfl⟩ | ⟨-, rfl, rfl⟩
  · have hwhole := hcalled.trans (.silent (said_silent rfl) (h.modified hresult))
    exact hwhole.replaced (mentions_ofArguments args (some result))
  · exact hcalled.replaced ((add_zero _).symm.trans (mentions_ofArguments args none))

end Accounting

/-! ### Whole literals -/

theorem nested_name_colon (n : Nat) (s : String) (ts : List Token) :
    nested (n + 1) .union (.name s :: .colon :: ts) = .ok (.name s, .colon :: ts) := by
  have hsuffixed : suffixed (nested n .union) (nested n .function) (.name s :: .colon :: ts) =
      .ok (.name s, .colon :: ts) :=
    suffixed_eq_ok.mpr
      ⟨_, _, primary_name (by simp) (by simp) (by simp), _, _, rfl, rfl⟩
  have hmodified := modified_of_suffixed (modifiers_operand (by simp)) hsuffixed
  exact nested_union_of_modified hmodified (by simp) (by simp)

theorem mentions_unionOf (es : List TypeExpr) : mentions (unionOf es) = mentionsEach es := by
  match es with
  | [t] => rw [unionOf, mentionsEach, mentionsEach, add_zero]
  | [] | _ :: _ :: _ => rfl

/-- Every level accounts for what it takes, since the next one does. -/
theorem nested_accounting (n : Nat) : Accounting (nested n .union) (nested n .function) := by
  induction n with
  | zero =>
    exact {
      colon := fun hread => by cases hread
      function := fun hread => by cases hread
      union := fun hread => by cases hread }
  | succ n ih =>
    refine ⟨fun hread => ?_, fun hread _ => ih.signature hread, fun hread enclosing => ?_⟩
    · rw [nested_name_colon] at hread
      exact (Prod.mk.inj (Except.ok.inj hread)).2.symm
    · obtain ⟨es, hes, rfl⟩ := nested_union_eq_ok.mp hread
      rw [mentions_unionOf, mentionsEach_eq_sum]
      exact (Separated.of_separated hes).accounted (fun _ => said_silent rfl)
        fun halt _ => ih.alternative halt

theorem ofTokens_accounted {levels : Nat} {t : TypeExpr} (h : ofTokens levels ts = .ok t) :
    Accounted [] false ts [] (mentions t) := by
  by_cases hts : ts = []
  · subst hts
    obtain rfl := Except.ok.inj h
    exact .refl [] []
  · exact (nested_accounting levels).union ((ofTokens_eq_ok hts).mp h) []

/-- What the tokens of a literal mention is in the type that is read from it, but for what some
bindings mention. Nothing is lost if the type has as many bindings as the tokens have labels for
them, and only then. -/
theorem parse_mentions {limit : Limit} {literal : String} {t : TypeExpr}
    (h : parse limit literal = .ok t) :
    ∃ lexemes, lex literal.toList = .ok lexemes ∧
      ∃ replaced, said [] false (lexemes.map (·.token)) = mentions t + lost replaced ∧
        (replaced = [] ↔
          (said [] false (lexemes.map (·.token))).count .label = (mentions t).count .label) := by
  obtain ⟨lexemes, hlex, htokens⟩ := parse_eq_ok.mp h
  obtain ⟨replaced, hsaid⟩ := ofTokens_accounted htokens
  rw [said, add_zero] at hsaid
  refine ⟨lexemes, hlex, replaced, hsaid, ?_⟩
  have hlost := length_le_count_lost replaced
  rw [hsaid, Multiset.count_add]
  constructor
  · rintro rfl
    rfl
  · intro hcount
    exact List.length_eq_zero_iff.mp (by omega)

theorem parse_mentions_signature :
    let literal := "function(this: A, ...b: C[]): \x7b'k': Set.<1>\x7d"
    let type := TypeExpr.function
      [.variadic (.parameter "b" (.generic "Array" [.name "C"]))]
      (some (.record [.field "k" (some (.generic "Set" [.literal "1"]))])) (some (.name "A")) none
    parse .standard literal = .ok type ∧ ∃ lexemes, lex literal.toList = .ok lexemes ∧
      said [] false (lexemes.map (·.token)) = mentions type := by
  intro literal type
  have hparse : parse .standard literal = .ok type := by decide +kernel
  have hlabels : (lex literal.toList).map
      (fun lexemes => (said [] false (lexemes.map (·.token))).count .label) = .ok 1 := by
    decide +kernel
  obtain ⟨lexemes, hlex, replaced, hsaid, hnone⟩ := parse_mentions hparse
  rw [hlex] at hlabels
  have hcount : (mentions type).count .label = 1 := by decide +kernel
  have hreplaced : replaced = [] := hnone.mpr ((Except.ok.inj hlabels).trans hcount.symm)
  refine ⟨hparse, lexemes, hlex, ?_⟩
  rw [hsaid, hreplaced]
  exact add_zero _

/-- A second binding of `this` replaces the first one, and what that mentions is in no type. -/
theorem parse_drops_binding :
    let literal := "function(this:A, this:B)"
    let type := TypeExpr.function [] none (some (.name "B")) none
    parse .standard literal = .ok type ∧ ∃ lexemes, lex literal.toList = .ok lexemes ∧
      (said [] false (lexemes.map (·.token))).count (.word "A") = 1 ∧
        (mentions type).count (.word "A") = 0 := by
  intro literal type
  have hlex : lex literal.toList = .ok [⟨.name "function", 0⟩, ⟨.openParen, 8⟩, ⟨.name "this", 9⟩,
      ⟨.colon, 13⟩, ⟨.name "A", 14⟩, ⟨.comma, 15⟩, ⟨.name "this", 17⟩, ⟨.colon, 21⟩,
      ⟨.name "B", 22⟩, ⟨.closeParen, 23⟩] := by decide +kernel
  exact ⟨by decide +kernel, _, hlex, by decide +kernel, by decide +kernel⟩

end DocComment.TypeExpr
