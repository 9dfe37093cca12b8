import DocComment.Proofs.TypeExpr.Completeness
import DocComment.Proofs.TypeExpr.Lexing
import DocComment.Proofs.TypeExpr.Nesting

/-!
The canonical tokens of a type, and that reading them gives the type back, with as many levels
as the type nests. Each place is read back before whatever may follow it there, so the places
can be put together without looking into one another.
-/

namespace DocComment.TypeExpr

mutual

def tokens : TypeExpr → List Token
  | .name s => [.name s]
  | .all => [.star]
  | .unknown => [.question]
  | .literal s => [literalToken s]
  | .union elements => [Token.pipe].intercalate (tokensEach elements)
  | .group inner => .openParen :: tokens inner ++ [.closeParen]
  | .optional inner => tokens inner ++ [.equals]
  | .nullable inner .before => .question :: tokens inner
  | .nullable inner .after => tokens inner ++ [.question]
  | .nonNullable inner .before => .bang :: tokens inner
  | .nonNullable inner .after => tokens inner ++ [.bang]
  | .variadic inner => .ellipsis :: tokens inner
  | .generic head params =>
    .name head :: .dotLess :: [Token.comma].intercalate (tokensEach params) ++ [.greater]
  | .field key value => keyToken key :: tokensAfter value
  | .record fields => .openBrace :: [Token.comma].intercalate (tokensEach fields) ++ [.closeBrace]
  | .parameter label inner => .name label :: .colon :: tokens inner
  | .function params result receiver built =>
    .name "function" :: .openParen ::
      [Token.comma].intercalate (tokensBinding "this" receiver ++ tokensBinding "new" built ++
        tokensEach params) ++ .closeParen :: tokensAfter result

def tokensEach : List TypeExpr → List (List Token)
  | [] => []
  | t :: ts => tokens t :: tokensEach ts

def tokensAfter : Option TypeExpr → List Token
  | none => []
  | some t => .colon :: tokens t

def tokensBinding (label : String) : Option TypeExpr → List (List Token)
  | none => []
  | some t => [.name label :: .colon :: tokens t]

end

theorem tokensEach_eq_map (ts : List TypeExpr) : tokensEach ts = ts.map tokens := by
  induction ts with
  | nil => rfl
  | cons t ts ih => rw [tokensEach, ih, List.map_cons]

def Argument.tokens : Argument → List Token
  | .receiver t => .name "this" :: .colon :: t.tokens
  | .built t => .name "new" :: .colon :: t.tokens
  | .param t => t.tokens

/-- The bindings first, then the parameters. -/
def argumentsOf (params : List TypeExpr) (receiver built : Option TypeExpr) : List Argument :=
  receiver.toList.map .receiver ++ built.toList.map .built ++ params.map .param

theorem tokens_function (params : List TypeExpr) (result receiver built : Option TypeExpr) :
    tokens (.function params result receiver built) = .name "function" :: .openParen ::
      ([Token.comma].intercalate ((argumentsOf params receiver built).map Argument.tokens) ++
        .closeParen :: tokensAfter result) := by
  cases receiver <;> cases built <;>
    simp [tokens, tokensBinding, tokensEach_eq_map, argumentsOf, Argument.tokens, Function.comp_def]

theorem filterMap_argumentsOf {α : Type} (f : Argument → Option α) (params : List TypeExpr)
    (receiver built : Option TypeExpr) :
    (argumentsOf params receiver built).filterMap f =
      receiver.toList.filterMap (f ∘ .receiver) ++ built.toList.filterMap (f ∘ .built) ++
        params.filterMap (f ∘ .param) := by
  simp only [argumentsOf, List.filterMap_append, List.filterMap_map]

theorem ofArguments_argumentsOf (params : List TypeExpr) (result receiver built : Option TypeExpr) :
    ofArguments (argumentsOf params receiver built) result =
      .function params result receiver built := by
  cases receiver <;> cases built <;>
    simp [ofArguments, filterMap_argumentsOf, Function.comp_def, Argument.param?,
      Argument.receiver?, Argument.built?]

section Separated

variable {α : Type} {separator : Token} {item : List α → Reader α} {seen xs : List α}
  {ts rest : List Token}

/-- A run of items is read with any bound that leaves room for the separators. -/
theorem Separated.separatedFrom (h : Separated separator item seen ts xs rest)
    (hr : rest.head? ≠ some separator) (bound : Nat) (hb : xs.length ≤ bound + 1) :
    separatedFrom separator item bound seen ts = .ok (xs, rest) := by
  induction h generalizing bound with
  | last h => exact separatedFrom_last bound h hr
  | more h h' ih =>
    cases bound with
    | zero =>
      cases h' <;> simp at hb
    | succ bound =>
      exact separatedFrom_more h (ih hr bound (by simpa using hb))

theorem length_le_intercalate (separator : Token) (lists : List (List Token)) :
    lists.length ≤ ([separator].intercalate lists).length + 1 := by
  match lists with
  | [] => simp
  | [l] => simp
  | l :: l' :: lists =>
    have := length_le_intercalate separator (l' :: lists)
    simp only [List.intercalate_cons_cons, List.length_append, List.length_cons] at this ⊢
    omega

/-- Items that are read back one by one are read back as a run, if each of them goes with
those before it. -/
theorem Separated.of_intercalate {text : α → List Token} {allowed : List Token}
    {apart : α → α → Prop} (hne : xs ≠ []) (hsep : separator ∈ allowed)
    (hitem : ∀ x ∈ xs, ∀ seen, (∀ e ∈ seen, apart e x) → ∀ rest, Follows allowed rest →
      item seen (text x ++ rest) = .ok (x, rest))
    (hx : xs.Pairwise apart) (hs : ∀ e ∈ seen, ∀ x ∈ xs, apart e x) (hr : Follows allowed rest) :
    Separated separator item seen ([separator].intercalate (xs.map text) ++ rest) xs rest := by
  induction xs generalizing seen with
  | nil => exact absurd rfl hne
  | cons x xs ih =>
    obtain ⟨hx, hxs⟩ := List.pairwise_cons.mp hx
    have hfirst := hitem x List.mem_cons_self seen fun e he => hs e he x List.mem_cons_self
    cases xs with
    | nil => exact .last (by simpa using hfirst rest hr)
    | cons y ys =>
      have hseen : ∀ e ∈ x :: seen, ∀ z ∈ y :: ys, apart e z := by
        intro e he z hz
        rcases List.mem_cons.mp he with rfl | he
        · exact hx z hz
        · exact hs e he z (List.mem_cons_of_mem _ hz)
      have hrest := ih (by simp) (fun z hz => hitem z (List.mem_cons_of_mem _ hz)) hxs hseen
      refine .more ?_ hrest
      simpa [List.intercalate_cons_cons] using hfirst _ (.cons hsep)

theorem separated_intercalate {text : α → List Token} (allowed : List Token)
    (apart : α → α → Prop) (hne : xs ≠ []) (hsep : separator ∈ allowed)
    (hitem : ∀ x ∈ xs, ∀ seen, (∀ e ∈ seen, apart e x) → ∀ rest, Follows allowed rest →
      item seen (text x ++ rest) = .ok (x, rest))
    (hx : xs.Pairwise apart) (hr : Follows allowed rest) (hn : rest.head? ≠ some separator) :
    separated separator item ([separator].intercalate (xs.map text) ++ rest) =
      .ok (xs, rest) := by
  have h : Separated separator item [] ([separator].intercalate (xs.map text) ++ rest) xs rest :=
    .of_intercalate hne hsep hitem hx (by simp) hr
  refine h.separatedFrom hn _ ?_
  have := length_le_intercalate separator (xs.map text)
  simp only [List.length_map, List.length_append] at this ⊢
  omega

end Separated

/-- What reading makes of the tokens of a type in its place, with at least as many levels as
the type nests. Marks after it are taken as well where they may follow. -/
def Rereads (n : Nat) (t : TypeExpr) : Place → Prop
  | .union => nesting t < n → ∀ rest, Follows closers rest →
      nested n .union (tokens t ++ rest) = .ok (t, rest)
  | .alternative => nesting t ≤ n → ∀ rest, Follows (.pipe :: closers) rest →
      alternative (nested n .union) (nested n .function) (tokens t ++ rest) = .ok (t, rest)
  | .modified | .suffixed => nesting t ≤ n → ∀ rest, Follows terminators rest →
      modified (nested n .union) (nested n .function) (tokens t ++ rest) = .ok (t, rest)
  | .marked => nesting t ≤ n → ∀ rest, Follows (.question :: .bang :: terminators) rest →
      modifiers (tokens t ++ rest) = ([], tokens t ++ rest) ∧
        suffixed (nested n .union) (nested n .function) (tokens t ++ rest) = .ok (marks t rest)
  | .entry => nesting t ≤ n → ∀ seen, (∀ e ∈ seen, entryKey e ≠ entryKey t) →
      ∀ rest, Follows closers rest →
        recordEntry (nested n .union) seen (tokens t ++ rest) = .ok (t, rest)
  | .parameter => nesting t ≤ n → ∀ rest, Follows closers rest →
      argument (nested n .union) (nested n .function) (tokens t ++ rest) = .ok (.param t, rest)

section

variable {n : Nat} {t : TypeExpr} {rest : List Token}

theorem suffixed_of_primary {union function : Reader TypeExpr} {ts : List Token}
    (h : primary union function ts = .ok (t, rest)) (hr : rest.head? ≠ some .openBracket) :
    suffixed union function ts = .ok (marks t rest) := by
  refine suffixed_eq_ok.mpr ⟨t, rest, h, t, rest, brackets_of_head hr, rfl⟩

theorem modified_of_primary {union function : Reader TypeExpr} {u : Token} {us : List Token}
    (hu : u ≠ .question ∧ u ≠ .bang ∧ u ≠ .ellipsis)
    (h : primary union function (u :: us) = .ok (t, rest)) (hr : Follows terminators rest) :
    modified union function (u :: us) = .ok (t, rest) := by
  have hs := suffixed_of_primary h (hr.not_head (by decide))
  rw [marks_of_head (hr.not_head (by decide)) (hr.not_head (by decide))] at hs
  exact modified_of_suffixed (modifiers_operand hu) hs

theorem rereads_suffixed (h : Rereads n t .marked) : Rereads n t .suffixed := by
  intro ht rest hr
  obtain ⟨hm, hs⟩ := h ht rest (hr.mono (by decide))
  rw [marks_of_head (hr.not_head (by decide)) (hr.not_head (by decide))] at hs
  exact modified_of_suffixed hm hs

theorem rereads_modifier {m : Modifier} {u : Token}
    (hm : ∀ ts, endsOperand ts = false →
      modifiers (u :: ts) = (m :: (modifiers ts).1, (modifiers ts).2))
    (hu : tokens (m.apply t) = u :: tokens t) (h : Rereads n t .modified) :
    Rereads n (m.apply t) .modified := by
  intro ht rest hr
  rw [nesting_apply] at ht
  have ht := h ht rest hr
  rw [hu, List.cons_append, modified_modifier (hm _ (modified_endsOperand ht)), ht]
  rfl

theorem rereads_alternative (h : Rereads n t .modified) : Rereads n t .alternative := by
  intro ht rest hr
  exact alternative_eq_ok.mpr (.inr ⟨h ht rest (hr.mono (by decide)), hr.not_head (by decide)⟩)

theorem rereads_optional (h : Rereads n t .modified) : Rereads n (.optional t) .alternative := by
  intro ht rest _
  rw [nesting] at ht
  refine alternative_eq_ok.mpr (.inl ⟨t, ?_, rfl⟩)
  simpa [tokens] using h ht (.equals :: rest) (.cons (by decide))

theorem nested_elements {es : List TypeExpr} (hne : es ≠ [])
    (h : ∀ e ∈ es, Rereads n e .alternative) (hn : ∀ e ∈ es, nesting e ≤ n)
    (hr : Follows closers rest) :
    nested (n + 1) .union ([Token.pipe].intercalate (es.map tokens) ++ rest) =
      .ok (unionOf es, rest) := by
  refine nested_union_eq_ok.mpr ⟨es, ?_, rfl⟩
  have hr' : Follows (.pipe :: closers) rest := hr.mono (by decide)
  refine separated_intercalate _ (fun _ _ => True) hne List.mem_cons_self ?_
    (List.pairwise_of_forall fun _ _ => trivial) hr' (hr.not_head (by decide))
  exact fun e he _ _ => h e he (hn e he)

theorem rereads_union {es : List TypeExpr} (hl : 2 ≤ es.length)
    (h : ∀ e ∈ es, ∀ n, Rereads n e .alternative) : Rereads n (.union es) .union := by
  intro ht rest hr
  obtain ⟨n, rfl⟩ : ∃ m, n = m + 1 := ⟨n - 1, by omega⟩
  rw [nesting, Nat.lt_succ_iff, nestingEach_le_iff] at ht
  rw [tokens, tokensEach_eq_map]
  match es, hl with
  | a :: b :: es, _ => exact nested_elements (by simp) (fun e he => h e he n) ht hr

theorem rereads_single (h : ∀ n, Rereads n t .alternative) : Rereads n t .union := by
  intro ht rest hr
  obtain ⟨n, rfl⟩ : ∃ m, n = m + 1 := ⟨n - 1, by omega⟩
  have hn : ∀ e ∈ [t], nesting e ≤ n := by simpa using Nat.le_of_lt_succ ht
  simpa [unionOf] using nested_elements (by simp) (by simpa using h n) hn hr

/-- A primary is read whole before a mark as well, and the mark is then taken. -/
theorem rereads_primary {u : Token} {us : List Token} (htokens : tokens t = u :: us)
    (hu : u ≠ .question ∧ u ≠ .bang ∧ u ≠ .ellipsis)
    (h : nesting t ≤ n → ∀ rest, Follows (.question :: .bang :: terminators) rest →
      primary (nested n .union) (nested n .function) (tokens t ++ rest) = .ok (t, rest)) :
    Rereads n t .marked := by
  intro ht rest hr
  refine ⟨?_, suffixed_of_primary (h ht rest hr) (hr.not_head (by decide))⟩
  rw [htokens, List.cons_append, modifiers_operand hu]

theorem rereads_mark {u : TypeExpr} (mark : Token)
    (hmark : mark ∈ [Token.question, Token.bang])
    (hu : tokens u = tokens t ++ [mark]) (hn : nesting u = nesting t)
    (hm : ∀ rest, marks t (mark :: rest) = marks u rest) (h : Rereads n t .marked) :
    Rereads n u .marked := by
  intro ht rest _
  rw [hn] at ht
  obtain ⟨hmod, hsuf⟩ := h ht (mark :: rest)
    (.cons ((by decide : [Token.question, Token.bang] ⊆ .question :: .bang :: terminators) hmark))
  rw [hu, List.append_assoc, List.singleton_append]
  exact ⟨hmod, by rw [hsuf, hm]⟩

theorem rereads_name (s : String) : Rereads n (.name s) .marked :=
  rereads_primary (by rw [tokens]) (by simp) fun _ rest hr => by
    simpa [tokens] using
      primary_name (hr.not_head (by decide)) (hr.not_head (by decide)) (hr.not_head (by decide))

theorem rereads_literal (s : String) : Rereads n (.literal s) .marked := by
  refine rereads_primary (by rw [tokens]) ?_ fun _ rest _ => ?_
  · unfold literalToken
    split <;> simp
  · rw [tokens, literalToken]
    split <;> rfl

theorem rereads_group (h : Rereads n t .union) : Rereads n (.group t) .marked := by
  refine rereads_primary (by rw [tokens, List.cons_append]) (by simp) fun ht rest _ => ?_
  rw [nesting] at ht
  have := h ht (.closeParen :: rest) (.cons (by decide))
  simpa [tokens, primary] using groupBody_eq_ok.mpr ⟨t, this, rfl⟩

theorem rereads_generic {head : String} {params : List TypeExpr} (hne : params ≠ [])
    (h : ∀ p ∈ params, Rereads n p .union) : Rereads n (.generic head params) .marked := by
  have htokens : tokens (.generic head params) =
      .name head :: .dotLess :: ([Token.comma].intercalate (tokensEach params) ++ [.greater]) := by
    simp only [tokens, List.cons_append]
  refine rereads_primary htokens (by simp) fun ht rest _ => ?_
  rw [nesting, Nat.succ_le_iff] at ht
  have hparams : ∀ p ∈ params, nesting p < n := fun p hp =>
    Nat.lt_of_le_of_lt (nestingEach_le_iff.mp (Nat.le_refl _) p hp) ht
  have hread : separated .comma (fun _ => nested n .union)
      ([Token.comma].intercalate (params.map tokens) ++ .greater :: rest) =
        .ok (params, .greater :: rest) := by
    refine separated_intercalate closers (fun _ _ => True) hne (by decide)
      ?_ (List.pairwise_of_forall fun _ _ => trivial) (.cons (by decide)) (by simp)
    exact fun p hp _ _ => h p hp (hparams p hp)
  simpa [tokens, primary, tokensEach_eq_map] using genericBody_eq_ok.mpr ⟨params, hread, rfl⟩

theorem entries_head {union : Reader TypeExpr} {seen fields : List TypeExpr} {ts : List Token}
    (h : Separated .comma (recordEntry union) seen ts fields rest) :
    ts.head? ≠ some .closeBrace := by
  have entry_head {f : TypeExpr} {rest : List Token}
      (h : recordEntry union seen ts = .ok (f, rest)) : ts.head? ≠ some .closeBrace := by
    obtain ⟨t, key, mid, ht, rfl, -⟩ := recordEntry_eq_ok.mp h
    exact key_head ht
  cases h with
  | last h => exact entry_head h
  | more h => exact entry_head h

theorem rereads_record {fields : List TypeExpr} (hk : (fields.map entryKey).Nodup)
    (h : ∀ f ∈ fields, Rereads n f .entry) : Rereads n (.record fields) .marked := by
  have htokens : tokens (.record fields) =
      .openBrace :: ([Token.comma].intercalate (tokensEach fields) ++ [.closeBrace]) := by
    simp only [tokens, List.cons_append]
  refine rereads_primary htokens (by simp) fun ht rest _ => ?_
  rw [nesting, nestingEach_le_iff] at ht
  by_cases hne : fields = []
  · subst fields
    rfl
  have hread : separated .comma (recordEntry (nested n .union))
      ([Token.comma].intercalate (fields.map tokens) ++ .closeBrace :: rest) =
        .ok (fields, .closeBrace :: rest) := by
    refine separated_intercalate closers (fun e f => entryKey e ≠ entryKey f)
      hne (by decide) ?_ (List.pairwise_map.mp hk) (.cons (by decide)) (by simp)
    exact fun f hf seen hs => h f hf (ht f hf) seen hs
  have hbody := recordBody_eq_ok.mpr (.inr ⟨entries_head (.of_separated hread), fields, hread, rfl⟩)
  simpa [tokens, primary, tokensEach_eq_map] using hbody

theorem rereads_key {key : String} : Rereads n (.field key none) .entry := by
  intro _ seen hs rest hr
  rw [tokens, tokensAfter]
  exact recordEntry_eq_ok.mpr ⟨keyToken key, key, rest, keyToken_key? key, rfl, hs,
    .inr ⟨hr.not_head (by decide), rfl, rfl⟩⟩

theorem rereads_field {key : String} (h : Rereads n t .union) :
    Rereads n (.field key (some t)) .entry := by
  intro ht seen hs rest hr
  rw [nesting, nestingWithin] at ht
  rw [tokens, tokensAfter]
  exact recordEntry_eq_ok.mpr ⟨keyToken key, key, _, keyToken_key? key, rfl, hs,
    .inl ⟨_, t, rfl, h ht rest hr, rfl⟩⟩

/-- An alternative that does not start with three points is a parameter as it stands. -/
theorem rereads_parameter {u : Token} {us : List Token} (htokens : tokens t = u :: us)
    (hu : u ≠ .ellipsis) (h : Rereads n t .alternative) : Rereads n t .parameter := by
  intro ht rest hr
  have ht := h ht rest (hr.mono (by decide))
  have hn := not_labelled hr ht
  refine argument_eq_ok.mpr (.inr (.inr (.inr ⟨?_, fun s tail e => absurd e (hn s tail), t,
    paramBody_eq_ok.mpr (.inr ⟨hn, ht⟩), rfl⟩)))
  rw [htokens]
  exact fun e => hu (Option.some.inj e)

theorem paramBody_labelled {s : String} {ts : List Token}
    (h : alternative (nested n .union) (nested n .function) ts = .ok (t, rest)) :
    paramBody (nested n .union) (nested n .function) (.name s :: .colon :: ts) =
      .ok (.parameter s t, rest) :=
  paramBody_eq_ok.mpr (.inl ⟨s, ts, t, rfl, h, rfl⟩)

theorem rereads_labelled {s : String} (hs : s ≠ "this" ∧ s ≠ "new")
    (h : Rereads n t .alternative) : Rereads n (.parameter s t) .parameter := by
  intro ht rest hr
  rw [nesting] at ht
  have ht := h ht rest (hr.mono (by decide))
  rw [tokens]
  refine argument_eq_ok.mpr (.inr (.inr (.inr ⟨by simp, ?_, _, paramBody_labelled ht, rfl⟩)))
  intro _ _ e
  obtain ⟨rfl, -⟩ : _ ∧ _ := by simpa using e
  exact hs

theorem rereads_rest (h : Rereads n t .alternative) : Rereads n (.variadic t) .parameter := by
  intro ht rest hr
  rw [nesting] at ht
  have ht := h ht rest (hr.mono (by decide))
  rw [tokens]
  exact argument_eq_ok.mpr (.inl ⟨_, t, rfl,
    paramBody_eq_ok.mpr (.inr ⟨not_labelled hr ht, ht⟩), rfl⟩)

theorem rereads_labelledRest {s : String} (h : Rereads n t .alternative) :
    Rereads n (.variadic (.parameter s t)) .parameter := by
  intro ht rest hr
  rw [nesting, nesting] at ht
  have ht := h ht rest (hr.mono (by decide))
  rw [tokens, tokens]
  exact argument_eq_ok.mpr (.inl ⟨_, _, rfl, paramBody_labelled ht, rfl⟩)

theorem arguments_intercalate {args : List Argument} (mid : List Token)
    (h : ∀ a ∈ args, ∀ rest, Follows closers rest →
      argument (nested n .union) (nested n .function) (a.tokens ++ rest) = .ok (a, rest)) :
    arguments (nested n .union) (nested n .function)
        ([Token.comma].intercalate (args.map Argument.tokens) ++ .closeParen :: mid) =
      .ok (args, .closeParen :: mid) := by
  by_cases hne : args = []
  · subst args
    rfl
  have hread : separated .comma (fun _ => argument (nested n .union) (nested n .function))
      ([Token.comma].intercalate (args.map Argument.tokens) ++ .closeParen :: mid) =
        .ok (args, .closeParen :: mid) :=
    separated_intercalate closers (fun _ _ => True) hne (by decide)
      (fun a ha _ _ => h a ha) (List.pairwise_of_forall fun _ _ => trivial) (.cons (by decide))
      (by simp)
  refine arguments_eq_ok.mpr (.inr ⟨?_, hread⟩)
  cases Separated.of_separated hread with
  | last h => exact argument_head h
  | more h => exact argument_head h

/-- A function is read up to its closing parenthesis, whatever comes after that. -/
theorem function_arguments {params : List TypeExpr} {result receiver built : Option TypeExpr}
    (hn : nesting (.function params result receiver built) ≤ n + 1)
    (hp : ∀ p ∈ params, Rereads n p .parameter) (hr : ∀ t ∈ receiver, Rereads n t .union)
    (hb : ∀ t ∈ built, Rereads n t .union) (mid : List Token) :
    arguments (nested n .union) (nested n .function)
        ([Token.comma].intercalate ((argumentsOf params receiver built).map Argument.tokens) ++
          .closeParen :: mid) =
      .ok (argumentsOf params receiver built, .closeParen :: mid) := by
  refine arguments_intercalate mid fun a ha rest hrest => ?_
  obtain ⟨hnp, -, hnr, hnb⟩ := nesting_function_le_iff.mp hn
  simp only [argumentsOf, List.mem_append, List.mem_map, Option.mem_toList] at ha
  rcases ha with (⟨t, ht, rfl⟩ | ⟨t, ht, rfl⟩) | ⟨p, hmem, rfl⟩
  · exact argument_eq_ok.mpr (.inr (.inl ⟨_, t, rfl, hr t ht (hnr t ht) rest hrest, rfl⟩))
  · exact argument_eq_ok.mpr (.inr (.inr (.inl ⟨_, t, rfl, hb t ht (hnb t ht) rest hrest, rfl⟩)))
  · exact hp p hmem (hnp p hmem) rest hrest

theorem rereads_procedure {params : List TypeExpr} {receiver built : Option TypeExpr}
    (hp : ∀ p ∈ params, ∀ n, Rereads n p .parameter) (hr : ∀ t ∈ receiver, ∀ n, Rereads n t .union)
    (hb : ∀ t ∈ built, ∀ n, Rereads n t .union) :
    Rereads n (.function params none receiver built) .marked := by
  refine rereads_primary (tokens_function _ _ _ _) (by simp) fun ht rest hrest => ?_
  obtain ⟨n, rfl⟩ : ∃ m, n = m + 1 := ⟨n - 1, by rw [nesting] at ht; omega⟩
  have ha := function_arguments ht (fun p h => hp p h n) (fun t h => hr t h n)
    (fun t h => hb t h n) rest
  rw [tokens_function, ← ofArguments_argumentsOf, tokensAfter, List.cons_append, List.cons_append,
    List.append_assoc]
  exact signature_eq_ok.mpr ⟨_, rest, ha, .inr ⟨hrest.not_head (by decide), rfl, rfl⟩⟩

theorem rereads_function {params : List TypeExpr} {result : TypeExpr}
    {receiver built : Option TypeExpr}
    (hp : ∀ p ∈ params, ∀ n, Rereads n p .parameter) (hr : ∀ t ∈ receiver, ∀ n, Rereads n t .union)
    (hb : ∀ t ∈ built, ∀ n, Rereads n t .union) (hres : ∀ n, Rereads n result .modified) :
    Rereads n (.function params (some result) receiver built) .suffixed := by
  intro ht rest hrest
  obtain ⟨n, rfl⟩ : ∃ m, n = m + 1 := ⟨n - 1, by rw [nesting] at ht; omega⟩
  have ha := function_arguments ht (fun p h => hp p h n) (fun t h => hr t h n)
    (fun t h => hb t h n) (.colon :: (tokens result ++ rest))
  have hresult := hres n ((nesting_function_le_iff.mp ht).2.1 result rfl) rest hrest
  rw [tokens_function, ← ofArguments_argumentsOf, tokensAfter, List.cons_append, List.cons_append,
    List.append_assoc]
  refine modified_of_primary (by simp) ?_ hrest
  exact signature_eq_ok.mpr ⟨_, _, ha, .inl ⟨_, _, rfl, hresult, rfl⟩⟩

end

theorem marked_tokens {P : Token → Prop} {t : TypeExpr} (h : Shape P .marked t) :
    ∃ u us, tokens t = u :: us ∧ u ≠ .question ∧ u ≠ .bang ∧ u ≠ .ellipsis := by
  generalize hplace : Place.marked = place at h
  induction h with
  | name | all => exact ⟨_, _, by rw [tokens], by simp⟩
  | literal =>
    refine ⟨_, _, by rw [tokens], ?_⟩
    unfold literalToken
    split <;> simp
  | group | generic | record => exact ⟨_, _, by simp only [tokens, List.cons_append]; rfl, by simp⟩
  | procedure => exact ⟨_, _, tokens_function _ _ _ _, by simp⟩
  | nullableAfter _ ih =>
    obtain ⟨u, us, e, hu⟩ := ih rfl
    exact ⟨u, us ++ [Token.question], by simp [tokens, e], hu⟩
  | nonNullableAfter _ ih =>
    obtain ⟨u, us, e, hu⟩ := ih rfl
    exact ⟨u, us ++ [Token.bang], by simp [tokens, e], hu⟩
  | _ => cases hplace

theorem modified_tokens {P : Token → Prop} {t : TypeExpr} (h : Shape P .modified t)
    (ht : ∀ u, t ≠ .variadic u) : ∃ u us, tokens t = u :: us ∧ u ≠ .ellipsis := by
  cases h with
  | nullableBefore => exact ⟨_, _, by rw [tokens], by simp⟩
  | nonNullableBefore => exact ⟨_, _, by rw [tokens], by simp⟩
  | variadic => exact absurd rfl (ht _)
  | modified h =>
    cases h with
    | function => exact ⟨_, _, tokens_function _ _ _ _, by simp⟩
    | unknown => exact ⟨_, _, by rw [tokens], by simp⟩
    | suffixed h =>
      obtain ⟨u, us, e, -, -, hu⟩ := marked_tokens h
      exact ⟨u, us, e, hu⟩

theorem alternative_tokens {P : Token → Prop} {t : TypeExpr} (h : Shape P .alternative t)
    (ht : ∀ u, t ≠ .variadic u ∧ t ≠ .optional (.variadic u)) :
    ∃ u us, tokens t = u :: us ∧ u ≠ .ellipsis := by
  cases h with
  | optional h =>
    obtain ⟨u, us, e, hu⟩ := modified_tokens h fun v e => (ht v).2 (by rw [e])
    exact ⟨u, us ++ [Token.equals], by simp [tokens, e], hu⟩
  | alternative h => exact modified_tokens h fun v => (ht v).1

/-- Every place is read back. -/
theorem Shape.rereads {P : Token → Prop} {place : Place} {t : TypeExpr} (h : Shape P place t)
    (n : Nat) : Rereads n t place := by
  induction h generalizing n with
  | name => exact rereads_name _
  | all => exact rereads_primary (by rw [tokens]) (by simp) fun _ _ _ => by rw [tokens]; rfl
  | literal => exact rereads_literal _
  | group _ ih => exact rereads_group (ih n)
  | generic _ hne _ ih => exact rereads_generic hne fun p hp => ih p hp n
  | record hk _ ih => exact rereads_record hk fun f hf => ih f hf n
  | procedure _ _ _ ihp ihr ihb => exact rereads_procedure ihp ihr ihb
  | nullableAfter _ ih =>
    exact rereads_mark .question (by simp) (by rw [tokens]) (by rw [nesting]) (fun _ => rfl) (ih n)
  | nonNullableAfter _ ih =>
    exact rereads_mark .bang (by simp) (by rw [tokens]) (by rw [nesting]) (fun _ => rfl) (ih n)
  | function _ _ _ _ ihp ihr ihb ih => exact rereads_function ihp ihr ihb ih
  | unknown =>
    intro _ rest hr
    have he := endsOperand_iff.mpr hr
    rw [tokens, List.singleton_append]
    exact modified_of_suffixed (modifiers_bare he) (suffixed_bare he)
  | suffixed _ ih => exact rereads_suffixed (ih n)
  | nullableBefore _ ih =>
    refine rereads_modifier (m := .nullable) (fun _ => modifiers_question) ?_ (ih n)
    rw [Modifier.apply, tokens]
  | nonNullableBefore _ ih =>
    refine rereads_modifier (u := .bang) (m := .nonNullable) (fun _ _ => rfl) ?_ (ih n)
    rw [Modifier.apply, tokens]
  | variadic _ ih =>
    refine rereads_modifier (u := .ellipsis) (m := .variadic) (fun _ _ => rfl) ?_ (ih n)
    rw [Modifier.apply, tokens]
  | modified _ ih => exact ih n
  | optional _ ih => exact rereads_optional (ih n)
  | alternative _ ih => exact rereads_alternative (ih n)
  | union hl _ ih => exact rereads_union hl ih
  | single _ ih => exact rereads_single ih
  | key => exact rereads_key
  | field _ _ _ ih => exact rereads_field (ih n)
  | parameter h hv ih =>
    obtain ⟨u, us, e, hu⟩ := alternative_tokens h hv
    exact rereads_parameter e hu (ih n)
  | labelled _ hs _ ih => exact rereads_labelled hs (ih n)
  | rest _ ih => exact rereads_rest (ih n)
  | labelledRest _ _ ih => exact rereads_labelledRest (ih n)

/-- The canonical tokens of a type that was read are read as that type again, with more levels
than it nests. -/
theorem ofTokens_tokens_of_nesting_lt {P : Token → Prop} {t : TypeExpr} (h : Shape P .union t)
    {levels : Nat} (hl : nesting t < levels) : ofTokens levels (tokens t) = .ok t := by
  have hread := h.rereads levels hl [] (by simp [Follows])
  rw [List.append_nil] at hread
  refine (ofTokens_eq_ok fun e => ?_).mpr hread
  rw [e] at hread
  obtain ⟨n, rfl⟩ : ∃ m, levels = m + 1 := ⟨levels - 1, by omega⟩
  cases hread

end DocComment.TypeExpr
