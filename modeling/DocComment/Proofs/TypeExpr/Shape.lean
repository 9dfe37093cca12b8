import DocComment.Proofs.TypeExpr.Soundness

/-!
The shape of types that come from reading. Where a type stands decides what it may be: a
union holds alternatives, an operand of a marker after it is never one that takes markers
itself, and fields and parameters stay in records and functions. Words in the tree satisfy
whatever the tokens that were read satisfy, and only the head of an array is made up.
-/

namespace DocComment.TypeExpr

/-- Where a type stands, from the loosest place to the tightest. -/
inductive Place where
  | union
  | alternative
  | modified
  | suffixed
  | marked
  | entry
  | parameter
  deriving DecidableEq, Repr

inductive Shape (P : Token → Prop) : Place → TypeExpr → Prop where
  | name {s} : P (.name s) → Shape P .marked (.name s)
  | all : Shape P .marked .all
  | literal {s} : P (.string s) ∨ P (.number s) → Shape P .marked (.literal s)
  | group {t} : Shape P .union t → Shape P .marked (.group t)
  | generic {head params} : P (.name head) ∨ head = "Array" → params ≠ [] →
      (∀ p ∈ params, Shape P .union p) → Shape P .marked (.generic head params)
  | record {fields} : (fields.map entryKey).Nodup → (∀ f ∈ fields, Shape P .entry f) →
      Shape P .marked (.record fields)
  | procedure {params receiver built} : (∀ p ∈ params, Shape P .parameter p) →
      (∀ t ∈ receiver, Shape P .union t) → (∀ t ∈ built, Shape P .union t) →
      Shape P .marked (.function params none receiver built)
  | nullableAfter {t} : Shape P .marked t → Shape P .marked (.nullable t .after)
  | nonNullableAfter {t} : Shape P .marked t → Shape P .marked (.nonNullable t .after)
  | function {params result receiver built} : (∀ p ∈ params, Shape P .parameter p) →
      (∀ t ∈ receiver, Shape P .union t) → (∀ t ∈ built, Shape P .union t) →
      Shape P .modified result → Shape P .suffixed (.function params (some result) receiver built)
  | unknown : Shape P .suffixed .unknown
  | suffixed {t} : Shape P .marked t → Shape P .suffixed t
  | nullableBefore {t} : Shape P .modified t → Shape P .modified (.nullable t .before)
  | nonNullableBefore {t} : Shape P .modified t → Shape P .modified (.nonNullable t .before)
  | variadic {t} : Shape P .modified t → Shape P .modified (.variadic t)
  | modified {t} : Shape P .suffixed t → Shape P .modified t
  | optional {t} : Shape P .modified t → Shape P .alternative (.optional t)
  | alternative {t} : Shape P .modified t → Shape P .alternative t
  | union {es} : 2 ≤ es.length → (∀ e ∈ es, Shape P .alternative e) → Shape P .union (.union es)
  | single {t} : Shape P .alternative t → Shape P .union t
  | key {token key} : P token → token.key? = some key → Shape P .entry (.field key none)
  | field {token key t} : P token → token.key? = some key → Shape P .union t →
      Shape P .entry (.field key (some t))
  | parameter {t} : Shape P .alternative t → (∀ u, t ≠ .variadic u ∧ t ≠ .optional (.variadic u)) →
      Shape P .parameter t
  | labelled {s t} : P (.name s) → s ≠ "this" ∧ s ≠ "new" → Shape P .alternative t →
      Shape P .parameter (.parameter s t)
  | rest {t} : Shape P .alternative t → Shape P .parameter (.variadic t)
  | labelledRest {s t} : P (.name s) → Shape P .alternative t →
      Shape P .parameter (.variadic (.parameter s t))

/-- A function with a result takes no mark after it, so none is left behind it. -/
def Unmarked (P : Token → Prop) (t : TypeExpr) (rest : List Token) : Prop :=
  Shape P .marked t ∨
    Shape P .suffixed t ∧ rest.head? ≠ some .question ∧ rest.head? ≠ some .bang

/-- What the readers of the next level are assumed to make of tokens that satisfy `P`. -/
structure Shaping (P : Token → Prop) (n : Nat) (union function : Reader TypeExpr) : Prop
    extends Sound n union function where
  unionShape {ts t rest} : (∀ u ∈ ts, P u) → union ts = .ok (t, rest) → Shape P .union t
  functionShape {ts t rest} : (∀ u ∈ ts, P u) →
    function (.name "function" :: .openParen :: ts) = .ok (t, rest) → Unmarked P t rest

theorem brackets_shape {P : Token → Prop} {p t : TypeExpr} {ts rest : List Token}
    (hp : Unmarked P p ts) (h : brackets p ts = .ok (t, rest)) : Unmarked P t rest := by
  obtain ⟨k, rfl, rfl, -⟩ := brackets_eq_ok.mp h
  cases k with
  | zero => exact hp
  | succ k =>
    have array {t : TypeExpr} (ht : Shape P .union t) : Shape P .marked (.generic "Array" [t]) :=
      .generic (.inr rfl) (by simp) (by simpa using ht)
    have arrays (k : Nat) {t : TypeExpr} (ht : Shape P .marked t) :
        Shape P .marked (arrayOf k t) := by
      induction k generalizing t with
      | zero => exact ht
      | succ k ih => exact ih (array (.single (.alternative (.modified (.suffixed ht)))))
    have hu : Shape P .union p := by
      rcases hp with hp | ⟨hp, -⟩
      · exact .single (.alternative (.modified (.suffixed hp)))
      · exact .single (.alternative (.modified hp))
    exact .inl (arrays k (array hu))

theorem marks_shape {P : Token → Prop} {p t : TypeExpr} {ts rest : List Token}
    (hp : Unmarked P p ts) (h : marks p ts = (t, rest)) : Shape P .suffixed t := by
  rcases hp with hp | ⟨hp, hq, hb⟩
  · refine .suffixed ?_
    fun_induction marks p ts with
    | case1 p tail ih => exact ih h (.nullableAfter hp)
    | case2 p tail ih => exact ih h (.nonNullableAfter hp)
    | case3 =>
      obtain ⟨rfl, -⟩ := Prod.mk.inj h
      exact hp
  · rw [marks_of_head hq hb] at h
    obtain ⟨rfl, -⟩ := Prod.mk.inj h
    exact hp

theorem modifiers_shape {P : Token → Prop} {t : TypeExpr} (ms : List Modifier)
    (h : Shape P .suffixed t) : Shape P .modified (ms.foldr Modifier.apply t) := by
  induction ms with
  | nil => exact .modified h
  | cons m ms ih =>
    cases m with
    | nullable => exact .nullableBefore ih
    | nonNullable => exact .nonNullableBefore ih
    | variadic => exact .variadic ih

/-- What holds of every item that is read from tokens that satisfy `P`, holds of a run. -/
theorem Separated.forall_mem {α : Type} {separator : Token} {item : List α → Reader α}
    {P : Token → Prop} {Q : α → Prop} {seen xs : List α} {ts rest : List Token}
    (hsuffix : ∀ {seen ts x rest}, item seen ts = .ok (x, rest) → rest <:+ ts)
    (hitem : ∀ {seen ts x rest}, (∀ u ∈ ts, P u) → item seen ts = .ok (x, rest) → Q x)
    (hp : ∀ u ∈ ts, P u) (h : Separated separator item seen ts xs rest) : ∀ x ∈ xs, Q x := by
  induction h with
  | last h => simpa using hitem hp h
  | more h _ ih =>
    have hsub := (hsuffix h).subset
    refine List.forall_mem_cons.mpr ⟨hitem hp h, ih ?_⟩
    exact fun u hu => hp u (hsub (List.mem_cons_of_mem _ hu))

theorem Separated.ne_nil {α : Type} {separator : Token} {item : List α → Reader α}
    {seen xs : List α} {ts rest : List Token} (h : Separated separator item seen ts xs rest) :
    xs ≠ [] := by
  cases h <;> simp

namespace Shaping

variable {P : Token → Prop} {n : Nat} {union function : Reader TypeExpr} {ts rest : List Token}

theorem types (hs : Shaping P n union function) {seen params : List TypeExpr}
    (hp : ∀ u ∈ ts, P u) (h : Separated .comma (fun _ => union) seen ts params rest) :
    params ≠ [] ∧ ∀ p ∈ params, Shape P .union p :=
  ⟨h.ne_nil, h.forall_mem (fun h => (hs.ofUnion h).suffix) (fun hp h => hs.unionShape hp h) hp⟩

theorem entry (hs : Shaping P n union function) {seen : List TypeExpr} {f : TypeExpr}
    (hp : ∀ u ∈ ts, P u) (h : recordEntry union seen ts = .ok (f, rest)) :
    Shape P .entry f ∧ ∀ e ∈ seen, entryKey e ≠ entryKey f := by
  obtain ⟨t, key, mid, ht, rfl, hk, h⟩ := recordEntry_eq_ok.mp h
  obtain ⟨hpt, hp⟩ := List.forall_mem_cons.mp hp
  rcases h with ⟨tail, v, rfl, hv, rfl⟩ | ⟨-, -, rfl⟩
  · exact ⟨.field hpt ht (hs.unionShape (List.forall_mem_cons.mp hp).2 hv), hk⟩
  · exact ⟨.key hpt ht, hk⟩

theorem entries (hs : Shaping P n union function) {seen fields : List TypeExpr}
    (hp : ∀ u ∈ ts, P u) (h : Separated .comma (recordEntry union) seen ts fields rest) :
    (∀ f ∈ fields, Shape P .entry f) ∧ (fields.map entryKey).Nodup ∧
      ∀ e ∈ seen, entryKey e ∉ fields.map entryKey := by
  induction h with
  | last h =>
    obtain ⟨hf, hk⟩ := hs.entry hp h
    exact ⟨by simpa using hf, List.nodup_singleton _, by simpa using hk⟩
  | more h _ ih =>
    obtain ⟨hf, hk⟩ := hs.entry hp h
    obtain ⟨_, _, _, rfl, -, -, -, hd⟩ := hs.toSound.entry h
    have hsub := hd.suffix.subset
    obtain ⟨hfs, hn, hks⟩ := ih fun u hu =>
      hp u (List.mem_cons_of_mem _ (hsub (List.mem_cons_of_mem _ hu)))
    refine ⟨List.forall_mem_cons.mpr ⟨hf, hfs⟩, ?_, ?_⟩
    · exact List.nodup_cons.mpr ⟨hks _ List.mem_cons_self, hn⟩
    · intro e he hm
      rcases List.mem_cons.mp hm with hm | hm
      · exact hk e he hm
      · exact hks e (List.mem_cons_of_mem _ he) hm

theorem primary (hs : Shaping P n union function) {t : TypeExpr} (hp : ∀ u ∈ ts, P u)
    (h : primary union function ts = .ok (t, rest)) (hq : ts.head? ≠ some .question) :
    Unmarked P t rest := by
  cases PrimaryForm.of_primary h with
  | name => exact .inl (.name (hp _ List.mem_cons_self))
  | called h =>
    exact hs.functionShape (fun u hu => hp u (List.mem_cons_of_mem _ (List.mem_cons_of_mem _ hu))) h
  | generic s mark hm h =>
    obtain ⟨hps, hp⟩ := List.forall_mem_cons.mp hp
    obtain ⟨hne, hparams⟩ := hs.types (List.forall_mem_cons.mp hp).2 (.of_separated h)
    exact .inl (.generic (.inl hps) hne hparams)
  | star => exact .inl .all
  | unknown => exact absurd rfl hq
  | string => exact .inl (.literal (.inl (hp _ List.mem_cons_self)))
  | number => exact .inl (.literal (.inr (hp _ List.mem_cons_self)))
  | emptyRecord => exact .inl (.record (by simp) (by simp))
  | record h =>
    obtain ⟨hf, hn, -⟩ := hs.entries (List.forall_mem_cons.mp hp).2 (.of_separated h)
    exact .inl (.record hn hf)
  | group h => exact .inl (.group (hs.unionShape (List.forall_mem_cons.mp hp).2 h))

theorem suffixed (hs : Shaping P n union function) {t : TypeExpr} (hp : ∀ u ∈ ts, P u)
    (h : suffixed union function ts = .ok (t, rest)) (hq : ts.head? ≠ some .question) :
    Shape P .suffixed t ∧ rest.head? ≠ some .question ∧ rest.head? ≠ some .bang := by
  obtain ⟨p, mid, hprim, q, mid', hb, hm⟩ := suffixed_eq_ok.mp h
  obtain ⟨_, _, -, hr⟩ := marks_eq hm
  exact ⟨marks_shape (brackets_shape (hs.primary hp hprim hq) hb) hm, hr⟩

theorem modified (hs : Shaping P n union function) {t : TypeExpr} (hp : ∀ u ∈ ts, P u)
    (h : modified union function ts = .ok (t, rest)) :
    Shape P .modified t ∧ rest.head? ≠ some .question ∧ rest.head? ≠ some .bang := by
  obtain ⟨operand, ho, rfl⟩ := modified_eq_ok.mp h
  rcases modifiers_stop ts with ⟨tail, e, he⟩ | hm
  · rw [e, suffixed_bare he] at ho
    obtain ⟨rfl, rfl⟩ := Prod.mk.inj (Except.ok.inj ho)
    have hf := endsOperand_iff.mp he
    exact ⟨modifiers_shape _ .unknown, fun e => absurd (hf _ e) (by decide),
      fun e => absurd (hf _ e) (by decide)⟩
  · have hp' : ∀ u ∈ (modifiers ts).2, P u := fun u hu => hp u ((modifiers_suffix ts).subset hu)
    obtain ⟨ho, hr⟩ := hs.suffixed hp' ho fun e => (hm _ e).1 rfl
    exact ⟨modifiers_shape _ ho, hr⟩

/-- Only three points make an operand variadic. -/
theorem modified_ne_variadic (hs : Shaping P n union function) {t u : TypeExpr}
    (hp : ∀ u ∈ ts, P u) (he : ts.head? ≠ some .ellipsis)
    (h : TypeExpr.modified union function ts = .ok (t, rest)) : t ≠ .variadic u := by
  obtain ⟨operand, ho, rfl⟩ := modified_eq_ok.mp h
  have operand_ne {v : TypeExpr} (h : Shape P .suffixed v) : v ≠ .variadic u := by
    rintro rfl
    cases h with
    | suffixed h => cases h
  cases ts with
  | nil => cases ho
  | cons w ts =>
    rcases modifiers_cons w ts with hw | ⟨rfl, hq⟩ | ⟨-, m, hv, hm⟩
    · rw [modifiers_operand hw] at ho ⊢
      exact operand_ne (hs.suffixed hp ho fun e => hw.1 (Option.some.inj e)).1
    · rw [modifiers_bare hq] at ho ⊢
      rw [suffixed_bare hq] at ho
      obtain ⟨rfl, -⟩ := Prod.mk.inj (Except.ok.inj ho)
      simp
    · rw [hm]
      cases m with
      | nullable => simp [Modifier.apply]
      | nonNullable => simp [Modifier.apply]
      | variadic => exact absurd (congrArg some (hv rfl)) he

theorem alternative (hs : Shaping P n union function) {t : TypeExpr} (hp : ∀ u ∈ ts, P u)
    (h : alternative union function ts = .ok (t, rest)) : Shape P .alternative t := by
  rcases alternative_eq_ok.mp h with ⟨inner, hm, rfl⟩ | ⟨hm, -⟩
  · exact .optional (hs.modified hp hm).1
  · exact .alternative (hs.modified hp hm).1

theorem alternatives (hs : Shaping P n union function) {seen es : List TypeExpr}
    (hp : ∀ u ∈ ts, P u)
    (h : Separated .pipe (fun _ => TypeExpr.alternative union function) seen ts es rest) :
    es ≠ [] ∧ ∀ e ∈ es, Shape P .alternative e :=
  ⟨h.ne_nil, h.forall_mem (fun h => (hs.toSound.alternative h).suffix)
    (fun hp h => hs.alternative hp h) hp⟩

/-- What an argument is made of, by its kind. -/
def ArgumentShape (P : Token → Prop) : Argument → Prop
  | .receiver t | .built t => Shape P .union t
  | .param t => Shape P .parameter t

theorem argument (hs : Shaping P n union function) {a : Argument} (hp : ∀ u ∈ ts, P u)
    (h : argument union function ts = .ok (a, rest)) : ArgumentShape P a := by
  have tail {u : Token} {ts : List Token} (h : ∀ v ∈ u :: ts, P v) : ∀ v ∈ ts, P v :=
    (List.forall_mem_cons.mp h).2
  rcases argument_eq_ok.mp h with ⟨_, t, rfl, hb, rfl⟩ | ⟨_, t, rfl, hu, rfl⟩ |
    ⟨_, t, rfl, hu, rfl⟩ | ⟨he, hn, t, hb, rfl⟩
  · rcases paramBody_eq_ok.mp hb with ⟨s, _, inner, rfl, ha, rfl⟩ | ⟨-, ha⟩
    · exact .labelledRest (tail hp _ List.mem_cons_self) (hs.alternative (tail (tail (tail hp))) ha)
    · exact .rest (hs.alternative (tail hp) ha)
  · exact hs.unionShape (tail (tail hp)) hu
  · exact hs.unionShape (tail (tail hp)) hu
  · rcases paramBody_eq_ok.mp hb with ⟨s, _, inner, rfl, ha, rfl⟩ | ⟨-, ha⟩
    · exact .labelled (hp _ List.mem_cons_self) (hn _ _ rfl) (hs.alternative (tail (tail hp)) ha)
    · refine .parameter (hs.alternative hp ha) fun u => ?_
      rcases alternative_eq_ok.mp ha with ⟨inner, hm, rfl⟩ | ⟨hm, -⟩
      · exact ⟨by simp, fun e => hs.modified_ne_variadic hp he hm (TypeExpr.optional.inj e)⟩
      · refine ⟨hs.modified_ne_variadic hp he hm, ?_⟩
        rintro rfl
        cases (hs.modified hp hm).1 with
        | modified h => cases h with
          | suffixed h => cases h

theorem arguments (hs : Shaping P n union function) {seen args : List Argument}
    (hp : ∀ u ∈ ts, P u)
    (h : Separated .comma (fun _ => TypeExpr.argument union function) seen ts args rest) :
    ∀ a ∈ args, ArgumentShape P a :=
  h.forall_mem (fun h => (hs.toSound.argument h).suffix) (fun hp h => hs.argument hp h) hp

theorem ofArguments_shape {args : List Argument} (h : ∀ a ∈ args, ArgumentShape P a) :
    (∀ p ∈ args.filterMap Argument.param?, Shape P .parameter p) ∧
      (∀ t ∈ (args.filterMap Argument.receiver?).getLast?, Shape P .union t) ∧
      ∀ t ∈ (args.filterMap Argument.built?).getLast?, Shape P .union t := by
  refine ⟨fun p hp => ?_, fun t ht => ?_, fun t ht => ?_⟩
  · obtain ⟨a, ha, e⟩ := List.mem_filterMap.mp hp
    cases a with
    | param => cases e; exact h _ ha
    | _ => cases e
  · obtain ⟨a, ha, e⟩ := List.mem_filterMap.mp (List.mem_of_getLast? ht)
    cases a with
    | receiver => cases e; exact h _ ha
    | _ => cases e
  · obtain ⟨a, ha, e⟩ := List.mem_filterMap.mp (List.mem_of_getLast? ht)
    cases a with
    | built => cases e; exact h _ ha
    | _ => cases e

theorem signature (hs : Shaping P n union function) {t : TypeExpr} (hp : ∀ u ∈ ts, P u)
    (h : signature union function (.name "function" :: .openParen :: ts) = .ok (t, rest)) :
    Unmarked P t rest := by
  obtain ⟨args, mid, ha, hr⟩ := signature_eq_ok.mp h
  obtain ⟨hargs, hsub⟩ : (∀ a ∈ args, ArgumentShape P a) ∧ .closeParen :: mid ⊆ ts := by
    rcases arguments_eq_ok.mp ha with ⟨e, -, rfl⟩ | ⟨-, ha⟩
    · exact ⟨by simp, by rw [← e]; exact fun _ hu => hu⟩
    · have ha := Separated.of_separated ha
      exact ⟨hs.arguments hp ha, (hs.toSound.arguments ha).suffix.subset⟩
  obtain ⟨hparams, hreceiver, hbuilt⟩ := ofArguments_shape hargs
  rcases hr with ⟨tail, r, rfl, hr, rfl⟩ | ⟨-, rfl, rfl⟩
  · have hp' : ∀ u ∈ tail, P u := fun u hu =>
      hp u (hsub (List.mem_cons_of_mem _ (List.mem_cons_of_mem _ hu)))
    obtain ⟨hresult, hq, hb⟩ := hs.modified hp' hr
    exact .inr ⟨.function hparams hreceiver hbuilt hresult, hq, hb⟩
  · exact .inl (.procedure hparams hreceiver hbuilt)

end Shaping

theorem unionOf_shape {P : Token → Prop} {es : List TypeExpr} (hne : es ≠ [])
    (h : ∀ e ∈ es, Shape P .alternative e) : Shape P .union (unionOf es) := by
  match es with
  | [] => exact absurd rfl hne
  | [t] => exact .single (h t List.mem_cons_self)
  | t :: u :: es => exact .union (by simp) h

theorem nested_shaping (P : Token → Prop) (n : Nat) :
    Shaping P n (nested n .union) (nested n .function) := by
  induction n with
  | zero =>
    refine ⟨nested_sound 0, ?_, ?_⟩
    · intro _ _ _ _ h
      cases h
    · intro _ _ _ _ h
      cases h
  | succ n ih =>
    refine ⟨nested_sound (n + 1), ?_, ?_⟩
    · intro _ _ _ hp h
      obtain ⟨es, hs, rfl⟩ := nested_union_eq_ok.mp h
      obtain ⟨hne, hes⟩ := ih.alternatives hp (.of_separated hs)
      exact unionOf_shape hne hes
    · intro _ _ _ hp h
      exact ih.signature hp h

/-- Whatever is read has the shape of a union. -/
theorem ofTokens_shape {P : Token → Prop} {levels : Nat} {tokens : List Token} {t : TypeExpr}
    (hp : ∀ u ∈ tokens, P u) (h : ofTokens levels tokens = .ok t) : Shape P .union t := by
  by_cases hts : tokens = []
  · subst tokens
    obtain rfl := Except.ok.inj h
    exact .single (.alternative (.modified (.suffixed (.record (by simp) (by simp)))))
  · exact (nested_shaping P levels).unionShape hp ((ofTokens_eq_ok hts).mp h)

end DocComment.TypeExpr
