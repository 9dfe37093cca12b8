import DocComment.Proofs.TypeExpr.Reader

/-!
Relations between readers. All readers are put together from smaller ones in a few ways. A
relation that each of these keeps holds between the readers of every level.
-/

namespace DocComment.TypeExpr

variable {α β : Type}

/-- Some tokens are taken, and what follows is read by a reader of their own. Before all others
stands one and the same reader. -/
def decided (taken : Token → Option (Reader α)) (other : Reader α) : Reader α
  | [] => other []
  | t :: ts => (taken t).elim (other (t :: ts)) fun reader => reader ts

/-- One token is taken. -/
def only (token : Token) (reader : Reader α) (t : Token) : Option (Reader α) :=
  if t = token then some reader else none

/-- The two marks that open a generic are not told apart, and where a closing parenthesis is
taken, the end of the tokens is an error. -/
structure Fair (taken : Token → Option (Reader α)) (other : Reader α) : Prop where
  angle : taken .dotLess = taken .less
  close : taken .closeParen = none ∨ ∃ f, other [] = .error f

/-- A relation that is kept where readers are put together. -/
structure Congruence (R : {α : Type} → Reader α → Reader α → Prop) : Prop where
  pure {α : Type} (a : α) : R (fun ts => .ok (a, ts)) fun ts => .ok (a, ts)
  fail {α : Type} (cause : Cause) :
    R (α := α) (fun ts => .error ⟨cause, ts⟩) fun ts => .error ⟨cause, ts⟩
  bind {α β : Type} {r r' : Reader α} {f f' : α × List Token → Except Failure (β × List Token)} :
    R r r' → (∀ a, R (fun ts => f (a, ts)) fun ts => f' (a, ts)) →
      R (fun ts => r ts >>= f) fun ts => r' ts >>= f'
  first {α : Type} {taken taken' : Token → Option (Reader α)} {other other' : Reader α} :
    Fair taken other → (∀ t, Option.Rel R (taken t) (taken' t)) → R other other' →
      R (decided taken other) (decided taken' other')
  peek {α : Type} {r r' other other' : Reader α} :
    (∃ f, other [] = .error f) → R r r' → R other other' →
      R (fun ts => if ts.head? = some .closeParen then r ts else other ts)
        fun ts => if ts.head? = some .closeParen then r' ts else other' ts
  separated {α : Type} {separator : Token} {item item' : List α → Reader α} :
    separator = .comma ∨ separator = .pipe → (∀ seen, R (item seen) (item' seen)) →
      R (separated separator item) (separated separator item')
  brackets (t : TypeExpr) : R (brackets t) (brackets t)
  marks (t : TypeExpr) : R (fun ts => .ok (marks t ts)) fun ts => .ok (marks t ts)
  modified {union union' function function' : Reader TypeExpr} :
    R (suffixed union function) (suffixed union' function') →
      R (modified union function) (modified union' function')

/-- The reader of functions, where it is called. -/
def called (function : Reader TypeExpr) : Reader TypeExpr :=
  fun ts => function (.name "function" :: .openParen :: ts)

/-! ### Readers that are told by their first token -/

theorem eq_decided {reader taken other : Reader α} {token : Token}
    (htoken : ∀ ts, reader (token :: ts) = taken ts)
    (hother : ∀ ts, ts.head? ≠ some token → reader ts = other ts) :
    reader = decided (only token taken) other := by
  funext ts
  cases ts with
  | nil => exact hother [] (by simp)
  | cons t ts =>
    by_cases h : t = token
    · simp [decided, only, h, htoken]
    · simp [decided, only, h, hother (t :: ts) (by simpa using h)]

theorem expect_bind (token : Token) (cause : Cause) (reader : Reader α) :
    (fun ts => expect token cause ts >>= reader) =
      decided (only token reader) fun ts => .error ⟨cause, ts⟩ := by
  apply eq_decided
  · intro ts
    simp [expect, bind, Except.bind]
  · intro ts ht
    cases ts with
    | nil => rfl
    | cons t ts =>
      rw [expect, if_neg (by simpa using ht)]
      rfl

theorem colon_decided (reader : Reader TypeExpr) (f : Option TypeExpr → TypeExpr) :
    (fun ts => match (motive := List Token → Except Failure (TypeExpr × List Token)) ts with
      | .colon :: tail => do
        let (v, ts) ← reader tail
        return (f (some v), ts)
      | ts => return (f none, ts)) =
      decided (only .colon fun ts => do
        let (v, ts) ← reader ts
        return (f (some v), ts)) fun ts => .ok (f none, ts) := by
  apply eq_decided
  · exact fun _ => rfl
  · intro ts ht
    split
    · exact absurd rfl ht
    · rfl

theorem equals_decided (t : TypeExpr) :
    (fun ts => match (motive := List Token → Except Failure (TypeExpr × List Token)) ts with
      | .equals :: rest => return (.optional t, rest)
      | ts => return (t, ts)) =
      decided (only .equals fun ts => .ok (.optional t, ts)) fun ts => .ok (t, ts) := by
  apply eq_decided
  · exact fun _ => rfl
  · intro ts ht
    split
    · exact absurd rfl ht
    · rfl

theorem recordKey_decided :
    recordKey = decided (fun t => t.key?.map fun key ts => .ok (key, ts))
      fun ts => .error ⟨.malformedKey, ts⟩ := by
  funext ts
  cases ts with
  | nil => rfl
  | cons t ts =>
    rw [recordKey_cons, decided]
    cases t.key? <;> rfl

section

variable (union function : Reader TypeExpr)

theorem recordBody_decided :
    recordBody union = decided (only .closeBrace fun ts => .ok (.record [], ts)) fun ts => (do
      let (fields, ts) ← separated .comma (recordEntry union) ts
      let ts ← expect .closeBrace .unclosedRecord ts
      return (.record fields, ts)) := by
  apply eq_decided
  · exact fun _ => rfl
  · intro ts ht
    exact recordBody.eq_2 union ts fun _ e => ht (by rw [e]; rfl)

/-- What a primary makes of a name, by the token behind it. -/
def nameTable (s : String) : Token → Option (Reader TypeExpr)
  | .less | .dotLess => some (genericBody union s)
  | .openParen => if s = "function" then some (called function) else none
  | _ => none

theorem primary_name_decided (s : String) :
    (fun ts => primary union function (.name s :: ts)) =
      decided (nameTable union function s) fun ts => .ok (.name s, ts) := by
  funext ts
  cases ts with
  | nil => rfl
  | cons t ts =>
    cases t with
    | openParen =>
      simp only [primary, decided, nameTable]
      by_cases hs : s = "function"
      · subst s
        rfl
      · rw [if_neg hs, if_neg hs]
        rfl
    | _ => rfl

def primaryTable : Token → Option (Reader TypeExpr)
  | .name s => some fun ts => primary union function (.name s :: ts)
  | .star => some fun ts => .ok (.all, ts)
  | .question => some fun ts => .ok (.unknown, ts)
  | .string s | .number s => some fun ts => .ok (.literal s, ts)
  | .openBrace => some (recordBody union)
  | .openParen => some (groupBody union)
  | _ => none

theorem primary_decided :
    primary union function =
      decided (primaryTable union function) fun ts => .error ⟨.expectedType, ts⟩ := by
  funext ts
  cases ts with
  | nil => rfl
  | cons t ts => cases t <;> rfl

theorem paramBody_name_decided (s : String) :
    (fun ts => paramBody union function (.name s :: ts)) =
      decided (only .colon fun ts => (do
        let (t, ts) ← alternative union function ts
        return (.parameter s t, ts)))
        fun ts => alternative union function (.name s :: ts) := by
  apply eq_decided
  · exact fun _ => rfl
  · intro ts ht
    exact paramBody.eq_2 union function _ fun _ _ e => ht (by rw [(List.cons.inj e).2]; rfl)

def paramTable : Token → Option (Reader TypeExpr)
  | .name s => some fun ts => paramBody union function (.name s :: ts)
  | _ => none

theorem paramBody_decided :
    paramBody union function =
      decided (paramTable union function) (alternative union function) := by
  funext ts
  cases ts with
  | nil => rfl
  | cons t ts => cases t <;> rfl

theorem argument_name_decided (s : String) :
    (fun ts => argument union function (.name s :: ts)) =
      decided (only .colon fun ts => argument union function (.name s :: .colon :: ts))
        fun ts => (do
          let (t, ts) ← paramBody union function (.name s :: ts)
          return (.param t, ts)) := by
  apply eq_decided
  · exact fun _ => rfl
  · intro ts ht
    exact argument.eq_3 union function _ (fun _ e => by cases e) fun _ _ e =>
      ht (by rw [(List.cons.inj e).2]; rfl)

def argumentTable : Token → Option (Reader Argument)
  | .name s => some fun ts => argument union function (.name s :: ts)
  | .ellipsis => some fun ts => (do
      let (t, ts) ← paramBody union function ts
      return (.param (.variadic t), ts))
  | _ => none

theorem argument_decided :
    argument union function = decided (argumentTable union function) fun ts => (do
      let (t, ts) ← paramBody union function ts
      return (.param t, ts)) := by
  funext ts
  cases ts with
  | nil => rfl
  | cons t ts => cases t <;> rfl

theorem arguments_peek :
    arguments union function = fun ts =>
      if ts.head? = some .closeParen then .ok ([], ts)
      else separated .comma (fun _ => argument union function) ts := by
  funext ts
  cases ts with
  | nil => rfl
  | cons t ts => cases t <;> rfl

end

/-! ### The readers of a level, from those of the level below -/

namespace Congruence

variable {R : {α : Type} → Reader α → Reader α → Prop} (h : Congruence R)
include h

theorem build {r r' : Reader α} (hr : R r r') (f : α → β) :
    R (fun ts => (do
      let (a, ts) ← r ts
      return (f a, ts) : Except Failure (β × List Token))) fun ts => (do
      let (a, ts) ← r' ts
      return (f a, ts)) :=
  h.bind hr fun a => h.pure (f a)

theorem choose {taken taken' other other' : Reader α} (token : Token)
    (hfair : Fair (only token taken) other) (ht : R taken taken') (ho : R other other') :
    R (decided (only token taken) other) (decided (only token taken') other') := by
  refine h.first hfair (fun t => ?_) ho
  unfold only
  split
  · exact .some ht
  · exact .none

/-- A closing token is taken, or its lack is an error. -/
theorem expect {r r' : Reader α} {token : Token} (hangle : token ≠ .less ∧ token ≠ .dotLess)
    (cause : Cause) (hr : R r r') :
    R (fun ts => expect token cause ts >>= r) fun ts => TypeExpr.expect token cause ts >>= r' := by
  rw [expect_bind, expect_bind]
  refine h.choose token ⟨?_, .inr ⟨_, rfl⟩⟩ hr (h.fail cause)
  simp [only, hangle.1.symm, hangle.2.symm]

theorem closed {r r' : Reader α} (hr : R r r') {token : Token}
    (hangle : token ≠ .less ∧ token ≠ .dotLess) (cause : Cause) (f : α → β) :
    R (fun ts => (do
      let (a, ts) ← r ts
      let ts ← TypeExpr.expect token cause ts
      return (f a, ts) : Except Failure (β × List Token))) fun ts => (do
      let (a, ts) ← r' ts
      let ts ← TypeExpr.expect token cause ts
      return (f a, ts)) :=
  h.bind hr fun a => h.expect hangle cause (h.pure (f a))

theorem colon {r r' : Reader TypeExpr} (hr : R r r') (f : Option TypeExpr → TypeExpr) :
    R (fun ts => match (motive := List Token → Except Failure (TypeExpr × List Token)) ts with
      | .colon :: tail => do
        let (v, ts) ← r tail
        return (f (some v), ts)
      | ts => return (f none, ts))
      fun ts => match (motive := List Token → Except Failure (TypeExpr × List Token)) ts with
      | .colon :: tail => do
        let (v, ts) ← r' tail
        return (f (some v), ts)
      | ts => return (f none, ts) := by
  rw [colon_decided, colon_decided]
  exact h.choose .colon ⟨rfl, .inl rfl⟩ (h.build hr fun v => f (some v)) (h.pure (f none))

theorem optional (t : TypeExpr) :
    R (fun ts => match (motive := List Token → Except Failure (TypeExpr × List Token)) ts with
      | .equals :: rest => return (.optional t, rest)
      | ts => return (t, ts))
      fun ts => match (motive := List Token → Except Failure (TypeExpr × List Token)) ts with
      | .equals :: rest => return (.optional t, rest)
      | ts => return (t, ts) := by
  rw [equals_decided]
  exact h.choose .equals ⟨rfl, .inl rfl⟩ (h.pure (TypeExpr.optional t)) (h.pure t)

theorem recordKey : R recordKey recordKey := by
  rw [recordKey_decided]
  refine h.first ⟨rfl, .inl rfl⟩ (fun t => ?_) (h.fail .malformedKey)
  cases t.key? with
  | none => exact .none
  | some key => exact .some (h.pure key)

variable {union union' function function' : Reader TypeExpr} (hu : R union union')
  (hf : R (called function) (called function'))

section

include hu

theorem recordEntry (seen : List TypeExpr) :
    R (recordEntry union seen) (recordEntry union' seen) := by
  refine h.bind h.recordKey fun key => ?_
  by_cases hseen : seen.any (fun entry => entryKey entry == some key)
  · simp only [hseen, if_true]
    exact h.fail (.duplicateKey key)
  · simp only [hseen]
    exact h.colon hu (TypeExpr.field key)

theorem recordBody : R (recordBody union) (recordBody union') := by
  rw [recordBody_decided, recordBody_decided]
  have hentries := h.separated (.inl rfl) (h.recordEntry hu)
  exact h.choose .closeBrace ⟨rfl, .inl rfl⟩ (h.pure (TypeExpr.record []))
    (h.closed hentries (by simp) .unclosedRecord TypeExpr.record)

theorem genericBody (s : String) : R (genericBody union s) (genericBody union' s) :=
  h.closed (h.separated (.inl rfl) fun _ => hu) (by simp) (.unclosedGeneric s)
    (TypeExpr.generic s)

theorem groupBody : R (groupBody union) (groupBody union') :=
  h.closed hu (by simp) .unclosedParen TypeExpr.group

end

include hu hf

theorem primary_name (s : String) :
    R (fun ts => primary union function (.name s :: ts))
      fun ts => primary union' function' (.name s :: ts) := by
  rw [primary_name_decided, primary_name_decided]
  refine h.first ⟨rfl, .inl rfl⟩ (fun t => ?_) (h.pure (TypeExpr.name s))
  cases t with
  | less | dotLess => exact .some (h.genericBody hu s)
  | openParen =>
    simp only [nameTable]
    split
    · exact .some hf
    · exact .none
  | _ => exact .none

theorem primary : R (primary union function) (primary union' function') := by
  rw [primary_decided, primary_decided]
  refine h.first ⟨rfl, .inl rfl⟩ (fun t => ?_) (h.fail .expectedType)
  cases t with
  | name s => exact .some (h.primary_name hu hf s)
  | star => exact .some (h.pure TypeExpr.all)
  | question => exact .some (h.pure TypeExpr.unknown)
  | string s | number s => exact .some (h.pure (TypeExpr.literal s))
  | openBrace => exact .some (h.recordBody hu)
  | openParen => exact .some (h.groupBody hu)
  | _ => exact .none

omit hu hf in
theorem suffixes (p : TypeExpr) :
    R (fun ts => (do
      let (t, ts) ← TypeExpr.brackets p ts
      return TypeExpr.marks t ts)) fun ts => (do
      let (t, ts) ← TypeExpr.brackets p ts
      return TypeExpr.marks t ts) :=
  h.bind (h.brackets p) fun t => h.marks t

theorem suffixed : R (suffixed union function) (suffixed union' function') :=
  h.bind (h.primary hu hf) h.suffixes

theorem alternative : R (alternative union function) (alternative union' function') :=
  h.bind (h.modified (h.suffixed hu hf)) h.optional

/-- A name is no modifier, so what is behind it may be looked at. -/
theorem alternative_name (s : String) :
    R (fun ts => TypeExpr.alternative union function (.name s :: ts))
      fun ts => TypeExpr.alternative union' function' (.name s :: ts) := by
  have hoperand (u f : Reader TypeExpr) (ts : List Token) :
      TypeExpr.modified u f (.name s :: ts) = TypeExpr.suffixed u f (.name s :: ts) :=
    modified_unmodified rfl
  simp only [TypeExpr.alternative, hoperand]
  exact h.bind (h.bind (h.primary_name hu hf s) h.suffixes) h.optional

theorem paramBody_name (s : String) :
    R (fun ts => paramBody union function (.name s :: ts))
      fun ts => paramBody union' function' (.name s :: ts) := by
  rw [paramBody_name_decided, paramBody_name_decided]
  exact h.choose .colon ⟨rfl, .inl rfl⟩ (h.build (h.alternative hu hf) (TypeExpr.parameter s))
    (h.alternative_name hu hf s)

theorem paramBody : R (paramBody union function) (paramBody union' function') := by
  rw [paramBody_decided, paramBody_decided]
  refine h.first ⟨rfl, .inl rfl⟩ (fun t => ?_) (h.alternative hu hf)
  cases t with
  | name s => exact .some (h.paramBody_name hu hf s)
  | _ => exact .none

theorem argument_colon (s : String) :
    R (fun ts => argument union function (.name s :: .colon :: ts))
      fun ts => argument union' function' (.name s :: .colon :: ts) := by
  simp only [TypeExpr.argument]
  by_cases hthis : s = "this"
  · simp only [hthis, if_true]
    exact h.build hu Argument.receiver
  · by_cases hnew : s = "new"
    · simp only [hnew, if_true]
      exact h.build hu Argument.built
    · simp only [hthis, hnew, if_false]
      exact h.build (h.build (h.alternative hu hf) (TypeExpr.parameter s)) Argument.param

theorem argument : R (argument union function) (argument union' function') := by
  rw [argument_decided, argument_decided]
  have hparam := h.build (h.paramBody hu hf) Argument.param
  refine h.first ⟨rfl, .inl rfl⟩ (fun t => ?_) hparam
  cases t with
  | name s =>
    refine .some ?_
    rw [argument_name_decided, argument_name_decided]
    exact h.choose .colon ⟨rfl, .inl rfl⟩ (h.argument_colon hu hf s)
      (h.build (h.paramBody_name hu hf s) Argument.param)
  | ellipsis => exact .some (h.build (h.paramBody hu hf) fun t => Argument.param (.variadic t))
  | _ => exact .none

theorem arguments : R (arguments union function) (arguments union' function') := by
  rw [arguments_peek, arguments_peek]
  exact h.peek ⟨_, rfl⟩ (h.pure []) (h.separated (.inl rfl) fun _ => h.argument hu hf)

theorem signature : R (called (signature union function)) (called (signature union' function')) :=
  h.bind (h.arguments hu hf) fun args =>
    h.expect (by simp) .unclosedSignature
      (h.colon (h.modified (h.suffixed hu hf)) (ofArguments args))

omit hu hf in
/-- Where the relation holds when no level is left, it holds with so many levels more. -/
theorem nested {k : Nat} (hu : R (nested 0 .union) (nested k .union))
    (hf : R (called (nested 0 .function)) (called (nested k .function))) (n : Nat) :
    R (nested n .union) (nested (n + k) .union) ∧
      R (called (nested n .function)) (called (nested (n + k) .function)) := by
  induction n with
  | zero => simpa using ⟨hu, hf⟩
  | succ n ih =>
    obtain ⟨ihu, ihf⟩ := ih
    rw [Nat.succ_add]
    refine ⟨?_, h.signature ihu ihf⟩
    exact h.build (h.separated (.inr rfl) fun _ => h.alternative ihu ihf) unionOf

end Congruence

end DocComment.TypeExpr
