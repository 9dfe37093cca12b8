import DocComment.Proofs.TypeExpr.Shape

/-!
How deep a type expression nests, and how deep what was read may nest. Groups, generics and
functions open a level for what stands in them, and so do fields and bindings for their types.
A union opens none of its own: it takes the level that it stands in. Reading keeps to its levels
except for arrays, which become generics without opening any.
-/

namespace DocComment.TypeExpr

mutual

/-- The levels that are open at once within a type, the one it stands in left out. -/
def nesting : TypeExpr → Nat
  | .name _ | .all | .unknown | .literal _ => 0
  | .union elements => nestingEach elements
  | .group inner => nesting inner + 1
  | .optional inner | .nullable inner _ | .nonNullable inner _ | .variadic inner
  | .parameter _ inner => nesting inner
  | .generic _ params => nestingEach params + 1
  | .field _ value => nestingWithin value
  | .record fields => nestingEach fields
  | .function params result receiver built =>
    max (max (nestingEach params) (nestingAfter result))
      (max (nestingWithin receiver) (nestingWithin built)) + 1

def nestingEach : List TypeExpr → Nat
  | [] => 0
  | t :: ts => max (nesting t) (nestingEach ts)

def nestingAfter : Option TypeExpr → Nat
  | none => 0
  | some t => nesting t

def nestingWithin : Option TypeExpr → Nat
  | none => 0
  | some t => nesting t + 1

end

theorem nestingEach_le_iff {ts : List TypeExpr} {n : Nat} :
    nestingEach ts ≤ n ↔ ∀ t ∈ ts, nesting t ≤ n := by
  induction ts with
  | nil => simp [nestingEach]
  | cons t ts ih => rw [nestingEach, Nat.max_le, ih, List.forall_mem_cons]

theorem nestingAfter_le_iff {o : Option TypeExpr} {n : Nat} :
    nestingAfter o ≤ n ↔ ∀ t ∈ o, nesting t ≤ n := by
  cases o <;> simp [nestingAfter]

theorem nestingWithin_le_iff {o : Option TypeExpr} {n : Nat} :
    nestingWithin o ≤ n ↔ ∀ t ∈ o, nesting t < n := by
  cases o with
  | none => simp [nestingWithin]
  | some t =>
    rw [nestingWithin, Nat.succ_le_iff]
    simp

theorem nesting_function_le_iff {params : List TypeExpr}
    {result receiver built : Option TypeExpr} {n : Nat} :
    nesting (.function params result receiver built) ≤ n + 1 ↔
      (∀ p ∈ params, nesting p ≤ n) ∧ (∀ t ∈ result, nesting t ≤ n) ∧
        (∀ t ∈ receiver, nesting t < n) ∧ ∀ t ∈ built, nesting t < n := by
  rw [nesting, Nat.add_le_add_iff_right, Nat.max_le, Nat.max_le, Nat.max_le, nestingEach_le_iff,
    nestingAfter_le_iff, nestingWithin_le_iff, nestingWithin_le_iff, and_assoc]

mutual

theorem nesting_le_sizeOf : (t : TypeExpr) → nesting t ≤ sizeOf t
  | .name _ | .all | .unknown | .literal _ => by
    rw [nesting]
    exact Nat.zero_le _
  | .union elements => by
    have := nestingEach_le_sizeOf elements
    rw [nesting, TypeExpr.union.sizeOf_spec]
    omega
  | .group inner | .optional inner | .nullable inner _ | .nonNullable inner _ | .variadic inner
  | .parameter _ inner => by
    have := nesting_le_sizeOf inner
    simp only [nesting, TypeExpr.group.sizeOf_spec, TypeExpr.optional.sizeOf_spec,
      TypeExpr.nullable.sizeOf_spec, TypeExpr.nonNullable.sizeOf_spec,
      TypeExpr.variadic.sizeOf_spec, TypeExpr.parameter.sizeOf_spec]
    omega
  | .generic _ params => by
    have := nestingEach_le_sizeOf params
    rw [nesting, TypeExpr.generic.sizeOf_spec]
    omega
  | .field _ value => by
    have := nestingWithin_le_sizeOf value
    rw [nesting, TypeExpr.field.sizeOf_spec]
    omega
  | .record fields => by
    have := nestingEach_le_sizeOf fields
    rw [nesting, TypeExpr.record.sizeOf_spec]
    omega
  | .function params result receiver built => by
    have := nestingEach_le_sizeOf params
    have := nestingAfter_le_sizeOf result
    have := nestingWithin_le_sizeOf receiver
    have := nestingWithin_le_sizeOf built
    rw [nesting, TypeExpr.function.sizeOf_spec]
    omega

theorem nestingEach_le_sizeOf : (ts : List TypeExpr) → nestingEach ts ≤ sizeOf ts
  | [] => Nat.zero_le _
  | t :: ts => by
    have := nesting_le_sizeOf t
    have := nestingEach_le_sizeOf ts
    rw [nestingEach, List.cons.sizeOf_spec]
    omega

theorem nestingAfter_le_sizeOf : (o : Option TypeExpr) → nestingAfter o ≤ sizeOf o
  | none => Nat.zero_le _
  | some t => by
    have := nesting_le_sizeOf t
    rw [nestingAfter, Option.some.sizeOf_spec]
    omega

theorem nestingWithin_le_sizeOf : (o : Option TypeExpr) → nestingWithin o ≤ sizeOf o
  | none => Nat.zero_le _
  | some t => by
    have := nesting_le_sizeOf t
    rw [nestingWithin, Option.some.sizeOf_spec]
    omega

end

theorem nesting_unionOf (es : List TypeExpr) : nesting (unionOf es) = nestingEach es := by
  match es with
  | [] => rw [unionOf, nesting]; simp
  | [t] => rw [unionOf, nestingEach, nestingEach, Nat.max_zero]
  | t :: u :: es => rw [unionOf, nesting]; simp

theorem nesting_marks {p t : TypeExpr} {ts rest : List Token} (h : marks p ts = (t, rest)) :
    nesting t = nesting p := by
  fun_induction marks p ts with
  | case1 p tail ih => rw [ih h, nesting]
  | case2 p tail ih => rw [ih h, nesting]
  | case3 =>
    obtain ⟨rfl, -⟩ := Prod.mk.inj h
    rfl

theorem nesting_apply (m : Modifier) (t : TypeExpr) : nesting (m.apply t) = nesting t := by
  cases m <;> rw [Modifier.apply, nesting]

theorem nesting_modifiers (ms : List Modifier) (t : TypeExpr) :
    nesting (ms.foldr Modifier.apply t) = nesting t := by
  induction ms with
  | nil => rfl
  | cons m ms ih => rw [List.foldr_cons, nesting_apply, ih]

/-- A binding opens a level for its type, and a parameter does not. -/
def Argument.nesting : Argument → Nat
  | .receiver t | .built t => t.nesting + 1
  | .param t => t.nesting

theorem nesting_ofArguments_le {args : List Argument} {result : Option TypeExpr} {n : Nat}
    (ha : ∀ a ∈ args, a.nesting ≤ n) (hr : ∀ t ∈ result, nesting t ≤ n) :
    nesting (ofArguments args result) ≤ n + 1 := by
  refine nesting_function_le_iff.mpr ⟨fun p hp => ?_, hr, fun t ht => ?_, fun t ht => ?_⟩
  · obtain ⟨a, hm, e⟩ := List.mem_filterMap.mp hp
    cases a with
    | param => cases e; exact ha _ hm
    | _ => cases e
  · obtain ⟨a, hm, e⟩ := List.mem_filterMap.mp (List.mem_of_getLast? ht)
    cases a with
    | receiver => cases e; exact ha _ hm
    | _ => cases e
  · obtain ⟨a, hm, e⟩ := List.mem_filterMap.mp (List.mem_of_getLast? ht)
    cases a with
    | built => cases e; exact ha _ hm
    | _ => cases e

/-- The brackets that open in some tokens. -/
abbrev opened (ts : List Token) : Nat := ts.count .openBracket

theorem opened_le_of_suffix {ts rest : List Token} (h : rest <:+ ts) : opened rest ≤ opened ts :=
  h.sublist.count_le _

/-- What was read between two token lists nests so deep at most, not counting the arrays. -/
def Fits (n depth : Nat) (ts rest : List Token) : Prop := depth + opened rest ≤ n + opened ts

theorem Fits.of_suffix {n depth : Nat} {ts more rest after : List Token}
    (h : Fits n depth ts rest) (hts : ts <:+ more) (hrest : after <:+ rest) :
    Fits n depth more after := by
  have := opened_le_of_suffix hts
  have := opened_le_of_suffix hrest
  unfold Fits at h ⊢
  omega

theorem fits_each {n : Nat} {ts rest : List Token} {items : List TypeExpr} (hs : rest <:+ ts)
    (h : ∀ t ∈ items, Fits n (nesting t) ts rest) : Fits n (nestingEach items) ts rest := by
  have := opened_le_of_suffix hs
  have hle : nestingEach items ≤ n + opened ts - opened rest :=
    nestingEach_le_iff.mpr fun t ht => Nat.le_sub_of_add_le (h t ht)
  unfold Fits
  omega

theorem fits_ofArguments {n : Nat} {ts rest : List Token} {args : List Argument}
    {result : Option TypeExpr} (hs : rest <:+ ts) (ha : ∀ a ∈ args, Fits n a.nesting ts rest)
    (hr : ∀ t ∈ result, Fits n (nesting t) ts rest) :
    Fits (n + 1) (nesting (ofArguments args result)) ts rest := by
  have := opened_le_of_suffix hs
  have hle : nesting (ofArguments args result) ≤ n + opened ts - opened rest + 1 :=
    nesting_ofArguments_le (fun a hm => Nat.le_sub_of_add_le (ha a hm))
      fun t ht => Nat.le_sub_of_add_le (hr t ht)
  unfold Fits
  omega

/-- Every item of a run fits, if each of them fits by itself. -/
theorem Separated.fits {α : Type} {separator : Token} {item : List α → Reader α} {n : Nat}
    {depth : α → Nat} {seen xs : List α} {ts rest : List Token}
    (hsuffix : ∀ {seen ts x rest}, item seen ts = .ok (x, rest) → rest <:+ ts)
    (hitem : ∀ {seen ts x rest}, item seen ts = .ok (x, rest) → Fits n (depth x) ts rest)
    (h : Separated separator item seen ts xs rest) :
    rest <:+ ts ∧ ∀ x ∈ xs, Fits n (depth x) ts rest := by
  induction h with
  | last h => exact ⟨hsuffix h, by simpa using hitem h⟩
  | more h _ ih =>
    obtain ⟨hrest, hxs⟩ := ih
    have hmid := (List.suffix_cons _ _).trans (hsuffix h)
    refine ⟨hrest.trans hmid, List.forall_mem_cons.mpr ⟨?_, fun y hy => ?_⟩⟩
    · exact (hitem h).of_suffix List.suffix_rfl (hrest.trans (List.suffix_cons _ _))
    · exact (hxs y hy).of_suffix hmid List.suffix_rfl

/-- Each pair of brackets nests what stands before it once more. -/
theorem brackets_fits {n : Nat} {p t : TypeExpr} {ts mid rest : List Token}
    (hp : Fits n (nesting p) ts mid) (h : brackets p mid = .ok (t, rest)) :
    Fits n (nesting t) ts rest := by
  obtain ⟨k, rfl, rfl, -⟩ := brackets_eq_ok.mp h
  clear h
  induction k generalizing p with
  | zero => exact hp
  | succ k ih =>
    have hcount : opened (arrays (k + 1) ++ rest) = opened (arrays k ++ rest) + 1 :=
      List.count_cons_self ..
    refine ih ?_
    rw [Fits, hcount] at hp
    rw [Fits, nesting, nestingEach, nestingEach, Nat.max_zero]
    omega

/-- What the readers of the next level are assumed to keep to. -/
structure Bounded (n : Nat) (union function : Reader TypeExpr) : Prop
    extends Sound n union function where
  unionFits {ts t rest} : union ts = .ok (t, rest) → Fits n (nesting t + 1) ts rest
  functionFits {ts t rest} : function (.name "function" :: .openParen :: ts) = .ok (t, rest) →
    Fits n (nesting t) ts rest

namespace Bounded

variable {n : Nat} {union function : Reader TypeExpr} {ts rest : List Token}

theorem types (hs : Bounded n union function) {seen params : List TypeExpr}
    (h : Separated .comma (fun _ => union) seen ts params rest) :
    Fits n (nestingEach params + 1) ts rest := by
  obtain ⟨-, hfits⟩ := h.fits (fun h => (hs.ofUnion h).suffix) hs.unionFits
  obtain ⟨p, hp⟩ := List.exists_mem_of_ne_nil params h.ne_nil
  have hroom : 1 + opened rest ≤ n + opened ts := by
    have := hfits p hp
    unfold Fits at this
    omega
  have hle : nestingEach params ≤ n + opened ts - opened rest - 1 :=
    nestingEach_le_iff.mpr fun q hq => by
      have := hfits q hq
      unfold Fits at this
      omega
  unfold Fits
  omega

theorem entry (hs : Bounded n union function) {seen : List TypeExpr} {f : TypeExpr}
    (h : recordEntry union seen ts = .ok (f, rest)) :
    rest <:+ ts ∧ Fits n (nesting f) ts rest := by
  obtain ⟨t, key, mid, ht, rfl, -, h⟩ := recordEntry_eq_ok.mp h
  rcases h with ⟨tail, v, rfl, hv, rfl⟩ | ⟨-, rfl, rfl⟩
  · have htail : tail <:+ t :: .colon :: tail :=
      (List.suffix_cons _ _).trans (List.suffix_cons _ _)
    refine ⟨(hs.ofUnion hv).suffix.trans htail, ?_⟩
    rw [nesting, nestingWithin]
    exact (hs.unionFits hv).of_suffix htail List.suffix_rfl
  · refine ⟨List.suffix_cons _ _, ?_⟩
    have := opened_le_of_suffix (List.suffix_cons t rest)
    rw [Fits, nesting, nestingWithin]
    omega

theorem primary (hs : Bounded n union function) {t : TypeExpr}
    (h : primary union function ts = .ok (t, rest)) : Fits n (nesting t) ts rest := by
  have word {u : Token} {t : TypeExpr} {rest : List Token} (ht : nesting t = 0) :
      Fits n (nesting t) (u :: rest) rest := by
    have := opened_le_of_suffix (List.suffix_cons u rest)
    rw [Fits, ht]
    omega
  cases PrimaryForm.of_primary h with
  | name | star | unknown | string | number => exact word (by rw [nesting])
  | called h =>
    exact (hs.functionFits h).of_suffix ((List.suffix_cons _ _).trans (List.suffix_cons _ _))
      List.suffix_rfl
  | generic s mark hm h =>
    rw [nesting]
    exact (hs.types (.of_separated h)).of_suffix
      ((List.suffix_cons _ _).trans (List.suffix_cons _ _)) (List.suffix_cons _ _)
  | emptyRecord =>
    have hbrace : Fits n (nesting (.record [])) (.closeBrace :: rest) rest := word rfl
    exact hbrace.of_suffix (List.suffix_cons _ _) List.suffix_rfl
  | record h =>
    obtain ⟨hsuffix, hfits⟩ := (Separated.of_separated h).fits (fun h => (hs.entry h).1)
      (fun h => (hs.entry h).2)
    rw [nesting]
    exact (fits_each hsuffix hfits).of_suffix (List.suffix_cons _ _) (List.suffix_cons _ _)
  | group h =>
    rw [nesting]
    exact (hs.unionFits h).of_suffix (List.suffix_cons _ _) (List.suffix_cons _ _)

theorem modified (hs : Bounded n union function) {t : TypeExpr}
    (h : modified union function ts = .ok (t, rest)) : Fits n (nesting t) ts rest := by
  obtain ⟨operand, ho, rfl⟩ := modified_eq_ok.mp h
  obtain ⟨p, mid, hp, q, mid', hb, hm⟩ := suffixed_eq_ok.mp ho
  obtain ⟨ms, -, rfl, -⟩ := marks_eq hm
  rw [nesting_modifiers, nesting_marks hm]
  exact (brackets_fits (hs.primary hp) hb).of_suffix (modifiers_suffix ts) (List.suffix_append _ _)

theorem alternative (hs : Bounded n union function) {t : TypeExpr}
    (h : alternative union function ts = .ok (t, rest)) : Fits n (nesting t) ts rest := by
  rcases alternative_eq_ok.mp h with ⟨inner, hm, rfl⟩ | ⟨hm, -⟩
  · rw [nesting]
    exact (hs.modified hm).of_suffix List.suffix_rfl (List.suffix_cons _ _)
  · exact hs.modified hm

theorem paramBody (hs : Bounded n union function) {t : TypeExpr}
    (h : paramBody union function ts = .ok (t, rest)) : Fits n (nesting t) ts rest := by
  rcases paramBody_eq_ok.mp h with ⟨s, tail, inner, rfl, ha, rfl⟩ | ⟨-, ha⟩
  · rw [nesting]
    exact (hs.alternative ha).of_suffix ((List.suffix_cons _ _).trans (List.suffix_cons _ _))
      List.suffix_rfl
  · exact hs.alternative ha

theorem argument (hs : Bounded n union function) {a : Argument}
    (h : argument union function ts = .ok (a, rest)) : Fits n a.nesting ts rest := by
  have label {s : String} {tail : List Token} : tail <:+ .name s :: .colon :: tail :=
    (List.suffix_cons _ _).trans (List.suffix_cons _ _)
  rcases argument_eq_ok.mp h with ⟨tail, t, rfl, hp, rfl⟩ | ⟨tail, t, rfl, hu, rfl⟩ |
    ⟨tail, t, rfl, hu, rfl⟩ | ⟨-, -, t, hp, rfl⟩
  · rw [Argument.nesting, nesting]
    exact (hs.paramBody hp).of_suffix (List.suffix_cons _ _) List.suffix_rfl
  · exact (hs.unionFits hu).of_suffix label List.suffix_rfl
  · exact (hs.unionFits hu).of_suffix label List.suffix_rfl
  · exact hs.paramBody hp

theorem signature (hs : Bounded n union function) {t : TypeExpr}
    (h : signature union function (.name "function" :: .openParen :: ts) = .ok (t, rest)) :
    Fits (n + 1) (nesting t) ts rest := by
  obtain ⟨args, mid, ha, hr⟩ := signature_eq_ok.mp h
  obtain ⟨hmid, hargs⟩ : .closeParen :: mid <:+ ts ∧
      ∀ a ∈ args, Fits n a.nesting ts (.closeParen :: mid) := by
    rcases arguments_eq_ok.mp ha with ⟨e, -, rfl⟩ | ⟨-, ha⟩
    · exact ⟨by rw [← e]; exact List.suffix_rfl, by simp⟩
    · exact (Separated.of_separated ha).fits (fun h => (hs.toSound.argument h).suffix) hs.argument
  have hmid' : mid <:+ ts := (List.suffix_cons _ _).trans hmid
  rcases hr with ⟨tail, r, rfl, hr, rfl⟩ | ⟨-, rfl, rfl⟩
  · have htail : tail <:+ ts := (List.suffix_cons _ _).trans hmid'
    have hrest : rest <:+ tail := (hs.toSound.modified hr).suffix
    refine fits_ofArguments (hrest.trans htail) (fun a hm => ?_) ?_
    · exact (hargs a hm).of_suffix List.suffix_rfl
        (hrest.trans ((List.suffix_cons _ _).trans (List.suffix_cons _ _)))
    · simpa using (hs.modified hr).of_suffix htail List.suffix_rfl
  · refine fits_ofArguments hmid' (fun a hm => ?_) (by simp)
    exact (hargs a hm).of_suffix List.suffix_rfl (List.suffix_cons _ _)

end Bounded

theorem nested_bounded (n : Nat) : Bounded n (nested n .union) (nested n .function) := by
  induction n with
  | zero =>
    refine ⟨nested_sound 0, ?_, ?_⟩
    · intro _ _ _ h
      cases h
    · intro _ _ _ h
      cases h
  | succ n ih =>
    refine ⟨nested_sound (n + 1), ?_, ?_⟩
    · intro _ _ _ h
      obtain ⟨es, hes, rfl⟩ := nested_union_eq_ok.mp h
      obtain ⟨hsuffix, hfits⟩ := (Separated.of_separated hes).fits
        (fun h => (ih.toSound.alternative h).suffix) ih.alternative
      have hall := fits_each hsuffix hfits
      rw [nesting_unionOf]
      unfold Fits at hall ⊢
      omega
    · intro _ _ _ h
      exact ih.signature h

end DocComment.TypeExpr
