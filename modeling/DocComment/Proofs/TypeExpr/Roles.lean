import DocComment.Proofs.TypeExpr.Lexing
import DocComment.Proofs.TypeExpr.Shape

/-!
What stands where in a type that was read. Every type inside it plays a role in the one around
it, and the roles from there up to the whole type make up its path. Types with some heads are
never found in a role, which is why a type can be printed without parentheses: those that it
needs are groups of its own.
-/

namespace DocComment.TypeExpr

inductive Role where
  | element
  | inner
  | optional
  | marked (side : Side)
  | variadic
  | argument
  | entry
  | value
  | labelled
  | param
  | result
  | receiver
  | built
  deriving DecidableEq, Repr

/-- The second type stands directly in the first one, in this role. -/
inductive Part : TypeExpr → Role → TypeExpr → Prop where
  | element {es t} : t ∈ es → Part (.union es) .element t
  | inner {t} : Part (.group t) .inner t
  | optional {t} : Part (.optional t) .optional t
  | nullable {t side} : Part (.nullable t side) (.marked side) t
  | nonNullable {t side} : Part (.nonNullable t side) (.marked side) t
  | variadic {t} : Part (.variadic t) .variadic t
  | argument {name params t} : t ∈ params → Part (.generic name params) .argument t
  | entry {fields t} : t ∈ fields → Part (.record fields) .entry t
  | value {key t} : Part (.field key (some t)) .value t
  | labelled {label t} : Part (.parameter label t) .labelled t
  | param {params result receiver built t} : t ∈ params →
      Part (.function params result receiver built) .param t
  | result {params receiver built t} : Part (.function params (some t) receiver built) .result t
  | receiver {params result built t} :
      Part (.function params result (some t) built) .receiver t
  | built {params result receiver t} :
      Part (.function params result receiver (some t)) .built t

/-- The second type stands somewhere in the first one. Its own role comes first in the path. -/
inductive Occurs (t : TypeExpr) : List Role → TypeExpr → Prop where
  | root : Occurs t [] t
  | part {path u role v} : Occurs t path u → Part u role v → Occurs t (role :: path) v

/-- How a type is put together at the top, its parts left aside. -/
inductive Head where
  | name
  | all
  | unknown
  | literal
  | union
  | group
  | optional
  | marked (side : Side)
  | variadic
  | generic
  | field
  | record
  | parameter
  | procedure
  | function
  deriving DecidableEq, Repr

/-- A procedure is a function without a result. -/
def head : TypeExpr → Head
  | .name _ => .name
  | .all => .all
  | .unknown => .unknown
  | .literal _ => .literal
  | .union _ => .union
  | .group _ => .group
  | .optional _ => .optional
  | .nullable _ side | .nonNullable _ side => .marked side
  | .variadic _ => .variadic
  | .generic _ _ => .generic
  | .field _ _ => .field
  | .record _ => .record
  | .parameter _ _ => .parameter
  | .function _ none _ _ => .procedure
  | .function _ (some _) _ _ => .function

/-- The heads that are never found in a role, wherever the type with that role stands. -/
def Role.excluded : Role → List Head
  | .element => [.union]
  | .optional => [.union, .optional]
  | .marked .before => [.union, .optional, .parameter]
  | .marked .after => [.union, .optional, .variadic, .unknown, .marked .before, .function]
  | .labelled | .param | .result => [.union]
  | _ => []

/-- The form that reading gives a type, through and through. -/
structure Regular (t : TypeExpr) : Prop where
  alternatives {path es} : Occurs t path (.union es) → 2 ≤ es.length
  arguments {path name params} : Occurs t path (.generic name params) → 1 ≤ params.length
  keys {path fields} : Occurs t path (.record fields) → (fields.map entryKey).Nodup
  excluded {path role u} : Occurs t (role :: path) u → u.head ∉ role.excluded
  entry {path role u} : Occurs t (role :: path) u → role = .entry → u.head = .field
  field {path u} : Occurs t path u → u.head = .field → path.head? = some .entry
  parameter {path u} : Occurs t path u → u.head = .parameter →
    path.head? = some .param ∨ path.take 2 = [.variadic, .param]
  variadic {path u} : Occurs t (.variadic :: path) u → u.head = .optional ∨ u.head = .parameter →
    path.head? = some .param

/-- The heads that do not fit a place. -/
def Place.excluded : Place → List Head
  | .union => [.field, .parameter]
  | .alternative => [.field, .parameter, .union]
  | .modified => [.field, .parameter, .union, .optional]
  | .suffixed => [.field, .parameter, .union, .optional, .variadic, .marked .before]
  | .marked =>
    [.field, .parameter, .union, .optional, .variadic, .marked .before, .unknown, .function]
  | .entry => [.parameter]
  | .parameter => [.field, .union]

/-- The place that a role comes with. -/
def Role.place : Role → Place
  | .element | .labelled => .alternative
  | .inner | .argument | .value | .receiver | .built => .union
  | .optional | .marked .before | .variadic | .result => .modified
  | .marked .after => .marked
  | .entry => .entry
  | .param => .parameter

/-- A union, an application and a record have the parts that make them one. -/
def Whole : TypeExpr → Prop
  | .union elements => 2 ≤ elements.length
  | .generic _ params => 1 ≤ params.length
  | .record fields => (fields.map entryKey).Nodup
  | _ => True

namespace Shape

variable {P : Token → Prop} {place : Place} {t u : TypeExpr}

theorem whole (h : Shape P place t) : t.Whole := by
  induction h with
  | union hlength => exact hlength
  | generic _ hne => exact List.length_pos_iff.mpr hne
  | record hkeys => exact hkeys
  | suffixed _ ih | modified _ ih | alternative _ ih | single _ ih | parameter _ _ ih => exact ih
  | _ => trivial

/-- A tighter place excludes more. -/
theorem head_notMem (h : Shape P place t) : t.head ∉ place.excluded := by
  have mono {p q : Place} (hpq : p.excluded ⊆ q.excluded) {k : Head} (hk : k ∉ q.excluded) :
      k ∉ p.excluded := fun hm => hk (hpq hm)
  induction h with
  | suffixed _ ih => exact mono (by decide) ih
  | modified _ ih => exact mono (by decide) ih
  | alternative _ ih => exact mono (by decide) ih
  | single _ ih => exact mono (by decide) ih
  | parameter _ _ ih => exact mono (by decide) ih
  | _ => simp [head, Place.excluded]

theorem head_of_entry (h : Shape P .entry t) : t.head = .field := by
  cases h with
  | key => rfl
  | field => rfl

/-- A type has the shape that its role asks for, unless it stands behind the points of a
parameter. -/
theorem part {role : Role} (h : Shape P place t) (hpart : Part t role u)
    (hv : role = .variadic → place ≠ .parameter) : Shape P role.place u := by
  induction h generalizing u with
  | suffixed _ ih | modified _ ih | alternative _ ih | single _ ih =>
    exact ih hpart fun _ => by decide
  | parameter _ _ ih => exact ih hpart fun _ => by decide
  | name | all | literal | unknown | key => cases hpart
  | group h | optional h | nullableBefore h | nonNullableBefore h | variadic h
  | nullableAfter h | nonNullableAfter h | field _ _ h | labelled _ _ h =>
    cases hpart
    exact h
  | rest | labelledRest =>
    cases hpart
    exact absurd rfl (hv rfl)
  | union _ h =>
    cases hpart with
    | element hm => exact h _ hm
  | generic _ _ h =>
    cases hpart with
    | argument hm => exact h _ hm
  | record _ h =>
    cases hpart with
    | entry hm => exact h _ hm
  | procedure hparams hreceiver hbuilt =>
    cases hpart with
    | param hm => exact hparams _ hm
    | receiver => exact hreceiver _ rfl
    | built => exact hbuilt _ rfl
  | function hparams hreceiver hbuilt hresult =>
    cases hpart with
    | param hm => exact hparams _ hm
    | receiver => exact hreceiver _ rfl
    | built => exact hbuilt _ rfl
    | result => exact hresult

end Shape

/-- What is known of a type by its path. Behind the points of a parameter there may be a label. -/
def Placed (P : Token → Prop) : List Role → TypeExpr → Prop
  | [], t => Shape P .union t
  | .variadic :: .param :: _, t => Shape P .parameter (.variadic t)
  | role :: _, t => Shape P role.place t

section

variable {P : Token → Prop} {path : List Role} {role : Role} {t u : TypeExpr}

theorem placed_cons (h : role = .variadic → path.head? ≠ some .param) :
    Placed P (role :: path) t ↔ Shape P role.place t := by
  unfold Placed
  split
  · next heq => cases heq
  · next heq =>
    obtain ⟨rfl, rfl⟩ := List.cons.inj heq
    exact absurd rfl (h rfl)
  · next heq =>
    obtain ⟨rfl, -⟩ := List.cons.inj heq
    exact Iff.rfl

/-- A type has the shape of some place, or it is a label behind points. -/
theorem Placed.shape (h : Placed P path t) :
    (∃ place, Shape P place t ∧ (place = .parameter → path.head? = some .param) ∧
        (place = .entry → path.head? = some .entry)) ∨
      path.take 2 = [.variadic, .param] ∧
        ∃ label inner, t = .parameter label inner ∧ Shape P .alternative inner := by
  unfold Placed at h
  split at h
  · exact .inl ⟨_, h, by decide, by decide⟩
  · cases h with
    | rest h => exact .inl ⟨_, h, nofun, nofun⟩
    | labelledRest _ h => exact .inr ⟨rfl, _, _, rfl, h⟩
    | parameter _ hne => exact absurd rfl (hne t).1
  · next role path _ =>
    refine .inl ⟨_, h, fun hp => ?_, fun he => ?_⟩
    · cases role with
      | param => rfl
      | marked side => cases side <;> cases hp
      | _ => cases hp
    · cases role with
      | entry => rfl
      | marked side => cases side <;> cases he
      | _ => cases he

theorem Placed.part (h : Placed P path t) (hpart : Part t role u) : Placed P (role :: path) u := by
  by_cases hpoints : role = .variadic ∧ path.head? = some .param
  · obtain ⟨rfl, hhead⟩ := hpoints
    obtain ⟨above, rfl⟩ := List.head?_eq_some_iff.mp hhead
    cases hpart
    exact (placed_cons (by rintro ⟨⟩)).mp h
  · refine (placed_cons fun hv hhead => hpoints ⟨hv, hhead⟩).mpr ?_
    rcases h.shape with ⟨place, hshape, hparam, -⟩ | ⟨-, label, inner, rfl, hinner⟩
    · exact hshape.part hpart fun hv hp => hpoints ⟨hv, hparam hp⟩
    · cases hpart
      exact hinner

theorem Placed.whole (h : Placed P path t) : t.Whole := by
  rcases h.shape with ⟨place, hshape, -⟩ | ⟨-, label, inner, rfl, -⟩
  · exact hshape.whole
  · trivial

/-- Only an entry of a record is a field. -/
theorem Placed.field (h : Placed P path t) (ht : t.head = .field) :
    path.head? = some .entry := by
  rcases h.shape with ⟨place, hshape, -, hentry⟩ | ⟨-, label, inner, rfl, -⟩
  · by_cases hp : place = .entry
    · exact hentry hp
    · refine absurd ?_ hshape.head_notMem
      rw [ht]
      cases place with
      | entry => exact absurd rfl hp
      | _ => decide
  · cases ht

/-- Only a parameter of a function has a label, with or without points before it. -/
theorem Placed.parameter (h : Placed P path t) (ht : t.head = .parameter) :
    path.head? = some .param ∨ path.take 2 = [.variadic, .param] := by
  rcases h.shape with ⟨place, hshape, hparam, -⟩ | ⟨hpath, -⟩
  · by_cases hp : place = .parameter
    · exact .inl (hparam hp)
    · refine absurd ?_ hshape.head_notMem
      rw [ht]
      cases place with
      | parameter => exact absurd rfl hp
      | _ => decide
  · exact .inr hpath

theorem Placed.excluded (h : Placed P (role :: path) t) : t.head ∉ role.excluded := by
  by_cases hv : role = .variadic
  · subst role
    exact List.not_mem_nil
  · have hshape := (placed_cons fun h => absurd h hv).mp h
    have hsub : role.excluded ⊆ role.place.excluded := by
      cases role with
      | marked side => cases side <;> decide
      | variadic => exact absurd rfl hv
      | _ => decide
    exact fun hm => hshape.head_notMem (hsub hm)

end

theorem Occurs.placed {P : Token → Prop} {t u : TypeExpr} {path : List Role}
    (ht : Shape P .union t) (h : Occurs t path u) : Placed P path u := by
  induction h with
  | root => exact ht
  | part _ hpart ih => exact ih.part hpart

/-- Whatever the literal and the limit, what is read is a regular type. -/
theorem parse_regular {limit : Limit} {literal : String} {t : TypeExpr}
    (h : parse limit literal = .ok t) : Regular t := by
  obtain ⟨lexemes, -, htokens⟩ := parse_eq_ok.mp h
  have hshape : Shape (fun _ => True) .union t := ofTokens_shape (fun _ _ => trivial) htokens
  constructor
  case alternatives => exact fun hoccurs => (hoccurs.placed hshape).whole
  case arguments => exact fun hoccurs => (hoccurs.placed hshape).whole
  case keys => exact fun hoccurs => (hoccurs.placed hshape).whole
  case excluded => exact fun hoccurs => (hoccurs.placed hshape).excluded
  case field => exact fun hoccurs => (hoccurs.placed hshape).field
  case parameter => exact fun hoccurs => (hoccurs.placed hshape).parameter
  case entry =>
    rintro path role u hoccurs rfl
    exact ((placed_cons (by rintro ⟨⟩)).mp (hoccurs.placed hshape)).head_of_entry
  case variadic =>
    intro path u hoccurs hu
    by_contra hhead
    have hnot := ((placed_cons fun _ => hhead).mp (hoccurs.placed hshape)).head_notMem
    rcases hu with hu | hu <;> exact hnot (by rw [hu]; decide)

/-- The points of a parameter stand before its label, and the union of its type is a group. -/
theorem parse_regular_points :
    let t : TypeExpr := .function
      [.variadic (.parameter "rest" (.optional (.group (.union [.name "a", .name "b"])))),
        .record [.field "k" (some (.nonNullable (.generic "Array" [.name "x"]) .after))]]
      (some (.nonNullable .unknown .before)) none none
    parse (.ofNat 4) "function(...rest: (a|b)=, \x7bk: x[]!\x7d): !?" = .ok t ∧ Regular t := by
  intro t
  have h : parse (.ofNat 4) "function(...rest: (a|b)=, \x7bk: x[]!\x7d): !?" = .ok t := by
    decide +kernel
  exact ⟨h, parse_regular h⟩

end DocComment.TypeExpr
