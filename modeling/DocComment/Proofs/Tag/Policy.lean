import DocComment.Proofs.Tag.Title
import DocComment.Proofs.Text.Trim
import DocComment.Tag.Policy

/-!
The policy on tags in normal form. A title is resolved by its lower case alone, so the spellings
of a known title all come to that title, and none of them gets past the policy. What the policy
makes of a tag in normal form is in normal form again, and it has nothing more to say of it.
-/

namespace DocComment

namespace Title

theorem lower_alias : ∀ entry ∈ aliases, lower entry.1 = entry.1 := by decide +kernel

/-- The known title that is meant by a spelling in lower case. -/
def canonical? (spelling : String) : Option String :=
  match aliases.lookup spelling with
  | some canonical => some canonical
  | none => known.find? fun t => lower t == spelling

theorem resolve_eq (title : String) : resolve title = (canonical? (lower title)).getD title := by
  unfold resolve canonical?
  cases hexact : aliases.lookup title with
  | some canonical =>
    obtain ⟨front, back, haliases, -⟩ := List.lookup_eq_some_iff.mp hexact
    have hm : (title, canonical) ∈ aliases := by
      rw [haliases]
      exact List.mem_append_right front List.mem_cons_self
    have hlower := lower_alias _ hm
    dsimp only at hlower ⊢
    rw [hlower, hexact]
    rfl
  | none =>
    cases aliases.lookup (lower title) with
    | some canonical => rfl
    | none => rfl

/-- A title that comes to a known one was found by its lower case. -/
theorem canonical?_eq_some {title : String} (h : resolve title ∈ known) :
    canonical? (lower title) = some (resolve title) := by
  rw [resolve_eq]
  cases hc : canonical? (lower title) with
  | some canonical => rfl
  | none =>
    rw [resolve_eq, hc, Option.getD_none] at h
    unfold canonical? at hc
    split at hc
    · cases hc
    · exact absurd (beq_self_eq_true _) (List.find?_eq_none.mp hc title h)

theorem resolve_of_lower_eq {t u : String} (h : lower t = lower u) (hk : resolve t ∈ known) :
    resolve u = resolve t := by
  rw [resolve_eq u, ← h, canonical?_eq_some hk]
  rfl

end Title

namespace Policy

/-- The policy has no reason to reject a tag. -/
structure Allows (policy : Policy) (t : Tag) : Prop where
  known : policy.closedVocabulary → t.title ∈ Title.known
  needed : policy.strict → t.title ∈ Title.typeRequired → t.type.isSome

/-- No title needs a type and refuses it, so a type that is needed is there if it was given. -/
theorem allowsType_of_expectsType {title : String} (h : Title.expectsType title = true) :
    Title.allowsType title = true := by
  have hall : ∀ title ∈ Title.typeRequired, Title.allowsType title = true := by decide
  exact hall title (List.contains_iff_mem.mp h)

theorem judge_rejection (policy : Policy) (title : String) (hasType : Bool)
    (rawType raw : String) : (policy.judge title hasType rawType raw).rejection =
    if policy.closedVocabulary && !Title.isKnown title then some .unknownTitle
    else if policy.strict && (Title.expectsType title && !hasType) then some .missingType
    else none := by
  unfold judge
  dsimp only
  split
  · rfl
  · cases hx : Title.expectsType title with
    | false => simp
    | true =>
      -- No type is dropped here, so one is missing only if none was given.
      rw [allowsType_of_expectsType hx, Bool.not_true, Bool.and_false, Bool.false_or,
        Bool.true_and]
      cases hasType with
      | true => simp
      | false =>
        cases policy.strict with
        | true => rfl
        | false => rfl

theorem judge_dropsType {policy : Policy} {title : String} {hasType : Bool}
    {rawType raw : String} (h : (policy.judge title hasType rawType raw).rejection = none) :
    (policy.judge title hasType rawType raw).dropsType =
      (hasType && !Title.allowsType title) := by
  unfold judge at h ⊢
  dsimp only at h ⊢
  split
  · next hunknown =>
    rw [if_pos hunknown] at h
    cases h
  · split
    · split
      · rfl
      · rfl
    · rfl

theorem judge_rejection_eq_none_iff {policy : Policy} {t : Tag} (rawType raw : String) :
    (policy.judge t.title t.type.isSome rawType raw).rejection = none ↔ policy.Allows t := by
  rw [judge_rejection]
  have hunknown : (policy.closedVocabulary && !Title.isKnown t.title) = false ↔
      (policy.closedVocabulary → t.title ∈ Title.known) := by
    simp [Title.isKnown]
  have hmissing : (policy.strict && (Title.expectsType t.title && !t.type.isSome)) = false ↔
      (policy.strict → t.title ∈ Title.typeRequired → t.type.isSome) := by
    simp [Title.expectsType, Option.isSome_iff_ne_none]
  constructor
  · intro h
    split at h
    · cases h
    · next hu =>
      split at h
      · cases h
      · next hm =>
        exact ⟨hunknown.mp (Bool.eq_false_iff.mpr hu), hmissing.mp (Bool.eq_false_iff.mpr hm)⟩
  · intro h
    rw [hunknown.mpr h.known, hmissing.mpr h.needed]
    rfl

end Policy

theorem Verdict.outcome_eq_ok_iff {α : Type} {v : Verdict} {a b : α} :
    v.outcome a = .ok b ↔ v.rejection = none ∧ b = a := by
  unfold outcome
  cases v.rejection with
  | none => simp [eq_comm]
  | some reason => simp

namespace Tag

open Text

/-- The tag without a type that its title refuses. -/
def permitted (t : Tag) : Tag :=
  if Title.allowsType t.title then t else { t with type := none }

theorem permitted_eq (t : Tag) : t.permitted =
    if t.type.isSome && !Title.allowsType t.title then { t with type := none } else t := by
  unfold permitted
  cases ha : Title.allowsType t.title with
  | true => simp
  | false =>
    cases htype : t.type with
    | some type => simp
    | none => simp [← htype]

/-- A tag comes through the policy if nothing is wrong with it, less a type it may not have. -/
theorem validate_eq_ok_iff {policy : Policy} {t t' : Tag} :
    (t.validate policy).1 = .ok t' ↔ policy.Allows t ∧ t' = t.permitted := by
  unfold validate
  dsimp only
  rw [Verdict.outcome_eq_ok_iff, ← Policy.judge_rejection_eq_none_iff (t.rawType.getD "None")
    (quoted t.raw)]
  refine and_congr_right fun h => ?_
  rw [Policy.judge_dropsType h, permitted_eq]

theorem trimmed_trimmed (s : String) : trimmed (trimmed s) = trimmed s := by
  rw [trimmed, trimmed, String.toList_ofList, trim_trim]

theorem trimmedName_trimmedName (name : String) :
    (trimmedName name).bind trimmedName = trimmedName name := by
  unfold trimmedName
  split
  · rfl
  · next h =>
    rw [Option.bind_some, trimmed_trimmed, trimmed, String.toList_ofList, trim_trim, if_neg h]

theorem normalize_normalize (t : Tag) : t.normalize.normalize = t.normalize := by
  have hname : (t.name.bind trimmedName).bind trimmedName = t.name.bind trimmedName := by
    cases t.name with
    | none => rfl
    | some name => exact trimmedName_trimmedName name
  simp only [normalize, Title.resolve_idempotent, hname, trimmed_trimmed]

variable {policy : Policy} {t : Tag}

theorem normalize_permitted (h : t.normalize = t) : t.permitted.normalize = t.permitted := by
  unfold permitted
  split
  · exact h
  · exact congrArg (fun t : Tag => { t with type := none }) h

theorem permitted_permitted (t : Tag) : t.permitted.permitted = t.permitted := by
  unfold permitted
  cases ha : Title.allowsType t.title with
  | true => simp [ha]
  | false => simp [ha]

theorem allows_permitted (h : policy.Allows t) : policy.Allows t.permitted := by
  unfold permitted
  split
  · exact h
  · next ha =>
    refine ⟨h.known, fun _ hr => absurd ?_ ha⟩
    exact Policy.allowsType_of_expectsType (List.contains_iff_mem.mpr hr)

theorem validate_again {t' : Tag} (h : (t.normalize.validate policy).1 = .ok t') :
    (t'.normalize.validate policy).1 = .ok t' := by
  obtain ⟨hallows, rfl⟩ := validate_eq_ok_iff.mp h
  rw [normalize_permitted (normalize_normalize t)]
  exact validate_eq_ok_iff.mpr ⟨allows_permitted hallows, (permitted_permitted _).symm⟩

/-- Tags settle in one step: the title of each is canonical and the same in upper and lower case,
and a tag that the policy lets through in normal form comes through again as it is. -/
theorem normalize_settles :
    (∀ title, Title.resolve (Title.resolve title) = Title.resolve title ∧
      (Title.resolve title = title ∨ Title.resolve title ∈ Title.known)) ∧
    (∀ title title', Title.lower title = Title.lower title' →
      Title.resolve title ∈ Title.known → Title.resolve title' = Title.resolve title) ∧
    ∀ (policy : Policy) (tag tag' : Tag), (tag.normalize.validate policy).1 = .ok tag' →
      (tag'.normalize.validate policy).1 = .ok tag' :=
  ⟨fun title => ⟨Title.resolve_idempotent title, Title.resolve_eq_or_known title⟩,
    fun _ _ h hk => Title.resolve_of_lower_eq h hk, fun _ _ _ h => validate_again h⟩

/-- A title in its own mix of cases, and a tag that loses the type which its title refuses only
once the title is canonical. -/
theorem normalize_settles_private :
    let policy : Policy := { strict := true, closedVocabulary := true }
    let tag : Tag :=
      { title := "Private", type := some (.name "T"), name := some " ", description := " x" }
    let tag' : Tag := { title := "private", description := "x" }
    (Title.lower "InheritDoc" = Title.lower "INHERITDOC" ∧
      Title.resolve "InheritDoc" ∈ Title.known ∧
      Title.resolve "INHERITDOC" = Title.resolve "InheritDoc") ∧
    (tag.normalize.validate policy).1 = .ok tag' ∧
      (tag'.normalize.validate policy).1 = .ok tag' := by
  intro policy tag tag'
  have hlower : Title.lower "InheritDoc" = Title.lower "INHERITDOC" := by decide +kernel
  have hknown : Title.resolve "InheritDoc" ∈ Title.known := by decide +kernel
  have hpasses : (tag.normalize.validate policy).1 = .ok tag' := by decide +kernel
  exact ⟨⟨hlower, hknown, normalize_settles.2.1 _ _ hlower hknown⟩, hpasses,
    normalize_settles.2.2 policy tag tag' hpasses⟩

end Tag

end DocComment
