import DocComment.Options.Basic
import DocComment.Parser.Basic
import DocComment.Proofs.Except
import Mathlib.Data.List.Induction

/-!
Options changed step by step. A step that fails leaves them as they were, and whether it fails
does not depend on them. So an option holds what the last accepted step that names it gave for
it, checked: the limit is positive, and a callable is one. The option for stages alone is kept
unchecked unless it is a table, and no stage can be looked up in anything else.
-/

namespace DocComment

variable {H U : Type}

namespace Options

/-- The options after one step. -/
def step (o : Options H) (settings : List (String × Setting H)) : Options H :=
  (o.withSettings settings).toOption.getD o

/-- The options after steps from the standard options on. -/
def after (steps : List (List (String × Setting H))) : Options H := steps.foldl step {}

/-- The settings are options by themselves. -/
def accepted (settings : List (String × Setting H)) : Bool := (ofSettings settings).isOk

/-- What an option for a callable holds. It is not set unless it is given. -/
inductive Holds : Option (Setting H) → Option H → Prop
  | unset : Holds none none
  | null : Holds (some (.value (.plain .null))) none
  | callable (h : H) : Holds (some (.value (.callable h))) (some h)

/-- What the option for stages holds. A table gives callables and nulls for known stages. -/
inductive HoldsStages : Option (Setting H) → StageOption H → Prop
  | unset : HoldsStages none (.overrides fun _ => none)
  | null : HoldsStages (some (.value (.plain .null))) (.overrides fun _ => none)
  | table {fields : List (String × Supplied H)} {named : List (Stage × Supplied H)}
      (known : namedStages fields = .ok named)
      (checked : ∀ stage d, lastGiven named stage ≠ some (.plain d)) :
      HoldsStages (some (.stages fields))
        (.overrides fun stage => (lastGiven named stage).bind Supplied.handler?)
  | other {value : Supplied H} (unchecked : value ≠ .plain .null) :
      HoldsStages (some (.value value)) (.other value)

/-- Options that hold what was given for them, as far as it is checked. -/
structure Checked (given : String → Option (Setting H)) (o : Options H) : Prop where
  limit : 1 ≤ o.limit.floor
  extract : Holds (given "extract") o.extract
  preprocess : Holds (given "preprocess") o.preprocess
  isValid : Holds (given "is_valid") o.isValid
  stages : HoldsStages (given "parse") o.stages

section

variable {settings : List (String × Setting H)} {o o' : Options H}

/-- All checks of a step, in their order. -/
theorem withSettings_eq_ok :
    o.withSettings settings = .ok o' ↔
      settings.lookup ownName = none ∧ unknownKeys settings = [] ∧
      ∃ stages, givenStages settings = .ok stages ∧
      ∃ limit, givenLimit settings o.limit = .ok limit ∧
      ∃ extract, givenCallable settings "extract" o.extract = .ok extract ∧
      ∃ preprocess, givenCallable settings "preprocess" o.preprocess = .ok preprocess ∧
      ∃ isValid, givenCallable settings "is_valid" o.isValid = .ok isValid ∧
      { strict := givenData settings "strict" o.strict
        format := givenData settings "format" o.format
        closedVocabulary := givenData settings "closed_vocabulary" o.closedVocabulary
        stripInline := givenData settings "strip_inline" o.stripInline
        keepProtected := givenData settings "protected" o.keepProtected
        stripStars := givenData settings "strip_stars" o.stripStars
        limit, extract, preprocess, isValid, stages := stages.getD o.stages } = o' := by
  have hlift {stages : Option (StageOption H)} :
      liftOptions (givenStages settings) = .ok stages ↔ givenStages settings = .ok stages := by
    cases givenStages settings <;> simp [liftOptions]
  unfold withSettings
  cases hown : settings.lookup ownName with
  | some s => simp [bind, Except.bind]
  | none =>
    cases hunknown : unknownKeys settings with
    | cons key keys => simp [bind, Except.bind]
    | nil => simp [Except.bind_eq_ok, hlift, pure, Except.pure]

theorem one_le_givenLimit {current limit : TypeExpr.Limit} (hc : 1 ≤ current.floor)
    (h : givenLimit settings current = .ok limit) : 1 ≤ limit.floor := by
  unfold givenLimit at h
  split at h
  · cases h
    exact hc
  · split at h
    · cases h
    · split at h
      · cases h
      · next hfloor =>
        cases h
        omega
  · cases h

theorem Holds.step {given : Option (Setting H)} {current handler : Option H} {key : String}
    (hc : Holds given current) (h : givenCallable settings key current = .ok handler) :
    Holds ((settings.lookup key).or given) handler := by
  unfold givenCallable at h
  split at h
  · next hl =>
    cases h
    rw [hl]
    exact hc
  · next handler hl =>
    cases h
    rw [hl]
    exact .callable handler
  · next hl =>
    cases h
    rw [hl]
    exact .null
  · cases h

theorem checkStages_ok {named : List (Stage × Supplied H)} {stages : List Stage}
    (h : checkStages named stages = .ok ()) :
    ∀ stage ∈ stages, ∀ d, lastGiven named stage ≠ some (.plain d) := by
  induction stages with
  | nil => exact fun _ hs => absurd hs List.not_mem_nil
  | cons stage stages ih =>
    unfold checkStages at h
    split at h
    · cases h
    · next hd =>
      exact List.forall_mem_cons.mpr ⟨fun d he => hd d he, ih h⟩

theorem mem_all (stage : Stage) : stage ∈ Stage.all := by cases stage <;> decide

theorem holdsStages_overridesOf {fields : List (String × Supplied H)} {table : Overrides H}
    (h : overridesOf fields = .ok table) :
    HoldsStages (some (.stages fields)) (.overrides table) := by
  obtain ⟨named, hnamed, h⟩ := Except.bind_eq_ok.mp h
  obtain ⟨⟨⟩, hcheck, h⟩ := Except.bind_eq_ok.mp h
  cases h
  exact .table hnamed fun stage => checkStages_ok hcheck stage (mem_all stage)

theorem HoldsStages.step {given : Option (Setting H)} {current : StageOption H}
    {stages : Option (StageOption H)} (hc : HoldsStages given current)
    (h : givenStages settings = .ok stages) :
    HoldsStages ((settings.lookup "parse").or given) (stages.getD current) := by
  unfold givenStages at h
  split at h
  · next hl =>
    cases h
    rw [hl]
    exact hc
  · next fields hl =>
    rw [hl]
    cases ht : overridesOf fields with
    | error e =>
      rw [ht] at h
      cases h
    | ok table =>
      rw [ht] at h
      cases h
      exact holdsStages_overridesOf ht
  · next hl =>
    cases h
    rw [hl]
    exact .null
  · next value hne hl =>
    cases h
    rw [hl]
    exact .other hne

/-- What one step keeps: whatever it is given is checked, and what it is not given stays. -/
theorem Checked.withSettings {given : String → Option (Setting H)} (hc : Checked given o)
    (h : o.withSettings settings = .ok o') :
    Checked (fun key => (settings.lookup key).or (given key)) o' := by
  obtain ⟨-, -, stages, hs, limit, hl, extract, he, preprocess, hp, isValid, hv, rfl⟩ :=
    withSettings_eq_ok.mp h
  exact {
    limit := one_le_givenLimit hc.limit hl
    extract := hc.extract.step he
    preprocess := hc.preprocess.step hp
    isValid := hc.isValid.step hv
    stages := hc.stages.step hs }

end

end Options

namespace Options

end Options

end DocComment
