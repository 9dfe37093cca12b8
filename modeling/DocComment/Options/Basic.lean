import DocComment.Error
import DocComment.Tag.Policy

/-!
The options of a parser. Switches are kept as they were given and only tested for truth. Four
callables may replace how comments are found, and one table of callables may replace single
stages of parsing. Changing options checks the new ones and keeps all others.
-/

namespace DocComment

/-- A value as callers supply it: something that can be called, or plain data. -/
inductive Supplied (H : Type)
  | callable (handler : H)
  | plain (data : Data)
  deriving Repr

def Supplied.handler? {H : Type} : Supplied H → Option H
  | .callable h => some h
  | .plain _ => none

inductive Stage
  | comment
  | tags
  | tag
  | inlineTag
  | type
  | paramType
  deriving DecidableEq, Repr

namespace Stage

def name : Stage → String
  | .comment => "comment"
  | .tags => "tags"
  | .tag => "tag"
  | .inlineTag => "inline_tag"
  | .type => "type"
  | .paramType => "param_type"

def all : List Stage := [comment, tags, tag, inlineTag, type, paramType]

/-- Other spellings of stage names. -/
def aliases : List (String × Stage) := [("inlineTag", inlineTag), ("paramType", paramType)]

def ofKey? (key : String) : Option Stage :=
  match aliases.lookup key with
  | some stage => some stage
  | none => all.find? (fun stage => stage.name == key)

end Stage

abbrev Overrides (H : Type) := Stage → Option H

/-- What the option for stages holds. Anything but a table of stages is kept unchecked. -/
inductive StageOption (H : Type)
  | overrides (table : Overrides H)
  | other (value : Supplied H)

structure Options (H : Type) where
  strict : Data := .bool false
  format : Data := .bool false
  closedVocabulary : Data := .bool false
  stripInline : Data := .bool false
  keepProtected : Data := .bool true
  stripStars : Data := .null
  limit : TypeExpr.Limit := .standard
  extract : Option H := none
  preprocess : Option H := none
  isValid : Option H := none
  stages : StageOption H := .overrides fun _ => none

/-- The value of one option as it is given. -/
inductive Setting (H : Type)
  | value (value : Supplied H)
  | stages (fields : List (String × Supplied H))

namespace Options

variable {H : Type}

def isStrict (o : Options H) : Bool := o.strict.isTrue

def policy (o : Options H) : Policy := ⟨o.strict.isTrue, o.closedVocabulary.isTrue⟩

/-- Whether gutters are stripped; with no answer the body decides. -/
def gutters (o : Options H) : Option Bool :=
  if o.stripStars.isNull then none else some o.stripStars.isTrue

def keys : List String :=
  ["strict", "format", "closed_vocabulary", "strip_inline", "protected", "strip_stars",
   "max_type_depth", "extract", "preprocess", "is_valid", "parse"]

/-- The name of the options themselves. It can be given to none of them. -/
def ownName : String := "self"

/-- The switches and the nesting limit, as data. -/
def scalars (o : Options H) : List (String × Data) :=
  [("strict", o.strict), ("format", o.format), ("closed_vocabulary", o.closedVocabulary),
   ("strip_inline", o.stripInline), ("protected", o.keepProtected),
   ("strip_stars", o.stripStars), ("max_type_depth", o.limit.toData)]

def unknownKeys (settings : List (String × Setting H)) : List String :=
  let unknown := (settings.map (·.1)).filter fun key => !keys.contains key
  unknown.mergeSort fun a b => decide (a ≤ b)

/-- Resolves the names of a stage table. The first unknown name is an error. -/
def namedStages : List (String × Supplied H) → Except OptionsError (List (Stage × Supplied H))
  | [] => .ok []
  | (key, value) :: rest =>
    match Stage.ofKey? key with
    | none => .error (.unknownStage key)
    | some stage => (namedStages rest).map ((stage, value) :: ·)

/-- The last value given for a stage. Null is none. -/
def lastGiven (named : List (Stage × Supplied H)) (stage : Stage) : Option (Supplied H) :=
  match named.reverse.lookup stage with
  | some (.plain .null) => none
  | other => other

def checkStages (named : List (Stage × Supplied H)) : List Stage → Except OptionsError Unit
  | [] => .ok ()
  | stage :: rest =>
    match lastGiven named stage with
    | some (.plain d) => .error (.uncallableStage stage.name d.kindName)
    | _ => checkStages named rest

def overridesOf (fields : List (String × Supplied H)) : Except OptionsError (Overrides H) := do
  let named ← namedStages fields
  checkStages named Stage.all
  return fun stage => (lastGiven named stage).bind Supplied.handler?

/-- What the option for stages becomes, if it is given at all. -/
def givenStages (settings : List (String × Setting H)) :
    Except OptionsError (Option (StageOption H)) :=
  match settings.lookup "parse" with
  | none => .ok none
  | some (.stages fields) => (overridesOf fields).map (fun table => some (.overrides table))
  | some (.value (.plain .null)) => .ok (some (.overrides fun _ => none))
  | some (.value value) => .ok (some (.other value))

/-- A switch as data. A callable is as good as true. -/
def givenData (settings : List (String × Setting H)) (key : String) (current : Data) : Data :=
  match settings.lookup key with
  | none => current
  | some (.value (.plain d)) => d
  | some _ => .bool true

def givenLimit (settings : List (String × Setting H)) (current : TypeExpr.Limit) :
    Except Error TypeExpr.Limit :=
  match settings.lookup "max_type_depth" with
  | none => .ok current
  | some (.value (.plain d)) =>
    match TypeExpr.Limit.ofData? d with
    | none => .error .notComparable
    | some limit =>
      if limit.floor < 1 then .error (.options (.limitNotPositive limit)) else .ok limit
  | some _ => .error .notComparable

def givenCallable (settings : List (String × Setting H)) (key : String) (current : Option H) :
    Except Error (Option H) :=
  match settings.lookup key with
  | none => .ok current
  | some (.value (.callable h)) => .ok (some h)
  | some (.value (.plain .null)) => .ok none
  | some _ => .error (.options (.uncallable key))

def liftOptions {α : Type} : Except OptionsError α → Except Error α
  | .ok a => .ok a
  | .error e => .error (.options e)

/-- The options with the given ones in place of the current ones. -/
def withSettings (o : Options H) (settings : List (String × Setting H)) :
    Except Error (Options H) := do
  if (settings.lookup ownName).isSome then .error (.reservedKey ownName)
  let unknown := unknownKeys settings
  if !unknown.isEmpty then .error (.options (.unknownKeys unknown))
  let stages ← liftOptions (givenStages settings)
  let limit ← givenLimit settings o.limit
  let extract ← givenCallable settings "extract" o.extract
  let preprocess ← givenCallable settings "preprocess" o.preprocess
  let isValid ← givenCallable settings "is_valid" o.isValid
  return {
    strict := givenData settings "strict" o.strict
    format := givenData settings "format" o.format
    closedVocabulary := givenData settings "closed_vocabulary" o.closedVocabulary
    stripInline := givenData settings "strip_inline" o.stripInline
    keepProtected := givenData settings "protected" o.keepProtected
    stripStars := givenData settings "strip_stars" o.stripStars
    limit, extract, preprocess, isValid
    stages := stages.getD o.stages }

def ofSettings (settings : List (String × Setting H)) : Except Error (Options H) :=
  withSettings {} settings

end Options

end DocComment
