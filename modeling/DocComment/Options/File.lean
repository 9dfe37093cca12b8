import DocComment.Options.Basic
import DocComment.Yaml.Reader
import DocComment.Yaml.Writer

/-!
Options from a settings file, and back. A file can only hold data, so it sets no callables,
though it may name them. A missing file, an empty one and one that holds nothing true all
mean the standard options.
-/

namespace DocComment

namespace Yaml

mutual

def toData : Yaml → Data
  | .scalar d => d
  | .list items => .list (listToData items)
  | .mapping entries => .object (entriesToData entries)

def listToData : List Yaml → List Data
  | [] => []
  | y :: ys => y.toData :: listToData ys

def entriesToData : List (Yaml × Yaml) → List (String × Data)
  | [] => []
  | (key, value) :: rest =>
    let name := match key with
      | .scalar (.text s) => s
      | key => key.toData.shown
    (name, value.toData) :: entriesToData rest

end

def hasTextKey : Yaml × Yaml → Bool
  | (.scalar (.text _), _) => true
  | _ => false

end Yaml

namespace Options

variable {H : Type}

/-- The last entry for each key. -/
def lastEntries {α : Type} : List (String × α) → List (String × α)
  | [] => []
  | (key, a) :: rest =>
    let others := lastEntries rest
    if (others.lookup key).isSome then others else (key, a) :: others

def settingOf (key : String) (d : Data) : Setting H :=
  match d with
  | .object fields =>
    if key = "parse" then .stages (fields.map fun (stage, d) => (stage, .plain d))
    else .value (.plain d)
  | d => .value (.plain d)

/-- Options as the text of a settings file gives them. -/
def ofText (path : String) (text : Option String) : Except Error (Options H) :=
  match text with
  | none => .ok {}
  | some text =>
    match Yaml.read text with
    | none => .error (.options (.malformedFile path))
    | some doc =>
      if !doc.toData.isTrue then .ok {}
      else
        match doc with
        | .mapping entries =>
          if entries.all Yaml.hasTextKey then
            let fields := lastEntries (Yaml.entriesToData entries)
            ofSettings (fields.map fun (key, d) => (key, settingOf key d))
          else .error .notText
        | _ => .error (.options (.notMapping path))

/-- The switches and the nesting limit as a settings file. -/
def save (o : Options H) : String := Yaml.write o.scalars

end Options

end DocComment
