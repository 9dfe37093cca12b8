import DocComment.Text.Lowercase

/-!
Tag titles. A title is known under one canonical spelling, found without regard to case and
through the aliases; unknown titles keep the spelling they have. The vocabulary also says
which titles need a type, which refuse one, and which name what they describe.
-/

namespace DocComment.Title

def aliases : List (String × String) :=
  [("arg", "param"), ("argument", "param"), ("return", "returns"), ("prop", "property"),
   ("augments", "extends"), ("const", "constant"), ("defaultvalue", "default"),
   ("desc", "description"), ("exception", "throws"), ("fileoverview", "file"),
   ("overview", "file"), ("emits", "fires"), ("func", "function"), ("method", "function"),
   ("var", "member"), ("virtual", "abstract"), ("host", "external"), ("yield", "yields"),
   ("inheritdoc", "inheritDoc")]

def typeRequired : List String :=
  ["define", "param", "property", "returns", "this", "type", "typedef"]

def typeForbidden : List String :=
  ["abstract", "api", "author", "class", "constructor", "deprecated", "dict", "example", "final",
   "ignore", "inheritDoc", "interface", "license", "name", "nosideeffects", "override",
   "preserve", "private", "protected", "public", "readonly", "record", "since", "static",
   "struct", "unrestricted", "version"]

def nameExpected : List String :=
  ["callback", "member", "param", "property", "template", "typedef"]

/-- Known titles that say nothing about types or names. -/
def plain : List String :=
  ["access", "alias", "async", "borrows", "classdesc", "constant", "constructs", "copyright",
   "default", "description", "enum", "event", "export", "exports", "extends", "external", "file",
   "fires", "function", "generator", "global", "hideconstructor", "implements", "inner",
   "instance", "kind", "lends", "link", "listens", "memberof", "mixes", "mixin", "module",
   "namespace", "nocollapse", "package", "requires", "see", "summary", "suppress", "throws",
   "todo", "tutorial", "variation", "yields"]

def known : List String := typeRequired ++ typeForbidden ++ nameExpected ++ plain

def allowsType (title : String) : Bool := !typeForbidden.contains title
def expectsType (title : String) : Bool := typeRequired.contains title
def expectsName (title : String) : Bool := nameExpected.contains title
def isKnown (title : String) : Bool := known.contains title

def lower (title : String) : String := String.ofList (Text.lowercase title.toList)

/-- The canonical title for a spelling, or the spelling itself if it is unknown. -/
def resolve (title : String) : String :=
  match aliases.lookup title with
  | some canonical => canonical
  | none =>
    match aliases.lookup (lower title) with
    | some canonical => canonical
    | none => (known.find? (fun t => lower t == lower title)).getD title

end DocComment.Title
