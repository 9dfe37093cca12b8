import DocComment.Proofs.Parser.Plain

/-!
What a plain parser makes of tag lines, blocks and sources, as functions of the text alone.
A line is split, its type read, its title and name normalised, the policy asked, and its
references taken out; the first of these steps that does not succeed decides.
-/

namespace DocComment

namespace Outcome

variable {α β : Type}

def andThen (o : Outcome α) (f : α → Outcome β) : Outcome β :=
  match o with
  | .ok a => f a
  | .fail e => .fail e
  | .reject r => .reject r

def value? : Outcome α → Option α
  | .ok a => some a
  | _ => none

theorem andThen_eq_ok {o : Outcome α} {f : α → Outcome β} {b : β} :
    o.andThen f = .ok b ↔ ∃ a, o = .ok a ∧ f a = .ok b := by
  cases o <;> simp [andThen]

theorem map_eq_ok {o : Outcome α} {f : α → β} {b : β} :
    o.map f = .ok b ↔ ∃ a, o = .ok a ∧ f a = b := by
  cases o <;> simp [map]

theorem value?_eq_some {o : Outcome α} {a : α} : o.value? = some a ↔ o = .ok a := by
  cases o <;> simp [value?]

theorem value?_map (o : Outcome α) (f : α → β) : (o.map f).value? = o.value?.map f := by
  cases o <;> rfl

/-- Settling twice is settling once, if nothing comes of nothing. -/
theorem settle_andThen (strict : Bool) (o : Outcome α) (f : α → Outcome β) :
    ((o.andThen f).settle strict).1 = (o.settle strict).1 >>= fun
      | none => .ok none
      | some a => ((f a).settle strict).1 := by
  cases o with
  | ok a => rfl
  | reject r => rfl
  | fail e => cases strict <;> rfl

theorem settle_map (strict : Bool) (o : Outcome α) (f : α → β) :
    ((o.map f).settle strict).1 = Option.map f <$> (o.settle strict).1 := by
  cases o with
  | ok a => rfl
  | reject r => rfl
  | fail e => cases strict <;> rfl

end Outcome

namespace Tag

/-- What the type clause reads as, where there is one and the title allows it. -/
def readType (limit : TypeExpr.Limit) (t : Tag) : Option (Except TypeExpr.SyntaxError TypeExpr) :=
  if Title.allowsType t.title then
    t.rawType.map fun clause => TypeExpr.parse limit (Node.innerText clause)
  else none

def withType (limit : TypeExpr.Limit) (t : Tag) : Outcome Tag :=
  match t.readType limit with
  | none => .ok t
  | some (.ok type) => .ok { t with type := some type }
  | some (.error e) => .fail (.typeSyntax e)

def withReferences (strip : Bool) (t : Tag) : Tag :=
  if t.description.isEmpty then t
  else { t with
    description := Inline.shown strip t.description
    inlineTags := Inline.references t.description }

/-- What becomes of a split tag. -/
def process (s : Switches) (t : Tag) : Outcome Tag :=
  (t.withType s.limit).andThen fun t =>
    (t.normalize.validate s.policy).1.map (withReferences s.stripInline.isTrue)

def ofLine (s : Switches) (raw : String) : Outcome Tag :=
  (split raw).andThen (process s)

/-- The tags of all lines. In strict mode the first malformed line fails all of them. -/
def ofLines (s : Switches) : List String → Except Error (List Tag)
  | [] => .ok []
  | raw :: rest => do
    let tag ← ((ofLine s raw).settle s.strict.isTrue).1
    let tags ← ofLines s rest
    return tag.toList ++ tags

end Tag

namespace Comment

def withReferences (strip : Bool) (c : Comment) : Comment :=
  if c.description.isEmpty then c
  else { c with
    description := Inline.shown strip c.description
    inlineTags := Inline.references c.description }

/-- The last steps on a comment, once its tags are there. -/
def finish (s : Switches) (c : Comment) : Comment :=
  let c := c.withReferences s.stripInline.isTrue
  if s.format.isTrue then c.format else c

theorem finish_raw (s : Switches) (c : Comment) : (c.finish s).raw = c.raw := by
  unfold finish withReferences
  cases c.description.isEmpty <;> cases s.format.isTrue <;> simp [format]

theorem finish_location (s : Switches) (c : Comment) : (c.finish s).location = c.location := by
  unfold finish withReferences
  cases c.description.isEmpty <;> cases s.format.isTrue <;> simp [format]

def ofParts (b : Block) (body : Body) (tags : List Tag) : Comment where
  raw := b.raw
  description := body.description
  footer := body.footer
  tags
  examples := body.examples
  code := b.code
  location := b.location

def ofBlock (s : Switches) (b : Block) : Except Error Comment := do
  let body := Body.ofText s.gutters b.value
  let tags ← Tag.ofLines s body.tags
  return (ofParts b body tags).finish s

end Comment

namespace Parser

variable {H U : Type} {s : Switches} (host : Host H U)

open Run

theorem parseInline_gives (text : String) :
    Gives s (parseInline host (.ofText text)) (.ok (Node.pair
      (.ofText (Inline.shown s.stripInline.isTrue text))
      (.list ((Inline.references text).map .inline)))) :=
  .bind (.pure _) (.bind (.override _) (.bind .options (.pure _)))

/-- References are taken out of a description that is not empty, whatever it belongs to. -/
theorem withInline_gives {text : String} {filled : String → List InlineReference → Node}
    (node : Node)
    (hfield : node.field "description" = .ok (.ofText text))
    (hfill : ∀ shown refs, (node.fill "description" (.ofText shown)).fill "inline_tags"
      (.list (refs.map .inline)) = filled shown refs) :
    Gives s (withInline host node) (.ok (if text.isEmpty then node else
      filled (Inline.shown s.stripInline.isTrue text) (Inline.references text))) := by
  refine .bind (.ofExcept_ok hfield) ?_
  cases he : text.isEmpty with
  | true =>
    have ht : (Node.ofText text).isTrue = false := by simp [Node.isTrue, Data.isTrue, he]
    simp only [ht]
    exact .pure _
  | false =>
    have ht : (Node.ofText text).isTrue = true := by simp [Node.isTrue, Data.isTrue, he]
    simp only [ht]
    exact .bind (parseInline_gives host text) (.bind (.ofExcept_ok rfl) (.pure_eq (hfill _ _)))

theorem withInline_tag (t : Tag) :
    Gives s (withInline host (.tag t)) (.ok (.tag (t.withReferences s.stripInline.isTrue))) := by
  have h := withInline_gives (s := s) host (.tag t) rfl fun shown refs =>
    Node.fill_inline_tags { t with description := shown } refs
  unfold Tag.withReferences
  split
  · next he => rwa [if_pos he] at h
  · next he => rwa [if_neg he] at h

theorem fill_references (c : Comment) (refs : List InlineReference) :
    (Node.comment c).fill "inline_tags" (.list (refs.map .inline)) =
      .comment { c with inlineTags := refs } := by
  have h : Model.with? (.comment c) "inline_tags" (.list (refs.map .inline)) =
      some (.comment { c with inlineTags := refs }) :=
    congrArg
      (fun r => (r.map fun inlineTags => ({ c with inlineTags } : Comment)).map Model.comment)
      (Node.each?_map .inline Node.reference? (fun _ => rfl) refs)
  simp only [Node.fill, h]
  rfl

theorem withInline_comment (c : Comment) :
    Gives s (withInline host (.comment c))
      (.ok (.comment (c.withReferences s.stripInline.isTrue))) := by
  have h := withInline_gives (s := s) host (.comment c) rfl fun shown refs =>
    fill_references { c with description := shown } refs
  unfold Comment.withReferences
  split
  · next he => rwa [if_pos he] at h
  · next he => rwa [if_neg he] at h

theorem parseType_gives (literal : String) (owner : Node) :
    Gives s (parseType host (.ofText literal) owner)
      (match TypeExpr.parse s.limit literal with
        | .ok t => .ok (.type t)
        | .error e => .error (.typeSyntax e)) := by
  refine .bind (.pure _) (.bind (.override _) (.bind .options ?_))
  have hl : (s.options (H := H)).limit = s.limit := rfl
  rw [hl]
  cases TypeExpr.parse s.limit literal with
  | ok t => exact .pure _
  | error e => exact .throw _

theorem field_rawType (t : Tag) :
    (Node.tag t).field "raw_type" = .ok (.ofOption .ofText t.rawType) := by
  obtain ⟨_, rawType, _⟩ := t
  cases rawType <;> rfl

theorem field_name (t : Tag) : (Node.tag t).field "name" = .ok (.ofOption .ofText t.name) := by
  obtain ⟨_, _, _, name, _⟩ := t
  cases name <;> rfl

theorem withType_gives (t : Tag) :
    Gives s (withType host (.tag t)) (.ok ((t.withType s.limit).map .tag)) := by
  refine .bind (.ofExcept_ok (field_rawType t)) ?_
  cases hc : t.rawType with
  | none =>
    have hw : t.withType s.limit = .ok t := by simp [Tag.withType, Tag.readType, hc]
    rw [hw]
    exact .pure _
  | some clause =>
    refine .bind (.ofExcept_ok (a := Title.allowsType t.title) rfl) ?_
    cases ha : Title.allowsType t.title with
    | false =>
      have hw : t.withType s.limit = .ok t := by simp [Tag.withType, Tag.readType, ha]
      rw [hw]
      exact .pure _
    | true =>
      have hread := parseType_gives (s := s) host (Node.innerText clause) (.tag t)
      cases hp : TypeExpr.parse s.limit (Node.innerText clause) with
      | ok type =>
        have hw : t.withType s.limit = .ok { t with type := some type } := by
          simp [Tag.withType, Tag.readType, hc, ha, hp]
        have hfill := congrArg Outcome.ok (Node.fill_type t (some type))
        rw [hp] at hread
        rw [hw]
        exact .tryCatch_ok (.bind (.ofExcept_ok rfl) (.bind hread (.pure_eq hfill)))
      | error e =>
        have hw : t.withType s.limit = .fail (.typeSyntax e) := by
          simp [Tag.withType, Tag.readType, hc, ha, hp]
        rw [hp] at hread
        rw [hw]
        exact .tryCatch_error (.bind (.ofExcept_ok rfl) hread.bind_error) (.pure _)

theorem withName_gives (t : Tag) : Gives s (withName host (.tag t)) (.ok (.tag t)) := by
  refine .bind (.ofExcept_ok (field_name t)) ?_
  cases hn : t.name with
  | none => exact .pure _
  | some name =>
    have hfill := Node.fill_name t t.name
    rw [hn] at hfill
    refine .bind (a := .ofText name) (.bind (.pure _) (.bind (.override _) (.pure _))) ?_
    exact .pure_eq (hfill.trans (by rw [← hn]))

/-- Splitting aside, the core handling of a tag. -/
theorem processTag_gives (t : Tag) :
    Gives s (processTag host (.tag t)) (.ok ((t.process s).map .tag)) := by
  refine .bind (withType_gives host t) ?_
  unfold Tag.process
  cases t.withType s.limit with
  | fail e => exact .pure _
  | reject r => exact .pure _
  | ok t =>
    refine .bind (withName_gives host t) (.bind (.ofExcept_ok (Node.normalize_tag t)) ?_)
    refine .bind .options (.bind (.ofExcept_ok (Node.validate_tag _ _)) (.bind (.write _) ?_))
    have hpolicy : (s.options (H := H)).policy = s.policy := rfl
    simp only [Outcome.andThen, hpolicy]
    cases (t.normalize.validate s.policy).1 with
    | fail e => exact .pure _
    | reject r => exact .pure _
    | ok t => exact .bind (withInline_tag host t) (.pure _)

theorem coreTag_gives (t : Tag) :
    Gives s (coreTag host (.tag t))
      (((t.process s).map Node.tag).settle s.strict.isTrue).1 :=
  .bind (processTag_gives host t) .settle

theorem pipeline_ofExcept_ok {α : Type} {x : Except Error α} {a : α} (h : x = .ok a) :
    Gives s (Pipeline.ofExcept x : Run H U α) (.ok a) := by
  rw [h]
  exact .pure a

/-- What is found for a node whose type is a text in a table without entries. -/
theorem handlersFor_nil {node : Node} {type : String} (h : node.key = .text type) :
    Pipeline.handlersFor ([] : List (String × List (Supplied H))) node = .ok [] := by
  simp only [Pipeline.handlersFor, Pipeline.find?, h]
  rfl

theorem runBefore_gives {type : String} (node : Node) (h : node.key = .text type) :
    Gives s (Pipeline.runBefore ({} : Pipeline H) host.call node) (.ok node) :=
  .bind (pipeline_ofExcept_ok (handlersFor_nil h)) (.pure node)

theorem runAfter_gives {type : String} (node : Node) (h : node.key = .text type) :
    Gives s (Pipeline.runAfter ({} : Pipeline H) host.call node) (.ok node) :=
  .bind (pipeline_ofExcept_ok (handlersFor_nil h)) (.pure node)

/-- Without handlers only the core handling is left. -/
theorem handle_gives {core : Node → Run H U (Option Node)} {t : Tag}
    {result : Except Error (Option Tag)}
    (h : Gives s (core (.tag t)) (Option.map Node.tag <$> result)) :
    Gives s (Pipeline.handle {} host.call core (.tag t)) (Option.map Node.tag <$> result) := by
  refine .bind (runBefore_gives host _ rfl) (.bind (pipeline_ofExcept_ok (a := none) rfl) ?_)
  cases result with
  | error e => exact h.bind_error
  | ok found =>
    refine .bind h ?_
    cases found with
    | none => exact .pure _
    | some t => exact .map (runAfter_gives host (.tag t) rfl)

/-- One tag line, with a pipeline that has no handlers. -/
theorem parseTagWith_gives (raw : String) :
    Gives s (parseTagWith host {} (.ofText raw))
      (Option.map Node.tag <$> ((Tag.ofLine s raw).settle s.strict.isTrue).1) := by
  refine .bind (.override _) (.bind (a := Tag.split raw) (.pure _) ?_)
  rw [Tag.ofLine, Outcome.settle_andThen, map_bind]
  refine .bind_except .settle fun t _ => ?_
  cases t with
  | none => exact .pure _
  | some t =>
    refine handle_gives host ?_
    rw [← Outcome.settle_map]
    exact coreTag_gives host t

/-- One tag line. -/
theorem parseTag_gives (raw : String) :
    Gives s (parseTag host (.ofText raw))
      (Option.map Node.tag <$> ((Tag.ofLine s raw).settle s.strict.isTrue).1) := by
  refine .get_bind fun p hp => ?_
  rw [hp.pipeline]
  exact parseTagWith_gives host raw

theorem parseEach_gives (lines : List String) :
    Gives s (parseEach host {} lines) (List.map Node.tag <$> Tag.ofLines s lines) := by
  induction lines with
  | nil => exact .pure _
  | cons raw rest ih =>
    have hpure : (List.map Node.tag <$> Tag.ofLines s (raw :: rest)) =
        (Option.map Node.tag <$> ((Tag.ofLine s raw).settle s.strict.isTrue).1) >>= fun tag =>
          (List.map Node.tag <$> Tag.ofLines s rest) >>= fun tags => .ok (tag.toList ++ tags) := by
      rw [Tag.ofLines]
      cases ((Tag.ofLine s raw).settle s.strict.isTrue).1 with
      | error e => rfl
      | ok tag =>
        cases Tag.ofLines s rest with
        | error e => rfl
        | ok tags => cases tag <;> rfl
    rw [hpure]
    exact .bind_except (parseTagWith_gives host raw) fun tag _ =>
      .bind_except ih fun tags _ => .pure _

theorem parseTagsWith_gives (body : Body) :
    Gives s (parseTagsWith host {} body) (List.map Node.tag <$> Tag.ofLines s body.tags) :=
  .bind (.override _) (parseEach_gives host body.tags)

theorem coreComment_keeps (b : Block) :
    Keeps s (Body.ofText s.gutters b.value) (coreComment host {} (.block b))
      ((fun tags => Node.comment (Comment.ofParts b (Body.ofText s.gutters b.value) tags)) <$>
        Tag.ofLines s (Body.ofText s.gutters b.value).tags) := by
  refine .after (.ofExcept_ok (a := .ofText b.value) rfl) ?_
  refine .after (a := Body.ofText s.gutters b.value) (.bind .options (.pure _)) ?_
  refine .bind (.addBody _) (.bind (.ofExcept_ok (a := .ofText b.raw) rfl) ?_)
  have hcode : (Node.ofOption Node.context b.code).asContext = .ok b.code := by
    cases b.code <;> rfl
  have htags := parseTagsWith_gives (s := s) (U := U) host (Body.ofText s.gutters b.value)
  cases hp : Tag.ofLines s (Body.ofText s.gutters b.value).tags with
  | error e =>
    rw [hp] at htags
    exact htags.bind_error
  | ok tags =>
    rw [hp] at htags
    refine .bind htags (.bind (.ofExcept_ok (a := Node.ofOption .context b.code) rfl) ?_)
    refine .bind (.ofExcept_ok hcode) ?_
    refine .bind (.ofExcept_ok (a := Node.ofOption .location b.location) rfl) ?_
    exact .ofExcept_ok (Node.ofParts_tags _ _ _ _ _)

theorem formatNode_gives (c : Comment) :
    Gives s (formatNode (.comment c) : Run H U Node)
      (.ok (.comment (if s.format.isTrue then c.format else c))) := by
  refine .bind .options ?_
  have hf : (s.options (H := H)).format = s.format := rfl
  rw [hf]
  cases s.format.isTrue with
  | true => exact .ofExcept_ok (Node.format_comment c)
  | false => exact .pure _

/-- All of a comment but the listeners. -/
def prepareComment (node : Node) : Run H U Node := do
  let pipeline := (← get).pipeline
  let node ← blockOf host node
  let node ← buildComment host pipeline node
  let node ← withInline host node
  let node ← pipeline.runBefore host.call node
  let node ← pipeline.runAfter host.call node
  formatNode node

theorem parseComment_eq (node : Node) :
    parseComment host node = do
      let node ← prepareComment host node
      let _ ← emit host "comment" [node]
      return node := by
  simp only [parseComment, prepareComment, bind_assoc]

theorem prepareComment_keeps {node : Node} {b : Block}
    (hb : Gives s (blockOf host node) (.ok (.block b))) :
    Keeps s (Body.ofText s.gutters b.value) (prepareComment host node)
      (Node.comment <$> Comment.ofBlock s b) := by
  refine .get_bind fun p hp => ?_
  rw [hp.pipeline]
  refine .after hb ?_
  have hbuild : Keeps s (Body.ofText s.gutters b.value) (buildComment host {} (.block b))
      ((fun tags => Node.comment (Comment.ofParts b (Body.ofText s.gutters b.value) tags)) <$>
        Tag.ofLines s (Body.ofText s.gutters b.value).tags) :=
    .after (.override _) (coreComment_keeps host b)
  rw [Comment.ofBlock]
  cases hp : Tag.ofLines s (Body.ofText s.gutters b.value).tags with
  | error e =>
    rw [hp] at hbuild
    exact hbuild.bind_error
  | ok tags =>
    rw [hp] at hbuild
    refine .bind hbuild (.bind (withInline_comment host _) ?_)
    refine .bind (runBefore_gives host _ rfl) (.bind (runAfter_gives host _ rfl) ?_)
    exact formatNode_gives _

variable {host} {p : Parser H U} {note : U → Node → U}

theorem Noting.of_kept (hp : p.Noting host note s) (comments : List Node) (bodies : List Body)
    (errors : List Error) (log : Log) (memory : U) :
    Noting host note s { p with comments, bodies, errors, log, memory } :=
  ⟨⟨hp.options, hp.pipeline, hp.stages⟩, hp.heard⟩

/-- A comment keeps its body whatever comes of it, and listeners are told of it if it is one. -/
theorem parseComment_run (hp : p.Noting host note s) {node : Node} {b : Block}
    (hb : Gives s (blockOf host node) (.ok (.block b))) :
    ∃ log, (parseComment host node).run.run p = (Node.comment <$> Comment.ofBlock s b, { p with
      log
      bodies := p.bodies ++ [Body.ofText s.gutters b.value]
      memory := ((Comment.ofBlock s b).toOption.toList.map .comment).foldl note p.memory }) := by
  obtain ⟨log, hprepare⟩ := prepareComment_keeps host hb p hp.toPlain
  refine ⟨log, ?_⟩
  rw [parseComment_eq]
  cases hc : Comment.ofBlock s b with
  | error e =>
    rw [hc] at hprepare
    exact bind_error hprepare
  | ok c =>
    rw [hc] at hprepare
    rw [bind_ok hprepare]
    obtain ⟨count, hemit⟩ := hp.heard (.comment c)
      { p with log, bodies := p.bodies ++ [Body.ofText s.gutters b.value] } rfl
    exact bind_ok hemit

end Parser

end DocComment
