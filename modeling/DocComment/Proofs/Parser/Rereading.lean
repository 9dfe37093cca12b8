import DocComment.Proofs.Block.Rescan
import DocComment.Proofs.Parser.Batch

/-!
A source in one batch, or each of its blocks as a text of its own. The text of a block stands
for the block itself, and what becomes of a block depends on its text alone. So the comments
differ only in where they stand and in the code that follows, and the errors not at all.
-/

namespace DocComment

/-- The comment with the surroundings of a block. -/
def Comment.placedAs (b : Block) (c : Comment) : Comment :=
  { c with location := b.location, code := b.code }

def Node.placedAs (b : Block) : Node → Node
  | .comment c => .comment (c.placedAs b)
  | node => node

/-- The error of what has failed. -/
def failure? {α : Type} : Except Error α → Option Error
  | .ok _ => none
  | .error e => some e

theorem failure?_map {α β : Type} (f : α → β) (x : Except Error α) :
    failure? (f <$> x) = failure? x := by
  cases x <;> rfl

theorem Comment.withReferences_placedAs (strip : Bool) (b : Block) (c : Comment) :
    (c.placedAs b).withReferences strip = (c.withReferences strip).placedAs b := by
  have hdescription : (c.placedAs b).description = c.description := rfl
  rw [withReferences, withReferences, hdescription]
  split <;> rfl

theorem Comment.finish_placedAs (s : Switches) (b : Block) (c : Comment) :
    (c.placedAs b).finish s = (c.finish s).placedAs b := by
  rw [finish, finish, withReferences_placedAs]
  split <;> rfl

/-- No step reads the surroundings of a block. -/
theorem Comment.ofBlock_alone (s : Switches) (b : Block) :
    Comment.placedAs b <$> ofBlock s b.alone = ofBlock s b := by
  have hvalue : b.alone.value = b.value := rfl
  rw [ofBlock, ofBlock, hvalue]
  cases Tag.ofLines s (Body.ofText s.gutters b.value).tags with
  | error e => rfl
  | ok tags =>
    have hparts : (ofParts b.alone (Body.ofText s.gutters b.value) tags).placedAs b =
        ofParts b (Body.ofText s.gutters b.value) tags := rfl
    exact congrArg Except.ok ((finish_placedAs s b _).symm.trans (congrArg (finish s) hparts))

theorem Block.ofText_raw {s : Switches} {source : String} {b : Block}
    (h : b ∈ Block.valid s source) : Block.ofText s b.raw = b.alone := by
  obtain ⟨hfound, hvalid⟩ := List.mem_filter.mp h
  have halone : isValid s.keepProtected.isTrue b.alone = true := hvalid
  rw [ofText, valid, extract_raw hfound, List.filter_cons_of_pos halone]
  rfl

namespace Comment

variable (s : Switches) (blocks : List Block)

theorem filterMap_ofBlock :
    (blocks.map fun b => Node.comment <$> ofBlock s b).filterMap Except.toOption =
      ((blocks.filter fun b => (b.failure s).isNone).map (found s)).map .comment := by
  induction blocks with
  | nil => rfl
  | cons b blocks ih =>
    rw [List.map_cons, ofBlock_eq]
    cases hb : b.failure s with
    | none =>
      rw [List.filter_cons_of_pos (by rw [hb]; rfl), List.map_cons, List.map_cons, ← ih]
      rfl
    | some e =>
      rw [List.filter_cons_of_neg (by rw [hb]; simp), ← ih]
      rfl

theorem filterMap_failure :
    (blocks.map fun b => Node.comment <$> ofBlock s b).filterMap failure? =
      blocks.filterMap (Block.failure s) := by
  rw [List.filterMap_map]
  refine List.filterMap_congr fun b _ => ?_
  rw [Function.comp, ofBlock_eq]
  cases b.failure s <;> rfl

end Comment

namespace Parser

variable {H U : Type} {host : Host H U} {s : Switches} {p q : Parser H U}
  {note note' : U → Node → U}

/-- The text of a valid block, as a comment. -/
theorem parseComment_raw {source : String} {b : Block} (hb : b ∈ Block.valid s source)
    (hq : q.Noting host note s) :
    ((parseComment host (.ofText b.raw)).run.run q).1 =
      Node.comment <$> Comment.ofBlock s b.alone := by
  obtain ⟨log, hrun⟩ := parseComment_run hq (blockOf_text host b.raw)
  rw [hrun, Block.ofText_raw hb]

/-- A batch comes to what its blocks come to as texts of their own, put back in their places. -/
theorem parse_eq_texts (source : String) (hp : p.Noting host note s)
    (hq : q.Noting host note' s) :
    let batch := (parse host source).run.run p
    let alone (b : Block) := ((parseComment host (.ofText b.raw)).run.run q).1
    let tries := (Block.valid s source).map fun b => Node.placedAs b <$> alone b
    batch.1 = .ok (tries.filterMap Except.toOption) ∧
      batch.2.errors = tries.filterMap failure? ∧
      ∀ b ∈ Block.valid s source, (∃ c, alone b = .ok (.comment c)) ∨
        ∃ e, alone b = .error e ∧ e.isParseError = true := by
  intro batch alone tries
  -- Put back in its place, a block by itself comes to what it comes to among the others.
  have htries : tries =
      (Block.valid s source).map fun b => Node.comment <$> Comment.ofBlock s b := by
    refine List.map_congr_left fun b hb => ?_
    rw [show alone b = _ from parseComment_raw hb hq, ← Comment.ofBlock_alone s b]
    cases Comment.ofBlock s b.alone <;> rfl
  obtain ⟨log, hbatch⟩ := parse_noted source hp
  rw [htries, Comment.filterMap_ofBlock, Comment.filterMap_failure]
  refine ⟨congrArg Prod.fst hbatch, congrArg (fun result => result.2.errors) hbatch, ?_⟩
  intro b hb
  rw [show alone b = _ from parseComment_raw hb hq, Comment.ofBlock_eq]
  cases he : b.alone.failure s with
  | none => exact .inl ⟨_, rfl⟩
  | some e => exact .inr ⟨e, rfl, Block.failure_isParseError he⟩

/-- Of two blocks one has a type that is not closed, and fails alike in both ways. -/
theorem parse_eq_texts_unclosed_type :
    let host : Host Empty Unit := ⟨Empty.elim, Empty.elim⟩
    let fresh : Parser Empty Unit := Parser.new (Switches.options { strict := .bool true }) ()
    let texts := ["/** Adds.\n * @param \x7bx y\n */", "/** @returns {number} sum */"]
    let batch := (parse host ("\nvar a\n".intercalate texts)).run.run fresh
    let failed (text : String) := failure? ((parseComment host (.ofText text)).run.run fresh).1
    texts.map failed =
        [some (.tagSyntax ⟨.unbalancedBraces "param", "@param \x7bx y"⟩), none] ∧
      batch.1.isOk = true ∧ batch.2.errors = texts.filterMap failed := by
  intro host fresh texts batch failed
  have hnoting := (bare_new (H := Empty) { strict := .bool true } ()).noting host
  obtain ⟨hcomments, herrors, -⟩ :=
    parse_eq_texts ("\nvar a\n".intercalate texts) hnoting hnoting
  have htexts : (Block.valid { strict := .bool true } ("\nvar a\n".intercalate texts)).map
      (·.raw) = texts := by decide +kernel
  refine ⟨by decide +kernel, congrArg Except.isOk hcomments, ?_⟩
  refine herrors.trans (Eq.trans ?_ (congrArg (List.filterMap failed) htexts))
  rw [List.filterMap_map, List.filterMap_map]
  exact List.filterMap_congr fun b _ => failure?_map _ _

end Parser

end DocComment
