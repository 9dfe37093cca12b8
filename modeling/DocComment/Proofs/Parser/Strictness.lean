import DocComment.Proofs.Parser.Batch

/-!
Strict and lenient batches of the same source. Strictness has its say in two places only: a
faulty line fails its block instead of being left out, and a tag without the type that its
title needs is left out instead of being kept.
-/

namespace DocComment

namespace Tag

/-- Whether the title needs a type and there is none. -/
def lacksType (t : Tag) : Bool := Title.expectsType t.title && t.type.isNone

theorem validate_strict (closed : Bool) (t : Tag) :
    (t.validate ⟨true, closed⟩).1.value? =
      (t.validate ⟨false, closed⟩).1.value?.filter fun t => !t.lacksType := by
  simp only [validate, Policy.judge]
  cases hc : closed && !Title.isKnown t.title with
  | true => rfl
  | false =>
    cases he : Title.expectsType t.title <;> cases ha : Title.allowsType t.title <;>
      cases ht : t.type <;>
      simp [Verdict.outcome, Outcome.value?, lacksType, Option.filter, he, ht]

theorem withReferences_lacksType (strip : Bool) (t : Tag) :
    (t.withReferences strip).lacksType = t.lacksType := by
  unfold withReferences
  split <;> rfl

theorem map_withReferences_filter (strip : Bool) (found : Option Tag) :
    (found.filter fun t => !t.lacksType).map (withReferences strip) =
      (found.map (withReferences strip)).filter fun t => !t.lacksType := by
  have hkeep : (fun t : Tag => !t.lacksType) ∘ withReferences strip = fun t => !t.lacksType :=
    funext fun t => congrArg not (withReferences_lacksType strip t)
  rw [Option.filter_map, hkeep]

theorem found_strict (s : Switches) (raw : String) :
    found? { s with strict := .bool true } raw =
      (found? { s with strict := .bool false } raw).filter fun t => !t.lacksType := by
  unfold found? ofLine
  cases split raw with
  | fail e => rfl
  | reject r => rfl
  | ok t =>
    simp only [Outcome.andThen]
    unfold process
    cases t.withType s.limit with
    | fail e => rfl
    | reject r => rfl
    | ok t =>
      have h := validate_strict s.closedVocabulary.isTrue t.normalize
      simp only [Outcome.andThen, Outcome.value?_map]
      exact (congrArg (Option.map _) h).trans (map_withReferences_filter _ _)

end Tag

/-- Finishing looks at no tag's type, so it does not matter when tags are taken away. -/
theorem Comment.finish_filter (s : Switches) (c : Comment) :
    finish s { c with tags := c.tags.filter fun t => !t.lacksType } =
      { finish s c with tags := (finish s c).tags.filter fun t => !t.lacksType } := by
  have hformat : (fun t : Tag => !t.lacksType) ∘ Tag.format = fun t => !t.lacksType := rfl
  unfold finish withReferences
  cases c.description.isEmpty <;> cases s.format.isTrue <;>
    simp [Comment.format, List.filter_map, hformat]

theorem Comment.found_strict (s : Switches) (b : Block) :
    found { s with strict := .bool true } b =
      { found { s with strict := .bool false } b with
        tags := (found { s with strict := .bool false } b).tags.filter fun t => !t.lacksType } := by
  have hlines : (b.lines s).filterMap (Tag.found? { s with strict := .bool true }) =
      ((b.lines s).filterMap (Tag.found? { s with strict := .bool false })).filter
        fun t => !t.lacksType := by
    rw [List.filter_filterMap]
    congr 1
    exact funext fun raw => Tag.found_strict s raw
  have hparts := finish_filter s
    (ofParts b (Body.ofText s.gutters b.value)
      ((b.lines s).filterMap (Tag.found? { s with strict := .bool false })))
  refine Eq.trans ?_ hparts
  exact congrArg (fun tags => finish s (ofParts b (Body.ofText s.gutters b.value) tags)) hlines

namespace Parser

variable {H U : Type} (host : Host H U)

/-- Strict and lenient batches agree. A lenient one comes to a comment for every valid block
and notes no error. A strict one leaves out the blocks that have a faulty line, notes the
first fault of each, and takes from every other comment the tags that lack their type. -/
theorem parse_strictness (s : Switches) (source : String) {lenient strict : Parser H U}
    (hl : lenient.Bare { s with strict := .bool false })
    (hs : strict.Bare { s with strict := .bool true }) :
    ∃ comment : Block → Comment,
      (∀ b, (comment b).raw = b.raw ∧ (comment b).location = b.location) ∧
      ((parse host source).run.run lenient).1 =
        .ok ((Block.valid s source).map fun b => .comment (comment b)) ∧
      ((parse host source).run.run lenient).2.errors = [] ∧
      ((parse host source).run.run strict).1 =
        .ok (((Block.valid s source).filter fun b => (b.fault s).isNone).map fun b =>
          .comment { comment b with
            tags := (comment b).tags.filter fun t => !t.lacksType }) ∧
      ((parse host source).run.run strict).2.errors =
        (Block.valid s source).filterMap (Block.fault s) := by
  obtain ⟨_, _, hlenient⟩ := parse_run host source hl
  obtain ⟨_, _, hstrict⟩ := parse_run host source hs
  have hall : (Block.valid s source).filter (fun b =>
      (b.failure { s with strict := .bool false }).isNone) = Block.valid s source :=
    List.filter_eq_self.mpr fun _ _ => rfl
  have hnone : (Block.valid s source).filterMap
      (Block.failure { s with strict := .bool false }) = [] :=
    List.filterMap_eq_nil_iff.mpr fun _ _ => rfl
  refine ⟨Comment.found { s with strict := .bool false },
    fun b => ⟨Comment.finish_raw _ _, Comment.finish_location _ _⟩, ?_, ?_, ?_, ?_⟩
  · rw [hlenient, List.map_map]
    exact congrArg (fun blocks : List Block => Except.ok (blocks.map _)) hall
  · rw [hlenient]
    exact hnone
  · rw [hstrict, List.map_map]
    refine congrArg (fun comment => Except.ok (((Block.valid s source).filter fun b =>
      (b.fault s).isNone).map comment)) (funext fun b => ?_)
    exact congrArg Node.comment (Comment.found_strict s b)
  · rw [hstrict]
    rfl

/-- Of two blocks, one has a type that is not closed and the other a parameter without one. -/
theorem parse_strictness_unclosed_type :
    let host : Host Empty Unit := ⟨Empty.elim, Empty.elim⟩
    let source := "/** Adds.\n * @param \x7bx y\n */\n/** @param x\n * @returns {number} sum */"
    let batch (strict : Bool) := (parse host source).run.run
      (Parser.new (Switches.options { strict := .bool strict }) ())
    ((batch false).1.map List.length = .ok 2 ∧ (batch false).2.errors = []) ∧
      (batch true).1.map List.length = .ok 1 ∧
      (batch true).2.errors = [.tagSyntax ⟨.unbalancedBraces "param", "@param \x7bx y"⟩] := by
  intro host source batch
  obtain ⟨comment, -, hlenient, hnone, hstrict, herrors⟩ :=
    parse_strictness host {} source (bare_new _ ()) (bare_new _ ())
  have hfaults : (Block.valid {} source).map (Block.fault {}) =
      [some (.tagSyntax ⟨.unbalancedBraces "param", "@param \x7bx y"⟩), none] := by decide +kernel
  have hblocks : (Block.valid {} source).length = 2 := by
    rw [← List.length_map (Block.fault {}), hfaults]
    rfl
  have hsound : ((Block.valid {} source).filter fun b => (b.fault {}).isNone).length = 1 := by
    have hcount := List.countP_map (f := Block.fault {}) (p := Option.isNone)
      (l := Block.valid {} source)
    rw [hfaults] at hcount
    exact List.countP_eq_length_filter.symm.trans hcount.symm
  have hnoted : (Block.valid {} source).filterMap (Block.fault {}) =
      [.tagSyntax ⟨.unbalancedBraces "param", "@param \x7bx y"⟩] := by
    have hid := List.filterMap_map (f := Block.fault {}) (g := id) (l := Block.valid {} source)
    rw [hfaults] at hid
    exact hid.symm
  refine ⟨⟨?_, hnone⟩, ?_, herrors.trans hnoted⟩
  · exact (congrArg (Except.map List.length) hlenient).trans
      (congrArg Except.ok ((List.length_map _).trans hblocks))
  · exact (congrArg (Except.map List.length) hstrict).trans
      (congrArg Except.ok ((List.length_map _).trans hsound))

end Parser

end DocComment
