import DocComment.Proofs.Parser.Batch
import DocComment.Proofs.Tag.Policy
import DocComment.Proofs.Tag.Split

/-!
The tags of a batch are well formed. Splitting leaves a tidy tag without a type, reading the
type fills it in from the clause, and the policy lets only tags through that it has nothing
against. The last steps touch descriptions alone.
-/

namespace DocComment

theorem Node.innerText_braces (inner : String) :
    innerText ("\x7b" ++ inner ++ "\x7d") = inner := by
  simp [innerText, String.toList_append]

namespace Tag

/-- The type of a tag is what its clause reads as, where the title allows one. -/
structure Typed (limit : TypeExpr.Limit) (t : Tag) : Prop where
  refused : t.title ∈ Title.typeForbidden → t.type = none
  present : t.title ∉ Title.typeForbidden → (t.type.isSome ↔ t.rawType.isSome)
  clause : ∀ type, t.type = some type →
    ∃ inner, t.rawType = some ("\x7b" ++ inner ++ "\x7d") ∧ TypeExpr.parse limit inner = .ok type

/-- Nothing is wrong with a tag, and the policy of the switches has nothing against it. -/
structure WellFormed (s : Switches) (t : Tag) : Prop extends t.Tidy, t.Typed s.limit where
  known : s.closedVocabulary.isTrue → t.title ∈ Title.known
  needed : s.strict.isTrue → t.title ∈ Title.typeRequired → t.type.isSome

theorem Fresh.withType {limit : TypeExpr.Limit} {t t' : Tag} (ht : t.Fresh)
    (h : t.withType limit = .ok t') : t'.Tidy ∧ t'.Typed limit ∧ t'.raw = t.raw := by
  unfold Tag.withType readType at h
  cases ha : Title.allowsType t.title with
  | false =>
    have hrefused := Title.allowsType_eq_false.mp ha
    rw [ha, if_neg (by decide)] at h
    cases h
    refine ⟨ht.toTidy, ⟨fun _ => ht.untyped, fun hn => absurd hrefused hn, ?_⟩, rfl⟩
    rw [ht.untyped]
    rintro _ ⟨⟩
  | true =>
    have hallowed := Title.allowsType_eq_true.mp ha
    rw [ha, if_pos rfl] at h
    cases hc : t.rawType with
    | none =>
      rw [hc] at h
      cases h
      refine ⟨ht.toTidy, ⟨fun hf => absurd hf hallowed, fun _ => ?_, ?_⟩, rfl⟩
      · rw [ht.untyped, hc]
        exact Iff.rfl
      · rw [ht.untyped]
        rintro _ ⟨⟩
    | some clause =>
      obtain ⟨inner, rfl⟩ := ht.clause clause hc
      rw [hc, Option.map_some, Node.innerText_braces] at h
      cases hp : TypeExpr.parse limit inner with
      | error e =>
        rw [hp] at h
        cases h
      | ok type =>
        rw [hp] at h
        cases h
        refine ⟨⟨ht.title, ht.named, ht.default, ht.optional⟩,
          ⟨fun hf => absurd hf hallowed, fun _ => ?_, ?_⟩, rfl⟩
        · simp only [Option.isSome_some]
        · intro type' htype
          exact ⟨inner, rfl, hp.trans (congrArg Except.ok (Option.some.inj htype))⟩

theorem trimmedName_eq_some {name : String} (hne : name ≠ "") (h : trimmed name = name) :
    trimmedName name = some name := by
  have hblank : (Text.trim name.toList).isEmpty = false := by
    rw [trimmed] at h
    cases ht : Text.trim name.toList with
    | nil =>
      rw [ht] at h
      exact absurd h.symm hne
    | cons c rest => rfl
  rw [trimmedName, hblank, if_neg (by decide), h]

/-- The normal form of a tidy tag differs in the description alone. -/
theorem Tidy.normalize {t : Tag} (ht : t.Tidy) :
    t.normalize.Tidy ∧ t.normalize.title = t.title := by
  refine ⟨⟨?_, ?_, ht.default, ?_⟩, ht.title⟩
  · exact Title.resolve_idempotent t.title
  · intro hn
    have hname : t.name.isSome := by
      cases h : t.name with
      | none =>
        rw [Tag.normalize, h] at hn
        exact hn
      | some name => rfl
    have htitle : t.normalize.title = t.title := ht.title
    rw [htitle]
    exact ht.named hname
  · intro ho
    obtain ⟨name, hname, hne, htrim⟩ := ht.optional ho
    refine ⟨name, ?_, hne, htrim⟩
    rw [Tag.normalize, hname]
    exact trimmedName_eq_some hne htrim

theorem Typed.normalize {limit : TypeExpr.Limit} {t : Tag} (ht : t.Typed limit)
    (htitle : t.normalize.title = t.title) : t.normalize.Typed limit := by
  refine ⟨?_, ?_, ht.clause⟩
  · rw [htitle]
    exact ht.refused
  · rw [htitle]
    exact ht.present

/-- The policy takes no type from a typed tag. -/
theorem Typed.validate {limit : TypeExpr.Limit} {policy : Policy} {t t' : Tag}
    (ht : t.Typed limit) (h : (t.validate policy).1 = .ok t') :
    t' = t ∧ (policy.closedVocabulary → t.title ∈ Title.known) ∧
      (policy.strict → t.title ∈ Title.typeRequired → t.type.isSome) := by
  obtain ⟨hallows, rfl⟩ := validate_eq_ok_iff.mp h
  have hkept : t.permitted = t := by
    unfold permitted
    split
    · rfl
    · next ha =>
      rw [← ht.refused (Title.allowsType_eq_false.mp (Bool.eq_false_iff.mpr ha))]
  exact ⟨hkept, hallows.known, hallows.needed⟩

theorem withReferences_raw (strip : Bool) (t : Tag) : (t.withReferences strip).raw = t.raw := by
  unfold withReferences
  split <;> rfl

theorem WellFormed.withReferences {s : Switches} {t : Tag} {strip : Bool} (ht : t.WellFormed s) :
    (t.withReferences strip).WellFormed s := by
  unfold Tag.withReferences
  split
  · exact ht
  · exact ⟨⟨ht.title, ht.named, ht.default, ht.optional⟩, ⟨ht.refused, ht.present, ht.clause⟩,
      ht.known, ht.needed⟩

theorem process_wellFormed {s : Switches} {t t' : Tag} (ht : t.Fresh)
    (h : t.process s = .ok t') : t'.WellFormed s ∧ t'.raw = t.raw := by
  obtain ⟨u, hw, h⟩ := Outcome.andThen_eq_ok.mp h
  obtain ⟨v, hv, rfl⟩ := Outcome.map_eq_ok.mp h
  obtain ⟨htidy, htyped, hraw⟩ := ht.withType hw
  obtain ⟨hnormal, htitle⟩ := htidy.normalize
  have hnormalTyped := htyped.normalize htitle
  obtain ⟨rfl, hknown, hneeded⟩ := hnormalTyped.validate hv
  have hwell : u.normalize.WellFormed s := ⟨hnormal, hnormalTyped, hknown, hneeded⟩
  exact ⟨hwell.withReferences, (withReferences_raw _ _).trans hraw⟩

theorem found_wellFormed {s : Switches} {raw : String} {t : Tag} (h : found? s raw = some t) :
    t.WellFormed s ∧ t.raw = raw := by
  obtain ⟨u, hs, hp⟩ := Outcome.andThen_eq_ok.mp (Outcome.value?_eq_some.mp h)
  obtain ⟨hfresh, hraw⟩ := split_ok hs
  obtain ⟨hwell, ht⟩ := process_wellFormed hfresh hp
  exact ⟨hwell, ht.trans hraw⟩

theorem WellFormed.format {s : Switches} {t : Tag} (ht : t.WellFormed s) :
    t.format.WellFormed s := by
  unfold Tag.format
  exact ⟨⟨ht.title, ht.named, ht.default, ht.optional⟩, ⟨ht.refused, ht.present, ht.clause⟩,
    ht.known, ht.needed⟩

/-- The lines that come to a tag are told by the tags. -/
theorem raws_sublist (s : Switches) (lines : List String) :
    ((lines.filterMap (found? s)).map Tag.raw).Sublist lines := by
  induction lines with
  | nil => exact .slnil
  | cons raw lines ih =>
    cases hf : found? s raw with
    | none =>
      rw [List.filterMap_cons_none hf]
      exact ih.cons raw
    | some t =>
      rw [List.filterMap_cons_some hf, List.map_cons, (found_wellFormed hf).2]
      exact ih.cons_cons raw

end Tag

theorem Comment.finish_raws (s : Switches) (c : Comment) :
    (c.finish s).tags.map Tag.raw = c.tags.map Tag.raw := by
  have hformat : Tag.raw ∘ Tag.format = Tag.raw := rfl
  unfold finish withReferences
  cases c.description.isEmpty <;> cases s.format.isTrue <;> simp [format, hformat]

theorem Comment.finish_wellFormed {s : Switches} {c : Comment}
    (hc : ∀ t ∈ c.tags, t.WellFormed s) : ∀ t ∈ (c.finish s).tags, t.WellFormed s := by
  have htags : (c.withReferences s.stripInline.isTrue).tags = c.tags := by
    unfold withReferences
    split <;> rfl
  intro t ht
  unfold finish at ht
  dsimp only at ht
  split at ht
  · obtain ⟨u, hu, rfl⟩ := List.mem_map.mp ht
    rw [htags] at hu
    exact (hc u hu).format
  · rw [htags] at ht
    exact hc t ht

/-- What a block has to do with the comment that is made of it. -/
structure Comment.Of (s : Switches) (b : Block) (c : Comment) : Prop where
  raw : c.raw = b.raw
  location : c.location = b.location
  lines : (c.tags.map Tag.raw).Sublist (b.lines s)
  wellFormed : ∀ t ∈ c.tags, t.WellFormed s

theorem Comment.found_of (s : Switches) (b : Block) : (found s b).Of s b := by
  refine ⟨finish_raw _ _, finish_location _ _, ?_, ?_⟩
  · rw [found, finish_raws]
    exact Tag.raws_sublist s (b.lines s)
  · refine finish_wellFormed fun t ht => ?_
    obtain ⟨raw, -, hf⟩ := List.mem_filterMap.mp ht
    exact (Tag.found_wellFormed hf).1

namespace Parser

variable {H U : Type} (host : Host H U)

/-- A batch comes to comments of valid blocks, in order and with well-formed tags only. -/
theorem parse_wellFormed (s : Switches) (source : String) {p : Parser H U} (hp : p.Bare s) :
    ∃ (blocks : List Block) (comment : Block → Comment),
      blocks.Sublist (Block.valid s source) ∧
      ((parse host source).run.run p).1 = .ok (blocks.map fun b => .comment (comment b)) ∧
      ∀ b ∈ blocks, (comment b).Of s b := by
  obtain ⟨_, _, hrun⟩ := parse_run host source hp
  refine ⟨(Block.valid s source).filter fun b => (b.failure s).isNone, Comment.found s,
    List.filter_sublist, ?_, fun b _ => Comment.found_of s b⟩
  rw [hrun, List.map_map]
  rfl

/-- A title under its alias, with an optional name, passes every switch. -/
theorem parse_wellFormed_alias :
    let host : Host Empty Unit := ⟨Empty.elim, Empty.elim⟩
    let s : Switches := { strict := .bool true, closedVocabulary := .bool true }
    let source := "/** Adds.\n * @Arg \x7bnumber?\x7d [x = 1] first\n */"
    ∃ c : Comment, c.tags.map Tag.raw = ["@Arg \x7bnumber?\x7d [x = 1] first"] ∧
      ((parse host source).run.run (Parser.new s.options ())).1 = .ok [.comment c] ∧
      ∀ t ∈ c.tags, t.WellFormed s := by
  intro host s source
  obtain ⟨blocks, comment, hblocks, hresult, hof⟩ :=
    parse_wellFormed host s source (bare_new s ())
  have hraws : ((parse host source).run.run (Parser.new s.options ())).1.toOption.map
      (List.map fun node =>
        (((node.field "tags").toOption.bind (Node.each? Node.tag?)).getD []).map Tag.raw) = some [["@Arg \x7bnumber?\x7d [x = 1] first"]] := by decide +kernel
  rw [hresult] at hraws
  obtain ⟨node, hnode, hlines⟩ := List.map_eq_singleton_iff.mp (Option.some.inj hraws)
  obtain ⟨b, rfl, rfl⟩ := List.map_eq_singleton_iff.mp hnode
  have htags : ((Node.comment (comment b)).field "tags").toOption.bind (Node.each? Node.tag?) =
      some (comment b).tags := Node.each?_map .tag Node.tag? (fun _ => rfl) _
  rw [htags] at hlines
  exact ⟨comment b, hlines, hresult, (hof b List.mem_cons_self).wellFormed⟩

end Parser

end DocComment
