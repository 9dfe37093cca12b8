import DocComment.Proofs.Tag.Title
import DocComment.Proofs.Text.Classes
import DocComment.Proofs.Text.Closing
import DocComment.Proofs.Text.Trim
import DocComment.Tag.Policy
import DocComment.Tag.Split

/-!
What splitting a line gives. A tag that is split off has a canonical title and no type yet.
Its clause still has its braces, and a name or a default is only there if title and brackets
allow one.
-/

namespace DocComment

open Text

namespace Tag

theorem typeClause_ok {body rest clause : List Char}
    (h : typeClause body = .ok (some clause, rest)) :
    ∃ inner, clause = '\x7b' :: inner ++ ['\x7d'] := by
  unfold typeClause at h
  split at h
  · next ho =>
    split at h
    · cases h
    · next last hl =>
      cases h
      unfold opensType at ho
      split at ho
      · cases ho
      · exact take_closing hl
      · cases ho
  · cases h

/-- A name that has no brackets has no default either. One that has is trimmed and not empty. -/
theorem nameClause_ok {title : String} {body : List Char} {clause : NameClause}
    (h : nameClause title body = .ok clause) :
    (clause.default.isSome → clause.optional) ∧
      (clause.optional → ∃ name, clause.name = some name ∧ name ≠ [] ∧ trim name = name) := by
  unfold nameClause at h
  split at h
  · cases h
    refine ⟨fun h => ?_, fun h => ?_⟩
    · cases h
    · cases h
  · split at h
    · cases h
    · dsimp only at h
      split at h
      · cases h
      · next hn =>
        cases h
        refine ⟨fun _ => rfl, fun _ => ⟨_, rfl, ?_, trim_trim _⟩⟩
        intro he
        rw [he] at hn
        exact hn rfl
  · cases h
    refine ⟨fun h => ?_, fun h => ?_⟩
    · cases h
    · cases h

theorem splitParts_ok {raw : List Char} {t : Tag} (h : splitParts raw = .ok t) :
    ∃ spelling rest rawType body clause,
      titleOf raw = some (spelling, rest) ∧
      typeClause (trimStart rest) = .ok (rawType, body) ∧
      named (Title.resolve (String.ofList spelling)) body = .ok clause ∧
      t = {
        title := Title.resolve (String.ofList spelling)
        rawType := rawType.map String.ofList
        name := clause.name.map String.ofList
        optional := clause.optional
        default := clause.default.map String.ofList
        description := String.ofList (trim clause.rest)
        raw := String.ofList raw } := by
  unfold splitParts at h
  cases ht : titleOf raw with
  | none =>
    rw [ht] at h
    cases h
  | some parts =>
    obtain ⟨spelling, rest⟩ := parts
    rw [ht] at h
    dsimp only at h
    cases hc : typeClause (trimStart rest) with
    | error e =>
      rw [hc] at h
      cases h
    | ok parts =>
      obtain ⟨rawType, body⟩ := parts
      rw [hc] at h
      cases hn : named (Title.resolve (String.ofList spelling)) body with
      | error problem =>
        change (named _ body >>= _) = _ at h
        rw [hn] at h
        cases h
      | ok clause =>
        change (named _ body >>= _) = _ at h
        rw [hn] at h
        cases h
        exact ⟨spelling, rest, rawType, body, clause, rfl, hc, hn, rfl⟩

theorem named_ne_missingTitle (title : String) (body : List Char) :
    named title body ≠ .error .missingTitle := by
  intro h
  unfold named at h
  split at h
  · unfold nameClause at h
    split at h
    · cases h
    · split at h
      · cases h
      · dsimp only at h
        split at h
        · cases h
        · cases h
    · cases h
  · cases h

/-- A title is only missed where there is none to read. Later steps fail in other ways. -/
theorem titleOf_of_missingTitle {raw : List Char} (h : splitParts raw = .error .missingTitle) :
    titleOf raw = none := by
  by_contra hne
  obtain ⟨⟨spelling, rest⟩, ht⟩ := Option.ne_none_iff_exists'.mp hne
  unfold splitParts at h
  rw [ht] at h
  dsimp only at h
  cases hc : typeClause (trimStart rest) with
  | error e =>
    rw [hc] at h
    cases h
  | ok parts =>
    rw [hc] at h
    cases hn : named (Title.resolve (String.ofList spelling)) parts.2 with
    | error problem =>
      change (named _ parts.2 >>= _) = _ at h
      rw [hn] at h
      cases h
      exact named_ne_missingTitle _ _ hn
    | ok clause =>
      change (named _ parts.2 >>= _) = _ at h
      rw [hn] at h
      cases h

theorem titleOf_isSome {c : Char} (h : c.isAlpha = true) (rest : List Char) :
    (titleOf ('@' :: c :: rest)).isSome = true := by
  have htitle : isTitleChar c = true := by
    have hblank := isBlank_of_isAlpha h
    have hne : c ≠ '\x7b' ∧ c ≠ '\x7d' ∧ c ≠ '[' ∧ c ≠ ']' := by
      refine ⟨?_, ?_, ?_, ?_⟩ <;> rintro rfl <;> cases h
    simp [isTitleChar, hblank, hne]
  have hstart : trimStart ('@' :: c :: rest) = '@' :: c :: rest :=
    List.dropWhile_cons_of_neg (by decide)
  have htake : ('@' :: c :: rest).takeWhile isTitleChar =
      '@' :: c :: rest.takeWhile isTitleChar := by
    rw [List.takeWhile_cons_of_pos (by decide), List.takeWhile_cons_of_pos htitle]
  simp [titleOf, hstart, htake]

theorem split_ne_missingTitle {line : String} {c : Char} {rest : List Char}
    (hl : line.toList = '@' :: c :: rest) (hc : c.isAlpha = true) (raw : String) :
    split line ≠ .fail (.tagSyntax ⟨.missingTitle, raw⟩) := by
  intro h
  unfold split at h
  split at h
  · cases h
  · next problem hp =>
    cases h
    have htitle := titleOf_isSome hc rest
    rw [← hl, titleOf_of_missingTitle hp] at htitle
    cases htitle

/-- Title and name of a tag, from its split on. -/
structure Tidy (t : Tag) : Prop where
  title : Title.resolve t.title = t.title
  named : t.name.isSome → t.title ∈ Title.nameExpected
  default : t.default.isSome → t.optional
  optional : t.optional → ∃ name, t.name = some name ∧ name ≠ "" ∧ trimmed name = name

/-- A tag that is only split off its line. -/
structure Fresh (t : Tag) : Prop extends t.Tidy where
  untyped : t.type = none
  clause : ∀ clause, t.rawType = some clause → ∃ inner, clause = "\x7b" ++ inner ++ "\x7d"

theorem splitParts_fresh {raw : List Char} {t : Tag} (h : splitParts raw = .ok t) : t.Fresh := by
  obtain ⟨spelling, rest, rawType, body, clause, -, hc, hn, rfl⟩ := splitParts_ok h
  have hname : (clause.name.isSome → Title.expectsName (Title.resolve (String.ofList spelling))) ∧
      (clause.default.isSome → clause.optional) ∧
      (clause.optional → ∃ name, clause.name = some name ∧ name ≠ [] ∧ trim name = name) := by
    unfold named at hn
    split at hn
    · next he => exact ⟨fun _ => he, nameClause_ok hn⟩
    · cases hn
      refine ⟨fun h => ?_, fun h => ?_, fun h => ?_⟩
      · cases h
      · cases h
      · cases h
  obtain ⟨hexpected, hdefault, hoptional⟩ := hname
  refine ⟨⟨Title.resolve_idempotent _, ?_, ?_, ?_⟩, rfl, ?_⟩
  · intro h
    exact List.contains_iff_mem.mp (hexpected (Option.isSome_map.symm.trans h))
  · intro h
    exact hdefault (Option.isSome_map.symm.trans h)
  · intro h
    obtain ⟨name, hsome, hne, htrim⟩ := hoptional h
    refine ⟨String.ofList name, congrArg (Option.map String.ofList) hsome, ?_, ?_⟩
    · exact fun he => hne (String.ofList_eq_empty_iff.mp he)
    · rw [trimmed, String.toList_ofList, htrim]
  · intro text ht
    obtain ⟨clause, rfl, rfl⟩ := Option.map_eq_some_iff.mp ht
    obtain ⟨inner, rfl⟩ := typeClause_ok hc
    refine ⟨String.ofList inner, ?_⟩
    simp [String.ofList_append, String.append_assoc]

theorem split_ok {raw : String} {t : Tag} (h : split raw = .ok t) : t.Fresh ∧ t.raw = raw := by
  unfold split at h
  split at h
  · next t' hp =>
    cases h
    obtain ⟨spelling, rest, rawType, body, clause, -, -, -, rfl⟩ := splitParts_ok hp
    exact ⟨splitParts_fresh hp, String.ofList_toList⟩
  · cases h

end Tag

end DocComment
