import DocComment.Proofs.Parser.WellFormed
import DocComment.Proofs.TypeExpr.Braces

/-!
A type literal that is written in a tag. The clause ends where its braces are closed, quoted
ones included, and only then the literal inside is read. So the tag has the type of the literal
exactly if the braces of the literal match.
-/

namespace DocComment

open Text

namespace Tag

/-- The line of a tag that has a type and nothing else. -/
def typeLine (literal : String) : String := "@type \x7b" ++ literal ++ "\x7d"

theorem typeLine_toList (literal : String) :
    (typeLine literal).toList =
      "@type ".toList ++ '\x7b' :: (literal.toList ++ ['\x7d']) := by
  simp [typeLine]

theorem resolve_type : Title.resolve "type" = "type" := Title.resolve_known (by decide)

/-- The tag whose clause ends at this index. -/
def typeTag (literal : String) (last : Nat) : Tag where
  title := "type"
  rawType := some (String.ofList (('\x7b' :: (literal.toList ++ ['\x7d'])).take (last + 1)))
  description := trimmed (String.ofList
    (trimStart (('\x7b' :: (literal.toList ++ ['\x7d'])).drop (last + 1))))
  raw := typeLine literal

/-- The line has a title, and then a clause unless that would open a reference. -/
theorem split_typeLine {literal : String} (hat : literal.toList.head? ≠ some '@') :
    split (typeLine literal) =
      match braceClosing ('\x7b' :: (literal.toList ++ ['\x7d'])) with
      | none => .fail (.tagSyntax ⟨.unbalancedBraces "type", typeLine literal⟩)
      | some last => .ok (typeTag literal last) := by
  have htitle : titleOf (typeLine literal).toList =
      some ("type".toList, ' ' :: '\x7b' :: (literal.toList ++ ['\x7d'])) := by
    rw [typeLine_toList]
    rfl
  have hopens : opensType ('\x7b' :: (literal.toList ++ ['\x7d'])) = true := by
    cases hl : literal.toList with
    | nil => rfl
    | cons c rest =>
      have hc : c ≠ '@' := by
        rintro rfl
        exact hat (by rw [hl]; rfl)
      simp [opensType, hc]
  have hstart : trimStart (' ' :: '\x7b' :: (literal.toList ++ ['\x7d'])) =
      '\x7b' :: (literal.toList ++ ['\x7d']) := rfl
  unfold split splitParts
  simp only [htitle, hstart, typeClause, hopens, String.ofList_toList, resolve_type, if_true]
  cases braceClosing ('\x7b' :: (literal.toList ++ ['\x7d'])) with
  | none => rfl
  | some last => simp [named, Title.expectsName, Title.nameExpected, typeTag, trimmed, bind,
      Except.bind, pure, Except.pure]

theorem process_rawType {s : Switches} {t t' : Tag} (h : t.process s = .ok t') :
    t'.rawType = t.rawType := by
  obtain ⟨u, hw, h⟩ := Outcome.andThen_eq_ok.mp h
  obtain ⟨v, hv, rfl⟩ := Outcome.map_eq_ok.mp h
  have htype : u.rawType = t.rawType := by
    unfold Tag.withType at hw
    split at hw
    · cases hw
      rfl
    · cases hw
      rfl
    · cases hw
  have hpolicy : v.rawType = u.rawType := by
    obtain ⟨-, rfl⟩ := validate_eq_ok_iff.mp hv
    unfold permitted
    split
    · rfl
    · rfl
  have hreferences : (v.withReferences s.stripInline.isTrue).rawType = v.rawType := by
    unfold withReferences
    split <;> rfl
  rw [hreferences, hpolicy, htype]

/-- A type is what a tag of this title needs, and the policy lets it through as it is. -/
theorem process_typed {u : Tag} {t : TypeExpr} (htitle : u.title = "type") (hname : u.name = none)
    (hdescription : u.description = "") (htype : u.readType .standard = some (.ok t)) :
    u.process {} = .ok { u with type := some t } := by
  have hwith : u.withType ({} : Switches).limit = .ok { u with type := some t } := by
    have hlimit : ({} : Switches).limit = .standard := rfl
    rw [Tag.withType, hlimit, htype]
  have hnormal : ({ u with type := some t } : Tag).normalize = { u with type := some t } := by
    have htrim : trimmed "" = "" := rfl
    simp [Tag.normalize, htitle, hname, hdescription, resolve_type, htrim]
  have hjudge (rawType raw : String) :
      ({} : Switches).policy.judge "type" true rawType raw = {} := rfl
  have hvalid : (({ u with type := some t } : Tag).validate ({} : Switches).policy).1 =
      .ok { u with type := some t } := by
    simp only [Tag.validate, htitle, Option.isSome_some, hjudge]
    rfl
  rw [Tag.process, hwith, Outcome.andThen, hnormal, hvalid, Outcome.map, withReferences,
    hdescription]
  rfl

end Tag

namespace TypeExpr

/-- An at sign starts no token. -/
theorem parse_head {limit : Limit} {literal : String} {t : TypeExpr}
    (h : parse limit literal = .ok t) : literal.toList.head? ≠ some '@' := by
  intro hat
  obtain ⟨lexemes, hlex, -⟩ := parse_eq_ok.mp h
  obtain ⟨rest, hl⟩ := List.head?_eq_some_iff.mp hat
  have hscan : scan ('@' :: rest) = none := by
    rw [scan_of_head rfl]
    rfl
  rw [hl, lex, lexFrom, if_neg (by decide)] at hlex
  split at hlex
  · cases hlex
  · next hs =>
    rw [hscan] at hs
    cases hs

end TypeExpr

namespace Parser

variable {H U : Type} (host : Host H U) (memory : U)

/-- A parser without options makes a tag of this line that has the literal as its clause and
this type. -/
def KeepsType (literal : String) (t : TypeExpr) : Prop :=
  ∃ tag p, (parseTag host (.ofText (Tag.typeLine literal))).run.run (Parser.new {} memory) =
      (.ok (some (.tag tag)), p) ∧
    tag.rawType = some ("\x7b" ++ literal ++ "\x7d") ∧ tag.type = some t

/-- What a parser without options makes of one line. -/
theorem parseTag_new (raw : String) :
    ∃ p, (parseTag host (.ofText raw)).run.run (Parser.new {} memory) =
      (Option.map Node.tag <$> ((Tag.ofLine {} raw).settle false).1, p) := by
  have hplain : (Parser.new ({} : Options H) memory).Plain {} :=
    (bare_new ({} : Switches) memory).toPlain
  obtain ⟨log, hrun⟩ := parseTag_gives host raw _ hplain
  exact ⟨_, hrun⟩

variable {host memory} {literal : String} {t : TypeExpr}

theorem keepsType_of_bracesMatch (h : TypeExpr.parse .standard literal = .ok t)
    (hm : TypeExpr.BracesMatch literal.toList) : KeepsType host memory literal t := by
  have hclosing : braceClosing ('\x7b' :: (literal.toList ++ ['\x7d'])) =
      some (literal.toList.length + 1) := (closing_wrapped_iff (by decide)).mpr hm
  have hclause : (Tag.typeTag literal (literal.toList.length + 1)).rawType =
      some ("\x7b" ++ literal ++ "\x7d") := by
    rw [Tag.typeTag, List.take_of_length_le (by simp)]
    simp [String.ofList_cons, String.ofList_append, String.append_assoc]
  have hdescription : (Tag.typeTag literal (literal.toList.length + 1)).description = "" := by
    rw [Tag.typeTag, List.drop_of_length_le (by simp)]
    rfl
  have hline : Tag.ofLine {} (Tag.typeLine literal) =
      .ok { Tag.typeTag literal (literal.toList.length + 1) with type := some t } := by
    have hparse : (Tag.typeTag literal (literal.toList.length + 1)).readType .standard =
        some (.ok t) := by
      rw [Tag.readType, hclause, Option.map_some, Node.innerText_braces, h]
      rfl
    rw [Tag.ofLine, Tag.split_typeLine (TypeExpr.parse_head h), hclosing]
    exact Tag.process_typed rfl rfl hdescription hparse
  obtain ⟨p, hrun⟩ := parseTag_new host memory (Tag.typeLine literal)
  rw [hline] at hrun
  exact ⟨_, p, hrun, hclause, rfl⟩

theorem bracesMatch_of_keepsType (h : TypeExpr.parse .standard literal = .ok t)
    (hk : KeepsType host memory literal t) : TypeExpr.BracesMatch literal.toList := by
  obtain ⟨tag, p, hrun, hclause, -⟩ := hk
  obtain ⟨p', hrun'⟩ := parseTag_new host memory (Tag.typeLine literal)
  have hsettle : Option.map Node.tag <$> ((Tag.ofLine {} (Tag.typeLine literal)).settle false).1 =
      .ok (some (Node.tag tag)) := (Prod.mk.inj (hrun'.symm.trans hrun)).1
  have hline : Tag.ofLine {} (Tag.typeLine literal) = .ok tag := by
    cases ho : Tag.ofLine {} (Tag.typeLine literal) with
    | ok u =>
      rw [ho] at hsettle
      cases hsettle
      rfl
    | fail e =>
      rw [ho] at hsettle
      cases hsettle
    | reject r =>
      rw [ho] at hsettle
      cases hsettle
  obtain ⟨u, hsplit, hprocess⟩ := Outcome.andThen_eq_ok.mp hline
  rw [Tag.split_typeLine (TypeExpr.parse_head h)] at hsplit
  split at hsplit
  · cases hsplit
  · next last hl =>
    cases hsplit
    have htake := (Tag.process_rawType hprocess).symm.trans hclause
    obtain ⟨k, hk, rfl⟩ := (closing_eq_some_iff (by decide)).mp hl
    -- The clause is as long as the whole only if it ends with the last brace.
    have hlength := congrArg (Option.map fun s => s.toList.length) htake
    simp only [Tag.typeTag, Option.map_some, String.toList_ofList, List.take_succ_cons,
      List.length_cons, List.length_take, List.length_append, List.length_nil, Nat.zero_add,
      Option.some.injEq] at hlength
    have hinside := hk.inside
    simp only [List.length_append, List.length_singleton] at hinside
    have hwhole : ("\x7b" ++ literal ++ "\x7d").toList.length = literal.toList.length + 2 := by
      simp
    obtain rfl : k = literal.toList.length := by omega
    exact (closing_wrapped_iff (by decide)).mp hl

/-- A literal that is accepted keeps its type in a tag exactly if its braces match, those in
quotes counted with the others. They do if the braces of each string match. -/
theorem parseTag_keepsType (host : Host H U) (memory : U) {literal : String} {t : TypeExpr}
    (h : TypeExpr.parse .standard literal = .ok t) :
    (KeepsType host memory literal t ↔ TypeExpr.BracesMatch literal.toList) ∧
      ((∀ lexemes, TypeExpr.lex literal.toList = .ok lexemes →
          ∀ s, .string s ∈ lexemes.map (·.token) → TypeExpr.BracesMatch s.toList) →
        KeepsType host memory literal t) :=
  ⟨⟨bracesMatch_of_keepsType h, keepsType_of_bracesMatch h⟩,
    fun hs => keepsType_of_bracesMatch h (TypeExpr.bracesMatch_of_parse h hs)⟩

/-- Braces in quotes do no harm as long as they match. -/
theorem parseTag_keepsType_quoted :
    let host : Host Empty Unit := ⟨Empty.elim, Empty.elim⟩
    let literal := "\x7b'\x7b\x7d': \"\x7ba\x7d\"[]\x7d"
    let t : TypeExpr :=
      .record [.field "\x7b\x7d" (some (.generic "Array" [.literal "\"\x7ba\x7d\""]))]
    TypeExpr.parse .standard literal = .ok t ∧ KeepsType host () literal t := by
  intro host literal t
  have h : TypeExpr.parse .standard literal = .ok t := by decide +kernel
  exact ⟨h, (parseTag_keepsType host () h).1.mpr ((closing_wrapped_iff (by decide)).mp (by decide))⟩

/-- A closing brace in quotes ends the clause, and the literal with it. -/
theorem parseTag_loses_quoted_brace :
    let host : Host Empty Unit := ⟨Empty.elim, Empty.elim⟩
    TypeExpr.parse .standard "\"\x7d\"" = .ok (.literal "\"\x7d\"") ∧
      ¬ KeepsType host () "\"\x7d\"" (.literal "\"\x7d\"") := by
  intro host
  have h : TypeExpr.parse .standard "\"\x7d\"" = .ok (.literal "\"\x7d\"") := by decide +kernel
  exact ⟨h, fun hk => absurd (bracesMatch_of_keepsType h hk).equal (by decide)⟩

end Parser

end DocComment
