import DocComment.Proofs.Parser.Reading
import Mathlib.Data.List.Basic

/-!
What a plain parser makes of a whole source, if nobody listens. Every valid block gives a
comment or, in strict mode, an error of the parsed text. Neither stops the batch, and the
parser ends with the errors of this batch alone.
-/

namespace DocComment

namespace Tag

/-- What is wrong with a line: it cannot be split, or its type cannot be read where its title
allows one. -/
def fault (limit : TypeExpr.Limit) (raw : String) : Option Error :=
  match split raw with
  | .fail e => some e
  | .reject _ => none
  | .ok t =>
    match t.readType limit with
    | some (.error e) => some (.typeSyntax e)
    | _ => none

/-- The tag of a line, if it comes to one. -/
def found? (s : Switches) (raw : String) : Option Tag := (ofLine s raw).value?

/-- The policy rejects but never fails. -/
theorem validate_ne_fail (policy : Policy) (t : Tag) (e : Error) :
    (t.validate policy).1 ≠ .fail e := by
  unfold validate Verdict.outcome
  dsimp only
  split <;> simp

theorem process_fail {s : Switches} {t : Tag} {e : Error} :
    t.process s = .fail e ↔ t.withType s.limit = .fail e := by
  unfold process
  cases ht : t.withType s.limit with
  | fail e' => exact Iff.rfl
  | reject r => exact Iff.rfl
  | ok t =>
    simp only [Outcome.andThen, reduceCtorEq, iff_false]
    cases hv : (t.normalize.validate s.policy).1 with
    | fail e' => exact absurd hv (validate_ne_fail _ _ _)
    | ok t => simp [Outcome.map]
    | reject r => simp [Outcome.map]

theorem ofLine_fail {s : Switches} {raw : String} {e : Error} :
    ofLine s raw = .fail e ↔ fault s.limit raw = some e := by
  unfold ofLine fault
  cases split raw with
  | fail e' => simp [Outcome.andThen]
  | reject r => simp [Outcome.andThen]
  | ok t =>
    simp only [Outcome.andThen]
    rw [process_fail, withType]
    rcases t.readType s.limit with _ | (e' | type) <;> simp

theorem split_fail {raw : String} {e : Error} (h : split raw = .fail e) :
    ∃ problem, e = .tagSyntax ⟨problem, raw⟩ := by
  unfold split at h
  split at h
  · cases h
  · cases h
    exact ⟨_, rfl⟩

theorem fault_isParseError {limit : TypeExpr.Limit} {raw : String} {e : Error}
    (h : fault limit raw = some e) : e.isParseError = true := by
  unfold fault at h
  split at h
  · next e' hs =>
    obtain rfl := Option.some.inj h
    obtain ⟨problem, rfl⟩ := split_fail hs
    rfl
  · cases h
  · split at h
    · obtain rfl := Option.some.inj h
      rfl
    · cases h

/-- A line settles to its tag, unless it has a fault that counts. -/
theorem settle_ofLine (s : Switches) (raw : String) :
    ((ofLine s raw).settle s.strict.isTrue).1 =
      match if s.strict.isTrue then fault s.limit raw else none with
      | some e => .error e
      | none => .ok (found? s raw) := by
  cases ho : ofLine s raw with
  | fail e =>
    rw [ofLine_fail.mp ho, found?, ho]
    cases s.strict.isTrue <;> rfl
  | ok t | reject r =>
    have hf : fault s.limit raw = none := by
      cases hf : fault s.limit raw with
      | none => rfl
      | some e =>
        rw [ofLine_fail.mpr hf] at ho
        cases ho
    rw [hf, found?, ho, ite_self]
    rfl

theorem toList_found (s : Switches) (raw : String) (lines : List String) :
    (found? s raw).toList ++ lines.filterMap (found? s) =
      (raw :: lines).filterMap (found? s) := by
  rw [List.filterMap_cons]
  cases found? s raw <;> rfl

theorem ofLines_lenient {s : Switches} (hs : s.strict.isTrue = false) (lines : List String) :
    ofLines s lines = .ok (lines.filterMap (found? s)) := by
  induction lines with
  | nil => rfl
  | cons raw lines ih =>
    rw [ofLines, settle_ofLine, ih, hs, ← toList_found]
    rfl

/-- The first fault fails all lines. -/
theorem ofLines_strict {s : Switches} (hs : s.strict.isTrue = true) (lines : List String) :
    ofLines s lines =
      match lines.findSome? (fault s.limit) with
      | some e => .error e
      | none => .ok (lines.filterMap (found? s)) := by
  induction lines with
  | nil => rfl
  | cons raw lines ih =>
    rw [ofLines, settle_ofLine, ih, hs, ← toList_found, List.findSome?_cons]
    cases fault s.limit raw with
    | some e => rfl
    | none => cases lines.findSome? (fault s.limit) <;> rfl

end Tag

/-- The blocks of a source that are parsed at all. -/
def Block.valid (s : Switches) (source : String) : List Block :=
  (extract source).filter (isValid s.keepProtected.isTrue)

/-- The block that a text stands for: the first valid one in it, or else one of its own. -/
def Block.ofText (s : Switches) (text : String) : Block :=
  (Block.valid s text).headD { raw := text, value := text }

/-- The tag lines of a block. -/
def Block.lines (s : Switches) (b : Block) : List String := (Body.ofText s.gutters b.value).tags

/-- The first fault among the tag lines of a block. -/
def Block.fault (s : Switches) (b : Block) : Option Error :=
  (b.lines s).findSome? (Tag.fault s.limit)

namespace Comment

/-- The comment of a block, with the tags of all lines that come to one. -/
def found (s : Switches) (b : Block) : Comment :=
  (ofParts b (Body.ofText s.gutters b.value) ((b.lines s).filterMap (Tag.found? s))).finish s

theorem ofBlock_lenient {s : Switches} (hs : s.strict.isTrue = false) (b : Block) :
    ofBlock s b = .ok (found s b) := by
  rw [ofBlock, Tag.ofLines_lenient hs]
  rfl

theorem ofBlock_strict {s : Switches} (hs : s.strict.isTrue = true) (b : Block) :
    ofBlock s b = match b.fault s with
      | some e => .error e
      | none => .ok (found s b) := by
  rw [ofBlock, Tag.ofLines_strict hs, Block.fault, Block.lines]
  cases (Body.ofText s.gutters b.value).tags.findSome? (Tag.fault s.limit) <;> rfl

end Comment

/-- The fault that leaves a block out. -/
def Block.failure (s : Switches) (b : Block) : Option Error :=
  if s.strict.isTrue then b.fault s else none

theorem Block.failure_isParseError {s : Switches} {b : Block} {e : Error}
    (h : b.failure s = some e) : e.isParseError = true := by
  unfold Block.failure at h
  split at h
  · obtain ⟨raw, -, hf⟩ := List.exists_of_findSome?_eq_some h
    exact Tag.fault_isParseError hf
  · cases h

theorem Comment.ofBlock_eq (s : Switches) (b : Block) :
    ofBlock s b = match b.failure s with
      | some e => .error e
      | none => .ok (found s b) := by
  cases hs : s.strict.isTrue with
  | false => rw [ofBlock_lenient hs, Block.failure, hs, if_neg (by decide)]
  | true => rw [ofBlock_strict hs, Block.failure, hs, if_pos rfl]

/-- The comments of a source, one for each valid block without a failure. -/
def Comment.ofSource (s : Switches) (source : String) : List Comment :=
  ((Block.valid s source).filter fun b => (b.failure s).isNone).map (found s)

namespace Parser

variable {H U : Type} {s : Switches} (host : Host H U)

open Run

theorem isValid_gives (b : Block) :
    Gives s (isValid host (.block b)) (.ok (Block.isValid s.keepProtected.isTrue b)) :=
  .bind .options (.bind (.ofExcept_ok (a := b.raw) rfl) (.bind (.ofExcept_ok (a := b.value) rfl)
    (.pure _)))

theorem keepValid_gives (blocks : List Block) :
    Gives s (keepValid host (blocks.map .block))
      (.ok ((blocks.filter (Block.isValid s.keepProtected.isTrue)).map .block)) := by
  induction blocks with
  | nil => exact .pure _
  | cons b blocks ih =>
    refine .bind (isValid_gives host b) ?_
    cases hb : Block.isValid s.keepProtected.isTrue b with
    | true =>
      rw [List.filter_cons_of_pos hb]
      exact .bind (.bind .options (.pure _)) (.bind ih (.pure _))
    | false =>
      rw [List.filter_cons_of_neg (Bool.eq_false_iff.mp hb)]
      exact ih

theorem extract_gives (source : String) :
    Gives s (extract host (.ofText source)) (.ok ((Block.valid s source).map .block)) :=
  .bind (.bind .options (.pure _)) (keepValid_gives host _)

theorem blockOf_text (text : String) :
    Gives s (blockOf host (.ofText text)) (.ok (.block (Block.ofText s text))) := by
  refine .bind (extract_gives host text) ?_
  rw [Block.ofText]
  cases Block.valid s text with
  | nil => exact .pure _
  | cons b blocks => exact .pure _

theorem lineText_block (b : Block) : ∃ line, (Node.block b).lineText = .ok line := by
  obtain ⟨_, _, location, _⟩ := b
  cases location with
  | none => exact ⟨"?", rfl⟩
  | some l => exact ⟨_, rfl⟩

/-- A failure is noted and the comment left out. -/
theorem skip_run (p : Parser H U) (b : Block) {e : Error} (he : e.isParseError = true) :
    ∃ log, (skip (.block b) e).run.run p =
      (.ok none, { p with log, errors := p.errors ++ [e] }) := by
  obtain ⟨line, hline⟩ := lineText_block b
  refine ⟨p.log ++ [.warning ("Skipping comment at line " ++ line ++ ": " ++ e.message)], ?_⟩
  rw [skip, if_pos he, hline]
  rfl

variable {host} {note : U → Node → U}

/-- Comments for the blocks without a failure, errors for the others, in order. Each block
leaves its body behind. -/
theorem parseBlocks_run (blocks : List Block) {p : Parser H U} (hp : p.Noting host note s) :
    let comments := (blocks.filter fun b => (b.failure s).isNone).map (Comment.found s)
    ∃ log, (parseBlocks host (blocks.map .block)).run.run p =
      (.ok (comments.map .comment), { p with
        log
        bodies := p.bodies ++ blocks.map (Body.ofText s.gutters ·.value)
        errors := p.errors ++ blocks.filterMap (Block.failure s)
        memory := (comments.map .comment).foldl note p.memory }) := by
  induction blocks generalizing p with
  | nil =>
    refine ⟨p.log, ?_⟩
    simp only [List.map_nil, List.filterMap_nil, List.filter_nil, List.append_nil]
    rfl
  | cons b blocks ih =>
    have hblock : Gives s (blockOf host (.block b)) (.ok (.block b)) := .pure _
    obtain ⟨log, hparse⟩ := parseComment_run hp hblock
    rw [Comment.ofBlock_eq] at hparse
    rw [List.map_cons (f := fun b : Block => Body.ofText s.gutters b.value), List.append_cons]
    cases hb : b.failure s with
    | none =>
      rw [hb] at hparse
      have hfirst := tryCatch_ok (skip (.block b)) (map_run (g := some) hparse)
      obtain ⟨log', hrest⟩ := ih (hp.of_kept p.comments _ p.errors log _)
      refine ⟨log', ?_⟩
      rw [List.filterMap_cons_none hb, List.filter_cons_of_pos (by rw [hb]; rfl)]
      exact (bind_ok hfirst).trans (bind_ok hrest)
    | some e =>
      rw [hb] at hparse
      have hfirst := tryCatch_error (skip (.block b)) (map_run (g := some) hparse)
      obtain ⟨log', hskip⟩ := skip_run _ b (Block.failure_isParseError hb)
      obtain ⟨log'', hrest⟩ := ih (hp.of_kept p.comments _ _ log' _)
      refine ⟨log'', ?_⟩
      rw [List.filterMap_cons_some hb, List.filter_cons_of_neg (by rw [hb]; simp),
        List.append_cons p.errors]
      exact (bind_ok (hfirst.trans hskip)).trans (bind_ok hrest)

/-- A batch keeps its comments, bodies and errors, forgets those of earlier batches, and tells
listeners of its comments. -/
theorem parse_noted (source : String) {p : Parser H U} (hp : p.Noting host note s) :
    let comments := (Comment.ofSource s source).map .comment
    ∃ log, (parse host source).run.run p = (.ok comments, { p with
      log, comments
      errors := (Block.valid s source).filterMap (Block.failure s)
      bodies := (Block.valid s source).map (Body.ofText s.gutters ·.value)
      memory := comments.foldl note p.memory }) := by
  intro comments
  have hreset : (modify fun p => { p with errors := [], bodies := [] } : Run H U Unit).run.run p =
      (.ok (), { p with errors := [], bodies := [] }) := rfl
  have hfresh (log : Log) := hp.of_kept p.comments [] [] log p.memory
  obtain ⟨log, hextract⟩ := extract_gives host source _ (hfresh p.log).toPlain
  obtain ⟨log', hblocks⟩ := parseBlocks_run (Block.valid s source) (hfresh log)
  refine ⟨log', ?_⟩
  refine (bind_ok hreset).trans ((bind_ok hextract).trans ((bind_ok hblocks).trans ?_))
  rfl

variable (host)

/-- The same where nobody listens. -/
theorem parse_run (source : String) {p : Parser H U} (hp : p.Bare s) :
    let blocks := Block.valid s source
    let comments := (blocks.filter fun b => (b.failure s).isNone).map (Comment.found s)
    ∃ log bodies, (parse host source).run.run p =
      (.ok (comments.map .comment), { p with
        log, bodies
        comments := comments.map .comment
        errors := blocks.filterMap (Block.failure s) }) := by
  intro blocks comments
  obtain ⟨log, h⟩ := parse_noted source (hp.noting host)
  rw [List.foldl_fixed] at h
  exact ⟨log, _, h⟩

end Parser

end DocComment
