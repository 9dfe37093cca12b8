import DocComment.Proofs.Parser.Batch

/-!
A parser over many calls. A plain parser answers a call as a new one would, whatever it was
asked before, since no answer reads what calls leave behind. A batch starts the books anew, any
other call adds at most one body to them, and listeners hear of every comment that an answer
brings, in the order of the calls.
-/

namespace DocComment

/-- One call of a parser. -/
inductive Call
  | batch (source : String)
  | text (raw : String)
  | block (b : Block)
  | tag (raw : String)

/-- What a call returns. -/
inductive Answer
  | comments (nodes : List Node)
  | comment (node : Node)
  | tag (node : Option Node)

/-- The comments that an answer brings. -/
def Answer.produced : Except Error Answer → List Node
  | .ok (.comments nodes) => nodes
  | .ok (.comment node) => [node]
  | .ok (.tag _) | .error _ => []

namespace Call

variable {H U : Type}

def run (host : Host H U) : Call → Run H U Answer
  | .batch source => .comments <$> Parser.parse host source
  | .text raw => .comment <$> Parser.parseComment host (.ofText raw)
  | .block b => .comment <$> Parser.parseComment host (.block b)
  | .tag raw => .tag <$> Parser.parseTag host (.ofText raw)

/-- What a call returns or fails with. -/
def answer (host : Host H U) (p : Parser H U) (c : Call) : Except Error Answer :=
  ((c.run host).run.run p).1

/-- The parser that a call leaves behind, failed or not. -/
def next (host : Host H U) (p : Parser H U) (c : Call) : Parser H U :=
  ((c.run host).run.run p).2

/-- The answers to a sequence of calls. -/
def answers (host : Host H U) : Parser H U → List Call → List (Except Error Answer)
  | _, [] => []
  | p, c :: calls => c.answer host p :: answers host (c.next host p) calls

/-- The parser after a sequence of calls. -/
def after (host : Host H U) (p : Parser H U) (calls : List Call) : Parser H U :=
  calls.foldl (next host) p

/-- The blocks that a call parses. -/
def blocks (s : Switches) : Call → List Block
  | .batch source => Block.valid s source
  | .text raw => [Block.ofText s raw]
  | .block b => [b]
  | .tag _ => []

/-- The bodies of the blocks that a call parses. -/
def bodies (s : Switches) (c : Call) : List Body :=
  (c.blocks s).map (Body.ofText s.gutters ·.value)

/-- The answer of a plain parser. -/
def outcome (s : Switches) : Call → Except Error Answer
  | .batch source => .ok (.comments ((Comment.ofSource s source).map .comment))
  | .text raw => .comment <$> Node.comment <$> Comment.ofBlock s (Block.ofText s raw)
  | .block b => .comment <$> Node.comment <$> Comment.ofBlock s b
  | .tag raw =>
    .tag <$> Option.map Node.tag <$> ((Tag.ofLine s raw).settle s.strict.isTrue).1

end Call

namespace Parser

variable {H U : Type} {host : Host H U} {s : Switches} {p : Parser H U} {note : U → Node → U}

open Run

theorem produced_comment (x : Except Error Comment) :
    Answer.produced (.comment <$> Node.comment <$> x) = x.toOption.toList.map .comment := by
  cases x <;> rfl

theorem produced_tag (x : Except Error (Option Node)) : Answer.produced (.tag <$> x) = [] := by
  cases x <;> rfl

/-- A call for a single comment or tag leaves the last batch as it is. -/
theorem single_run (hp : p.Noting host note s) {c : Call} (hc : ∀ source, c ≠ .batch source) :
    ∃ log, (c.run host).run.run p = (c.outcome s, { p with
      log
      bodies := p.bodies ++ c.bodies s
      memory := (Answer.produced (c.outcome s)).foldl note p.memory }) := by
  cases c with
  | batch source => exact absurd rfl (hc source)
  | text raw =>
    obtain ⟨log, h⟩ := parseComment_run hp (blockOf_text host raw)
    rw [Call.outcome, produced_comment]
    exact ⟨log, map_run h⟩
  | block b =>
    have hblock : Gives s (blockOf host (.block b)) (.ok (.block b)) := .pure _
    obtain ⟨log, h⟩ := parseComment_run hp hblock
    rw [Call.outcome, produced_comment]
    exact ⟨log, map_run h⟩
  | tag raw =>
    obtain ⟨log, h⟩ := parseTag_gives host raw p hp.toPlain
    rw [Call.outcome, produced_tag]
    refine ⟨log, (map_run h).trans ?_⟩
    rw [Call.bodies, Call.blocks, List.map_nil, List.append_nil]
    rfl

/-- What holds of every call: its answer depends on the switches alone, the parser stays plain
with the same listeners, and they note what the answer brings. -/
theorem call_run (hp : p.Noting host note s) (c : Call) :
    c.answer host p = c.outcome s ∧ (c.next host p).Noting host note s ∧
      (c.next host p).memory = (Answer.produced (c.outcome s)).foldl note p.memory := by
  rw [Call.answer, Call.next]
  -- Only a batch puts comments and errors away, so it is the one call to be looked at apart.
  by_cases hc : ∃ source, c = .batch source
  · obtain ⟨source, rfl⟩ := hc
    obtain ⟨log, h⟩ := parse_noted source hp
    rw [Call.run, map_run h]
    exact ⟨rfl, hp.of_kept _ _ _ _ _, rfl⟩
  · obtain ⟨log, h⟩ := single_run hp (not_exists.mp hc)
    rw [h]
    exact ⟨rfl, hp.of_kept _ _ _ _ _, rfl⟩

theorem answers_eq (hp : p.Noting host note s) (calls : List Call) :
    Call.answers host p calls = calls.map (Call.outcome s) := by
  induction calls generalizing p with
  | nil => rfl
  | cons c calls ih =>
    obtain ⟨hanswer, hnext, -⟩ := call_run hp c
    rw [Call.answers, hanswer, ih hnext, List.map_cons]

theorem after_noting (hp : p.Noting host note s) (calls : List Call) :
    (Call.after host p calls).Noting host note s ∧
      (Call.after host p calls).memory =
        (calls.flatMap fun c => Answer.produced (c.outcome s)).foldl note p.memory := by
  induction calls generalizing p with
  | nil => exact ⟨hp, rfl⟩
  | cons c calls ih =>
    obtain ⟨-, hnext, hmemory⟩ := call_run hp c
    obtain ⟨hafter, hnoted⟩ := ih hnext
    refine ⟨hafter, ?_⟩
    rw [List.flatMap_cons, List.foldl_append, ← hmemory]
    exact hnoted

/-- Calls for single comments and tags add their bodies to the books and nothing else. -/
theorem after_singles (hp : p.Noting host note s) {calls : List Call}
    (h : ∀ c ∈ calls, ∀ source, c ≠ .batch source) :
    ∃ log memory, Call.after host p calls =
      { p with log, memory, bodies := p.bodies ++ calls.flatMap (Call.bodies s) } := by
  induction calls generalizing p with
  | nil =>
    refine ⟨p.log, p.memory, ?_⟩
    rw [List.flatMap_nil, List.append_nil]
    rfl
  | cons c calls ih =>
    obtain ⟨hc, hrest⟩ := List.forall_mem_cons.mp h
    obtain ⟨log, hrun⟩ := single_run hp hc
    obtain ⟨log', memory, hafter⟩ := ih (hp.of_kept p.comments (p.bodies ++ c.bodies s) p.errors
      log ((Answer.produced (c.outcome s)).foldl note p.memory)) hrest
    refine ⟨log', memory, ?_⟩
    rw [Call.after, List.foldl_cons, Call.next, hrun, List.flatMap_cons, ← List.append_assoc]
    exact hafter

/-- After a batch the books say nothing of the calls before it. -/
theorem after_batch (hp : p.Noting host note s) (earlier : List Call) (source : String)
    {later : List Call} (h : ∀ c ∈ later, ∀ source, c ≠ .batch source) :
    ∃ log memory, Call.after host p (earlier ++ .batch source :: later) =
      { Call.after host p earlier with
        log, memory
        comments := (Comment.ofSource s source).map .comment
        errors := (Block.valid s source).filterMap (Block.failure s)
        bodies := (.batch source :: later).flatMap (Call.bodies s) } := by
  -- All that a batch needs of the calls before it is that they leave the parser plain.
  have hearlier := (after_noting hp earlier).1
  obtain ⟨log, hbatch⟩ := parse_noted source hearlier
  have hnext : (Call.batch source).next host (Call.after host p earlier) = _ :=
    congrArg Prod.snd (map_run hbatch)
  obtain ⟨log', memory, hlater⟩ := after_singles (call_run hearlier (.batch source)).2.1 h
  refine ⟨log', memory, (List.foldl_append ..).trans (hlater.trans ?_)⟩
  rw [hnext]
  rfl

/-- Every block comes to a comment or to an error. -/
theorem length_valid (source : String) :
    (Block.valid s source).length = (Comment.ofSource s source).length +
      ((Block.valid s source).filterMap (Block.failure s)).length := by
  have hfailed (b : Block) :
      decide (¬ (b.failure s).isNone = true) = (b.failure s).isSome := by
    cases b.failure s <;> rfl
  rw [Comment.ofSource, List.length_map, List.length_filterMap_eq_countP,
    ← List.countP_eq_length_filter, ← funext hfailed]
  exact List.length_eq_countP_add_countP _

end Parser

/-- A host whose one callable puts down what it is called with. -/
def recorder : Host Unit (List Node) where
  call _ args := do
    modify fun p => { p with memory := p.memory ++ args }
    return .none
  plug _ := return none

/-- A new parser that records its comments. -/
def Parser.recording (s : Switches) : Parser Unit (List Node) :=
  ((on "comment" (.callable ())).run.run (Parser.new s.options [])).2

namespace Parser

variable (s : Switches)

theorem recording_noting :
    (recording s).Noting recorder (fun memory node => memory ++ [node]) s := by
  refine ⟨⟨rfl, rfl, rfl⟩, fun node q hq => ⟨1, ?_⟩⟩
  obtain ⟨_, _, _, listeners, _⟩ := q
  obtain rfl : listeners = [("comment", [()])] := hq
  rfl

theorem answer_new (c : Call) :
    c.answer recorder (Parser.new s.options []) = c.outcome s :=
  (call_run ((bare_new s []).noting recorder) c).1

/-- A parser answers every call as a new one would. Its comments and errors are those of the
last batch, its bodies those of the last batch and of the comments parsed since, and the
listener has been told of the comments of all calls. -/
theorem after_calls (calls : List Call) :
    let fresh : Parser Unit (List Node) := Parser.new s.options []
    let p := Call.after recorder (recording s) calls
    Call.answers recorder (recording s) calls = calls.map (Call.answer recorder fresh) ∧
      p.memory = calls.flatMap (fun c => Answer.produced (c.answer recorder fresh)) ∧
      ((∀ c ∈ calls, ∀ source, c ≠ .batch source) →
        p.comments = [] ∧ p.errors = [] ∧ p.bodies = calls.flatMap (Call.bodies s)) ∧
      ∀ earlier source later, calls = earlier ++ .batch source :: later →
        (∀ c ∈ later, ∀ source, c ≠ .batch source) →
        let batch := (parse recorder source).run.run fresh
        batch.1 = .ok p.comments ∧ batch.2.errors = p.errors ∧
          p.bodies = (.batch source :: later).flatMap (Call.bodies s) ∧
          (later = [] → p.bodies.length = p.comments.length + p.errors.length) := by
  intro fresh p
  have hanswer : Call.answer recorder fresh = Call.outcome s := funext (answer_new s)
  rw [hanswer]
  refine ⟨answers_eq (recording_noting s) calls, ?_, ?_, ?_⟩
  · have hmemory := (after_noting (recording_noting s) calls).2
    rw [List.foldl_append_eq_append, ← List.flatMap_def, List.flatMap_singleton'] at hmemory
    exact hmemory
  · intro hsingle
    obtain ⟨log, memory, hafter⟩ := after_singles (recording_noting s) hsingle
    rw [show p = _ from hafter]
    exact ⟨rfl, rfl, List.nil_append _⟩
  · rintro earlier source later rfl hlater batch
    obtain ⟨log, memory, hafter⟩ := after_batch (recording_noting s) earlier source hlater
    obtain ⟨log', hfresh⟩ := parse_noted source ((bare_new s []).noting recorder)
    rw [show p = _ from hafter, show batch = _ from hfresh]
    refine ⟨rfl, rfl, rfl, ?_⟩
    rintro rfl
    simpa [Call.bodies, Call.blocks] using length_valid source

/-- A comment before the batch and one after it, which fails as the second of the batch does. -/
theorem after_calls_strict :
    let source := "/** Adds. */ /** @param \x7bx y */"
    let calls : List Call :=
      [.text "/** Sum. */", .batch source, .tag "@param \x7bx y", .text "/** @param \x7bx y */"]
    let p := Call.after recorder (recording { strict := .bool true }) calls
    let failed := Error.tagSyntax ⟨.unbalancedBraces "param", "@param \x7bx y"⟩
    p.comments.length = 1 ∧ p.errors = [failed] ∧ p.bodies.length = 3 ∧ p.memory.length = 2 := by
  intro source calls p failed
  obtain ⟨-, hmemory, -, hlast⟩ := after_calls { strict := .bool true } calls
  obtain ⟨hcomments, herrors, hbodies, -⟩ := hlast [.text "/** Sum. */"] source
    [.tag "@param \x7bx y", .text "/** @param \x7bx y */"] rfl (by simp)
  have hcount : Except.map List.length (.ok p.comments) = (.ok 1 : Except Error Nat) := by
    rw [← hcomments]
    decide +kernel
  refine ⟨Except.ok.inj hcount, ?_, ?_, ?_⟩
  · rw [← herrors]
    decide +kernel
  · rw [hbodies]
    decide +kernel
  · rw [hmemory]
    decide +kernel

end Parser

end DocComment
