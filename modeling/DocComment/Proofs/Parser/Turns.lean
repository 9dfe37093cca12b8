import DocComment.Proofs.Parser.Reentrancy

/-!
A batch whose handlers register more handlers. A comment keeps the pipeline it finds at its
turn, so what is registered meanwhile cannot reach it; but the next comment of the same batch
finds the new pipeline. A batch is isolated from its own registrations as long as every
comment finds the pipeline the batch was started with.
-/

namespace DocComment

variable {H U : Type} {ground : Footing H} {host other : Host H U}
  {answer : H → List Node → Except Error Node}

theorem still_keepsPipeline : (Host.still answer : Host H U).KeepsPipeline := fun h args p => by
  rw [still_run]

namespace Host

variable {node : Node}

/-- Listeners that keep to the footing keep to it together. -/
theorem callAll_stays (h : ∀ l, host.Answers answer l) {listeners : List H}
    {result : Except Error Unit} (hl : host.Heard node listeners result) {p : Parser H U}
    (hp : p.On ground host) :
    ((Parser.callAll host [node] listeners).run.run p).2.On ground host := by
  induction hl generalizing p with
  | nil => exact hp
  | cons answers others ih =>
    rename_i l rest result
    obtain ⟨n, hn⟩ := answers p
    have hcall : (host.call l [node]).run.run p = (.ok n, ((host.call l [node]).run.run p).2) :=
      Prod.ext hn rfl
    rw [Parser.callAll, Run.bind_ok hcall]
    exact ih ((h l).stays [node] hp)
  | fails answers =>
    rename_i l rest e
    have hcall : (host.call l [node]).run.run p =
        (.error e, ((host.call l [node]).run.run p).2) := Prod.ext (answers p) rfl
    rw [Parser.callAll, Run.bind_error hcall]
    exact (h l).stays [node] hp

end Host

namespace Parser

open Run

section

variable (hall : ∀ h, host.Alike ground other h)

include hall

theorem isValid_agree (node : Node) :
    Agree ground host other (isValid host node) (isValid other node) := by
  unfold isValid
  split
  · refine .options_bind fun options _ => ?_
    cases options.isValid with
    | some h => exact .bind (hall h _) fun _ => .pure _
    | none => exact .bind (.ofExcept _) fun _ => .bind (.ofExcept _) fun _ => .pure _
  · exact .throw _

theorem preprocess_agree (node : Node) :
    Agree ground host other (preprocess host node) (preprocess other node) := by
  refine .options_bind fun options _ => ?_
  cases options.preprocess with
  | some h => exact hall h _
  | none =>
    dsimp only
    split
    · exact .pure _
    · exact .throw _

theorem keepValid_agree (nodes : List Node) :
    Agree ground host other (keepValid host nodes) (keepValid other nodes) := by
  induction nodes with
  | nil => exact .pure _
  | cons node rest ih =>
    refine .bind (isValid_agree hall node) fun valid => ?_
    cases valid with
    | false => exact ih
    | true => exact .bind (preprocess_agree hall node) fun _ => .bind ih fun _ => .pure _

theorem extract_agree (source : Node) :
    Agree ground host other (extract host source) (extract other source) := by
  refine .bind (.options_bind fun options _ => ?_) (keepValid_agree hall)
  cases options.extract with
  | none =>
    dsimp only
    split
    · exact .pure _
    · exact .throw _
  | some h =>
    refine .bind (hall h _) fun result => ?_
    cases result.isTrue with
    | false => exact .pure _
    | true => exact .ofExcept _

theorem blockOf_agree (node : Node) :
    Agree ground host other (blockOf host node) (blockOf other node) := by
  unfold blockOf
  split
  · refine .bind (extract_agree hall _) fun blocks => ?_
    cases blocks with
    | nil => exact .pure _
    | cons first rest => exact .pure _
  · exact .pure _

end

theorem skip_agree (node : Node) (e : Error) :
    Agree ground host other (skip node e) (skip node e) := by
  unfold skip
  split
  · exact .bind (.ofExcept _) fun _ => .bind (.write _) fun _ =>
      .bind (.modify fun _ => ⟨rfl, rfl, rfl, rfl⟩) fun _ => .pure _
  · exact .throw _

theorem announce_agree (h : ∀ l, host.Answers answer l) (h' : ∀ l, other.Answers answer l)
    (node : Node) : Agree ground host other (announce host node) (announce other node) :=
  fun _ _ hp hq => ⟨_, _, _, announce_run hp node, announce_run hq node,
    Host.callAll_stays h (hp.heard node) hp, Host.callAll_stays h' (hq.heard node) hq⟩

/-- One comment of a batch, with a given pipeline. -/
def parseTurn (host : Host H U) (pipeline : Pipeline H) (node : Node) : Run H U (Option Node) :=
  tryCatch (some <$> parseCommentWith host pipeline node) (skip node)

/-- The pipelines that the comments of a batch find at their turns. -/
def turns (host : Host H U) : List Node → Parser H U → List (Pipeline H)
  | [], _ => []
  | node :: rest, p =>
    p.pipeline :: turns host rest ((parseTurn host p.pipeline node).run.run p).2

/-- A batch whose comments work with given pipelines. -/
def parseTurns (host : Host H U) : List (Pipeline H × Node) → Run H U (List Node)
  | [] => pure []
  | (pipeline, node) :: rest => do
    let parsed ← parseTurn host pipeline node
    let others ← parseTurns host rest
    return parsed.toList ++ others

theorem parseBlocks_cons (host : Host H U) (node : Node) (rest : List Node) (p : Parser H U) :
    (parseBlocks host (node :: rest)).run.run p = (do
      let parsed ← parseTurn host p.pipeline node
      let others ← parseBlocks host rest
      return parsed.toList ++ others : Run H U (List Node)).run.run p := by
  have hmap : (some <$> parseComment host node).run.run p =
      (some <$> parseCommentWith host p.pipeline node).run.run p := by
    rw [ExceptT.run_map, ExceptT.run_map, StateT.run_map, StateT.run_map, parseComment_with]
  have hturn : (tryCatch (some <$> parseComment host node) (skip node)).run.run p =
      (parseTurn host p.pipeline node).run.run p := by
    rw [parseTurn, ExceptT.run_tryCatch, ExceptT.run_tryCatch, StateT.run_bind, StateT.run_bind,
      hmap]
  rw [parseBlocks, ExceptT.run_bind, ExceptT.run_bind, StateT.run_bind, StateT.run_bind, hturn]

section

variable (hhost : ∀ h, host.Answers answer h) (hother : ∀ h, other.Answers answer h)

include hhost hother

theorem parseTurn_agree (hall : ∀ h, host.Alike ground other h) (pipeline : Pipeline H)
    (node : Node) : Agree ground host other (parseTurn host pipeline node)
      (parseTurn other pipeline node) := by
  refine .tryCatch (.map ?_) (skip_agree node)
  refine .bind (blockOf_agree hall node) fun node => ?_
  refine .bind (prepareWith_agree (fun _ h _ => hall h) (fun h _ => hall h) node) ?_
  exact announce_agree hhost hother

/-- Each comment of a batch works with the pipeline it finds at its turn. -/
theorem parseBlocks_turns (hall : ∀ h, host.Alike ground other h) (nodes : List Node)
    {p q : Parser H U} (hp : p.On ground host) (hq : q.On ground other) :
    ∃ result p' q', (parseBlocks host nodes).run.run p = (result, p') ∧
      (parseTurns other ((turns host nodes p).zip nodes)).run.run q = (result, q') := by
  induction nodes generalizing p q with
  | nil => exact ⟨.ok [], p, q, rfl, rfl⟩
  | cons node rest ih =>
    obtain ⟨parsed, p', q', hturn, hturn', hp', hq'⟩ :=
      parseTurn_agree hhost hother hall p.pipeline node p q hp hq
    have hrest : turns host (node :: rest) p = p.pipeline :: turns host rest p' := by
      rw [turns, hturn]
    rw [parseBlocks_cons, hrest, List.zip_cons_cons, parseTurns]
    cases parsed with
    | error e => exact ⟨.error e, p', q', bind_error hturn, bind_error hturn'⟩
    | ok found =>
      obtain ⟨others, p'', q'', hothers, hothers'⟩ := ih hp' hq'
      rw [bind_ok hturn, bind_ok hturn']
      cases others with
      | error e => exact ⟨.error e, p'', q'', bind_error hothers, bind_error hothers'⟩
      | ok others => exact ⟨_, p'', q'', bind_ok hothers, bind_ok hothers'⟩

end

theorem length_turns (host : Host H U) (nodes : List Node) (p : Parser H U) :
    (turns host nodes p).length = nodes.length := by
  induction nodes generalizing p with
  | nil => rfl
  | cons node rest ih => rw [turns, List.length_cons, List.length_cons, ih]

/-- Where nothing is registered, every comment finds the same pipeline. -/
theorem turns_of_keepsPipeline (hkeeps : host.KeepsPipeline) (hhost : ∀ h, host.Answers answer h)
    (hall : ∀ h, host.Alike ground host h) (nodes : List Node) {p : Parser H U}
    (hp : p.On ground host) : ∀ pipeline ∈ turns host nodes p, pipeline = ground.pipeline := by
  induction nodes generalizing p with
  | nil => simp [turns]
  | cons node rest ih =>
    obtain ⟨parsed, p', _, hturn, -, hp', -⟩ :=
      parseTurn_agree hhost hhost hall p.pipeline node p p hp hp
    rw [turns, hturn]
    exact List.forall_mem_cons.mpr ⟨hp.pipeline hkeeps, ih hp'⟩

/-- A source whose blocks are parsed in a given way. -/
def parseBy (host : Host H U) (way : List Node → Run H U (List Node)) (source : String) :
    Run H U (List Node) := do
  modify fun p => { p with errors := [], bodies := [] }
  let nodes ← extract host (.ofText source)
  let parsed ← way nodes
  modify fun p => { p with comments := parsed }
  return parsed

theorem parseBy_error {way : List Node → Run H U (List Node)} {source : String}
    {p p' : Parser H U} {e : Error}
    (h : (extract host (.ofText source)).run.run { p with errors := [], bodies := [] } =
      (.error e, p')) : ((parseBy host way source).run.run p).1 = .error e := by
  have hreset : (modify fun p => { p with errors := [], bodies := [] } : Run H U Unit).run.run p =
      (.ok (), { p with errors := [], bodies := [] }) := rfl
  rw [parseBy, bind_ok hreset, bind_error h]

theorem parseBy_ok {way : List Node → Run H U (List Node)} {source : String}
    {p p' : Parser H U} {nodes : List Node}
    (h : (extract host (.ofText source)).run.run { p with errors := [], bodies := [] } =
      (.ok nodes, p')) : ((parseBy host way source).run.run p).1 = ((way nodes).run.run p').1 := by
  have hreset : (modify fun p => { p with errors := [], bodies := [] } : Run H U Unit).run.run p =
      (.ok (), { p with errors := [], bodies := [] }) := rfl
  rw [parseBy, bind_ok hreset, bind_ok h]
  cases hway : (way nodes).run.run p' with
  | mk result p'' =>
    cases result with
    | error e => rw [bind_error hway]
    | ok parsed =>
      rw [bind_ok hway]
      rfl

/-- The pipelines that the comments of a source find, from the first to the last. -/
def turnsOf (host : Host H U) (source : String) (p : Parser H U) : List (Pipeline H) :=
  match (extract host (.ofText source)).run.run { p with errors := [], bodies := [] } with
  | (.ok nodes, p) => turns host nodes p
  | (.error _, _) => []

/-- A batch is parsed as if its handlers changed nothing, but each comment by the pipeline it
finds at its turn. Where all find the one that the batch was started with, the batch is
isolated from what its handlers register. -/
theorem parse_turns (hhost : ∀ h, host.Answers answer h) (source : String) (p : Parser H U) :
    let still : Host H U := .still answer
    ((parse host source).run.run p).1 =
        ((parseBy still (fun nodes => parseTurns still ((turnsOf host source p).zip nodes))
          source).run.run p).1 ∧
      ((∀ pipeline ∈ turnsOf host source p, pipeline = p.pipeline) →
        ((parse host source).run.run p).1 = ((parse still source).run.run p).1) := by
  intro still
  let start : Parser H U := { p with errors := [], bodies := [] }
  have hstill := still_answers (U := U) answer
  have hall (h : H) : host.Alike (p.footing answer) still h := (hhost h).alike
  have hself (h : H) : still.Alike (p.footing answer) still h := (hstill h).alike
  have hp : start.On (p.footing answer) host :=
    ⟨rfl, fun _ => rfl, rfl, fun node => .of_steady fun h _ => (hhost h).steady⟩
  have hq : start.On (p.footing answer) still :=
    ⟨rfl, fun _ => rfl, rfl, fun node => .of_steady fun h _ => (hstill h).steady⟩
  obtain ⟨found, p', q', hextract, hextract', hp', hq'⟩ :=
    extract_agree hall (.ofText source) start start hp hq
  have hparse (host : Host H U) : parse host source = parseBy host (parseBlocks host) source := rfl
  rw [hparse, hparse]
  cases found with
  | error e =>
    rw [parseBy_error hextract, parseBy_error hextract', parseBy_error hextract']
    exact ⟨rfl, fun _ => rfl⟩
  | ok nodes =>
    have hturns : turnsOf host source p = turns host nodes p' := by
      rw [turnsOf, hextract]
    rw [parseBy_ok hextract, parseBy_ok hextract', parseBy_ok hextract', hturns]
    obtain ⟨result, _, _, hblocks, hblocks'⟩ :=
      parseBlocks_turns hhost hstill hall nodes hp' hq'
    obtain ⟨result', _, _, hown, hown'⟩ := parseBlocks_turns hstill hstill hself nodes hq' hq'
    rw [hblocks, hblocks']
    refine ⟨rfl, fun hsame => ?_⟩
    -- Both batches take their turns with one and the same list of pipelines.
    have hkept := turns_of_keepsPipeline still_keepsPipeline hstill hself nodes hq'
    have hlists : turns host nodes p' = turns still nodes q' := by
      rw [List.eq_replicate_iff.mpr ⟨length_turns host nodes p', hsame⟩,
        List.eq_replicate_iff.mpr ⟨length_turns still nodes q', hkept⟩]
      rfl
    rw [hlists, hown'] at hblocks'
    rw [hown]
    exact (congrArg Prod.fst hblocks').symm

/-- One callable registers the other, which marks what it is given, to run after comments. -/
def marks (late : Bool) (args : List Node) : Except Error Node :=
  match late, args with
  | true, [node] => .ok (node.fill "footer" (.ofText "late"))
  | _, _ => .ok .none

def registering : Host Bool Unit where
  call late args := do
    if !late then after (.one "comment") (.callable true)
    Run.ofExcept (marks late args)
  plug _ := pure none

def registered : Parser Bool Unit :=
  { pipeline := { before := [("comment", [.callable false])] }, memory := () }

theorem registering_answers (late : Bool) : registering.Answers marks late := by
  refine .of_registers fun args p => ?_
  cases late with
  | false => exact ⟨_, _, rfl⟩
  | true =>
    refine ⟨p.pipeline, p.log, ?_⟩
    have hcall : registering.call true args = Run.ofExcept (marks true args) := rfl
    rw [hcall]
    cases marks true args <;> rfl

/-- Two comments, of which the first has a handler registered for both. -/
theorem parse_turns_registering :
    let source := "/** a */\n/** b */"
    let still : Host Bool Unit := .still marks
    (∀ late, registering.Answers marks late) ∧
      ((parse registering source).run.run registered).1 =
        ((parseBy still (fun nodes => parseTurns still ((turnsOf registering source
          registered).zip nodes)) source).run.run registered).1 :=
  ⟨registering_answers, (parse_turns registering_answers _ _).1⟩

def footers (result : Except Error (List Node)) : Option (List (Option String)) :=
  result.toOption.map (List.map fun node => (node.field? "footer").bind Node.text?)

/-- What the handler of the first comment registers marks the second one, although both belong
to one batch. -/
theorem parse_marks_second :
    let source := "/** a */\n/** b */"
    (∀ late, registering.Answers marks late) ∧
      footers ((parse registering source).run.run registered).1 = some [some "", some "late"] ∧
      footers ((parse (.still marks) source).run.run registered).1 = some [some "", some ""] :=
  ⟨registering_answers, by decide +kernel, by decide +kernel⟩

end Parser

end DocComment
