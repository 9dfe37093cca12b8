import DocComment.Proofs.Parser.Agreement

/-!
A comment whose handlers change the parser while they run. They may register more handlers and
listeners, take listeners back, and parse other comments with the same parser. What becomes of
the comment depends on none of that: its pipeline is the one that was there when it was
started, and no step after a handler reads anything else that a handler may have changed, but
for the listeners, which only tell of the end.
-/

namespace DocComment

variable {H U : Type}

/-- A host whose callables answer as given and change nothing. -/
def Host.still (answer : H → List Node → Except Error Node) : Host H U where
  call h args := Run.ofExcept (answer h args)
  plug _ := pure none

/-- A callable that never fails, whatever it is called on. -/
def Host.Quiet (host : Host H U) (h : H) : Prop :=
  ∀ args p, ∃ n, ((host.call h args).run.run p).1 = .ok n

/-- A callable whose answer depends on its arguments alone. -/
def Host.Steady (host : Host H U) (answer : H → List Node → Except Error Node) (h : H) : Prop :=
  ∀ args p, ((host.call h args).run.run p).1 = answer h args

/-- The second list has other callables of this kind among those of the first. -/
inductive Varied (kind : H → Prop) : List H → List H → Prop
  | nil : Varied kind [] []
  | keep (h : H) {before after : List H} (rest : Varied kind before after) :
    Varied kind (h :: before) (h :: after)
  | add {h : H} {before after : List H} (new : kind h) (rest : Varied kind before after) :
    Varied kind before (h :: after)
  | drop {h : H} {before after : List H} (old : kind h) (rest : Varied kind before after) :
    Varied kind (h :: before) after

theorem Varied.refl (kind : H → Prop) (listeners : List H) : Varied kind listeners listeners := by
  induction listeners with
  | nil => exact .nil
  | cons h rest ih => exact .keep h ih

/-- A callable that may change the parser each time it is called, but not its options and
stages, and that adds and takes back quiet listeners only. -/
structure Host.Answers (host : Host H U) (answer : H → List Node → Except Error Node) (h : H) :
    Prop where
  steady : host.Steady answer h
  options : ∀ args p, ((host.call h args).run.run p).2.options = p.options
  stages : ∀ args p, ((host.call h args).run.run p).2.stages = p.stages
  listeners : ∀ args p,
    Varied host.Quiet p.commentListeners ((host.call h args).run.run p).2.commentListeners

theorem still_run (answer : H → List Node → Except Error Node) (h : H) (args : List Node)
    (p : Parser H U) : ((Host.still answer).call h args).run.run p = (answer h args, p) := by
  change (Run.ofExcept (answer h args) : Run H U Node).run.run p = _
  cases answer h args <;> rfl

theorem still_answers (answer : H → List Node → Except Error Node) (h : H) :
    (Host.still answer : Host H U).Answers answer h where
  steady args p := by rw [still_run]
  options args p := by rw [still_run]
  stages args p := by rw [still_run]
  listeners args p := by
    rw [still_run]
    exact .refl _ _

namespace Host

variable {host : Host H U} {answer : H → List Node → Except Error Node} {node : Node}

/-- A callable that changes the parser by registering handlers only. -/
theorem Answers.of_registers {h : H} (hrun : ∀ args p, ∃ pipeline log,
    (host.call h args).run.run p = (answer h args, { p with pipeline, log })) :
    host.Answers answer h where
  steady args p := by
    obtain ⟨_, _, h⟩ := hrun args p
    rw [h]
  options args p := by
    obtain ⟨_, _, h⟩ := hrun args p
    rw [h]
  stages args p := by
    obtain ⟨_, _, h⟩ := hrun args p
    rw [h]
  listeners args p := by
    obtain ⟨_, _, h⟩ := hrun args p
    rw [h]
    exact .refl _ _

/-- What becomes of calling listeners that answer by their arguments. -/
def heard (answer : H → List Node → Except Error Node) (node : Node) : List H → Except Error Unit
  | [] => .ok ()
  | h :: rest =>
    match answer h [node] with
    | .ok _ => heard answer node rest
    | .error e => .error e

theorem Heard.of_steady {listeners : List H} (h : ∀ l ∈ listeners, host.Steady answer l) :
    host.Heard node listeners (heard answer node listeners) := by
  induction listeners with
  | nil => exact .nil
  | cons l rest ih =>
    obtain ⟨hl, hrest⟩ := List.forall_mem_cons.mp h
    rw [heard]
    cases ha : answer l [node] with
    | ok n => exact .cons (fun p => ⟨n, (hl [node] p).trans ha⟩) (ih hrest)
    | error e => exact .fails fun p => (hl [node] p).trans ha

/-- Quiet listeners go unheard. -/
theorem Heard.varied {before after : List H} {result : Except Error Unit} (p : Parser H U)
    (hv : Varied host.Quiet before after) (h : host.Heard node before result) :
    host.Heard node after result := by
  induction hv generalizing result with
  | nil => exact h
  | keep l rest ih =>
    cases h with
    | cons answers others => exact .cons answers (ih others)
    | fails answers => exact .fails answers
  | add new rest ih => exact .cons (fun p => new [node] p) (ih h)
  | drop old rest ih =>
    cases h with
    | cons answers others => exact ih others
    | fails answers =>
      obtain ⟨n, hn⟩ := old [node] p
      cases (answers p).symm.trans hn

theorem Heard.callAll {listeners : List H} {result : Except Error Unit}
    (h : host.Heard node listeners result) (p : Parser H U) :
    ((Parser.callAll host [node] listeners).run.run p).1 = result := by
  induction h generalizing p with
  | nil => rfl
  | cons answers others ih =>
    rename_i l rest result
    obtain ⟨n, hn⟩ := answers p
    have hcall : (host.call l [node]).run.run p = (.ok n, ((host.call l [node]).run.run p).2) :=
      Prod.ext hn rfl
    rw [Parser.callAll, Run.bind_ok hcall]
    exact ih _
  | fails answers =>
    rename_i l rest e
    have hcall : (host.call l [node]).run.run p =
        (.error e, ((host.call l [node]).run.run p).2) := Prod.ext (answers p) rfl
    rw [Parser.callAll, Run.bind_error hcall]

variable {ground : Footing H}

theorem Answers.stays {h : H} (ha : host.Answers answer h) (args : List Node) {p : Parser H U}
    (hp : p.On ground host) : ((host.call h args).run.run p).2.On ground host where
  options := (ha.options args p).trans hp.options
  pipeline hk := (hk h args p).trans (hp.pipeline hk)
  stages := (ha.stages args p).trans hp.stages
  heard node := (hp.heard node).varied p (ha.listeners args p)

theorem Answers.alike {h : H} (ha : host.Answers answer h) :
    host.Alike ground (.still answer) h := fun args p q hp hq =>
  ⟨answer h args, _, q, Prod.ext (ha.steady args p) rfl, still_run answer h args q,
    ha.stays args hp, hq⟩

end Host

namespace Parser

open Run

def footing (p : Parser H U) (answer : H → List Node → Except Error Node) : Footing H where
  options := p.options
  pipeline := p.pipeline
  stages := p.stages
  heard node := Host.heard answer node p.commentListeners

/-- All of a comment but the listeners, once its block is there. -/
def prepareWith (host : Host H U) (pipeline : Pipeline H) (node : Node) : Run H U Node := do
  let node ← buildComment host pipeline node
  let node ← withInline host node
  let node ← pipeline.runBefore host.call node
  let node ← pipeline.runAfter host.call node
  formatNode node

/-- The listeners learn of a finished node. -/
def announce (host : Host H U) (node : Node) : Run H U Node := do
  let _ ← emit host "comment" [node]
  return node

theorem prepareWith_agree {ground : Footing H} {host other : Host H U} {pipeline : Pipeline H}
    (hstages : ∀ stage h, ground.replacement stage = .ok (some h) → host.Alike ground other h)
    (hhandlers : ∀ h, pipeline.Registers h → host.Alike ground other h) (node : Node) :
    Agree ground host other (prepareWith host pipeline node) (prepareWith other pipeline node) :=
  .bind (buildComment_agree hstages hhandlers node) fun node =>
    .bind (withInline_agree hstages node) fun node =>
      .bind (runBefore_agree hhandlers node) fun node =>
        .bind (runAfter_agree hhandlers node) formatNode_agree

/-- The listeners are those that are there at the end, and only a failure of theirs counts. -/
theorem announce_run {ground : Footing H} {host : Host H U} {p : Parser H U}
    (hp : p.On ground host) (node : Node) :
    (announce host node).run.run p = ((fun _ => node) <$> ground.heard node,
      ((callAll host [node] p.commentListeners).run.run p).2) := by
  have hcalled : (callAll host [node] p.commentListeners).run.run p =
      (ground.heard node, ((callAll host [node] p.commentListeners).run.run p).2) :=
    Prod.ext ((hp.heard node).callAll p) rfl
  have hread : (listenersFor "comment" : Run H U (List H)).run.run p =
      (.ok p.commentListeners, p) := rfl
  rw [announce, emit, bind_assoc, bind_ok hread, bind_assoc]
  cases hh : ground.heard node with
  | ok _ =>
    rw [hh] at hcalled
    exact (bind_ok hcalled).trans (bind_ok rfl)
  | error e =>
    rw [hh] at hcalled
    exact bind_error hcalled

/-- A comment that works with a given pipeline. -/
def parseCommentWith (host : Host H U) (pipeline : Pipeline H) (node : Node) : Run H U Node := do
  let node ← blockOf host node
  let node ← prepareWith host pipeline node
  announce host node

theorem parseComment_with (host : Host H U) (node : Node) (p : Parser H U) :
    (parseComment host node).run.run p = (parseCommentWith host p.pipeline node).run.run p := by
  have hread : (get : Run H U (Parser H U)).run.run p = (.ok p, p) := rfl
  rw [parseComment, bind_ok hread]
  simp only [parseCommentWith, prepareWith, announce, bind_assoc]

end Parser

end DocComment
