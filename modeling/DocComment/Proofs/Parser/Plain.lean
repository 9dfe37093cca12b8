import DocComment.Parser.Parse

/-!
Parsers without anything callable: no handlers, stages or callables among the options, only
switches and a limit. Such a parser does not depend on its host, and all that its steps
change are the log and, once for each comment, the bodies that are kept. Steps are compared
with values that are worked out without a parser. Listeners are left open, since only the last
step of a comment calls them.
-/

namespace DocComment

/-- The options that are not callable, and may be set to any data. -/
structure Switches where
  strict : Data := .bool false
  format : Data := .bool false
  closedVocabulary : Data := .bool false
  stripInline : Data := .bool false
  keepProtected : Data := .bool true
  stripStars : Data := .null
  limit : TypeExpr.Limit := .standard

def Switches.options {H : Type} (s : Switches) : Options H where
  strict := s.strict
  format := s.format
  closedVocabulary := s.closedVocabulary
  stripInline := s.stripInline
  keepProtected := s.keepProtected
  stripStars := s.stripStars
  limit := s.limit

/-- The policy of these switches. -/
def Switches.policy (s : Switches) : Policy := ⟨s.strict.isTrue, s.closedVocabulary.isTrue⟩

def Switches.gutters (s : Switches) : Option Bool :=
  if s.stripStars.isNull then none else some s.stripStars.isTrue

structure Parser.Plain {H U : Type} (s : Switches) (p : Parser H U) : Prop where
  options : p.options = .ok s.options
  pipeline : p.pipeline = {}
  stages : p.stages = []

/-- A plain parser that nobody listens to. -/
structure Parser.Bare {H U : Type} (s : Switches) (p : Parser H U) : Prop extends p.Plain s where
  listeners : p.listeners = []

/-- A plain parser whose listeners do nothing about a comment but note it in the memory. -/
structure Parser.Noting {H U : Type} (host : Host H U) (note : U → Node → U) (s : Switches)
    (p : Parser H U) : Prop extends p.Plain s where
  heard : ∀ node (q : Parser H U), q.listeners = p.listeners → ∃ count,
    (Parser.emit host "comment" [node]).run.run q =
      (.ok count, { q with memory := note q.memory node })

/-- Nothing is noted where nobody listens. -/
theorem Parser.Bare.noting {H U : Type} {s : Switches} {p : Parser H U} (host : Host H U)
    (hp : p.Bare s) : p.Noting host (fun memory _ => memory) s := by
  refine ⟨hp.toPlain, fun node q hq => ⟨0, ?_⟩⟩
  obtain ⟨_, _, _, listeners, _⟩ := q
  obtain rfl : listeners = [] := hq.trans hp.listeners
  rfl

theorem Parser.bare_new {H U : Type} (s : Switches) (memory : U) :
    (Parser.new (s.options (H := H)) memory).Bare s := ⟨⟨rfl, rfl, rfl⟩, rfl⟩

namespace Run

variable {H U α β : Type} {m : Run H U α} {f : α → Run H U β} {p p' : Parser H U}

theorem bind_ok {a : α} (h : m.run.run p = (.ok a, p')) :
    (m >>= f).run.run p = (f a).run.run p' := by
  rw [ExceptT.run_bind, StateT.run_bind, h]
  rfl

theorem bind_error {e : Error} (h : m.run.run p = (.error e, p')) :
    (m >>= f).run.run p = (.error e, p') := by
  rw [ExceptT.run_bind, StateT.run_bind, h]
  rfl

theorem map_run {g : α → β} {result : Except Error α} (h : m.run.run p = (result, p')) :
    (g <$> m).run.run p = (g <$> result, p') := by
  cases result with
  | ok a => exact bind_ok h
  | error e => exact bind_error h

theorem tryCatch_ok {a : α} (handler : Error → Run H U α) (h : m.run.run p = (.ok a, p')) :
    (tryCatch m handler).run.run p = (.ok a, p') := by
  rw [ExceptT.run_tryCatch, StateT.run_bind, h]
  rfl

theorem tryCatch_error {e : Error} (handler : Error → Run H U α)
    (h : m.run.run p = (.error e, p')) :
    (tryCatch m handler).run.run p = (handler e).run.run p' := by
  rw [ExceptT.run_tryCatch, StateT.run_bind, h]
  rfl

/-- In every plain parser, the step comes to this result and changes the log only. -/
def Gives (s : Switches) (m : Run H U α) (result : Except Error α) : Prop :=
  ∀ p : Parser H U, p.Plain s → ∃ log, m.run.run p = (result, { p with log })

/-- In every plain parser, the step keeps this body, comes to this result and changes nothing
else but the log. -/
def Keeps (s : Switches) (body : Body) (m : Run H U α) (result : Except Error α) : Prop :=
  ∀ p : Parser H U, p.Plain s →
    ∃ log, m.run.run p = (result, { p with log, bodies := p.bodies ++ [body] })

end Run

namespace Run.Gives

variable {H U α β : Type} {s : Switches} {m : Run H U α} {f : α → Run H U β} {a : α} {e : Error}

theorem pure (a : α) : Gives s (Pure.pure a : Run H U α) (.ok a) :=
  fun p _ => ⟨p.log, rfl⟩

theorem pure_eq {b : α} (h : a = b) : Gives s (Pure.pure a : Run H U α) (.ok b) :=
  h ▸ pure a

theorem throw (e : Error) : Gives s (MonadExcept.throw e : Run H U α) (.error e) :=
  fun p _ => ⟨p.log, rfl⟩

theorem ofExcept (x : Except Error α) : Gives s (Run.ofExcept x : Run H U α) x := by
  cases x with
  | ok a => exact pure a
  | error e => exact throw e

theorem ofExcept_ok {x : Except Error α} (h : x = .ok a) :
    Gives s (Run.ofExcept x : Run H U α) (.ok a) := by
  rw [h]
  exact pure a

theorem bind {result : Except Error β} (h : Gives s m (.ok a)) (h' : Gives s (f a) result) :
    Gives s (m >>= f) result := by
  intro p hp
  obtain ⟨log, hm⟩ := h p hp
  obtain ⟨log', hf⟩ := h' { p with log } ⟨hp.options, hp.pipeline, hp.stages⟩
  exact ⟨log', by rw [bind_ok hm, hf]⟩

theorem bind_error (h : Gives s m (.error e)) : Gives s (m >>= f) (.error e) := by
  intro p hp
  obtain ⟨log, hm⟩ := h p hp
  exact ⟨log, Run.bind_error hm⟩

/-- A step after another, where the first may fail. -/
theorem bind_except {x : Except Error α} {g : α → Except Error β} (h : Gives s m x)
    (h' : ∀ a, x = .ok a → Gives s (f a) (g a)) : Gives s (m >>= f) (x >>= g) := by
  cases x with
  | ok a => exact h.bind (h' a rfl)
  | error e => exact h.bind_error

theorem map {g : α → β} {result : Except Error α} (h : Gives s m result) :
    Gives s (g <$> m) (g <$> result) := by
  intro p hp
  obtain ⟨log, hm⟩ := h p hp
  exact ⟨log, map_run hm⟩

theorem tryCatch_ok {handler : Error → Run H U α} (h : Gives s m (.ok a)) :
    Gives s (tryCatch m handler) (.ok a) := by
  intro p hp
  obtain ⟨log, hm⟩ := h p hp
  exact ⟨log, Run.tryCatch_ok _ hm⟩

theorem tryCatch_error {handler : Error → Run H U α} {result : Except Error α}
    (h : Gives s m (.error e)) (h' : Gives s (handler e) result) :
    Gives s (tryCatch m handler) result := by
  intro p hp
  obtain ⟨log, hm⟩ := h p hp
  obtain ⟨log', hh⟩ := h' { p with log } ⟨hp.options, hp.pipeline, hp.stages⟩
  exact ⟨log', by rw [Run.tryCatch_error _ hm, hh]⟩

/-- A step that starts from what the parser holds, in a plain parser. -/
theorem get_bind {f : Parser H U → Run H U β} {result : Except Error β}
    (h : ∀ p, p.Plain s → Gives s (f p) result) : Gives s (get >>= f) result :=
  fun p hp => h p hp p hp

theorem write (entries : Log) : Gives s (Run.write entries : Run H U Unit) (.ok ()) :=
  fun p _ => ⟨p.log ++ entries, rfl⟩

theorem options : Gives s (Run.options : Run H U (Options H)) (.ok s.options) := by
  refine get_bind fun p hp => ?_
  rw [hp.options]
  exact pure _

/-- Nothing replaces any stage. -/
theorem override (stage : Stage) :
    Gives s (Parser.override stage : Run H U (Option H)) (.ok none) := by
  refine options.bind (get_bind fun p hp => ?_)
  rw [hp.stages]
  exact pure _

theorem settle {outcome : Outcome α} :
    Gives s (Parser.settle outcome : Run H U (Option α)) (outcome.settle s.strict.isTrue).1 :=
  options.bind ((write _).bind (ofExcept _))

end Run.Gives

namespace Run.Keeps

variable {H U α β : Type} {s : Switches} {body : Body} {m : Run H U α} {f : α → Run H U β} {a : α}
  {e : Error}

theorem addBody (body : Body) : Keeps s body (Parser.addBody body : Run H U Unit) (.ok ()) :=
  fun p _ => ⟨p.log, rfl⟩

theorem bind {result : Except Error β} (h : Keeps s body m (.ok a)) (h' : Gives s (f a) result) :
    Keeps s body (m >>= f) result := by
  intro p hp
  obtain ⟨log, hm⟩ := h p hp
  obtain ⟨log', hf⟩ := h' { p with log, bodies := p.bodies ++ [body] }
    ⟨hp.options, hp.pipeline, hp.stages⟩
  exact ⟨log', by rw [bind_ok hm, hf]⟩

theorem bind_error (h : Keeps s body m (.error e)) : Keeps s body (m >>= f) (.error e) := by
  intro p hp
  obtain ⟨log, hm⟩ := h p hp
  exact ⟨log, Run.bind_error hm⟩

/-- A step that keeps a body after another one that keeps none. -/
theorem after {result : Except Error β} (h : Gives s m (.ok a)) (h' : Keeps s body (f a) result) :
    Keeps s body (m >>= f) result := by
  intro p hp
  obtain ⟨log, hm⟩ := h p hp
  obtain ⟨log', hf⟩ := h' { p with log } ⟨hp.options, hp.pipeline, hp.stages⟩
  exact ⟨log', by rw [bind_ok hm, hf]⟩

theorem get_bind {f : Parser H U → Run H U β} {result : Except Error β}
    (h : ∀ p, p.Plain s → Keeps s body (f p) result) : Keeps s body (get >>= f) result :=
  fun p hp => h p hp p hp

end Run.Keeps

end DocComment
