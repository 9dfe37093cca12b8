import DocComment.Proofs.Parser.Plain

/-!
Runs of the same steps with two hosts. While handlers run, pipeline, listeners and whatever is
kept of comments may change under them; the steps look at options and stages only, and at the
listeners last of all. Two hosts whose callables answer alike are therefore led to the same
result, as long as they leave both parsers on the same footing.
-/

namespace DocComment

variable {H U : Type}

/-- What the steps of a comment find in a parser. Of the listeners only what they make of a
finished node counts. -/
structure Footing (H : Type) where
  options : Except Data (Options H)
  pipeline : Pipeline H
  stages : List (Stage × H)
  heard : Node → Except Error Unit

/-- The replacement for a stage, as it is found on this footing. -/
def Footing.replacement (ground : Footing H) (stage : Stage) : Except Error (Option H) :=
  match ground.options with
  | .error d => .error (.wrongNode d.kindName)
  | .ok options =>
    match options.stages with
    | .other _ => .error (.wrongNode "parse")
    | .overrides table => .ok ((table stage).or (ground.stages.lookup stage))

/-- Listeners called on a node, up to the first that fails. Whatever a listener does to the
parser, the next one has to come to the same end. -/
inductive Host.Heard (host : Host H U) (node : Node) : List H → Except Error Unit → Prop
  | nil : Heard host node [] (.ok ())
  | cons {h : H} {rest : List H} {result : Except Error Unit}
      (answers : ∀ p, ∃ n, ((host.call h [node]).run.run p).1 = .ok n)
      (others : Heard host node rest result) : Heard host node (h :: rest) result
  | fails {h : H} {rest : List H} {e : Error}
      (answers : ∀ p, ((host.call h [node]).run.run p).1 = .error e) :
      Heard host node (h :: rest) (.error e)

def Parser.commentListeners (p : Parser H U) : List H := (p.listeners.lookup "comment").getD []

/-- A host whose callables register nothing. -/
def Host.KeepsPipeline (host : Host H U) : Prop :=
  ∀ h args p, ((host.call h args).run.run p).2.pipeline = p.pipeline

/-- The parser is on this footing when its callables are run by this host. Its pipeline may
have changed since, if the host changes any. -/
structure Parser.On (ground : Footing H) (host : Host H U) (p : Parser H U) : Prop where
  options : p.options = ground.options
  pipeline : host.KeepsPipeline → p.pipeline = ground.pipeline
  stages : p.stages = ground.stages
  heard : ∀ node, host.Heard node p.commentListeners (ground.heard node)

/-- Two steps, one for each host, that come to the same result and stay on the footing. -/
def Run.Agree {α : Type} (ground : Footing H) (host other : Host H U) (m m' : Run H U α) : Prop :=
  ∀ p q, p.On ground host → q.On ground other → ∃ result p' q',
    m.run.run p = (result, p') ∧ m'.run.run q = (result, q') ∧ p'.On ground host ∧
      q'.On ground other

/-- A callable that both hosts run alike. -/
def Host.Alike (ground : Footing H) (host other : Host H U) (h : H) : Prop :=
  ∀ args, Run.Agree ground host other (host.call h args) (other.call h args)

namespace Run.Agree

variable {ground : Footing H} {host other : Host H U} {α β : Type} {m m' : Run H U α}
  {f f' : α → Run H U β}

theorem pure (a : α) : Agree ground host other (Pure.pure a) (Pure.pure a) :=
  fun p q hp hq => ⟨.ok a, p, q, rfl, rfl, hp, hq⟩

theorem throw (e : Error) :
    Agree ground host other (MonadExcept.throw e : Run H U α) (MonadExcept.throw e) :=
  fun p q hp hq => ⟨.error e, p, q, rfl, rfl, hp, hq⟩

theorem ofExcept (x : Except Error α) :
    Agree ground host other (Run.ofExcept x) (Run.ofExcept x) := by
  cases x with
  | ok a => exact pure a
  | error e => exact throw e

theorem bind (h : Agree ground host other m m')
    (h' : ∀ a, Agree ground host other (f a) (f' a)) :
    Agree ground host other (m >>= f) (m' >>= f') := by
  intro p q hp hq
  obtain ⟨result, p', q', hm, hm', hp', hq'⟩ := h p q hp hq
  cases result with
  | error e => exact ⟨.error e, p', q', bind_error hm, bind_error hm', hp', hq'⟩
  | ok a =>
    obtain ⟨result, p'', q'', hf, hf', hp'', hq''⟩ := h' a p' q' hp' hq'
    exact ⟨result, p'', q'', (bind_ok hm).trans hf, (bind_ok hm').trans hf', hp'', hq''⟩

theorem map {g : α → β} (h : Agree ground host other m m') :
    Agree ground host other (g <$> m) (g <$> m') := by
  intro p q hp hq
  obtain ⟨result, p', q', hm, hm', hp', hq'⟩ := h p q hp hq
  exact ⟨g <$> result, p', q', map_run hm, map_run hm', hp', hq'⟩

theorem tryCatch {handler handler' : Error → Run H U α} (h : Agree ground host other m m')
    (h' : ∀ e, Agree ground host other (handler e) (handler' e)) :
    Agree ground host other (MonadExcept.tryCatch m handler)
      (MonadExcept.tryCatch m' handler') := by
  intro p q hp hq
  obtain ⟨result, p', q', hm, hm', hp', hq'⟩ := h p q hp hq
  cases result with
  | ok a => exact ⟨.ok a, p', q', tryCatch_ok _ hm, tryCatch_ok _ hm', hp', hq'⟩
  | error e =>
    obtain ⟨result, p'', q'', hh, hh', hp'', hq''⟩ := h' e p' q' hp' hq'
    exact ⟨result, p'', q'', (tryCatch_error _ hm).trans hh, (tryCatch_error _ hm').trans hh',
      hp'', hq''⟩

/-- A change of what is kept of comments and nothing else. -/
theorem modify {change : Parser H U → Parser H U}
    (h : ∀ p, (change p).options = p.options ∧ (change p).pipeline = p.pipeline ∧
      (change p).stages = p.stages ∧ (change p).listeners = p.listeners) :
    Agree ground host other (MonadState.modifyGet fun p => ((), change p) : Run H U Unit)
      (MonadState.modifyGet fun p => ((), change p)) := by
  have stays {host : Host H U} {p : Parser H U} (hp : p.On ground host) :
      (change p).On ground host := by
    obtain ⟨hoptions, hpipeline, hstages, hlisteners⟩ := h p
    refine ⟨hoptions.trans hp.options, fun hk => hpipeline.trans (hp.pipeline hk),
      hstages.trans hp.stages, fun node => ?_⟩
    rw [Parser.commentListeners, hlisteners]
    exact hp.heard node
  exact fun p q hp hq => ⟨.ok (), change p, change q, rfl, rfl, stays hp, stays hq⟩

theorem write (entries : Log) : Agree ground host other (Run.write entries) (Run.write entries) :=
  modify fun _ => ⟨rfl, rfl, rfl, rfl⟩

/-- Options are read from the footing. -/
theorem options_bind {f f' : Options H → Run H U β}
    (h : ∀ options, ground.options = .ok options →
      Agree ground host other (f options) (f' options)) :
    Agree ground host other (Run.options >>= f) (Run.options >>= f') := by
  intro p q hp hq
  have reads {p : Parser H U} {host : Host H U} (hp : p.On ground host) :
      (Run.options : Run H U (Options H)).run.run p =
        (ground.options.mapError fun d => .wrongNode d.kindName, p) := by
    rw [← hp.options]
    obtain ⟨options, _⟩ := p
    cases options <;> rfl
  have hm := reads hp
  have hm' := reads hq
  cases ho : ground.options with
  | error d =>
    rw [ho] at hm hm'
    exact ⟨_, p, q, bind_error hm, bind_error hm', hp, hq⟩
  | ok options =>
    rw [ho] at hm hm'
    obtain ⟨result, p', q', hf, hf', hp', hq'⟩ := h options ho p q hp hq
    exact ⟨result, p', q', (bind_ok hm).trans hf, (bind_ok hm').trans hf', hp', hq'⟩

/-- Replacements of stages are read from the footing as well. -/
theorem override_bind {stage : Stage} {f f' : Option H → Run H U β}
    (h : ∀ found, ground.replacement stage = .ok found →
      Agree ground host other (f found) (f' found)) :
    Agree ground host other (Parser.override stage >>= f) (Parser.override stage >>= f') := by
  rw [Parser.override, bind_assoc, bind_assoc]
  refine options_bind fun options ho => ?_
  cases hs : options.stages with
  | other value => exact fun p q hp hq => ⟨_, p, q, rfl, rfl, hp, hq⟩
  | overrides table =>
    have hfound : ground.replacement stage =
        .ok ((table stage).or (ground.stages.lookup stage)) := by
      rw [Footing.replacement, ho]
      dsimp only
      rw [hs]
    intro p q hp hq
    obtain ⟨result, p', q', hf, hf', hp', hq'⟩ := h _ hfound p q hp hq
    refine ⟨result, p', q', ?_, ?_, hp', hq'⟩
    · rw [← hp.stages] at hf
      exact hf
    · rw [← hq.stages] at hf'
      exact hf'

end Run.Agree

/-- The callables that stand somewhere in a pipeline. -/
inductive Pipeline.Registers (pipeline : Pipeline H) (h : H) : Prop
  | middleware {key : String} (entry : (key, .callable h) ∈ pipeline.middleware)
  | before {key : String} {handlers : List (Supplied H)}
      (entry : (key, handlers) ∈ pipeline.before) (handler : .callable h ∈ handlers)
  | after {key : String} {handlers : List (Supplied H)}
      (entry : (key, handlers) ∈ pipeline.after) (handler : .callable h ∈ handlers)

theorem Pipeline.mem_of_find {α : Type} {table : List (String × α)} {node : Node} {a : α}
    (h : find? table node = .ok (some a)) : ∃ key, (key, a) ∈ table := by
  unfold find? at h
  split at h
  · next type hkey =>
    have hlookup := Except.ok.inj h
    obtain ⟨front, back, rfl, -⟩ := List.lookup_eq_some_iff.mp hlookup
    exact ⟨type, by simp⟩
  · cases Except.ok.inj h
  · cases h

theorem Pipeline.mem_of_handlersFor {table : List (String × List (Supplied H))} {node : Node}
    {handlers : List (Supplied H)} {handler : Supplied H}
    (h : handlersFor table node = .ok handlers) (hm : handler ∈ handlers) :
    ∃ key, (key, handlers) ∈ table := by
  unfold handlersFor at h
  cases hf : find? table node with
  | error e =>
    rw [hf] at h
    cases h
  | ok found =>
    rw [hf] at h
    obtain rfl := Except.ok.inj h
    cases found with
    | none => cases hm
    | some handlers => exact mem_of_find hf

namespace Parser

variable {ground : Footing H} {host other : Host H U} {pipeline : Pipeline H}

open Run

theorem pipeline_ofExcept_agree {α β : Type} {x : Except Error α} {f f' : α → Run H U β}
    (h : ∀ a, x = .ok a → Agree ground host other (f a) (f' a)) :
    Agree ground host other (Pipeline.ofExcept x >>= f) (Pipeline.ofExcept x >>= f') := by
  cases x with
  | error e => exact fun p q hp hq => ⟨.error e, p, q, rfl, rfl, hp, hq⟩
  | ok a => exact h a rfl

theorem invoke_agree (phase : Phase) (node : Node) {handler : Supplied H}
    (h : ∀ h, handler = .callable h → host.Alike ground other h) :
    Agree ground host other (Pipeline.invoke host.call phase node handler)
      (Pipeline.invoke other.call phase node handler) := by
  cases handler with
  | plain d => exact .throw _
  | callable h' => exact .bind (h h' rfl [node]) fun _ => .pure _

theorem runAll_agree (phase : Phase) (node : Node) {handlers : List (Supplied H)}
    (h : ∀ h, .callable h ∈ handlers → host.Alike ground other h) :
    Agree ground host other (Pipeline.runAll host.call phase node handlers)
      (Pipeline.runAll other.call phase node handlers) := by
  induction handlers generalizing node with
  | nil => exact .pure _
  | cons handler rest ih =>
    refine .bind (invoke_agree phase node fun h' he => h h' (he ▸ List.mem_cons_self)) ?_
    exact fun node => ih node fun h' hm => h h' (List.mem_cons_of_mem _ hm)

section

variable (hhandlers : ∀ h, pipeline.Registers h → host.Alike ground other h)

include hhandlers

theorem runBefore_agree (node : Node) :
    Agree ground host other (pipeline.runBefore host.call node)
      (pipeline.runBefore other.call node) := by
  refine pipeline_ofExcept_agree fun handlers hf => runAll_agree _ _ fun h hm => ?_
  obtain ⟨key, entry⟩ := Pipeline.mem_of_handlersFor hf hm
  exact hhandlers h (.before entry hm)

theorem runAfter_agree (node : Node) :
    Agree ground host other (pipeline.runAfter host.call node)
      (pipeline.runAfter other.call node) := by
  refine pipeline_ofExcept_agree fun handlers hf => runAll_agree _ _ fun h hm => ?_
  obtain ⟨key, entry⟩ := Pipeline.mem_of_handlersFor hf hm
  exact hhandlers h (.after entry hm)

theorem handle_agree {core core' : Node → Run H U (Option Node)} (node : Node)
    (hcore : ∀ node, Agree ground host other (core node) (core' node)) :
    Agree ground host other (pipeline.handle host.call core node)
      (pipeline.handle other.call core' node) := by
  have hafter (node : Node) : Agree ground host other
      (some <$> pipeline.runAfter host.call node) (some <$> pipeline.runAfter other.call node) :=
    .map (runAfter_agree hhandlers node)
  refine .bind (runBefore_agree hhandlers node) fun node =>
    pipeline_ofExcept_agree fun found hf => ?_
  have hinvoke (handler : Supplied H) (he : found = some handler) :
      Agree ground host other
        (Pipeline.invoke host.call .middleware node handler >>= fun node =>
          some <$> pipeline.runAfter host.call node)
        (Pipeline.invoke other.call .middleware node handler >>= fun node =>
          some <$> pipeline.runAfter other.call node) := by
    refine .bind (invoke_agree _ _ fun h hc => ?_) hafter
    obtain ⟨key, entry⟩ := Pipeline.mem_of_find (hf.trans (congrArg Except.ok (he.trans
      (congrArg some hc))))
    exact hhandlers h (.middleware entry)
  cases found with
  | none =>
    refine .bind (hcore node) fun kept => ?_
    cases kept with
    | none => exact .pure _
    | some node => exact hafter node
  | some handler =>
    cases handler with
    | callable h => exact hinvoke _ rfl
    | plain d =>
      cases d with
      | null =>
        refine .bind (hcore node) fun kept => ?_
        cases kept with
        | none => exact .pure _
        | some node => exact hafter node
      | bool _ | number _ | text _ | list _ | object _ => exact hinvoke _ rfl

end

theorem wantText_agree (node : Node) :
    Agree ground host other (wantText node) (wantText node) := by
  unfold wantText
  split
  · exact .pure _
  · exact .throw _

theorem settle_agree {α : Type} (outcome : Outcome α) :
    Agree ground host other (settle outcome) (settle outcome) :=
  .options_bind fun _ _ => .bind (.write _) fun _ => .ofExcept _

theorem splitTag_agree (raw : Node) :
    Agree ground host other (splitTag raw) (splitTag raw) := by
  unfold splitTag
  split
  · exact .pure _
  · exact .throw _

theorem tokenize_agree (text : Node) :
    Agree ground host other (tokenize text) (tokenize text) := by
  refine .options_bind fun options _ => ?_
  split
  · exact .pure _
  · exact .throw _

theorem formatNode_agree (node : Node) :
    Agree ground host other (formatNode node) (formatNode node) := by
  refine .options_bind fun options _ => ?_
  cases options.format.isTrue with
  | true => exact .ofExcept _
  | false => exact .pure _

section

variable
  (hstages : ∀ stage h, ground.replacement stage = .ok (some h) → host.Alike ground other h)

include hstages

theorem parseType_agree (literal owner : Node) :
    Agree ground host other (parseType host literal owner) (parseType other literal owner) := by
  refine .bind (wantText_agree literal) fun text => .override_bind fun found hf => ?_
  cases found with
  | some h => exact hstages _ h hf _
  | none =>
    refine .options_bind fun options _ => ?_
    cases TypeExpr.parse options.limit text with
    | ok t => exact .pure _
    | error e => exact .throw _

theorem parseParamType_agree (name : Node) :
    Agree ground host other (parseParamType host name) (parseParamType other name) := by
  refine .bind (wantText_agree name) fun _ => .override_bind fun found hf => ?_
  cases found with
  | some h => exact hstages _ h hf _
  | none => exact .pure _

theorem parseInline_agree (text : Node) :
    Agree ground host other (parseInline host text) (parseInline other text) := by
  refine .bind (wantText_agree text) fun _ => .override_bind fun found hf => ?_
  cases found with
  | some h => exact hstages _ h hf _
  | none => exact .options_bind fun _ _ => .pure _

theorem withInline_agree (node : Node) :
    Agree ground host other (withInline host node) (withInline other node) := by
  refine .bind (.ofExcept _) fun description => ?_
  cases description.isTrue with
  | false => exact .pure _
  | true =>
    refine .bind (parseInline_agree hstages description) fun answer => ?_
    refine .bind (.ofExcept _) fun parts => ?_
    split
    · exact .pure _
    · exact .throw _

theorem withType_agree (node : Node) :
    Agree ground host other (withType host node) (withType other node) := by
  refine .bind (.ofExcept _) fun clause => ?_
  cases clause.isNone with
  | true => exact .pure _
  | false =>
    refine .bind (.ofExcept _) fun allowed => ?_
    cases allowed with
    | false => exact .pure _
    | true =>
      refine .tryCatch (.bind (.ofExcept _) fun literal => ?_) fun e => ?_
      · exact .bind (parseType_agree hstages literal node) fun _ => .pure _
      · cases e.isTypeSyntax with
        | true => exact .pure _
        | false => exact .throw _

theorem withName_agree (node : Node) :
    Agree ground host other (withName host node) (withName other node) := by
  refine .bind (.ofExcept _) fun name => ?_
  cases name.isNone with
  | true => exact .pure _
  | false => exact .bind (parseParamType_agree hstages name) fun _ => .pure _

theorem processTag_agree (node : Node) :
    Agree ground host other (processTag host node) (processTag other node) := by
  refine .bind (withType_agree hstages node) fun outcome => ?_
  cases outcome with
  | fail e => exact .pure _
  | reject r => exact .pure _
  | ok node =>
    refine .bind (withName_agree hstages node) fun node => .bind (.ofExcept _) fun node => ?_
    refine .options_bind fun options _ => .bind (.ofExcept _) fun judged => ?_
    obtain ⟨outcome, log⟩ := judged
    refine .bind (.write log) fun _ => ?_
    cases outcome with
    | fail e => exact .pure _
    | reject r => exact .pure _
    | ok node => exact .bind (withInline_agree hstages node) fun _ => .pure _

theorem coreTag_agree (node : Node) :
    Agree ground host other (coreTag host node) (coreTag other node) :=
  .bind (processTag_agree hstages node) settle_agree

variable (hhandlers : ∀ h, pipeline.Registers h → host.Alike ground other h)

include hhandlers

theorem parseTagWith_agree (raw : Node) :
    Agree ground host other (parseTagWith host pipeline raw) (parseTagWith other pipeline raw) := by
  refine .override_bind fun found hf => ?_
  cases found with
  | some h => exact .bind (hstages _ h hf _) fun _ => .pure _
  | none =>
    refine .bind (splitTag_agree raw) fun outcome => .bind (settle_agree outcome) fun tag => ?_
    cases tag with
    | none => exact .pure _
    | some tag => exact handle_agree hhandlers _ (coreTag_agree hstages)

/-- The handlers of a tag may change what later tags find, but not what they come to. -/
theorem parseEach_agree (lines : List String) :
    Agree ground host other (parseEach host pipeline lines) (parseEach other pipeline lines) := by
  induction lines with
  | nil => exact .pure _
  | cons raw rest ih =>
    exact .bind (parseTagWith_agree hstages hhandlers _) fun tag => .bind ih fun tags => .pure _

theorem parseTagsWith_agree (body : Body) :
    Agree ground host other (parseTagsWith host pipeline body)
      (parseTagsWith other pipeline body) := by
  refine .override_bind fun found hf => ?_
  cases found with
  | some h => exact .bind (hstages _ h hf _) fun _ => .ofExcept _
  | none => exact parseEach_agree hstages hhandlers _

theorem coreComment_agree (node : Node) :
    Agree ground host other (coreComment host pipeline node) (coreComment other pipeline node) := by
  refine .bind (.ofExcept _) fun value => .bind (tokenize_agree value) fun body => ?_
  refine .bind (.modify fun _ => ⟨rfl, rfl, rfl, rfl⟩) fun _ => .bind (.ofExcept _) fun raw => ?_
  refine .bind (parseTagsWith_agree hstages hhandlers body) fun tags => ?_
  refine .bind (.ofExcept _) fun code => .bind (.ofExcept _) fun code => ?_
  exact .bind (.ofExcept _) fun location => .ofExcept _

theorem buildComment_agree (node : Node) :
    Agree ground host other (buildComment host pipeline node)
      (buildComment other pipeline node) := by
  refine .override_bind fun found hf => ?_
  cases found with
  | some h => exact .bind (hstages _ h hf _) fun _ => .ofExcept _
  | none =>
    dsimp only
    cases hm : pipeline.middleware.lookup "comment" with
    | none => exact coreComment_agree hstages hhandlers node
    | some handler =>
      obtain ⟨front, back, he, -⟩ := List.lookup_eq_some_iff.mp hm
      have entry : ("comment", handler) ∈ pipeline.middleware := by
        rw [he]
        exact List.mem_append_right _ List.mem_cons_self
      refine .bind (invoke_agree _ _ fun h hc => ?_) fun _ => .ofExcept _
      rw [hc] at entry
      exact hhandlers h (.middleware entry)

end

end Parser

end DocComment
