import DocComment.Proofs.Pipeline.Registration

/-!
Handling a node, as folds over what was registered. The handlers before are those for the type
the node comes with, middleware and the handlers after those for the types it has got by then.
So pipelines differ in what they do only if, for some type, their histories differ in the
handlers of a chain or in the last middleware.
-/

namespace DocComment.Pipeline

variable {H : Type}

/-- The callables that a history registers for the type of a node. -/
def callablesFor (history : List (Registration H)) (phase : Phase) (node : Node) :
    Except Error (List H) :=
  (registeredFor history phase node).map (List.filterMap Supplied.handler?)

theorem mem_registered {history : List (Registration H)} {phase : Phase} {type : String}
    {handler : Supplied H} (h : handler ∈ registered history phase type) :
    ∃ r ∈ history, (type, handler) ∈ r.entries := by
  obtain ⟨⟨key, handler⟩, he, rfl⟩ := List.mem_map.mp h
  obtain ⟨hmem, hkey⟩ := List.mem_filter.mp he
  obtain ⟨r, hr, hentry⟩ := List.mem_flatMap.mp hmem
  obtain rfl : key = type := by simpa using hkey
  exact ⟨r, (List.mem_filter.mp hr).1, hentry⟩

theorem map_callable_filterMap {handlers : List (Supplied H)}
    (h : ∀ handler ∈ handlers, handler.handler?.isSome) :
    (handlers.filterMap Supplied.handler?).map .callable = handlers := by
  induction handlers with
  | nil => rfl
  | cons handler rest ih =>
    obtain ⟨hcallable, hrest⟩ := List.forall_mem_cons.mp h
    cases handler with
    | callable h' => exact congrArg (Supplied.callable h' :: ·) (ih hrest)
    | plain d => cases hcallable

/-- If all that is registered is callable, the callables are all that is registered. -/
theorem registeredFor_callable {history : List (Registration H)}
    (h : ∀ r ∈ history, r.allCallable) (phase : Phase) (node : Node) :
    registeredFor history phase node =
      (callablesFor history phase node).map (List.map .callable) := by
  unfold callablesFor registeredFor
  cases typeOf? node with
  | error e => rfl
  | ok type =>
    cases type with
    | none => rfl
    | some type =>
      refine congrArg Except.ok (map_callable_filterMap fun handler hm => ?_).symm
      obtain ⟨r, hr, hentry⟩ := mem_registered hm
      exact List.all_eq_true.mp (h r hr) _ hentry

section

variable {m : Type → Type} [Monad m]

/-- Callables run on a node one after another. No answer leaves the node as it is. -/
def foldAnswers (call : H → List Node → ExceptT Error m Node) (handlers : List H) (node : Node) :
    ExceptT Error m Node :=
  handlers.foldlM (fun node h => do
    let answer ← call h [node]
    return if answer.isNone then node else answer) node

/-- What callables make of a node when they are given by phase and node. The core handling
stands in where there is no middleware. -/
def composed (handlers : Phase → Node → Except Error (List H))
    (call : H → List Node → ExceptT Error m Node)
    (core : Node → ExceptT Error m (Option Node)) (node : Node) :
    ExceptT Error m (Option Node) := do
  let fold (phase : Phase) (node : Node) : ExceptT Error m Node := do
    foldAnswers call (← ofExcept (handlers phase node)) node
  let node ← fold .before node
  match (← ofExcept (handlers .middleware node)).getLast? with
  | some last =>
    let node ← foldAnswers call [last] node
    some <$> fold .after node
  | none =>
    match ← core node with
    | none => return none
    | some node => some <$> fold .after node

variable (call : H → List Node → ExceptT Error m Node)

theorem runAll_callable (phase : Phase) (handlers : List H) (node : Node) :
    runAll call phase node (handlers.map .callable) = foldAnswers call handlers node := by
  induction handlers generalizing node with
  | nil => rfl
  | cons h rest ih =>
    rw [foldAnswers, List.foldlM_cons]
    exact bind_congr ih

/-- Handling depends on what is found for nodes, and on nothing else in a pipeline. -/
theorem handle_congr {p q : Pipeline H}
    (hbefore : ∀ node, handlersFor p.before node = handlersFor q.before node)
    (hmiddleware : ∀ node, p.middlewareFor node = q.middlewareFor node)
    (hafter : ∀ node, handlersFor p.after node = handlersFor q.after node)
    (core : Node → ExceptT Error m (Option Node)) (node : Node) :
    p.handle call core node = q.handle call core node := by
  have hb : p.runBefore call = q.runBefore call := funext fun node => by
    rw [runBefore, runBefore, hbefore]
  have ha : p.runAfter call = q.runAfter call := funext fun node => by
    rw [runAfter, runAfter, hafter]
  unfold handle
  simp only [hb, ha, hmiddleware]

/-- Two histories that register the same handlers for every type, of middleware only the last. -/
structure SameHandlers (history other : List (Registration H)) : Prop where
  before : ∀ type, registered history .before type = registered other .before type
  middleware : ∀ type,
    (registered history .middleware type).getLast? = (registered other .middleware type).getLast?
  after : ∀ type, registered history .after type = registered other .after type

theorem SameHandlers.handle_eq {history other : List (Registration H)}
    (h : SameHandlers history other) (core : Node → ExceptT Error m (Option Node)) (node : Node) :
    (ofHistory history).handle call core node = (ofHistory other).handle call core node := by
  have hholds := holds_ofHistory history
  have hholds' := holds_ofHistory other
  refine handle_congr call (fun node => ?_) (fun node => ?_) (fun node => ?_) core node
  · rw [handlersFor_eq fun type => (hholds.before type).trans (h.before type),
      handlersFor_eq hholds'.before]
  · have hlast (type : String) : (ofHistory history).middleware.lookup type =
        (ofHistory other).middleware.lookup type := by
      rw [hholds.middleware, h.middleware, hholds'.middleware]
    rw [middlewareFor, middlewareFor, find?_eq, find?_eq, funext hlast]
  · rw [handlersFor_eq fun type => (hholds.after type).trans (h.after type),
      handlersFor_eq hholds'.after]

variable [LawfulMonad m] {α β γ : Type}

theorem ofExcept_ok_bind (a : α) (f : α → ExceptT Error m β) :
    (ofExcept (.ok a) : ExceptT Error m α) >>= f = f a := by
  apply ExceptT.ext
  simp [ofExcept, ExceptT.run_bind]

theorem ofExcept_error_bind (e : Error) (f : α → ExceptT Error m β) :
    (ofExcept (.error e) : ExceptT Error m α) >>= f = ofExcept (.error e) := by
  apply ExceptT.ext
  simp [ofExcept, ExceptT.run_bind]

theorem ofExcept_map_bind (x : Except Error α) (g : α → γ) (f : γ → ExceptT Error m β) :
    (ofExcept (x.map g) : ExceptT Error m γ) >>= f =
      (ofExcept x : ExceptT Error m α) >>= fun a => f (g a) := by
  cases x with
  | error e => exact (ofExcept_error_bind e f).trans (ofExcept_error_bind e _).symm
  | ok a =>
    have h := ofExcept_ok_bind a fun a => f (g a)
    exact (ofExcept_ok_bind (g a) f).trans h.symm

theorem invoke_callable (phase : Phase) (h : H) (node : Node) :
    invoke call phase node (.callable h) = foldAnswers call [h] node :=
  (bind_pure _).symm

theorem runAll_registeredFor {history : List (Registration H)}
    (h : ∀ r ∈ history, r.allCallable) (phase : Phase) (node : Node) :
    (do runAll call phase node (← ofExcept (registeredFor history phase node))) = (do
      foldAnswers call (← ofExcept (callablesFor history phase node)) node :
        ExceptT Error m Node) := by
  rw [registeredFor_callable h, ofExcept_map_bind]
  exact bind_congr fun handlers => runAll_callable call phase handlers node

theorem handle_ofHistory {history : List (Registration H)} (h : ∀ r ∈ history, r.allCallable)
    (core : Node → ExceptT Error m (Option Node)) (node : Node) :
    (ofHistory history).handle call core node =
      composed (callablesFor history) call core node := by
  have hholds := holds_ofHistory history
  have hbefore (node : Node) : (ofHistory history).runBefore call node = (do
      foldAnswers call (← ofExcept (callablesFor history .before node)) node) := by
    rw [runBefore, handlersFor_eq hholds.before, runAll_registeredFor call h]
  have hafter (node : Node) : (ofHistory history).runAfter call node = (do
      foldAnswers call (← ofExcept (callablesFor history .after node)) node) := by
    rw [runAfter, handlersFor_eq hholds.after, runAll_registeredFor call h]
  unfold handle composed
  simp only [hbefore, hafter]
  refine bind_congr fun node => ?_
  rw [hholds.middlewareFor_eq, registeredFor_callable h]
  cases callablesFor history .middleware node with
  | error e => exact (ofExcept_error_bind e _).trans (ofExcept_error_bind e _).symm
  | ok handlers =>
    refine (ofExcept_ok_bind _ _).trans (Eq.trans ?_ (ofExcept_ok_bind _ _).symm)
    rw [List.getLast?_map]
    cases handlers.getLast? with
    | none => rfl
    | some last => simp only [Option.map_some, invoke_callable]

/-- A node is handled by folding the handlers of its type, in the order in which they were
registered, around the last middleware or the core handling. Nothing else of a history counts. -/
theorem handle_composes {history : List (Registration H)} (h : ∀ r ∈ history, r.allCallable)
    (core : Node → ExceptT Error m (Option Node)) :
    (∀ node, (ofHistory history).handle call core node =
        composed (callablesFor history) call core node) ∧
      ∀ other, SameHandlers history other → ∀ node,
        (ofHistory history).handle call core node = (ofHistory other).handle call core node :=
  ⟨handle_ofHistory call h core, fun _ hsame => hsame.handle_eq call core⟩

end

/-- A node gets another type from its middleware, and from then on the handlers of that type. -/
theorem handle_composes_retitled :
    let history : List (Registration String) := [
      ⟨.before, .several ["param", "param"], .callable "a"⟩,
      ⟨.middleware, .one "param", .callable "b"⟩,
      ⟨.after, .table [("param", .callable "c"), ("see", .callable "d")], .plain .null⟩,
      ⟨.middleware, .table [("param", .callable "retitle")], .plain .null⟩]
    let call (mark : String) (args : List Node) : ExceptT Error Id Node :=
      match args with
      | [.tag t] =>
        return .tag (if mark = "retitle" then { t with title := "see" }
          else { t with description := t.description ++ mark })
      | _ => return .none
    (∀ r ∈ history, r.allCallable) ∧
      ((ofHistory history).handle call (fun _ => pure none) (.tag { title := "param" })).run =
        .ok (some (.tag { title := "see", description := "aad" })) := by
  intro history call
  have h : ∀ r ∈ history, r.allCallable := by decide
  refine ⟨h, ?_⟩
  rw [(handle_composes call h _).1]
  rfl

end DocComment.Pipeline
