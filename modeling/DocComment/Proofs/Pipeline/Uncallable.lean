import DocComment.Parser.Parse
import DocComment.Proofs.Parser.Plain
import DocComment.Proofs.Pipeline.Registration

/-!
Handlers that are not callable. Handling a node comes to such a handler if all before it
returned, and then it fails with an error of the phase that the handler is registered for.
Null is no exception in the two chains. In the place of middleware it is one: it counts as no
middleware, and the core handling goes on as if nothing were registered.
-/

namespace DocComment.Pipeline

variable {H U : Type}

/-- Callables that return one after another, and where they take a node and a parser. -/
inductive Passes (call : H → List Node → Run H U Node) :
    List (Supplied H) → Node × Parser H U → Node × Parser H U → Prop
  | nil (here : Node × Parser H U) : Passes call [] here here
  | cons {h : H} {rest : List (Supplied H)} {node answer : Node} {p p' : Parser H U}
      {there : Node × Parser H U}
      (returns : (call h [node]).run.run p = (.ok answer, p'))
      (others : Passes call rest (if answer.isNone then node else answer, p') there) :
      Passes call (.callable h :: rest) (node, p) there

/-- Handling has passed the handlers before and then middleware, or else the core handling. -/
inductive Handled (history : List (Registration H)) (call : H → List Node → Run H U Node)
    (core : Node → Run H U (Option Node)) (start : Node × Parser H U) :
    Node × Parser H U → Prop
  | middleware {handlers : List (Supplied H)} {h : H} {here there : Node × Parser H U}
      (found : registeredFor history .before start.1 = .ok handlers)
      (passes : Passes call handlers start here)
      (last : (registeredFor history .middleware here.1).map List.getLast? =
        .ok (some (.callable h)))
      (returns : Passes call [.callable h] here there) : Handled history call core start there
  | core {handlers : List (Supplied H)} {node : Node} {here : Node × Parser H U}
      {p : Parser H U} (found : registeredFor history .before start.1 = .ok handlers)
      (passes : Passes call handlers start here)
      (none : (registeredFor history .middleware here.1).map List.getLast? = .ok none)
      (keeps : (core here.1).run.run here.2 = (.ok (some node), p)) :
      Handled history call core start (node, p)

/-- Handling has come to plain data in the place of a handler. -/
inductive ComesTo (history : List (Registration H)) (call : H → List Node → Run H U Node)
    (core : Node → Run H U (Option Node)) (start : Node × Parser H U) :
    Phase → Data → Node × Parser H U → Prop
  | before {front back : List (Supplied H)} {d : Data} {stop : Node × Parser H U}
      (found : registeredFor history .before start.1 = .ok (front ++ .plain d :: back))
      (passes : Passes call front start stop) : ComesTo history call core start .before d stop
  | middleware {handlers : List (Supplied H)} {d : Data} {stop : Node × Parser H U}
      (found : registeredFor history .before start.1 = .ok handlers)
      (passes : Passes call handlers start stop)
      (last : (registeredFor history .middleware stop.1).map List.getLast? =
        .ok (some (.plain d))) : ComesTo history call core start .middleware d stop
  | after {front back : List (Supplied H)} {d : Data} {there stop : Node × Parser H U}
      (handled : Handled history call core start there)
      (found : registeredFor history .after there.1 = .ok (front ++ .plain d :: back))
      (passes : Passes call front there stop) : ComesTo history call core start .after d stop

section

variable {call : H → List Node → Run H U Node} {core : Node → Run H U (Option Node)}
  {history : List (Registration H)} {start here there stop : Node × Parser H U}
  {handlers front back : List (Supplied H)} {phase : Phase} {d : Data}

theorem ofExcept_ok_run {α β : Type} {x : Except Error α} {a : α} (h : x = .ok a)
    (f : α → Run H U β) (p : Parser H U) :
    (ofExcept x >>= f : Run H U β).run.run p = (f a).run.run p := by
  rw [h]
  exact Run.bind_ok rfl

theorem Passes.invoke {h : H} (hp : Passes call [.callable h] here there) (phase : Phase) :
    (Pipeline.invoke call phase here.1 (.callable h)).run.run here.2 = (.ok there.1, there.2) := by
  cases hp with
  | cons returns others =>
    cases others with
    | nil => exact Run.bind_ok returns

/-- Handlers that pass hand on to those that follow them. -/
theorem Passes.runAll_append (h : Passes call front start stop) (phase : Phase)
    (back : List (Supplied H)) :
    (runAll call phase start.1 (front ++ back)).run.run start.2 =
      (runAll call phase stop.1 back).run.run stop.2 := by
  induction h with
  | nil here => rfl
  | cons returns others ih =>
    have hinvoke := Passes.invoke (.cons returns (.nil _)) phase
    exact (Run.bind_ok hinvoke).trans ih

theorem Passes.runAll (h : Passes call handlers start stop) (phase : Phase) :
    (Pipeline.runAll call phase start.1 handlers).run.run start.2 = (.ok stop.1, stop.2) := by
  rw [← List.append_nil handlers, h.runAll_append]
  rfl

/-- The handlers that follow plain data are never reached. -/
theorem Passes.runAll_plain (h : Passes call front start stop) (phase : Phase) (d : Data)
    (back : List (Supplied H)) :
    (Pipeline.runAll call phase start.1 (front ++ .plain d :: back)).run.run start.2 =
      (.error (.uncallable (.handler phase stop.1.key.written d.shown)), stop.2) := by
  rw [h.runAll_append]
  exact Run.bind_error rfl

theorem runBefore_passes (found : registeredFor history .before start.1 = .ok handlers)
    (passes : Passes call handlers start here) :
    ((ofHistory history).runBefore call start.1).run.run start.2 = (.ok here.1, here.2) := by
  have hfound := (handlersFor_eq (holds_ofHistory history).before start.1).trans found
  rw [runBefore, ofExcept_ok_run hfound]
  exact passes.runAll .before

theorem middlewareFor_ofHistory {last : Option (Supplied H)}
    (h : (registeredFor history .middleware here.1).map List.getLast? = .ok last) :
    (ofHistory history).middlewareFor here.1 = .ok last :=
  ((holds_ofHistory history).middlewareFor_eq here.1).trans h

theorem Handled.handle_run (h : Handled history call core start there) :
    ((ofHistory history).handle call core start.1).run.run start.2 =
      (some <$> (ofHistory history).runAfter call there.1).run.run there.2 := by
  cases h with
  | middleware found passes last returns =>
    rw [handle, Run.bind_ok (runBefore_passes found passes),
      ofExcept_ok_run (middlewareFor_ofHistory last)]
    exact Run.bind_ok (returns.invoke .middleware)
  | core found passes none keeps =>
    rw [handle, Run.bind_ok (runBefore_passes found passes),
      ofExcept_ok_run (middlewareFor_ofHistory none)]
    exact Run.bind_ok keeps

/-- Plain data in the place of a handler fails the handling of a node, with an error that
carries its phase. Null in the place of middleware leaves the node to the core handling. -/
theorem handle_uncallable (h : ComesTo history call core start phase d stop) :
    ((phase = .middleware → d ≠ .null) →
      ((ofHistory history).handle call core start.1).run.run start.2 =
        (.error (.uncallable (.handler phase stop.1.key.written d.shown)), stop.2)) ∧
      (phase = .middleware → d = .null →
        ((ofHistory history).handle call core start.1).run.run start.2 =
          (do match ← core stop.1 with
            | none => return none
            | some node => some <$> (ofHistory history).runAfter call node :
              Run H U (Option Node)).run.run stop.2) := by
  cases h with
  | before found passes =>
    refine ⟨fun _ => ?_, nofun⟩
    have hfound := (handlersFor_eq (holds_ofHistory history).before start.1).trans found
    rw [handle, runBefore]
    refine Run.bind_error ?_
    rw [ofExcept_ok_run hfound]
    exact passes.runAll_plain .before d _
  | middleware found passes last =>
    rw [handle, Run.bind_ok (runBefore_passes found passes),
      ofExcept_ok_run (middlewareFor_ofHistory last)]
    cases d with
    | null => exact ⟨fun hd => absurd rfl (hd rfl), fun _ _ => rfl⟩
    | bool _ | number _ | text _ | list _ | object _ =>
      exact ⟨fun _ => Run.bind_error rfl, nofun⟩
  | after handled found passes =>
    refine ⟨fun _ => ?_, nofun⟩
    have hfound := (handlersFor_eq (holds_ofHistory history).after _).trans found
    have hafter : ((ofHistory history).runAfter call _).run.run _ = _ :=
      (ofExcept_ok_run hfound _ _).trans (passes.runAll_plain .after d _)
    rw [handled.handle_run]
    exact Run.map_run hafter

end

/-- Middleware sets the type, and of the handlers of this type the second was left out. -/
theorem handle_uncallable_after :
    let history : List (Registration Bool) := [
      ⟨.before, .one "param", .callable false⟩,
      ⟨.after, .several ["param", "see"], .callable false⟩,
      ⟨.middleware, .table [("param", .callable true)], .plain .null⟩,
      ⟨.after, .one "see", .plain .null⟩]
    let call (retitles : Bool) (args : List Node) : Run Bool Unit Node :=
      return if retitles then .tag { title := "see" } else if args.isEmpty then .list [] else .none
    let core (_ : Node) : Run Bool Unit (Option Node) := pure none
    let p : Parser Bool Unit := { memory := () }
    ComesTo history call core (.tag { title := "param" }, p) .after .null
        (.tag { title := "see" }, p) ∧
      ((ofHistory history).handle call core (.tag { title := "param" })).run.run p =
        (.error (.uncallable (.handler .after "see" "None")), p) := by
  intro history call core p
  have hnothing (node : Node) : (call false [node]).run.run p = (.ok .none, p) := rfl
  have hbefore : Passes call [.callable false] (.tag { title := "param" }, p)
      (.tag { title := "param" }, p) := .cons (hnothing _) (.nil _)
  have hmiddleware : Passes call [.callable true] (.tag { title := "param" }, p)
      (.tag { title := "see" }, p) := .cons rfl (.nil _)
  have hafter : Passes call [.callable false] (.tag { title := "see" }, p)
      (.tag { title := "see" }, p) := .cons (hnothing _) (.nil _)
  have hfound : registeredFor history .after (.tag { title := "see" }) =
      .ok ([.callable false] ++ .plain .null :: []) := rfl
  have h : ComesTo history call core (.tag { title := "param" }, p) .after .null
      (.tag { title := "see" }, p) :=
    .after (.middleware rfl hbefore rfl hmiddleware) hfound hafter
  exact ⟨h, (handle_uncallable h).1 nofun⟩

/-- Middleware without a handler is passed over in silence for tags, though not for comments. -/
theorem handle_null_middleware :
    let history : List (Registration Empty) := [⟨.middleware, .one "param", .plain .null⟩]
    let host : Host Empty Unit := ⟨Empty.elim, Empty.elim⟩
    let core (node : Node) : Run Empty Unit (Option Node) := pure (some node)
    let p : Parser Empty Unit := { memory := () }
    let param : Node := .tag { title := "param" }
    (ComesTo history host.call core (param, p) .middleware .null (param, p) ∧
        ((ofHistory history).handle host.call core param).run.run p = (.ok (some param), p)) ∧
      ((do Parser.middleware (.one "param") (.plain .null)
           Parser.parseTag host (.ofText "@param a") : Run Empty Unit _).run.run p).1.isOk ∧
      ((do Parser.middleware (.one "comment") (.plain .null)
           Parser.parseComment host (.block { raw := "", value := "" }) :
              Run Empty Unit _).run.run p).1.map (fun _ => ()) =
        .error (.uncallable (.handler .middleware "RawComment" "None")) := by
  intro history host core p param
  have hfound : registeredFor history .before param = .ok [] := rfl
  have h : ComesTo history host.call core (param, p) .middleware .null (param, p) :=
    .middleware hfound (.nil _) rfl
  refine ⟨⟨h, ?_⟩, ?_, ?_⟩
  · rfl
  · decide +kernel
  · rfl

end DocComment.Pipeline
