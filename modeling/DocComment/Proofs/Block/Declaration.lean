import DocComment.Block.Context
import DocComment.Proofs.Text.Returns

/-!
Declarations on a line that ends with a carriage return. A pattern may step over it like over
any blank, but every form of declaration ends with a sign or a name, so it fits the line as if
the carriage return were not there. So the code after a comment does not depend on how the
lines end.
-/

namespace DocComment

open Text

namespace Text.Pattern

variable {α β : Type} {p q : Pattern α} {f : α → Pattern β}

/-- Apart from ways to step over a carriage return at the end, the ways to match are the same. -/
structure Passes (p : Pattern α) : Prop where
  empty : ∀ r ∈ p.run [], r.2 = []
  same : ∀ cs, (p.run (cs ++ ['\r'])).filter (fun r => !r.2.isEmpty) =
    (p.run cs).map fun r => (r.1, r.2 ++ ['\r'])

/-- There is no way to step over a carriage return at the end. -/
structure Stops (p : Pattern α) : Prop extends Passes p where
  fails : p.run [] = []
  left : ∀ cs, ∀ r ∈ p.run (cs ++ ['\r']), r.2 ≠ []

theorem Stops.run_concat (h : Stops p) (cs : List Char) :
    p.run (cs ++ ['\r']) = (p.run cs).map fun r => (r.1, r.2 ++ ['\r']) := by
  rw [← h.same, List.filter_eq_self.mpr]
  intro r hr
  simpa using h.left cs r hr

theorem Stops.first?_concat (h : Stops p) (cs : List Char) :
    p.first? (cs ++ ['\r']) = p.first? cs := by
  rw [first?, h.run_concat, List.head?_map, Option.map_map, first?]
  rfl

theorem run_bind (p : Pattern α) (f : α → Pattern β) (cs : List Char) :
    (p >>= f).run cs = (p.run cs).flatMap fun r => (f r.1).run r.2 := rfl

theorem mem_run_bind {cs : List Char} {r : β × List Char} :
    r ∈ (p >>= f).run cs ↔ ∃ r' ∈ p.run cs, r ∈ (f r'.1).run r'.2 := by
  rw [run_bind, List.mem_flatMap]

theorem passes_pure (a : α) : Passes (pure a : Pattern α) where
  empty r hr := by
    rw [List.mem_singleton.mp hr]
  same cs := by
    change [(a, cs ++ ['\r'])].filter _ = _
    rw [List.filter_cons_of_pos (by simp)]
    rfl

/-- What a pattern leaves of a carriage return and what is before it. -/
theorem Passes.concat_of_mem (h : Passes p) {cs : List Char} {r : α × List Char}
    (hr : r ∈ p.run (cs ++ ['\r'])) (hne : r.2 ≠ []) :
    ∃ back, r.2 = back ++ ['\r'] := by
  have hm : r ∈ (p.run (cs ++ ['\r'])).filter fun r => !r.2.isEmpty :=
    List.mem_filter.mpr ⟨hr, by simpa using hne⟩
  rw [h.same] at hm
  obtain ⟨r, -, rfl⟩ := List.mem_map.mp hm
  exact ⟨r.2, rfl⟩

theorem Passes.bind (hp : Passes p) (hf : ∀ a, Passes (f a)) : Passes (p >>= f) where
  empty r hr := by
    obtain ⟨r', hr', hr⟩ := mem_run_bind.mp hr
    rw [hp.empty r' hr'] at hr
    exact (hf r'.1).empty r hr
  same cs := by
    have hused (rs : List (α × List Char)) :
        (rs.flatMap fun r => ((f r.1).run r.2).filter fun r => !r.2.isEmpty) =
          (rs.filter fun r => !r.2.isEmpty).flatMap
            fun r => ((f r.1).run r.2).filter fun r => !r.2.isEmpty := by
      induction rs with
      | nil => rfl
      | cons r rs ih =>
        rw [List.flatMap_cons, ih, List.filter_cons]
        split
        · rw [List.flatMap_cons]
        · next hempty =>
          have hnil : r.2 = [] := by simpa using hempty
          have hnone : (((f r.1).run r.2).filter fun r => !r.2.isEmpty) = [] := by
            rw [List.filter_eq_nil_iff, hnil]
            intro r' hr'
            simp [(hf r.1).empty r' hr']
          rw [hnone, List.nil_append]
    rw [run_bind, run_bind, List.filter_flatMap, hused, hp.same, List.flatMap_map, List.map_flatMap]
    exact List.flatMap_congr fun r _ => (hf r.1).same r.2

theorem Stops.after (hp : Passes p) (hf : ∀ a, Stops (f a)) : Stops (p >>= f) where
  toPasses := hp.bind fun a => (hf a).toPasses
  fails := by
    rw [run_bind, List.flatMap_eq_nil_iff]
    intro r hr
    rw [hp.empty r hr]
    exact (hf r.1).fails
  left cs r hr := by
    obtain ⟨r', hr', hr⟩ := mem_run_bind.mp hr
    by_cases hnil : r'.2 = []
    · rw [hnil, (hf r'.1).fails] at hr
      cases hr
    · obtain ⟨back, hback⟩ := hp.concat_of_mem hr' hnil
      rw [hback] at hr
      exact (hf r'.1).left back r hr

theorem Stops.map (hp : Stops p) (g : α → β) : Stops (p >>= fun a => pure (g a)) where
  toPasses := hp.toPasses.bind fun a => passes_pure (g a)
  fails := by
    rw [run_bind, hp.fails]
    rfl
  left cs r hr := by
    obtain ⟨r', hr', hr⟩ := mem_run_bind.mp hr
    rw [List.mem_singleton.mp hr]
    exact hp.left cs r' hr'

theorem Passes.orElse (hp : Passes p) (hq : Passes q) : Passes (p.orElse q) where
  empty r hr := by
    rcases List.mem_append.mp hr with hr | hr
    · exact hp.empty r hr
    · exact hq.empty r hr
  same cs := by
    change (p.run _ ++ q.run _).filter _ = (p.run cs ++ q.run cs).map _
    rw [List.filter_append, List.map_append, hp.same, hq.same]

theorem Passes.maybe {p : Pattern Unit} (hp : Passes p) : Passes (maybe p) :=
  hp.orElse (passes_pure ())

theorem passes_oneOf {ps : List (Pattern α)} (h : ∀ p ∈ ps, Passes p) : Passes (oneOf ps) where
  empty r hr := by
    obtain ⟨p, hp, hr⟩ := List.mem_flatMap.mp hr
    exact (h p hp).empty r hr
  same cs := by
    change (ps.flatMap _).filter _ = (ps.flatMap _).map _
    rw [List.filter_flatMap, List.map_flatMap]
    exact List.flatMap_congr fun p hp => (h p hp).same cs

theorem stops_oneOf {ps : List (Pattern α)} (h : ∀ p ∈ ps, Stops p) : Stops (oneOf ps) where
  toPasses := passes_oneOf fun p hp => (h p hp).toPasses
  fails := List.flatMap_eq_nil_iff.mpr fun p hp => (h p hp).fails
  left cs r hr := by
    obtain ⟨p, hp, hr⟩ := List.mem_flatMap.mp hr
    exact (h p hp).left cs r hr

theorem stops_keyword {text : String} (hne : text.toList ≠ []) (hr : '\r' ∉ text.toList) :
    Stops (keyword text) := by
  have hfails : (keyword text).run [] = [] := by
    obtain ⟨c, rest, htext⟩ := List.exists_cons_of_ne_nil hne
    rw [keyword, exactly, htext]
    rfl
  have hconcat (cs : List Char) : (keyword text).run (cs ++ ['\r']) =
      ((keyword text).run cs).map fun r => (r.1, r.2 ++ ['\r']) := by
    simp only [keyword, exactly, isPrefixOf?_concat hr]
    cases text.toList.isPrefixOf? cs <;> rfl
  have hleft (cs : List Char) : ∀ r ∈ (keyword text).run (cs ++ ['\r']), r.2 ≠ [] := by
    intro r hr
    rw [hconcat] at hr
    obtain ⟨r, -, rfl⟩ := List.mem_map.mp hr
    simp
  refine ⟨⟨fun _ hr => ?_, fun cs => ?_⟩, hfails, hleft⟩
  · rw [hfails] at hr
    cases hr
  · rw [List.filter_eq_self.mpr fun _ hr => by simpa using hleft cs _ hr, hconcat]

theorem runs_cons_of_pos {s : Char → Bool} {c : Char} (h : s c = true) (cs : List Char) :
    runs s (c :: cs) = (runs s cs).map (fun r => (c :: r.1, r.2)) ++ [([], c :: cs)] := by
  rw [runs, if_pos h]

theorem runs_cons_of_neg {s : Char → Bool} {c : Char} (h : s c = false) (cs : List Char) :
    runs s (c :: cs) = [([], c :: cs)] := by
  rw [runs, if_neg (by simp [h])]

theorem mem_runs {s : Char → Bool} {cs : List Char} {r : List Char × List Char}
    (hr : r ∈ runs s cs) : r.1 ++ r.2 = cs ∧ ∀ c ∈ r.1, s c = true := by
  induction cs generalizing r with
  | nil =>
    rw [List.mem_singleton.mp hr]
    exact ⟨rfl, by simp⟩
  | cons c cs ih =>
    cases hs : s c with
    | false =>
      rw [runs_cons_of_neg hs] at hr
      rw [List.mem_singleton.mp hr]
      exact ⟨rfl, by simp⟩
    | true =>
      rw [runs_cons_of_pos hs] at hr
      rcases List.mem_append.mp hr with hr | hr
      · obtain ⟨back, hback, rfl⟩ := List.mem_map.mp hr
        obtain ⟨rfl, hall⟩ := ih hback
        exact ⟨rfl, List.forall_mem_cons.mpr ⟨hs, hall⟩⟩
      · rw [List.mem_singleton.mp hr]
        exact ⟨rfl, by simp⟩

theorem runs_concat (s : Char → Bool) (cs : List Char) :
    (runs s (cs ++ ['\r'])).filter (fun r => !r.2.isEmpty) =
      (runs s cs).map fun r => (r.1, r.2 ++ ['\r']) := by
  induction cs with
  | nil =>
    cases hs : s '\r' with
    | true => simp [runs_cons_of_pos hs, runs]
    | false => simp [runs_cons_of_neg hs, runs]
  | cons c cs ih =>
    cases hs : s c with
    | false => simp [runs_cons_of_neg hs]
    | true =>
      simp only [List.cons_append, runs_cons_of_pos hs, List.filter_append, List.filter_map,
        List.map_append, Function.comp_def, ih, List.map_map]
      rfl

theorem passes_many (s : Char → Bool) : Passes (many s) where
  empty _ hr := (List.append_eq_nil_iff.mp (mem_runs hr).1).2
  same := runs_concat s

theorem passes_many1 (s : Char → Bool) : Passes (many1 s) where
  empty _ hr := (List.append_eq_nil_iff.mp (mem_runs (List.mem_filter.mp hr).1).1).2
  same cs := by
    change ((runs s _).filter _).filter _ = ((runs s cs).filter _).map _
    rw [List.filter_comm, runs_concat, List.filter_map]
    rfl

theorem stops_many1 {s : Char → Bool} (hs : s '\r' = false) : Stops (many1 s) where
  toPasses := passes_many1 s
  fails := rfl
  left cs r hr hnil := by
    obtain ⟨htext, hall⟩ := mem_runs (List.mem_filter.mp hr).1
    rw [hnil, List.append_nil] at htext
    have hreturn := hall '\r' (by rw [htext]; simp)
    rw [hs] at hreturn
    cases hreturn

theorem passes_blanks : Passes blanks := (passes_many isBlank).bind fun _ => passes_pure ()

theorem passes_blanks1 : Passes blanks1 := (passes_many1 isBlank).bind fun _ => passes_pure ()

end Text.Pattern

namespace Declaration

open Text.Pattern

theorem stops_name : Stops name := stops_many1 rfl

theorem stops_path : Stops path := stops_many1 rfl

theorem passes_word {text : String} (hne : text.toList ≠ []) (hr : '\r' ∉ text.toList) :
    Passes (word text) :=
  (stops_keyword hne hr).toPasses.bind fun _ => passes_blanks1

theorem passes_exported : Passes exported := (passes_word (by decide) (by decide)).maybe

theorem passes_exportedDefault : Passes exportedDefault :=
  ((passes_word (by decide) (by decide)).bind
    fun _ => (passes_word (by decide) (by decide)).maybe).maybe

theorem passes_async : Passes async := (passes_word (by decide) (by decide)).maybe

theorem stops_assigned : Stops assigned :=
  .after passes_blanks fun _ => stops_keyword (by decide) (by decide)

theorem stops_parameters : Stops parameters :=
  .after (stops_keyword (by decide) (by decide)).toPasses fun _ =>
    .after (passes_many _) fun _ => stops_keyword (by decide) (by decide)

theorem stops_arrow : Stops arrow :=
  .after stops_parameters.toPasses fun _ =>
    .after passes_blanks fun _ => stops_keyword (by decide) (by decide)

theorem stops_shortArrow : Stops shortArrow :=
  .after stops_name.toPasses fun _ =>
    .after passes_blanks fun _ => stops_keyword (by decide) (by decide)

theorem passes_binding : Passes binding := by
  have hkeyword : ∀ p ∈ [keyword "const", keyword "let", keyword "var"], Stops p := by
    simp only [List.forall_mem_cons, List.not_mem_nil, false_implies, implies_true, and_true]
    refine ⟨?_, ?_, ?_⟩ <;> exact stops_keyword (by decide) (by decide)
  exact (stops_oneOf hkeyword).toPasses.bind fun _ => passes_blanks1

/-- A member and a member of a prototype differ in the text between object and name. -/
theorem stops_memberOf {text : String} (hne : text.toList ≠ []) (hr : '\r' ∉ text.toList) :
    Stops (do
      blanks
      let parent ← path
      keyword text
      let name ← name
      assigned
      return ⟨name, some parent⟩ : Pattern Declared) :=
  .after passes_blanks fun _ => .after stops_path.toPasses fun parent =>
    .after (stops_keyword hne hr).toPasses fun _ => .after stops_name.toPasses fun name =>
      stops_assigned.map fun _ => Declared.mk name (some parent)

theorem stops_member : Stops member := stops_memberOf (by decide) (by decide)

theorem stops_prototypeMember : Stops prototypeMember := stops_memberOf (by decide) (by decide)

theorem stops_variableForm : Stops variableForm :=
  .after passes_blanks fun _ => .after passes_exported fun _ => .after passes_binding fun _ =>
    stops_name.map fun name => Declared.mk name none

theorem stops_classForm : Stops classForm :=
  .after passes_blanks fun _ => .after passes_exportedDefault fun _ =>
    .after (passes_word (by decide) (by decide)) fun _ =>
      stops_name.map fun name => Declared.mk name none

theorem stops_functionForm : Stops functionForm :=
  .after passes_blanks fun _ => .after passes_exportedDefault fun _ => .after passes_async fun _ =>
    .after (stops_keyword (by decide) (by decide)).toPasses fun _ =>
      .after passes_blanks fun _ =>
        .after (stops_keyword (by decide) (by decide)).toPasses.maybe fun _ =>
          .after passes_blanks fun _ => .after stops_name.toPasses fun name =>
            .after passes_blanks fun _ =>
              .map (stops_keyword (by decide) (by decide)) fun _ => Declared.mk name none

theorem stops_prototypeMethod : Stops prototypeMethod :=
  .after stops_prototypeMember.toPasses fun declared => .after passes_blanks fun _ =>
    .after passes_async fun _ => .map (stops_keyword (by decide) (by decide)) fun _ => declared

theorem stops_memberMethod : Stops memberMethod := by
  have hvalue : ∀ p ∈ [keyword "function", arrow], Stops p := by
    simp only [List.forall_mem_cons, List.not_mem_nil, false_implies, implies_true, and_true]
    exact ⟨stops_keyword (by decide) (by decide), stops_arrow⟩
  exact .after stops_member.toPasses fun declared => .after passes_blanks fun _ =>
    .after passes_async fun _ => (stops_oneOf hvalue).map fun _ => declared

theorem stops_functionVariable : Stops functionVariable := by
  have hvalue : ∀ p ∈ [keyword "function", arrow, shortArrow], Stops p := by
    simp only [List.forall_mem_cons, List.not_mem_nil, false_implies, implies_true, and_true]
    exact ⟨stops_keyword (by decide) (by decide), stops_arrow, stops_shortArrow⟩
  exact .after stops_variableForm.toPasses fun declared => .after stops_assigned.toPasses fun _ =>
    .after passes_blanks fun _ => .after passes_async fun _ =>
      (stops_oneOf hvalue).map fun _ => declared

theorem stops_classMethod : Stops classMethod := by
  have haccess : ∀ p ∈ [word "get", word "set"], Passes p := by
    simp only [List.forall_mem_cons, List.not_mem_nil, false_implies, implies_true, and_true]
    exact ⟨passes_word (by decide) (by decide), passes_word (by decide) (by decide)⟩
  exact .after passes_blanks fun _ =>
    .after (passes_word (by decide) (by decide)).maybe fun _ => .after passes_async fun _ =>
      .after (passes_oneOf haccess).maybe fun _ => .after stops_name.toPasses fun name =>
        .after passes_blanks fun _ => .after stops_parameters.toPasses fun _ =>
          .after passes_blanks fun _ =>
            .map (stops_keyword (by decide) (by decide)) fun _ => Declared.mk name none

theorem stops_objectProperty : Stops objectProperty :=
  .after passes_blanks fun _ => .after stops_name.toPasses fun name =>
    .after passes_blanks fun _ =>
      .map (stops_keyword (by decide) (by decide)) fun _ => Declared.mk name none

theorem stops_of_mem_forms : ∀ entry ∈ forms, Stops entry.2 := by
  simp only [forms, List.forall_mem_cons, List.not_mem_nil, false_implies, implies_true, and_true]
  exact ⟨stops_classForm, stops_functionForm, stops_prototypeMethod, stops_prototypeMember,
    stops_memberMethod, stops_functionVariable, stops_member, stops_variableForm,
    stops_classMethod, stops_objectProperty⟩

theorem find?_concat_return (line : List Char) : find? (line ++ ['\r']) = find? line := by
  unfold find?
  rw [← List.head?_filterMap, ← List.head?_filterMap]
  refine congrArg List.head? (List.filterMap_congr fun entry he => ?_)
  obtain ⟨kind, form⟩ := entry
  dsimp only
  rw [(stops_of_mem_forms _ he).first?_concat]

end Declaration

namespace CodeContext

theorem firstCode_returned {lines lines' : List (List Char)}
    (h : List.Forall₂ Returned lines lines') (line : Int) :
    firstCode line lines' = none ∧ firstCode line lines = none ∨
      ∃ number text text', firstCode line lines = some (number, text) ∧
        firstCode line lines' = some (number, text') ∧ Returned text text' := by
  induction h generalizing line with
  | nil => exact .inl ⟨rfl, rfl⟩
  | @cons text text' lines lines' htext _ ih =>
    rw [firstCode, firstCode, htext.all_eq isBlank_return]
    split
    · exact ih (line + 1)
    · exact .inr ⟨line, text, text', rfl, rfl, htext⟩

/-- What the code after a comment declares does not depend on its line ends. -/
theorem ofText?_returns {after after' : List Char} (h : Returns after after') (line : Int) :
    ofText? line after' = ofText? line after := by
  unfold ofText?
  rcases firstCode_returned h.splitLines line with ⟨h', h⟩ | ⟨number, text, text', h, h', ht⟩
  · rw [h, h']
  · have hfind : Declaration.find? text' = Declaration.find? text := by
      rcases ht.ends with rfl | rfl
      · rfl
      · exact Declaration.find?_concat_return text
    rw [h, h']
    dsimp only
    rw [ht.trim_eq, hfind]

end CodeContext

end DocComment
