import DocComment.Proofs.Comment.Returns

/-!
The comments of a source and of the same source with a carriage return before each line feed.
They are the same one by one, apart from the carriage returns, where these neither hide a
directive nor stand where text is dedented.
-/

namespace DocComment

open Text

theorem Comment.ofSource_plain (source : String) :
    ofSource {} source = ((Block.extract source).filter (Block.isValid true)).map (found {}) := by
  have hfailure (b : Block) : b.failure {} = none := if_neg (by decide)
  have hvalid : Block.valid {} source = (Block.extract source).filter (Block.isValid true) := rfl
  rw [ofSource, hvalid, List.filter_eq_self.mpr fun b _ => by rw [hfailure]; rfl]

/-- What becomes of a comment if its source gets carriage returns. -/
def Comment.Returned (c c' : Comment) : Prop := c.Counterpart c' ∧ (c'.Steady → c.Same c')

theorem Comment.ofSource_returns {source source' : String}
    (h : Returns source.toList source'.toList) :
    List.Forall₂ Returned (ofSource {} source)
      ((ofSource {} source').filter fun c => !Block.saysDirective c.raw) := by
  have hraw (b : Block) : (found {} b).raw = b.raw := finish_raw _ _
  have hvalid (b b' : Block) (hb : b.Counterpart b') : b.isValid true = true ↔
      (b'.isValid true && !Block.saysDirective b'.raw) = true := by
    rw [Block.isValid_counterpart hb]
  have hblocks := List.rel_filter (R := Block.Counterpart) hvalid (Block.extract_returns h)
  rw [ofSource_plain, ofSource_plain, List.filter_map, List.forall₂_map_left_iff,
    List.forall₂_map_right_iff, List.filter_filter]
  have hfilter : (fun b => ((fun c : Comment => !Block.saysDirective c.raw) ∘ found {}) b &&
      b.isValid true) = fun b => b.isValid true && !Block.saysDirective b.raw := by
    funext b
    rw [Function.comp_apply, hraw, Bool.and_comm]
  rw [hfilter]
  exact hblocks.imp fun _ _ hb => ⟨found_counterpart hb, found_same hb⟩

namespace Parser

variable {H U : Type} (host : Host H U)

/-- What a parser without any switch makes of a source. -/
theorem parse_plain (source : String) {p : Parser H U} (hp : p.Bare {}) :
    ((parse host source).run.run p).1 = .ok ((Comment.ofSource {} source).map .comment) := by
  obtain ⟨_, _, hrun⟩ := parse_run host source hp
  rw [hrun]
  rfl

/-- With carriage returns before its line feeds a source comes to the same comments, and to one
more for each directive that the carriage returns hide. Where they hide none, and stand nowhere
that text is dedented by them, the comments are the same but for the carriage returns. -/
theorem parse_line_ends (source : String) (hr : '\r' ∉ source.toList) {p q : Parser H U}
    (hp : p.Bare {}) (hq : q.Bare {}) :
    ∃ comments comments' : List Comment,
      ((parse host source).run.run p).1 = .ok (comments.map .comment) ∧
      ((parse host (String.ofList (crlf source.toList))).run.run q).1 =
        .ok (comments'.map .comment) ∧
      List.Forall₂ (fun c c' => c.Counterpart c' ∧ (c'.Steady → c.Same c')) comments
        (comments'.filter fun c => !Block.saysDirective c.raw) ∧
      ((∀ c ∈ comments', Block.saysDirective c.raw = false ∧ c.Steady) →
        List.Forall₂ Comment.Same comments comments') := by
  have hreturns : Returns source.toList (String.ofList (crlf source.toList)).toList := by
    rw [String.toList_ofList]
    exact returns_crlf hr
  have hcomments := Comment.ofSource_returns hreturns
  refine ⟨_, _, parse_plain host _ hp, parse_plain host _ hq, hcomments, fun hsafe => ?_⟩
  rw [List.filter_eq_self.mpr fun c hc => by rw [(hsafe c hc).1]; rfl] at hcomments
  have hflipped : List.Forall₂ (flip Comment.Returned) _ _ := List.Forall₂.flip hcomments
  have hsteady := (List.forall₂_and_left ..).mpr ⟨fun c hc => (hsafe c hc).2, hflipped⟩
  exact List.Forall₂.flip (hsteady.imp fun _ _ hc => hc.2.2 hc.1)

/-- Gutters leave blank lines empty, and the second block is a directive. -/
theorem parse_line_ends_gutters :
    let host : Host Empty Unit := ⟨Empty.elim, Empty.elim⟩
    let source := "/**\n * Adds.\n *\n * @param a one\n */\nlet a = 1\n/**\n * jshint ignore\n */"
    let parser := Parser.new (Switches.options {}) ()
    ∃ c c' d : Comment,
      ((parse host source).run.run parser).1 = .ok [.comment c] ∧
      ((parse host (String.ofList (crlf source.toList))).run.run parser).1 =
        .ok [.comment c', .comment d] ∧
      c.Same c' ∧ Block.saysDirective d.raw = true := by
  intro host source parser
  obtain ⟨comments, comments', hplain, hreturns, hsame, -⟩ :=
    parse_line_ends host source (by decide) (bare_new {} ()) (bare_new {} ())
  have hinjective : Function.Injective Node.comment := fun c c' h => by
    injection h with h
    injection h
  have hof : comments' = Comment.ofSource {} (String.ofList (crlf source.toList)) := by
    have hresult := hreturns.symm.trans (parse_plain host _ (bare_new {} ()))
    exact List.map_injective_iff.mpr hinjective (Except.ok.inj hresult)
  have hsafe : (Comment.ofSource {} (String.ofList (crlf source.toList))).map
      (fun c => (Block.saysDirective c.raw, decide c.Steady)) = [(false, true), (true, true)] := by
    decide +kernel
  rw [← hof] at hsafe
  obtain ⟨c', others, rfl, hc', hothers⟩ := List.map_eq_cons_iff.mp hsafe
  obtain ⟨d, rfl, hd⟩ := List.map_eq_singleton_iff.mp hothers
  obtain ⟨hkept, hsteady⟩ := Prod.mk.inj hc'
  obtain ⟨hleft, -⟩ := Prod.mk.inj hd
  rw [List.filter_cons_of_pos (by rw [hkept]; rfl), List.filter_cons_of_neg (by rw [hleft]; decide),
    List.filter_nil] at hsame
  cases hsame with
  | @cons c _ _ _ hc hnil =>
    cases hnil
    exact ⟨c, c', d, hplain, hreturns, hc.2 (of_decide_eq_true hsteady), hleft⟩

/-- A directive behind gutters, and text that is indented without any. -/
theorem parse_line_ends_differ :
    let host : Host Empty Unit := ⟨Empty.elim, Empty.elim⟩
    let parser := Parser.new (Switches.options {}) ()
    let directive := "/**\n * eslint-disable\n */"
    let indented := "/**\n  a\n  b\n*/"
    ∃ d c c' : Comment,
      ((parse host directive).run.run parser).1 = .ok [] ∧
      ((parse host (String.ofList (crlf directive.toList))).run.run parser).1 =
        .ok [.comment d] ∧
      ((parse host indented).run.run parser).1 = .ok [.comment c] ∧
      ((parse host (String.ofList (crlf indented.toList))).run.run parser).1 =
        .ok [.comment c'] ∧
      c.description = "a\nb" ∧ String.ofList (withoutReturns c'.description.toList) = "a\n  b" := by
  intro host parser directive indented
  have hresult (source : String) := parse_plain host source (bare_new (H := Empty) {} ())
  have hdescriptions :
      (Comment.ofSource {} directive).map (·.description) = [] ∧
      (Comment.ofSource {} (String.ofList (crlf directive.toList))).map (·.description) =
        ["eslint-disable"] ∧
      (Comment.ofSource {} indented).map (·.description) = ["a\nb"] ∧
      (Comment.ofSource {} (String.ofList (crlf indented.toList))).map (·.description) =
        ["a\r\n  b"] := by
    decide +kernel
  obtain ⟨hnone, hfound, hplain, hreturns⟩ := hdescriptions
  obtain ⟨d, hd, -⟩ := List.map_eq_singleton_iff.mp hfound
  obtain ⟨c, hc, hplain⟩ := List.map_eq_singleton_iff.mp hplain
  obtain ⟨c', hc', hreturns⟩ := List.map_eq_singleton_iff.mp hreturns
  refine ⟨d, c, c', ?_, ?_, ?_, ?_, hplain, by rw [hreturns]; decide⟩
  · rw [hresult, List.map_eq_nil_iff.mp hnone]
    rfl
  · rw [hresult, hd]
    rfl
  · rw [hresult, hc]
    rfl
  · rw [hresult, hc']
    rfl

end Parser

end DocComment
