import DocComment.Proofs.Tag.Line

/-!
What a tag line is made of, told by the texts that stand in it one after the other and not by
how they are cut off. Splitting finds the parts exactly where a line has them. So it loses
nothing but blanks, and where it fails the line has one of a few faults.
-/

namespace DocComment.Tag

open Text

/-! ### The title -/

/-- An at sign is a mark before a spelling, and a spelling only if nothing else is there. -/
def Marks (mark spelling : List Char) : Prop :=
  mark = ['@'] ∨ mark = [] ∧ (spelling.head? = some '@' → spelling = ['@'])

/-- A line with a title in this spelling, and the text behind it. -/
inductive Heading : List Char → List Char → List Char → Prop where
  | intro {indent mark spelling gap after : List Char}
      (hindent : ∀ c ∈ indent, isBlank c = true) (hmark : Marks mark spelling)
      (hne : spelling ≠ []) (hspelling : ∀ c ∈ spelling, isTitleChar c = true)
      (hgap : ∀ c ∈ gap, isBlank c = true) (hafter : ∀ c ∈ after.head?, isBlank c = false)
      (hend : ∀ c ∈ (gap ++ after).head?, isTitleChar c = false) :
      Heading (indent ++ (mark ++ spelling ++ (gap ++ after))) spelling after

theorem isBlank_of_isTitleChar {c : Char} (h : isTitleChar c = true) : isBlank c = false := by
  grind [isTitleChar]

theorem drop_at {body : List Char} (h : body.takeWhile isTitleChar = ['@']) :
    body.drop 1 = body.dropWhile isTitleChar := by
  have hbody := List.takeWhile_append_dropWhile (p := isTitleChar) (l := body)
  rw [h] at hbody
  generalize body.dropWhile isTitleChar = rest at hbody
  subst body
  rfl

section

variable {raw mark spelling rest : List Char}

/-- The first word is the spelling with its mark, if it has one. -/
theorem titleOf_marks (h : titleOf raw = some (spelling, rest)) :
    rest = (trimStart raw).dropWhile isTitleChar ∧
      ∃ mark, Marks mark spelling ∧ (trimStart raw).takeWhile isTitleChar = mark ++ spelling := by
  unfold titleOf at h
  dsimp only at h
  split at h
  · cases h
  · next hat =>
    cases h
    exact ⟨drop_at hat, [], .inr ⟨rfl, fun _ => rfl⟩, hat⟩
  · next hat =>
    cases h
    exact ⟨rfl, ['@'], .inl rfl, hat⟩
  · next hat =>
    cases h
    refine ⟨rfl, [], .inr ⟨rfl, fun hhead => ?_⟩, rfl⟩
    obtain ⟨title, htitle⟩ := List.head?_eq_some_iff.mp hhead
    exact absurd htitle (hat title)

/-- No other reading of the first word gives a mark and a spelling. -/
theorem titleOf_of_marks (hne : spelling ≠ []) (hmark : Marks mark spelling)
    (hword : (trimStart raw).takeWhile isTitleChar = mark ++ spelling) :
    titleOf raw = some (spelling, (trimStart raw).dropWhile isTitleChar) := by
  unfold titleOf
  dsimp only
  split
  · next hnone =>
    rw [hnone] at hword
    exact absurd (List.append_eq_nil_iff.mp hword.symm).2 hne
  · next hat =>
    rw [drop_at hat]
    rw [hat] at hword
    rcases hmark with rfl | ⟨rfl, -⟩
    · exact absurd (List.cons.inj hword).2.symm hne
    · rw [hword]
      rfl
  · next title hlone hat =>
    rw [hat] at hword
    rcases hmark with rfl | ⟨rfl, halone⟩
    · rw [(List.cons.inj hword).2]
      rfl
    · obtain rfl : '@' :: title = spelling := hword
      exact absurd (List.cons.inj (halone rfl)).2 hlone
  · next hat =>
    rcases hmark with rfl | ⟨rfl, -⟩
    · exact absurd hword (hat spelling)
    · rw [hword]
      rfl

end

theorem titleOf_of_heading {raw spelling after : List Char} (h : Heading raw spelling after) :
    ∃ rest, titleOf raw = some (spelling, rest) ∧ trimStart rest = after := by
  obtain ⟨hindent, hmark, hne, hspelling, hgap, hafter, hend⟩ := h
  next indent mark gap =>
  have hword : ∀ c ∈ mark ++ spelling, isTitleChar c = true := by
    intro c hc
    rcases List.mem_append.mp hc with hc | hc
    · rcases hmark with rfl | ⟨rfl, -⟩
      · obtain rfl := List.mem_singleton.mp hc
        decide
      · cases hc
    · exact hspelling c hc
  have hstart : trimStart (indent ++ (mark ++ spelling ++ (gap ++ after))) =
      mark ++ spelling ++ (gap ++ after) := by
    apply dropWhile_append_of_head hindent
    intro c hc
    have hnonempty : mark ++ spelling ≠ [] := by simp [hne]
    rw [List.head?_append_of_ne_nil _ hnonempty] at hc
    exact isBlank_of_isTitleChar (hword c (List.mem_of_mem_head? hc))
  refine ⟨gap ++ after, ?_, dropWhile_append_of_head hgap hafter⟩
  rw [titleOf_of_marks hne hmark, hstart, dropWhile_append_of_head hword hend]
  rw [hstart, takeWhile_append_of_head hword hend]

theorem heading_of_titleOf {raw spelling rest : List Char}
    (h : titleOf raw = some (spelling, rest)) : Heading raw spelling (trimStart rest) := by
  obtain ⟨hne, hchars⟩ := titleOf_chars h
  obtain ⟨hrest, mark, hmark, hword⟩ := titleOf_marks h
  have hraw : raw = raw.takeWhile isBlank ++
      (mark ++ spelling ++ (rest.takeWhile isBlank ++ trimStart rest)) := by
    rw [trimStart, List.takeWhile_append_dropWhile, ← hword, hrest,
      List.takeWhile_append_dropWhile, trimStart, List.takeWhile_append_dropWhile]
  rw [hraw]
  refine .intro (fun _ => List.mem_takeWhile_imp) hmark hne hchars
    (fun _ => List.mem_takeWhile_imp) (head?_dropWhile_neg isBlank rest) ?_
  rw [trimStart, List.takeWhile_append_dropWhile, hrest]
  exact head?_dropWhile_neg isTitleChar _

theorem isTitleChar_eq_false {c : Char} (h : isBlank c = false) :
    isTitleChar c = false ↔ c ∈ ['\x7b', '\x7d', '[', ']'] := by
  grind [isTitleChar]

theorem titleOf_none_iff {raw : List Char} :
    titleOf raw = none ↔ ∀ c ∈ (trimStart raw).head?, isTitleChar c = false := by
  constructor
  · intro h c hc
    obtain ⟨rest, hstart⟩ := List.head?_eq_some_iff.mp hc
    by_contra htitle
    rw [Bool.not_eq_false] at htitle
    unfold titleOf at h
    dsimp only at h
    rw [hstart, List.takeWhile_cons_of_pos htitle] at h
    split at h
    · next heq => cases heq
    · cases h
    · cases h
    · cases h
  · intro h
    unfold titleOf
    dsimp only
    rw [takeWhile_eq_nil_of_head h]

/-- No title is missed but in a blank line or behind a bracket. -/
theorem titleOf_eq_none {raw : List Char} :
    titleOf raw = none ↔ (∀ c ∈ raw, isBlank c = true) ∨
      ∃ indent c rest, raw = indent ++ c :: rest ∧ (∀ d ∈ indent, isBlank d = true) ∧
        c ∈ ['\x7b', '\x7d', '[', ']'] := by
  rw [titleOf_none_iff]
  constructor
  · intro hnone
    cases hstart : trimStart raw with
    | nil => exact .inl (List.dropWhile_eq_nil_iff.mp hstart)
    | cons c rest =>
      rw [hstart] at hnone
      have hblank : ∀ d ∈ (trimStart raw).head?, isBlank d = false :=
        head?_dropWhile_neg isBlank raw
      rw [hstart] at hblank
      refine .inr ⟨raw.takeWhile isBlank, c, rest, ?_, fun _ => List.mem_takeWhile_imp, ?_⟩
      · rw [← hstart, trimStart, List.takeWhile_append_dropWhile]
      · exact (isTitleChar_eq_false (hblank c rfl)).mp (hnone c rfl)
  · rintro (hblank | ⟨indent, c, rest, rfl, hindent, hc⟩)
    · rw [trimStart, List.dropWhile_eq_nil_iff.mpr hblank]
      intro c hc
      cases hc
    · have hall : ['\x7b', '\x7d', '[', ']'].all (fun d => !isBlank d) = true := by decide
      have hblank : isBlank c = false := by simpa using List.all_eq_true.mp hall c hc
      rw [trimStart, dropWhile_append_of_head hindent (by simpa using hblank)]
      simpa using (isTitleChar_eq_false hblank).mpr hc

/-! ### The type clause -/

/-- A bracket at the front that is never closed: wherever one stops reading, more brackets
have been opened than closed. -/
structure Unclosed (opener closer : Char) (cs : List Char) : Prop where
  opens : cs.head? = some opener
  never : ∀ front, front <+: cs → front ≠ [] → front.count closer < front.count opener

theorem unclosed_iff {opener closer : Char} (hne : opener ≠ closer) {cs : List Char} :
    Unclosed opener closer cs ↔ cs.head? = some opener ∧ closing opener closer cs = none := by
  constructor
  · rintro ⟨hopens, hnever⟩
    obtain ⟨rest, rfl⟩ := List.head?_eq_some_iff.mp hopens
    exact ⟨rfl, (closing_eq_none_iff hne).mpr hnever⟩
  · rintro ⟨hopens, hnone⟩
    obtain ⟨rest, rfl⟩ := List.head?_eq_some_iff.mp hopens
    exact ⟨rfl, (closing_eq_none_iff hne).mp hnone⟩

/-- A bracket at the front is never closed, or it encloses a text. -/
theorem unclosed_or_enclosed {opener closer : Char} (hne : opener ≠ closer) (cs : List Char) :
    Unclosed opener closer (opener :: cs) ∨
      ∃ inner rest, cs = inner ++ closer :: rest ∧ Matched opener closer inner := by
  cases hclosing : closing opener closer (opener :: cs) with
  | none => exact .inl ((unclosed_iff hne).mpr ⟨rfl, hclosing⟩)
  | some last =>
    obtain ⟨inner, rest, rfl, -, hmatched⟩ := exists_matched_of_closing hne hclosing
    exact .inr ⟨inner, rest, rfl, hmatched⟩

/-- The type at the front of a text, if there is one, and the text behind it. A brace before
an at sign opens no type. -/
inductive Clause : List Char → Option (List Char) → List Char → Prop where
  | none {body : List Char} (h : body.head? = some '\x7b' → body[1]? = some '@') :
      Clause body none body
  | some {inner gap body : List Char} (hat : inner.head? ≠ some '@')
      (hmatched : Matched '\x7b' '\x7d' inner) (hgap : ∀ c ∈ gap, isBlank c = true)
      (hbody : ∀ c ∈ body.head?, isBlank c = false) :
      Clause ('\x7b' :: (inner ++ '\x7d' :: (gap ++ body)))
        (some ('\x7b' :: inner ++ ['\x7d'])) body

theorem opensType_iff {cs : List Char} :
    opensType cs = true ↔ cs.head? = some '\x7b' ∧ cs[1]? ≠ some '@' := by
  constructor
  · intro h
    obtain ⟨rest, rfl, hat⟩ := opensType_eq_true h
    exact ⟨rfl, by rwa [List.getElem?_cons_succ, ← List.head?_eq_getElem?]⟩
  · rintro ⟨hopens, hat⟩
    obtain ⟨rest, rfl⟩ := List.head?_eq_some_iff.mp hopens
    exact opensType_brace.mpr (by rwa [List.head?_eq_getElem?])

section

variable {after body : List Char} {rawType : Option (List Char)}

theorem typeClause_unclosed (h : Unclosed '\x7b' '\x7d' after) (hat : after[1]? ≠ some '@') :
    typeClause after = .error () := by
  obtain ⟨hhead, hnone⟩ := (unclosed_iff (by decide)).mp h
  rw [typeClause, if_pos (opensType_iff.mpr ⟨hhead, hat⟩), braceClosing, hnone]

theorem typeClause_of_clause (h : Clause after rawType body) :
    typeClause after = .ok (rawType, body) := by
  cases h with
  | none h =>
    apply typeClause_of_not_opens
    rw [Bool.eq_false_iff]
    intro hopens
    obtain ⟨hhead, hat⟩ := opensType_iff.mp hopens
    exact hat (h hhead)
  | @some inner gap _ hat hmatched hgap hbody =>
    have hclause := typeClause_of_opens (opensType_brace.mpr hat) hmatched (gap ++ body)
    rw [trimStart, dropWhile_append_of_head hgap hbody] at hclause
    simpa using hclause

/-- A text has a type clause or none, unless a brace that opens one is never closed. -/
theorem unclosed_or_clause (after : List Char) :
    (Unclosed '\x7b' '\x7d' after ∧ after[1]? ≠ some '@') ∨
      ∃ rawType body, Clause after rawType body := by
  by_cases hopens : opensType after = true
  · obtain ⟨hhead, hat⟩ := opensType_iff.mp hopens
    obtain ⟨cs, rfl⟩ := List.head?_eq_some_iff.mp hhead
    rcases unclosed_or_enclosed (by decide : '\x7b' ≠ '\x7d') cs
      with hopen | ⟨inner, back, rfl, hmatched⟩
    · exact .inl ⟨hopen, hat⟩
    · have hinner : inner.head? ≠ some '@' := by
        intro hinner
        obtain ⟨tail, rfl⟩ := List.head?_eq_some_iff.mp hinner
        exact hat rfl
      have hback : back = back.takeWhile isBlank ++ trimStart back :=
        List.takeWhile_append_dropWhile.symm
      rw [hback]
      exact .inr ⟨_, _, .some hinner hmatched (fun _ => List.mem_takeWhile_imp)
        (head?_dropWhile_neg isBlank back)⟩
  · refine .inr ⟨none, after, .none fun hhead => ?_⟩
    by_contra hat
    exact hopens (opensType_iff.mpr ⟨hhead, hat⟩)

theorem clause_of_typeClause (h : typeClause after = .ok (rawType, body)) :
    Clause after rawType body := by
  rcases unclosed_or_clause after with ⟨hopen, hat⟩ | ⟨rawType', body', hclause⟩
  · rw [typeClause_unclosed hopen hat] at h
    cases h
  · rw [typeClause_of_clause hclause] at h
    cases h
    exact hclause

end

/-! ### The name clause -/

theorem nameClause_unclosed (title : String) {body : List Char} (h : Unclosed '[' ']' body) :
    nameClause title body = .error (.unbalancedBrackets title) := by
  obtain ⟨hhead, hnone⟩ := (unclosed_iff (by decide)).mp h
  obtain ⟨rest, rfl⟩ := List.head?_eq_some_iff.mp hhead
  rw [nameClause, bracketClosing, hnone]

/-- A name in brackets of which nothing is there but blanks. -/
inductive Nameless : List Char → Prop where
  | intro {inner rest : List Char} (hmatched : Matched '[' ']' inner)
      (hblank : ∀ c ∈ inner.takeWhile (· != '='), isBlank c = true) :
      Nameless ('[' :: (inner ++ ']' :: rest))

theorem nameClause_nameless (title : String) {body : List Char} (h : Nameless body) :
    nameClause title body = .error (.emptyName title) := by
  obtain ⟨hmatched, hblank⟩ := h
  next inner rest =>
  have hclosing : bracketClosing ('[' :: (inner ++ ']' :: rest)) = some (inner.length + 1) :=
    closing_of_matched (by decide) hmatched rest
  simp only [nameClause, hclosing, Nat.add_sub_cancel, List.take_left, nameAndDefault,
    trim_eq_nil_iff.mpr hblank]
  rfl

/-- The forms of a name clause, and what comes of each. -/
inductive NameForm (title : String) : List Char → Except Problem NameClause → Prop where
  | absent : NameForm title [] (.ok ⟨none, false, none, []⟩)
  | plain {c : Char} (rest : List Char) (hc : c ≠ '[') :
      NameForm title (c :: rest) (.ok ⟨some ((c :: rest).takeWhile fun d => !isBlank d), false,
        none, (c :: rest).dropWhile fun d => !isBlank d⟩)
  | unclosed {body : List Char} (h : Unclosed '[' ']' body) :
      NameForm title body (.error (.unbalancedBrackets title))
  | nameless {body : List Char} (h : Nameless body) :
      NameForm title body (.error (.emptyName title))
  | bracketed (name : List Char) (default : Option (List Char)) (rest : List Char) :
      NameForm title ('[' :: bracketed name default ++ [']'] ++ rest)
        (.ok ⟨some (trim name), true, default.map trim, rest⟩)

theorem nameClause_form (title : String) (body : List Char) :
    NameForm title body (nameClause title body) := by
  cases body with
  | nil => exact .absent
  | cons c inner =>
    by_cases hc : c = '['
    · subst c
      rcases unclosed_or_enclosed (by decide : '[' ≠ ']') inner
        with hopen | ⟨name, rest, rfl, hmatched⟩
      · rw [nameClause_unclosed title hopen]
        exact .unclosed hopen
      · obtain ⟨name, default, hname, rfl⟩ := exists_bracketed name
        by_cases hne : trim name = []
        · have hblank : trim ((bracketed name default).takeWhile (· != '=')) = [] :=
            (congrArg Prod.fst (nameAndDefault_bracketed hname default)).trans hne
          have hnameless : Nameless ('[' :: (bracketed name default ++ ']' :: rest)) :=
            .intro hmatched (trim_eq_nil_iff.mp hblank)
          rw [nameClause_nameless title hnameless]
          exact .nameless hnameless
        · have hbody : '[' :: (bracketed name default ++ ']' :: rest) =
              '[' :: bracketed name default ++ [']'] ++ rest := by simp
          rw [hbody, nameClause_bracketed title hne hname hmatched rest]
          exact .bracketed name default rest
    · rw [nameClause_plain hc]
      exact .plain inner hc

theorem dense_bracketed (name : List Char) (default : Option (List Char)) :
    dense (bracketed (trim name) (default.map trim)) = dense (bracketed name default) := by
  cases default with
  | none => exact dense_trim name
  | some value =>
    have hcut (name value : List Char) :
        bracketed name (some value) = name ++ (['='] ++ value) := rfl
    simp only [Option.map_some, hcut, dense_append, dense_trim]

section

variable {title : String} {body : List Char}

theorem nameClause_eq_error {problem : Problem} (h : nameClause title body = .error problem) :
    Unclosed '[' ']' body ∧ problem = .unbalancedBrackets title ∨
      Nameless body ∧ problem = .emptyName title := by
  have hform := nameClause_form title body
  rw [h] at hform
  cases hform with
  | unclosed hopen => exact .inl ⟨hopen, rfl⟩
  | nameless hnameless => exact .inr ⟨hnameless, rfl⟩

/-- A name clause and the rest are all of the text. -/
theorem nameClause_dense {clause : NameClause} (h : nameClause title body = .ok clause) :
    dense body = dense (clause.shown.getD []) ++ dense clause.rest := by
  have hform := nameClause_form title body
  rw [h] at hform
  cases hform with
  | absent => rfl
  | plain rest hc =>
    change dense (_ :: rest) = dense (List.takeWhile _ _) ++ _
    rw [← dense_append, List.takeWhile_append_dropWhile]
  | bracketed name default rest =>
    change dense (['['] ++ bracketed name default ++ [']'] ++ rest) =
      dense (['['] ++ bracketed (trim name) (default.map trim) ++ [']']) ++ dense rest
    simp only [dense_append, dense_bracketed]

end

/-! ### The line -/

/-- What may be wrong with a line: it has no title, a bracket at the front of its type or name
is never closed, or the brackets of its name enclose none. -/
inductive Fault (raw : List Char) : Problem → Prop where
  | blank (h : ∀ c ∈ raw, isBlank c = true) : Fault raw .missingTitle
  | bracket {indent rest : List Char} {c : Char} (h : raw = indent ++ c :: rest)
      (hindent : ∀ d ∈ indent, isBlank d = true) (hc : c ∈ ['\x7b', '\x7d', '[', ']']) :
      Fault raw .missingTitle
  | type {spelling after : List Char} (h : Heading raw spelling after)
      (hopen : Unclosed '\x7b' '\x7d' after) (hat : after[1]? ≠ some '@') :
      Fault raw (.unbalancedBraces (Title.resolve (String.ofList spelling)))
  | name {spelling after body : List Char} {rawType : Option (List Char)}
      (h : Heading raw spelling after) (hclause : Clause after rawType body)
      (hexpected : Title.resolve (String.ofList spelling) ∈ Title.nameExpected)
      (hopen : Unclosed '[' ']' body) :
      Fault raw (.unbalancedBrackets (Title.resolve (String.ofList spelling)))
  | nameless {spelling after body : List Char} {rawType : Option (List Char)}
      (h : Heading raw spelling after) (hclause : Clause after rawType body)
      (hexpected : Title.resolve (String.ofList spelling) ∈ Title.nameExpected)
      (hname : Nameless body) :
      Fault raw (.emptyName (Title.resolve (String.ofList spelling)))

section

variable {raw spelling rest body : List Char} {rawType : Option (List Char)} {problem : Problem}

theorem splitParts_of_titleOf (h : titleOf raw = none) :
    splitParts raw = .error .missingTitle := by
  unfold splitParts
  rw [h]

theorem splitParts_of_typeClause (htitle : titleOf raw = some (spelling, rest))
    (htype : typeClause (trimStart rest) = .error ()) :
    splitParts raw = .error (.unbalancedBraces (Title.resolve (String.ofList spelling))) := by
  unfold splitParts
  rw [htitle]
  dsimp only
  rw [htype]
  rfl

theorem splitParts_of_named (htitle : titleOf raw = some (spelling, rest))
    (htype : typeClause (trimStart rest) = .ok (rawType, body))
    (hname : named (Title.resolve (String.ofList spelling)) body = .error problem) :
    splitParts raw = .error problem := by
  unfold splitParts
  rw [htitle]
  dsimp only
  rw [htype]
  change (named _ body >>= _) = _
  rw [hname]
  rfl

theorem splitParts_of_fault (h : Fault raw problem) : splitParts raw = .error problem := by
  have hnamed {title : String} (hexpected : title ∈ Title.nameExpected) (body : List Char) :
      named title body = nameClause title body := by
    have hexpects : Title.expectsName title = true := List.contains_iff_mem.mpr hexpected
    rw [named, if_pos hexpects]
  cases h with
  | blank h => exact splitParts_of_titleOf (titleOf_eq_none.mpr (.inl h))
  | bracket h hindent hc =>
    exact splitParts_of_titleOf (titleOf_eq_none.mpr (.inr ⟨_, _, _, h, hindent, hc⟩))
  | type h hopen hat =>
    obtain ⟨rest, htitle, rfl⟩ := titleOf_of_heading h
    exact splitParts_of_typeClause htitle (typeClause_unclosed hopen hat)
  | name h hclause hexpected hopen =>
    obtain ⟨rest, htitle, rfl⟩ := titleOf_of_heading h
    apply splitParts_of_named htitle (typeClause_of_clause hclause)
    rw [hnamed hexpected, nameClause_unclosed _ hopen]
  | nameless h hclause hexpected hname =>
    obtain ⟨rest, htitle, rfl⟩ := titleOf_of_heading h
    apply splitParts_of_named htitle (typeClause_of_clause hclause)
    rw [hnamed hexpected, nameClause_nameless _ hname]

/-- A line splits, or it has a fault. -/
theorem splits_or_fault (raw : List Char) :
    (∃ t, splitParts raw = .ok t) ∨ ∃ problem, Fault raw problem := by
  cases htitle : titleOf raw with
  | none =>
    rcases titleOf_eq_none.mp htitle with hblank | ⟨indent, c, rest, h, hindent, hc⟩
    · exact .inr ⟨_, .blank hblank⟩
    · exact .inr ⟨_, .bracket h hindent hc⟩
  | some parts =>
    obtain ⟨spelling, rest⟩ := parts
    have hheading := heading_of_titleOf htitle
    rcases unclosed_or_clause (trimStart rest) with ⟨hopen, hat⟩ | ⟨rawType, body, hclause⟩
    · exact .inr ⟨_, .type hheading hopen hat⟩
    · have htype := typeClause_of_clause hclause
      cases hname : named (Title.resolve (String.ofList spelling)) body with
      | ok clause => exact .inl ⟨_, splitParts_of htitle htype hname⟩
      | error problem =>
        unfold named at hname
        split at hname
        · next hexpected =>
          have hexpected := List.contains_iff_mem.mp hexpected
          rcases nameClause_eq_error hname with ⟨hopen, rfl⟩ | ⟨hnameless, rfl⟩
          · exact .inr ⟨_, .name hheading hclause hexpected hopen⟩
          · exact .inr ⟨_, .nameless hheading hclause hexpected hnameless⟩
        · cases hname

theorem splitParts_eq_error : splitParts raw = .error problem ↔ Fault raw problem := by
  constructor
  · intro h
    rcases splits_or_fault raw with ⟨t, ht⟩ | ⟨problem', hfault⟩
    · rw [ht] at h
      cases h
    · rw [splitParts_of_fault hfault] at h
      cases h
      exact hfault
  · exact splitParts_of_fault

end

section

variable {raw spelling after body : List Char} {rawType : Option (List Char)}

theorem displayName_assemble (title : String) (clause : NameClause) :
    (assemble title rawType clause raw).displayName.toList = clause.shown.getD [] := by
  have hparts := @shown_assemble title rawType clause raw
  cases hname : clause.name with
  | none => simp [assemble, displayName, NameClause.shown, hname]
  | some name =>
    have hsome : (assemble title rawType clause raw).name.isSome = true := by
      simp [assemble, hname]
    rw [if_pos hsome, NameClause.shown, hname] at hparts
    rw [NameClause.shown, hname]
    exact (List.cons.inj hparts).1

theorem Heading.dense_eq (h : Heading raw spelling after) :
    ∃ mark, (mark = [] ∨ mark = ['@']) ∧
      dense raw = dense mark ++ dense spelling ++ dense after := by
  obtain ⟨hindent, hmark, -, -, hgap, -, -⟩ := h
  next indent mark gap =>
  refine ⟨mark, ?_, ?_⟩
  · rcases hmark with rfl | ⟨rfl, -⟩
    · exact .inr rfl
    · exact .inl rfl
  · simp only [dense_append, dense_of_blank hindent, dense_of_blank hgap, List.nil_append]

theorem Clause.dense_eq (h : Clause after rawType body) :
    dense after = dense (rawType.getD []) ++ dense body := by
  cases h with
  | none => rfl
  | @some inner gap _ _ _ hgap _ =>
    have hparts : '\x7b' :: (inner ++ '\x7d' :: (gap ++ body)) =
        '\x7b' :: inner ++ ['\x7d'] ++ (gap ++ body) := by simp
    rw [hparts, dense_append, dense_append gap, dense_of_blank hgap]
    rfl

theorem named_dense {title : String} {clause : NameClause}
    (h : named title body = .ok clause) :
    dense body = dense (clause.shown.getD []) ++ dense clause.rest := by
  unfold named at h
  split at h
  · exact nameClause_dense h
  · cases h
    rfl

/-- Title, type, name and description are all that a line has, but for an at sign. -/
theorem splitParts_dense {t : Tag} (h : splitParts raw = .ok t) :
    ∃ mark spelling, (mark = [] ∨ mark = ['@']) ∧ spelling ≠ [] ∧
      Title.resolve (String.ofList spelling) = t.title ∧
      dense raw = dense (mark ++ spelling ++ (t.rawType.getD "").toList ++ t.displayName.toList ++
        t.description.toList) := by
  obtain ⟨spelling, rest, rawType, body, clause, htitle, htype, hname, ht⟩ := splitParts_ok h
  change t = assemble _ rawType clause raw at ht
  obtain ⟨mark, hmark, hraw⟩ := (heading_of_titleOf htitle).dense_eq
  have hclause : (t.rawType.getD "").toList = rawType.getD [] := by
    rw [ht]
    cases rawType with
    | none => rfl
    | some clause => exact String.toList_ofList
  refine ⟨mark, spelling, hmark, (titleOf_chars htitle).1, ?_, ?_⟩
  · rw [ht]
    rfl
  · rw [hclause, hraw, (clause_of_typeClause htype).dense_eq, named_dense hname, ht,
      displayName_assemble]
    simp [assemble]

end

theorem split_eq_ok {raw : String} {t : Tag} :
    split raw = .ok t ↔ splitParts raw.toList = .ok t := by
  unfold split
  cases splitParts raw.toList <;> simp

theorem split_eq_fail {raw : String} {problem : Problem} :
    split raw = .fail (.tagSyntax ⟨problem, raw⟩) ↔ splitParts raw.toList = .error problem := by
  unfold split
  cases splitParts raw.toList <;> simp

/-- Splitting loses no text but blanks, and fails at the faults of a line and nowhere else. -/
theorem split_lossless (raw : String) :
    (∀ t, split raw = .ok t → t.raw = raw ∧
      ∃ mark spelling : String, (mark = "" ∨ mark = "@") ∧ spelling ≠ "" ∧
        Title.resolve spelling = t.title ∧
        dense raw.toList =
          dense (mark ++ spelling ++ t.rawType.getD "" ++ t.displayName ++ t.description).toList) ∧
      (∀ problem, split raw = .fail (.tagSyntax ⟨problem, raw⟩) ↔ Fault raw.toList problem) ∧
      ((∃ t, split raw = .ok t) ∨
        ∃ problem, split raw = .fail (.tagSyntax ⟨problem, raw⟩)) := by
  refine ⟨fun t h => ⟨(split_ok h).2, ?_⟩, fun problem => ?_, ?_⟩
  · obtain ⟨mark, spelling, hmark, hne, htitle, hdense⟩ := splitParts_dense (split_eq_ok.mp h)
    refine ⟨String.ofList mark, String.ofList spelling, ?_, ?_, htitle, ?_⟩
    · rcases hmark with rfl | rfl
      · exact .inl rfl
      · exact .inr rfl
    · exact fun he => hne (String.ofList_eq_empty_iff.mp he)
    · rw [hdense]
      simp only [String.toList_append, String.toList_ofList]
  · rw [split_eq_fail, splitParts_eq_error]
  · rcases splits_or_fault raw.toList with ⟨t, ht⟩ | ⟨problem, hfault⟩
    · exact .inl ⟨t, split_eq_ok.mpr ht⟩
    · exact .inr ⟨problem, split_eq_fail.mpr (splitParts_of_fault hfault)⟩

/-- A default keeps the brackets in it and loses the blanks around it. Without a name before its
equals sign the line is at fault. -/
theorem split_lossless_default :
    ∃ t, split " @arg\x7bT\x7d[ xs = [1, 2] ]the  text" = .ok t ∧
      t.default = some "[1, 2]" ∧ t.raw = " @arg\x7bT\x7d[ xs = [1, 2] ]the  text" ∧
      (∃ mark spelling : String, (mark = "" ∨ mark = "@") ∧ spelling ≠ "" ∧
        Title.resolve spelling = t.title ∧
        dense " @arg\x7bT\x7d[ xs = [1, 2] ]the  text".toList =
          dense (mark ++ spelling ++ t.rawType.getD "" ++ t.displayName ++ t.description).toList) ∧
      Fault "@arg [ =1]".toList (.emptyName "param") := by
  have hok : split " @arg\x7bT\x7d[ xs = [1, 2] ]the  text" = .ok {
      title := "param"
      rawType := some "\x7bT\x7d"
      name := some "xs"
      optional := true
      default := some "[1, 2]"
      description := "the  text"
      raw := " @arg\x7bT\x7d[ xs = [1, 2] ]the  text" } := by
    decide +kernel
  have hfail : split "@arg [ =1]" = .fail (.tagSyntax ⟨.emptyName "param", "@arg [ =1]"⟩) := by
    decide +kernel
  obtain ⟨hraw, hparts⟩ := (split_lossless _).1 _ hok
  exact ⟨_, hok, rfl, hraw, hparts, ((split_lossless "@arg [ =1]").2.1 _).mp hfail⟩

end DocComment.Tag
