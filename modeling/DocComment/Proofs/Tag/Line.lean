import DocComment.Proofs.Tag.Split

/-!
A tag written as a line again. Its parts stand in the order of a tag line with one space
between them, the name in its brackets if it is optional. Splitting that line takes the same
decisions as splitting the line the tag came from, so it finds the same parts.
-/

namespace DocComment.Tag

open Text

/-- The parts that a tag has. -/
def written (t : Tag) : List String :=
  ("@" ++ t.title) :: (t.rawType.toList ++ (if t.name.isSome then [t.displayName] else []) ++
    if t.description.isEmpty then [] else [t.description])

def line (t : Tag) : String := " ".intercalate t.written

/-- Parts with a space before each of them. -/
def spaced (parts : List (List Char)) : List Char := parts.flatMap (' ' :: ·)

theorem intercalate_space (part : List Char) (parts : List (List Char)) :
    [' '].intercalate (part :: parts) = part ++ spaced parts := by
  induction parts generalizing part with
  | nil => simp [spaced, List.intercalate]
  | cons next parts ih =>
    rw [List.intercalate_cons_cons, ih]
    simp [spaced]

theorem trimStart_spaced_cons {c : Char} (hc : isBlank c = false) (part : List Char)
    (parts : List (List Char)) :
    trimStart (spaced ((c :: part) :: parts)) = c :: part ++ spaced parts := by
  change trimStart (' ' :: (c :: part ++ spaced parts)) = _
  rw [trimStart, List.dropWhile_cons_of_pos (by decide), List.cons_append,
    List.dropWhile_cons_of_neg (by rw [hc]; decide)]

section

variable {p : Char → Bool} {front : List Char}

theorem head?_spaced (hp : p ' ' = false) (parts : List (List Char)) :
    ∀ c ∈ (spaced parts).head?, p c = false := by
  cases parts with
  | nil => exact nofun
  | cons part parts =>
    intro c hc
    obtain rfl : ' ' = c := Option.some.inj hc
    exact hp

/-- A space ends a run of characters that it is not one of. -/
theorem takeWhile_append_spaced (hp : p ' ' = false) (hfront : ∀ c ∈ front, p c = true)
    (parts : List (List Char)) : (front ++ spaced parts).takeWhile p = front :=
  takeWhile_append_of_head hfront (head?_spaced hp parts)

theorem dropWhile_append_spaced (hp : p ' ' = false) (hfront : ∀ c ∈ front, p c = true)
    (parts : List (List Char)) : (front ++ spaced parts).dropWhile p = spaced parts :=
  dropWhile_append_of_head hfront (head?_spaced hp parts)

end

/-! ### The title -/

theorem titleOf_chars {raw spelling rest : List Char} (h : titleOf raw = some (spelling, rest)) :
    spelling ≠ [] ∧ ∀ c ∈ spelling, isTitleChar c = true := by
  have hall : ∀ c ∈ (trimStart raw).takeWhile isTitleChar, isTitleChar c = true :=
    fun _ => List.mem_takeWhile_imp
  unfold titleOf at h
  dsimp only at h
  split at h
  · cases h
  · cases h
    exact ⟨List.cons_ne_nil _ _, List.forall_mem_singleton.mpr (by decide)⟩
  · next title hne ht =>
    cases h
    rw [ht] at hall
    exact ⟨fun hnil => hne (by rw [hnil]), (List.forall_mem_cons.mp hall).2⟩
  · next hne _ _ =>
    cases h
    exact ⟨hne, hall⟩

theorem known_chars :
    ∀ t ∈ Title.known, t.toList ≠ [] ∧ t.toList.all isTitleChar = true := by decide +kernel

theorem resolve_chars {spelling : List Char} (hne : spelling ≠ [])
    (hall : ∀ c ∈ spelling, isTitleChar c = true) :
    (Title.resolve (String.ofList spelling)).toList ≠ [] ∧
      ∀ c ∈ (Title.resolve (String.ofList spelling)).toList, isTitleChar c = true := by
  rcases Title.resolve_eq_or_known (String.ofList spelling) with h | h
  · rw [h, String.toList_ofList]
    exact ⟨hne, hall⟩
  · obtain ⟨hne, hall⟩ := known_chars _ h
    exact ⟨hne, List.all_eq_true.mp hall⟩

theorem titleOf_written {title : List Char} (hne : title ≠ [])
    (hall : ∀ c ∈ title, isTitleChar c = true) (parts : List (List Char)) :
    titleOf ('@' :: title ++ spaced parts) = some (title, spaced parts) := by
  have hat : ∀ c ∈ '@' :: title, isTitleChar c = true :=
    List.forall_mem_cons.mpr ⟨by decide, hall⟩
  have hstart : trimStart ('@' :: title ++ spaced parts) = '@' :: title ++ spaced parts :=
    List.dropWhile_cons_of_neg (by decide)
  obtain ⟨c, rest, rfl⟩ := List.exists_cons_of_ne_nil hne
  simp only [titleOf, hstart, takeWhile_append_spaced (by decide : isTitleChar ' ' = false) hat,
    dropWhile_append_spaced (by decide : isTitleChar ' ' = false) hat]

/-! ### The type clause -/

theorem opensType_of_ne {c : Char} (h : c ≠ '\x7b') (rest : List Char) :
    opensType (c :: rest) = false := by
  unfold opensType
  split
  · rfl
  · next heq => exact absurd (List.cons.inj heq).1 h
  · rfl

theorem opensType_brace {rest : List Char} :
    opensType ('\x7b' :: rest) = true ↔ rest.head? ≠ some '@' := by
  unfold opensType
  split
  · next heq =>
    rw [(List.cons.inj heq).2]
    simp
  · next hat heq =>
    obtain rfl := (List.cons.inj heq).2
    refine ⟨fun _ hhead => ?_, fun _ => rfl⟩
    obtain ⟨more, rfl⟩ := List.head?_eq_some_iff.mp hhead
    exact hat more rfl
  · next hbrace => exact absurd rfl (hbrace rest)

theorem opensType_eq_true {cs : List Char} (h : opensType cs = true) :
    ∃ rest, cs = '\x7b' :: rest ∧ rest.head? ≠ some '@' := by
  cases cs with
  | nil => cases h
  | cons c rest =>
    by_cases hc : c = '\x7b'
    · subst c
      exact ⟨rest, rfl, opensType_brace.mp h⟩
    · rw [opensType_of_ne hc] at h
      cases h

/-- Whether a text opens a type is seen from its first word. -/
theorem opensType_takeWhile (cs : List Char) :
    opensType (cs.takeWhile (fun c => !isBlank c)) = opensType cs := by
  cases cs with
  | nil => rfl
  | cons c rest =>
    by_cases hc : c = '\x7b'
    · subst c
      rw [List.takeWhile_cons_of_pos (by decide), Bool.eq_iff_iff, opensType_brace,
        opensType_brace]
      cases rest with
      | nil => rfl
      | cons d rest =>
        by_cases hd : isBlank d = true
        · have hat : d ≠ '@' := by
            rintro rfl
            exact absurd hd (by decide)
          simp [hd, hat]
        · rw [List.takeWhile_cons_of_pos (by simp [hd])]
          rfl
    · rw [opensType_of_ne hc]
      by_cases hblank : isBlank c = true
      · rw [List.takeWhile_cons_of_neg (by simp [hblank])]
        rfl
      · rw [List.takeWhile_cons_of_pos (by simp [hblank]), opensType_of_ne hc]

theorem typeClause_of_not_opens {body : List Char} (h : opensType body = false) :
    typeClause body = .ok (none, body) := by
  unfold typeClause
  rw [if_neg (by rw [h]; decide)]

theorem typeClause_of_opens {inner : List Char} (hopens : opensType ('\x7b' :: inner) = true)
    (hmatched : Matched '\x7b' '\x7d' inner) (rest : List Char) :
    typeClause ('\x7b' :: inner ++ ['\x7d'] ++ rest) =
      .ok (some ('\x7b' :: inner ++ ['\x7d']), trimStart rest) := by
  have hclosing : braceClosing ('\x7b' :: inner ++ ['\x7d'] ++ rest) = some (inner.length + 1) :=
    closing_append (by decide) ((closing_wrapped_iff (by decide)).mpr hmatched) rest
  have hlength : ('\x7b' :: inner ++ ['\x7d']).length = inner.length + 1 + 1 := by simp
  have hopens : opensType ('\x7b' :: inner ++ ['\x7d'] ++ rest) = true := by
    rw [opensType_brace] at hopens
    refine opensType_brace.mpr ?_
    cases inner with
    | nil => exact fun hhead => absurd (Option.some.inj hhead) (by decide)
    | cons c inner => exact hopens
  unfold typeClause
  rw [if_pos hopens, hclosing]
  dsimp only
  rw [List.take_left' hlength, List.drop_left' hlength]

/-- What is left for the name starts with it, and opens a type only behind another one. -/
theorem typeClause_rest {cs body : List Char} {rawType : Option (List Char)}
    (h : typeClause (trimStart cs) = .ok (rawType, body)) :
    trimStart body = body ∧ (rawType = none → opensType body = false) := by
  have htrimmed (cs : List Char) : trimStart (trimStart cs) = trimStart cs :=
    List.dropWhile_idempotent isBlank cs
  unfold typeClause at h
  split at h
  · split at h
    · cases h
    · cases h
      refine ⟨htrimmed _, fun hnone => ?_⟩
      cases hnone
  · next hopens =>
    cases h
    exact ⟨htrimmed cs, fun _ => Bool.eq_false_iff.mpr hopens⟩

/-- The clause that was read off is read off again, from whatever it stands before. -/
theorem typeClause_written {body rest : List Char} {rawType : Option (List Char)}
    (h : typeClause body = .ok (rawType, rest)) {parts : List (List Char)}
    (hparts : rawType = none → opensType (trimStart (spaced parts)) = false) :
    typeClause (trimStart (spaced (rawType.toList ++ parts))) =
      .ok (rawType, trimStart (spaced parts)) := by
  unfold typeClause at h
  split at h
  · next hopens =>
    obtain ⟨more, rfl, hat⟩ := opensType_eq_true hopens
    split at h
    · cases h
    · next last hlast =>
      obtain ⟨inner, back, rfl, rfl, hmatched⟩ := exists_matched_of_closing (by decide) hlast
      have hclause : ('\x7b' :: (inner ++ '\x7d' :: back)).take (inner.length + 1 + 1) =
          '\x7b' :: inner ++ ['\x7d'] := by
        simp [List.take_append]
      rw [hclause] at h
      cases h
      rw [← typeClause_of_opens (opensType_brace.mpr fun hhead => hat ?_) hmatched]
      · exact congrArg _ (trimStart_spaced_cons (by decide) _ _)
      · obtain ⟨tail, rfl⟩ := List.head?_eq_some_iff.mp hhead
        rfl
  · cases h
    exact typeClause_of_not_opens (hparts rfl)

/-! ### The name -/

/-- What stands inside the brackets of an optional name. -/
def bracketed (name : List Char) (default : Option (List Char)) : List Char :=
  match default with
  | none => name
  | some value => name ++ '=' :: value

def isBracket (c : Char) : Bool := c == '[' || c == ']'

theorem isBracket_of_isBlank (c : Char) (h : isBlank c = true) : isBracket c = false := by
  by_contra hb
  rw [Bool.not_eq_false, isBracket, Bool.or_eq_true, beq_iff_eq, beq_iff_eq] at hb
  rcases hb with rfl | rfl <;> cases h

theorem takeWhile_of_notMem {name : List Char} (h : '=' ∉ name) :
    name.takeWhile (· != '=') = name := by
  rw [List.takeWhile_eq_self_iff]
  intro c hc
  rw [bne_iff_ne]
  rintro rfl
  exact h hc

theorem nameAndDefault_bracketed {name : List Char} (h : '=' ∉ name)
    (default : Option (List Char)) :
    nameAndDefault (bracketed name default) = (trim name, default.map trim) := by
  have htake := takeWhile_of_notMem h
  cases default with
  | none => simp [nameAndDefault, bracketed, htake, h]
  | some value =>
    have hall : ∀ c ∈ name, (c != '=') = true := List.takeWhile_eq_self_iff.mp htake
    simp [nameAndDefault, bracketed, List.takeWhile_append_of_pos hall,
      List.dropWhile_append_of_pos hall]

/-- Any text in brackets is a name with or without a default, blanks apart. -/
theorem exists_bracketed (inner : List Char) :
    ∃ name default, '=' ∉ name ∧ bracketed name default = inner := by
  by_cases h : '=' ∈ inner
  · obtain ⟨name, value, rfl, hname⟩ := List.eq_append_cons_of_mem h
    exact ⟨name, some value, hname, rfl⟩
  · exact ⟨inner, none, h, rfl⟩

theorem matched_bracketed {name : List Char} {default : Option (List Char)}
    (h : Matched '[' ']' (bracketed name default)) :
    Matched '[' ']' (bracketed (trim name) (default.map trim)) := by
  have hsame : (bracketed (trim name) (default.map trim)).filter isBracket =
      (bracketed name default).filter isBracket := by
    have hname := filter_trim isBracket_of_isBlank name
    cases default with
    | none => exact hname
    | some value =>
      have hvalue := filter_trim isBracket_of_isBlank value
      simp only [bracketed, Option.map_some, List.filter_append, hname]
      rw [List.filter_cons_of_neg (by decide), List.filter_cons_of_neg (by decide), hvalue]
  rw [← matched_filter_iff] at h ⊢
  change Matched '[' ']' (List.filter isBracket _)
  rwa [hsame]

/-- The name as it was written, back in its brackets if it is optional. -/
def NameClause.shown (clause : NameClause) : Option (List Char) :=
  clause.name.map fun name =>
    if clause.optional then '[' :: bracketed name clause.default ++ [']'] else name

/-- A text as a part of a line, where it is left out if it is empty. -/
def described (rest : List Char) : List (List Char) :=
  if (trim rest).isEmpty then [] else [trim rest]

def NameClause.written (clause : NameClause) : List (List Char) :=
  clause.shown.toList ++ described clause.rest

theorem trimStart_described (rest : List Char) :
    trimStart (spaced (described rest)) = trim rest := by
  unfold described
  split
  · next h => exact (List.isEmpty_iff.mp h).symm
  · next h =>
    obtain ⟨c, more, hc⟩ := List.exists_cons_of_ne_nil (fun hnil => h (List.isEmpty_iff.mpr hnil))
    rw [hc, trimStart_spaced_cons (trimBy_head hc)]
    exact List.append_nil _

theorem trim_described (rest : List Char) : trim (spaced (described rest)) = trim rest := by
  have h : trim (trimStart (spaced (described rest))) = trim rest := by
    rw [trimStart_described, trim_trim]
  have hblank : ∀ c ∈ (spaced (described rest)).takeWhile isBlank, isBlank c = true :=
    fun _ => List.mem_takeWhile_imp
  rwa [← trim_append_of_blank hblank, trimStart, List.takeWhile_append_dropWhile] at h

theorem nameClause_plain {title : String} {c : Char} (h : c ≠ '[') (rest : List Char) :
    nameClause title (c :: rest) = .ok ⟨some ((c :: rest).takeWhile (fun c => !isBlank c)),
      false, none, (c :: rest).dropWhile (fun c => !isBlank c)⟩ := by
  unfold nameClause
  split
  · next heq => cases heq
  · next heq => exact absurd (List.cons.inj heq).1 h
  · rfl

theorem nameClause_optional {title : String} {inner : List Char} {clause : NameClause}
    (h : nameClause title ('[' :: inner) = .ok clause) :
    ∃ name default rest, clause = ⟨some (trim name), true, default.map trim, rest⟩ ∧
      trim name ≠ [] ∧ '=' ∉ name ∧ Matched '[' ']' (bracketed name default) := by
  cases hclosing : bracketClosing ('[' :: inner) with
  | none =>
    simp only [nameClause, hclosing] at h
    cases h
  | some last =>
    obtain ⟨front, back, rfl, rfl, hmatched⟩ := exists_matched_of_closing (by decide) hclosing
    obtain ⟨name, default, hname, rfl⟩ := exists_bracketed front
    simp only [nameClause, hclosing, Nat.add_sub_cancel, List.take_left,
      nameAndDefault_bracketed hname] at h
    split at h
    · cases h
    · next hne =>
      cases h
      exact ⟨name, default, _, rfl, fun hnil => hne (List.isEmpty_iff.mpr hnil), hname, hmatched⟩

theorem nameClause_bracketed (title : String) {name : List Char} {default : Option (List Char)}
    (hne : trim name ≠ []) (hname : '=' ∉ name)
    (hmatched : Matched '[' ']' (bracketed name default)) (rest : List Char) :
    nameClause title ('[' :: bracketed name default ++ [']'] ++ rest) =
      .ok ⟨some (trim name), true, default.map trim, rest⟩ := by
  have hclosing : bracketClosing ('[' :: bracketed name default ++ [']'] ++ rest) =
      some ((bracketed name default).length + 1) :=
    closing_append (by decide) ((closing_wrapped_iff (by decide)).mpr hmatched) rest
  have hempty : (trim name).isEmpty = false := by simpa using hne
  simp only [List.cons_append] at hclosing ⊢
  simp only [nameClause, hclosing, Nat.add_sub_cancel]
  rw [List.append_assoc, List.take_left, nameAndDefault_bracketed hname]
  simp [hempty]

theorem isBlank_head {c : Char} {body : List Char} (h : trimStart (c :: body) = c :: body) :
    isBlank c = false := by
  have hhead := List.head?_dropWhile_not isBlank (c :: body)
  rw [show (c :: body).dropWhile isBlank = c :: body from h] at hhead
  exact hhead

/-- A plain name is a word, and so the first word of what is written for it. -/
theorem nameClause_word (title : String) {c : Char} {body : List Char} (hc : c ≠ '[')
    (hblank : isBlank c = false) {word : List Char}
    (hword : (c :: body).takeWhile (fun c => !isBlank c) = word) (parts : List (List Char)) :
    trimStart (spaced (word :: parts)) = word ++ spaced parts ∧
      nameClause title (word ++ spaced parts) = .ok ⟨some word, false, none, spaced parts⟩ := by
  have hall : ∀ d ∈ word, (!isBlank d) = true := by
    rw [← hword]
    exact fun _ => List.mem_takeWhile_imp
  rw [List.takeWhile_cons_of_pos (by rw [hblank]; rfl)] at hword
  subst word
  have hspace : (!isBlank ' ') = false := by decide
  refine ⟨trimStart_spaced_cons hblank _ _, ?_⟩
  rw [List.cons_append, nameClause_plain hc, ← List.cons_append,
    takeWhile_append_spaced hspace hall, dropWhile_append_spaced hspace hall]

/-- A name that was read is read again from its parts, and the description after it. -/
theorem named_written {title : String} {body : List Char} {clause : NameClause}
    (hstart : trimStart body = body) (h : named title body = .ok clause) :
    ∃ rest, named title (trimStart (spaced clause.written)) = .ok { clause with rest } ∧
      trim rest = trim clause.rest := by
  unfold named at h ⊢
  split at h
  · next hexpected =>
    rw [if_pos hexpected]
    cases body with
    | nil =>
      cases h
      exact ⟨[], rfl, rfl⟩
    | cons c body =>
      refine ⟨spaced (described clause.rest), ?_, trim_described _⟩
      by_cases hc : c = '['
      · subst c
        obtain ⟨name, default, rest, rfl, hne, hname, hmatched⟩ := nameClause_optional h
        have hagain := nameClause_bracketed title (by rwa [trim_trim])
          (fun hm => hname (trim_subset name hm)) (matched_bracketed hmatched)
          (spaced (described rest))
        rw [trim_trim, Option.map_map, show trim ∘ trim = trim from funext trim_trim] at hagain
        rw [← hagain]
        exact congrArg _ (trimStart_spaced_cons (by decide) _ _)
      · rw [nameClause_plain hc] at h
        cases h
        obtain ⟨hstart, hagain⟩ := nameClause_word title hc (isBlank_head hstart) rfl
          (described ((c :: body).dropWhile (fun c => !isBlank c)))
        rw [← hagain, ← hstart]
        rfl
  · next hexpected =>
    cases h
    rw [if_neg hexpected]
    exact ⟨trim body, by rw [← trimStart_described body]; rfl, trim_trim body⟩

/-- The first word of a text is the first word of its trim. -/
theorem takeWhile_trim {cs : List Char} (hstart : trimStart cs = cs) :
    (trim cs).takeWhile (fun c => !isBlank c) = cs.takeWhile (fun c => !isBlank c) := by
  obtain ⟨tail, htail, hblank⟩ := trimStart_eq_trim_append cs
  rw [hstart] at htail
  have hnone : tail.takeWhile (fun c => !isBlank c) = [] := by
    rw [List.takeWhile_eq_nil_iff]
    intro hlength
    simp [hblank _ (List.getElem_mem hlength)]
  conv_rhs => rw [htail, List.takeWhile_append, hnone]
  split
  · next hall => rw [List.append_nil, (List.takeWhile_prefix _).eq_of_length hall]
  · rfl

/-- What did not open a type is not written so that it opens one. -/
theorem opensType_written {title : String} {body : List Char} {clause : NameClause}
    (hstart : trimStart body = body) (h : named title body = .ok clause)
    (hopens : opensType body = false) :
    opensType (trimStart (spaced clause.written)) = false := by
  unfold named at h
  split at h
  · cases body with
    | nil =>
      cases h
      rfl
    | cons c body =>
      by_cases hc : c = '['
      · subst c
        obtain ⟨name, default, rest, rfl, -⟩ := nameClause_optional h
        exact (congrArg opensType (trimStart_spaced_cons (by decide) _ _)).trans
          (opensType_of_ne (by decide) _)
      · rw [nameClause_plain hc] at h
        cases h
        obtain ⟨hagain, -⟩ := nameClause_word title hc (isBlank_head hstart) rfl
          (described ((c :: body).dropWhile (fun c => !isBlank c)))
        refine (congrArg opensType hagain).trans ?_
        rw [← opensType_takeWhile,
          takeWhile_append_spaced (by decide) fun _ => List.mem_takeWhile_imp,
          opensType_takeWhile, hopens]
  · cases h
    refine (congrArg opensType (trimStart_described body)).trans ?_
    rw [← opensType_takeWhile, takeWhile_trim hstart, opensType_takeWhile, hopens]

/-! ### The line -/

/-- The tag that a title, a type clause and a name clause make up. -/
def assemble (title : String) (rawType : Option (List Char)) (clause : NameClause)
    (raw : List Char) : Tag where
  title
  rawType := rawType.map String.ofList
  name := clause.name.map String.ofList
  optional := clause.optional
  default := clause.default.map String.ofList
  description := String.ofList (trim clause.rest)
  raw := String.ofList raw

section

variable {title : String} {rawType : Option (List Char)} {clause : NameClause}
  {raw spelling rest body : List Char}

theorem splitParts_of (htitle : titleOf raw = some (spelling, rest))
    (htype : typeClause (trimStart rest) = .ok (rawType, body))
    (hname : named (Title.resolve (String.ofList spelling)) body = .ok clause) :
    splitParts raw =
      .ok (assemble (Title.resolve (String.ofList spelling)) rawType clause raw) := by
  unfold splitParts
  rw [htitle]
  dsimp only
  rw [htype]
  change (named _ body >>= _) = _
  rw [hname]
  rfl

theorem shown_assemble :
    (if (assemble title rawType clause raw).name.isSome then
      [(assemble title rawType clause raw).displayName] else []).map String.toList =
      clause.shown.toList := by
  obtain ⟨name, optional, default, rest⟩ := clause
  cases name with
  | none => rfl
  | some name =>
    cases optional with
    | false => simp [assemble, displayName, NameClause.shown]
    | true => cases default <;> simp [assemble, displayName, NameClause.shown, bracketed]

theorem described_assemble :
    (if (assemble title rawType clause raw).description.isEmpty then []
      else [(assemble title rawType clause raw).description]).map String.toList =
      described clause.rest := by
  by_cases he : trim clause.rest = [] <;> simp [assemble, described, he]

theorem toList_line :
    (assemble title rawType clause raw).line.toList =
      '@' :: title.toList ++ spaced (rawType.toList ++ clause.written) := by
  have hclause : (assemble title rawType clause raw).rawType.toList.map String.toList =
      rawType.toList := by
    cases rawType <;> simp [assemble]
  rw [line, String.toList_intercalate, written, List.map_cons]
  change [' '].intercalate _ = _
  rw [intercalate_space, List.map_append, List.map_append, hclause, shown_assemble,
    described_assemble]
  simp [assemble, NameClause.written]

end

/-- A tag that was split off a line is written as a line that splits into the same tag. -/
theorem split_line {raw : String} {t : Tag} (h : split raw = .ok t) :
    split t.line = .ok { t with raw := t.line } := by
  unfold split at h
  split at h
  · next hparts =>
    cases h
    obtain ⟨spelling, rest, rawType, body, clause, htitle, htype, hname, ht⟩ :=
      splitParts_ok hparts
    change t = assemble _ rawType clause raw.toList at ht
    obtain ⟨hstart, hopens⟩ := typeClause_rest htype
    obtain ⟨rest', hname', hdescription⟩ := named_written hstart hname
    have htitle' : titleOf t.line.toList = some ((Title.resolve (String.ofList spelling)).toList,
        spaced (rawType.toList ++ clause.written)) := by
      obtain ⟨hspelling, hchars⟩ := titleOf_chars htitle
      obtain ⟨hne, hall⟩ := resolve_chars hspelling hchars
      rw [ht, toList_line]
      exact titleOf_written hne hall _
    have htype' := typeClause_written htype
      fun hnone => opensType_written hstart hname (hopens hnone)
    have hline := splitParts_of htitle' htype'
      (by rwa [String.ofList_toList, Title.resolve_idempotent])
    rw [String.ofList_toList, Title.resolve_idempotent] at hline
    have hsame : assemble (Title.resolve (String.ofList spelling)) rawType
        { clause with rest := rest' } t.line.toList = { t with raw := t.line } := by
      generalize t.line = again
      rw [ht]
      simp [assemble, hdescription]
    unfold split
    rw [hline, hsame]
  · cases h

/-- An optional name is trimmed inside its brackets, and its default keeps the brackets in it. -/
theorem split_line_optional :
    ∃ t, split "argument\x7bObject\x7d[ options[0] = [1] ]the  text " = .ok t ∧
      t.line = "@param \x7bObject\x7d [options[0]=[1]] the  text" ∧
      split t.line = .ok { t with raw := t.line } := by
  have h : split "argument\x7bObject\x7d[ options[0] = [1] ]the  text " = .ok {
      title := "param"
      rawType := some "\x7bObject\x7d"
      name := some "options[0]"
      optional := true
      default := some "[1]"
      description := "the  text"
      raw := "argument\x7bObject\x7d[ options[0] = [1] ]the  text " } := by
    decide +kernel
  exact ⟨_, h, by decide +kernel, split_line h⟩

end DocComment.Tag
