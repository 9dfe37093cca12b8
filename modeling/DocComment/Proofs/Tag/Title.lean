import DocComment.Tag.Title

/-!
Titles settle in one step. Every canonical title is known, no known title is an alias, and
no two known titles differ in case alone, so a known title resolves to itself.
-/

namespace DocComment.Title

theorem alias_known : ∀ entry ∈ aliases, entry.2 ∈ known := by decide +kernel

theorem lookup_known : ∀ t ∈ known, aliases.lookup t = none := by decide +kernel

/-- One known title is not in lower case. -/
theorem lower_known :
    ∀ t ∈ known, lower t = if t = "inheritDoc" then "inheritdoc" else t := by decide +kernel

theorem lower_known_inj {t u : String} (ht : t ∈ known) (hu : u ∈ known)
    (h : lower t = lower u) : t = u := by
  have hnew : "inheritdoc" ∉ known := by decide +kernel
  rw [lower_known t ht, lower_known u hu] at h
  by_cases hti : t = "inheritDoc"
  · by_cases hui : u = "inheritDoc"
    · rw [hti, hui]
    · rw [if_pos hti, if_neg hui] at h
      exact absurd (h ▸ hu) hnew
  · by_cases hui : u = "inheritDoc"
    · rw [if_neg hti, if_pos hui] at h
      exact absurd (h ▸ ht) hnew
    · rwa [if_neg hti, if_neg hui] at h

theorem mem_of_lookup {table : List (String × String)} {key value : String}
    (h : table.lookup key = some value) : ∃ entry ∈ table, entry.2 = value := by
  induction table with
  | nil => cases h
  | cons entry table ih =>
    rw [List.lookup_cons] at h
    split at h
    · exact ⟨entry, List.mem_cons_self, Option.some.inj h⟩
    · obtain ⟨entry', hm, he⟩ := ih h
      exact ⟨entry', List.mem_cons_of_mem _ hm, he⟩

/-- A title is unknown and left as it is, or becomes a known one. -/
theorem resolve_eq_or_known (title : String) : resolve title = title ∨ resolve title ∈ known := by
  have known_of_lookup {key value : String} (h : aliases.lookup key = some value) :
      value ∈ known := by
    obtain ⟨entry, hm, rfl⟩ := mem_of_lookup h
    exact alias_known entry hm
  unfold resolve
  split
  · next h => exact .inr (known_of_lookup h)
  · split
    · next h => exact .inr (known_of_lookup h)
    · cases hf : known.find? (fun t => lower t == lower title) with
      | none => exact .inl rfl
      | some t => exact .inr (List.mem_of_find?_eq_some hf)

theorem resolve_known {title : String} (h : title ∈ known) : resolve title = title := by
  unfold resolve
  rw [lookup_known title h]
  dsimp only
  by_cases hi : title = "inheritDoc"
  · rw [lower_known title h, if_pos hi, hi]
    rfl
  · rw [lower_known title h, if_neg hi, lookup_known title h]
    cases hf : known.find? (fun t => lower t == title) with
    | none => rfl
    | some t =>
      have ht : lower t = lower title := by
        have hfound := List.find?_some hf
        rw [lower_known title h, if_neg hi]
        exact eq_of_beq hfound
      exact lower_known_inj (List.mem_of_find?_eq_some hf) h ht

theorem resolve_idempotent (title : String) : resolve (resolve title) = resolve title := by
  rcases resolve_eq_or_known title with h | h
  · rw [h, h]
  · exact resolve_known h

theorem allowsType_eq_false {title : String} :
    allowsType title = false ↔ title ∈ typeForbidden := by
  rw [allowsType, Bool.not_eq_false', List.contains_iff_mem]

theorem allowsType_eq_true {title : String} :
    allowsType title = true ↔ title ∉ typeForbidden := by
  rw [← allowsType_eq_false, Bool.not_eq_false]

end DocComment.Title
