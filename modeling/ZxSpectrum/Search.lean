/-!
# Runs within lists

Whether a list holds another one as a run of neighbours. `holds_iff` says what that means.
-/

namespace ZxSpectrum.Search

/-- Whether the elements of `part` stand one after the other somewhere in a list. -/
def holds {α : Type} [BEq α] (part : List α) : List α → Bool
  | [] => part.isEmpty
  | a :: rest => part.isPrefixOf (a :: rest) || holds part rest

theorem holds_iff {α : Type} [BEq α] [LawfulBEq α] (part list : List α) :
    holds part list = true ↔ ∃ before after, list = before ++ part ++ after := by
  induction list with
  | nil =>
    constructor
    · intro h
      have : part = [] := by simpa [holds] using h
      exact ⟨[], [], by simp [this]⟩
    · rintro ⟨before, after, h⟩
      have : part = [] := by
        cases part with
        | nil => rfl
        | cons a part => simp at h
      simp [holds, this]
  | cons a rest ih =>
    rw [holds, Bool.or_eq_true, List.isPrefixOf_iff_prefix, ih]
    constructor
    · rintro (⟨after, h⟩ | ⟨before, after, h⟩)
      · exact ⟨[], after, h.symm⟩
      · exact ⟨a :: before, after, by simp [h]⟩
    · rintro ⟨before, after, h⟩
      cases before with
      | nil => exact .inl ⟨after, h.symm⟩
      | cons b before =>
        simp only [List.cons_append, List.cons.injEq] at h
        exact .inr ⟨before, after, h.2⟩

end ZxSpectrum.Search
