/-!
# Cutting a text at a mark

Pieces of a text between marks, and the search for a word in it.
-/

namespace DonationFlow.Text

/-- The parts before and after the first `mark`. -/
def cut? (mark : Char) : List Char → Option (List Char × List Char)
  | [] => none
  | c :: rest =>
    if c = mark then some ([], rest)
    else (cut? mark rest).map fun (before, after) => (c :: before, after)

/-- The pieces between the marks, in order; a text without mark is one piece. -/
def pieces (mark : Char) : List Char → List (List Char)
  | [] => [[]]
  | c :: rest =>
    if c = mark then [] :: pieces mark rest
    else match pieces mark rest with
      | [] => [[c]]
      | piece :: others => (c :: piece) :: others

/-- Whether the word stands somewhere in the text. -/
def holds (word : List Char) : List Char → Bool
  | [] => word.isEmpty
  | c :: rest => word.isPrefixOf (c :: rest) || holds word rest

theorem cut?_eq_some_iff {mark : Char} {text before after : List Char} :
    cut? mark text = some (before, after) ↔ text = before ++ mark :: after ∧ mark ∉ before := by
  induction text generalizing before with
  | nil => simp [cut?]
  | cons c rest ih =>
    by_cases hc : c = mark
    · subst hc
      cases before with
      | nil => simp [cut?]
      | cons b before => simp [cut?]; intro hb _ h; simp [hb] at h
    · cases before with
      | nil => simp [cut?, hc]
      | cons b before =>
        simp only [cut?, hc, if_false, Option.map_eq_some_iff, Prod.exists, Prod.mk.injEq,
          List.cons.injEq, List.cons_append, List.mem_cons, not_or]
        constructor
        · rintro ⟨b', a', hcut, ⟨rfl, rfl⟩, rfl⟩
          obtain ⟨hrest, hmark⟩ := ih.1 hcut
          exact ⟨⟨rfl, hrest⟩, fun h => hc h.symm, hmark⟩
        · rintro ⟨⟨rfl, hrest⟩, _, hmark⟩
          exact ⟨before, after, ih.2 ⟨hrest, hmark⟩, ⟨rfl, rfl⟩, rfl⟩

theorem cut?_eq_none_iff {mark : Char} {text : List Char} :
    cut? mark text = none ↔ mark ∉ text := by
  induction text with
  | nil => simp [cut?]
  | cons c rest ih =>
    by_cases hc : c = mark
    · simp [cut?, hc]
    · simp only [cut?, hc, if_false, Option.map_eq_none_iff, ih, List.mem_cons, not_or]
      exact ⟨fun h => ⟨fun heq => hc heq.symm, h⟩, fun h => h.2⟩

theorem pieces_eq_splitOn (mark : Char) (text : List Char) :
    pieces mark text = text.splitOn mark := by
  induction text with
  | nil => rfl
  | cons c rest ih =>
    rw [pieces, ih, List.splitOn_cons_eq_if_modifyHead]
    by_cases hc : c = mark
    · simp [hc]
    · simp only [hc, beq_iff_eq, if_false]
      cases h : rest.splitOn mark with
      | nil => exact absurd h (List.splitOn_ne_nil mark rest)
      | cons piece others => rfl

theorem not_mem_of_mem_pieces {mark : Char} {text piece : List Char}
    (h : piece ∈ pieces mark text) : mark ∉ piece := by
  induction text generalizing piece with
  | nil => simp_all [pieces]
  | cons c rest ih =>
    rw [pieces] at h
    split at h
    · cases h with
      | head => exact List.not_mem_nil
      | tail _ h => exact ih h
    · rename_i hc
      split at h
      · rw [List.mem_singleton.1 h, List.mem_singleton]
        exact fun heq => hc heq.symm
      · rename_i first others hpieces
        rw [hpieces] at ih
        cases h with
        | head =>
          have hfirst : mark ∉ first := ih List.mem_cons_self
          exact fun hmem => (List.mem_cons.1 hmem).elim (fun heq => hc heq.symm) hfirst
        | tail _ h => exact ih (List.mem_cons_of_mem first h)

end DonationFlow.Text
