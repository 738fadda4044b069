import Mathlib.Data.List.Forall2

/-!
# Checks in a row

A computation that is checked step by step stops at its first fault.  A list that is
checked item by item is passed as a whole, or refused for the first of its items that
is.  Main statements: `mapM_eq_ok_iff` and `mapM_eq_error_iff`.
-/

namespace DonationFlow

variable {α β ε : Type} {fault : ε}

theorem bind_eq_ok_iff {first : Except ε α} {next : α → Except ε β} {result : β} :
    first >>= next = .ok result ↔ ∃ value, first = .ok value ∧ next value = .ok result := by
  cases first with
  | error fault => simp [bind, Except.bind]
  | ok value => simp [bind, Except.bind]

theorem bind_eq_error_iff {first : Except ε α} {next : α → Except ε β} :
    first >>= next = .error fault ↔
      first = .error fault ∨ ∃ value, first = .ok value ∧ next value = .error fault := by
  cases first with
  | error fault => simp [bind, Except.bind]
  | ok value => simp [bind, Except.bind]

theorem pure_eq_ok_iff {value result : α} :
    (pure value : Except ε α) = .ok result ↔ value = result := by
  simp [pure, Except.pure]

theorem pure_ne_error {value : α} : (pure value : Except ε α) ≠ .error fault := by
  simp [pure, Except.pure]

theorem exists_of_mem_of_forall₂ {R : α → β → Prop} {items : List α} {results : List β}
    (h : List.Forall₂ R items results) : ∀ item ∈ items, ∃ result ∈ results, R item result := by
  induction h with
  | nil => simp
  | cons hfirst _ ih =>
    intro item hitem
    cases hitem with
    | head => exact ⟨_, List.mem_cons_self, hfirst⟩
    | tail _ hitem =>
      obtain ⟨result, hresult, hrelated⟩ := ih item hitem
      exact ⟨result, List.mem_cons_of_mem _ hresult, hrelated⟩

section Items

variable {check : α → Except ε β} {items : List α} {results : List β}

/-- A list is passed if each of its items is, and the results keep its order. -/
theorem mapM_eq_ok_iff :
    items.mapM check = .ok results ↔
      List.Forall₂ (fun item result => check item = .ok result) items results := by
  induction items generalizing results with
  | nil =>
    rw [List.mapM_nil, pure_eq_ok_iff, List.forall₂_nil_left_iff]
    exact eq_comm
  | cons item items ih =>
    simp only [List.mapM_cons, bind_eq_ok_iff, pure_eq_ok_iff, ih, List.forall₂_cons_left_iff]
    constructor
    · rintro ⟨result, hresult, others, hothers, rfl⟩
      exact ⟨result, others, hresult, hothers, rfl⟩
    · rintro ⟨result, others, hresult, hothers, rfl⟩
      exact ⟨result, hresult, others, hothers, rfl⟩

/-- A list is refused for the first of its items that is. -/
theorem mapM_eq_error_iff :
    items.mapM check = .error fault ↔ ∃ before item after, items = before ++ item :: after ∧
      (∀ earlier ∈ before, ∃ result, check earlier = .ok result) ∧
      check item = .error fault := by
  induction items with
  | nil => simp [pure_ne_error]
  | cons item items ih =>
    simp only [List.mapM_cons, bind_eq_error_iff, pure_ne_error, ih]
    constructor
    · rintro (hitem | ⟨result, hresult, ⟨before, later, after, rfl, hbefore, hlater⟩ | hnever⟩)
      · exact ⟨[], item, items, rfl, by simp, hitem⟩
      · refine ⟨item :: before, later, after, rfl, ?_, hlater⟩
        exact List.forall_mem_cons.2 ⟨⟨result, hresult⟩, hbefore⟩
      · obtain ⟨_, _, hnever⟩ := hnever
        exact hnever.elim
    · rintro ⟨before, later, after, hitems, hbefore, hlater⟩
      cases before with
      | nil =>
        obtain ⟨rfl, rfl⟩ := List.cons.inj hitems
        exact Or.inl hlater
      | cons first before =>
        obtain ⟨rfl, rfl⟩ := List.cons.inj hitems
        obtain ⟨⟨result, hresult⟩, hbefore⟩ := List.forall_mem_cons.1 hbefore
        exact Or.inr ⟨result, hresult, Or.inl ⟨before, later, after, rfl, hbefore, hlater⟩⟩

end Items

end DonationFlow
