import DonationFlow.Text.Blank
import Mathlib.Data.List.DropRight

/-!
# Trimming

Trimming takes off what is blank at the two ends of a text and nothing else.  Main
statements: `padded_trim`, `trim_eq_of_padded` and `trim_append_cons`.
-/

namespace DonationFlow.Text

variable {text core inner before after left right : List Char} {c : Char}

/-- The text is the core with nothing but blanks around it. -/
def Padded (text core : List Char) : Prop :=
  ∃ before after, (∀ c ∈ before, isBlank c = true) ∧ (∀ c ∈ after, isBlank c = true) ∧
    text = before ++ core ++ after

theorem Padded.refl (text : List Char) : Padded text text :=
  ⟨[], [], by simp, by simp, by simp⟩

theorem trimEnd_eq (text : List Char) : trimEnd text = text.rdropWhile isBlank := rfl

theorem Padded.trans (h : Padded text inner) (hinner : Padded inner core) : Padded text core := by
  obtain ⟨before, after, hbefore, hafter, rfl⟩ := h
  obtain ⟨before', after', hbefore', hafter', rfl⟩ := hinner
  refine ⟨before ++ before', after' ++ after, ?_, ?_, by simp only [List.append_assoc]⟩
  · intro c hc
    exact (List.mem_append.1 hc).elim (hbefore c) (hbefore' c)
  · intro c hc
    exact (List.mem_append.1 hc).elim (hafter' c) (hafter c)

theorem padded_trimStart (text : List Char) : Padded text (trimStart text) := by
  refine ⟨text.takeWhile isBlank, [], fun c hc => List.mem_takeWhile_imp hc, by simp, ?_⟩
  rw [List.append_nil]
  exact (List.takeWhile_append_dropWhile).symm

theorem padded_trimEnd (text : List Char) : Padded text (trimEnd text) := by
  refine ⟨[], text.rtakeWhile isBlank, by simp, fun c hc => List.mem_rtakeWhile_imp hc, ?_⟩
  rw [List.nil_append, trimEnd_eq, List.rdropWhile_append_rtakeWhile]

theorem padded_trim (text : List Char) : Padded text (trim text) :=
  (padded_trimStart text).trans (padded_trimEnd (trimStart text))

theorem trimStart_append (hbefore : ∀ c ∈ before, isBlank c = true) (text : List Char) :
    trimStart (before ++ text) = trimStart text :=
  List.dropWhile_append_of_pos hbefore

theorem trimEnd_append (hafter : ∀ c ∈ after, isBlank c = true) (text : List Char) :
    trimEnd (text ++ after) = trimEnd text := by
  have hreverse : ∀ c ∈ after.reverse, isBlank c = true :=
    fun c hc => hafter c (List.mem_reverse.1 hc)
  rw [trimEnd, List.reverse_append, List.dropWhile_append_of_pos hreverse, trimEnd]

/-- A core that begins and ends with no blank is what is left of a text around it. -/
theorem trim_eq_of_padded (h : Padded text core)
    (hhead : ∀ c ∈ core.head?, isBlank c = false)
    (hlast : ∀ c ∈ core.getLast?, isBlank c = false) : trim text = core := by
  obtain ⟨before, after, hbefore, hafter, rfl⟩ := h
  rw [trim, List.append_assoc, trimStart_append hbefore]
  cases core with
  | nil =>
    have hblank : trimStart after = [] := List.dropWhile_eq_nil_iff.2 hafter
    rw [List.nil_append, hblank]
    rfl
  | cons first rest =>
    have hstart : trimStart (first :: rest ++ after) = first :: rest ++ after := by
      rw [trimStart, List.cons_append, List.dropWhile_cons_of_neg]
      simp [hhead first rfl]
    rw [hstart, trimEnd_append hafter, trimEnd_eq, List.rdropWhile_eq_self_iff]
    intro hne
    simp [hlast _ (List.getLast?_eq_getLast_of_ne_nil hne)]

/-- What is left by a trim does not begin with a blank. -/
theorem isBlank_of_head?_trim (text : List Char) : ∀ c ∈ (trim text).head?, isBlank c = false := by
  intro c hc
  obtain ⟨after, hafter⟩ := List.rdropWhile_prefix isBlank (trimStart text)
  have hstart : (trimStart text).head? = some c := by
    rw [← hafter, List.head?_append, ← trimEnd_eq, ← trim, hc]
    rfl
  have hnot := List.head?_dropWhile_not isBlank text
  rw [← trimStart, hstart] at hnot
  exact hnot

/-- Nor does it end with one. -/
theorem isBlank_of_getLast?_trim (text : List Char) :
    ∀ c ∈ (trim text).getLast?, isBlank c = false := by
  intro c hc
  rw [trim, trimEnd_eq] at hc
  obtain ⟨hne, rfl⟩ := List.mem_getLast?_eq_getLast hc
  exact Bool.eq_false_iff.2 (List.rdropWhile_last_not isBlank (trimStart text) hne)

/-! ## What is left -/

/-- Nothing but blanks. -/
def AllBlank (text : List Char) : Prop := ∀ c ∈ text, isBlank c = true

instance : Decidable (AllBlank text) :=
  inferInstanceAs (Decidable (∀ c ∈ text, isBlank c = true))

/-- Some text that neither begins nor ends with a blank. -/
structure Bare (text : List Char) : Prop where
  ne_nil : text ≠ []
  head : ∀ c ∈ text.head?, isBlank c = false
  last : ∀ c ∈ text.getLast?, isBlank c = false

theorem Bare.trim_eq (h : Bare core) : trim core = core :=
  trim_eq_of_padded (Padded.refl core) h.head h.last

theorem Padded.allBlank (h : Padded text inner) (hinner : AllBlank inner) : AllBlank text := by
  obtain ⟨before, after, hbefore, hafter, rfl⟩ := h
  intro c hc
  simp only [List.mem_append] at hc
  exact hc.elim (fun hc => hc.elim (hbefore c) (hinner c)) (hafter c)

theorem trim_of_allBlank (h : AllBlank text) : trim text = [] := by
  rw [trim, trimStart, List.dropWhile_eq_nil_iff.2 h]
  rfl

theorem trim_eq_nil_iff : trim text = [] ↔ AllBlank text := by
  constructor
  · intro htrim
    have hpadded := padded_trim text
    rw [htrim] at hpadded
    exact hpadded.allBlank (by simp [AllBlank])
  · exact trim_of_allBlank

theorem bare_trim (h : ¬AllBlank text) : Bare (trim text) where
  ne_nil := mt trim_eq_nil_iff.1 h
  head := isBlank_of_head?_trim text
  last := isBlank_of_getLast?_trim text

/-- What is no blank stands in a text or does not, whatever the blanks around it. -/
theorem Padded.mem_iff (h : Padded text core) (hc : isBlank c = false) : c ∈ text ↔ c ∈ core := by
  obtain ⟨before, after, hbefore, hafter, rfl⟩ := h
  have hnot : ∀ blanks : List Char, AllBlank blanks → c ∉ blanks := by
    intro blanks hblanks hmem
    rw [hblanks c hmem] at hc
    cases hc
  simp only [List.mem_append, hnot before hbefore, hnot after hafter, false_or, or_false]

/-- The core of a text is what is left of it by a trim. -/
theorem Bare.padded_iff (h : Bare core) : Padded text core ↔ trim text = core := by
  constructor
  · exact fun hpadded => trim_eq_of_padded hpadded h.head h.last
  · rintro rfl
    exact padded_trim text

/-- Blanks around a text do not change what is left of it. -/
theorem Padded.trim_eq (h : Padded text inner) : trim text = trim inner := by
  by_cases hinner : AllBlank inner
  · rw [trim_of_allBlank hinner, trim_of_allBlank (h.allBlank hinner)]
  · exact (bare_trim hinner).padded_iff.1 (h.trans (padded_trim inner))

/-! ## Around a mark -/

theorem trimStart_append_cons (hc : isBlank c = false) :
    trimStart (left ++ c :: right) = trimStart left ++ c :: right := by
  induction left with
  | nil => simp [trimStart, hc]
  | cons first left ih =>
    by_cases hfirst : isBlank first = true
    · simpa [trimStart, hfirst] using ih
    · simp [trimStart, hfirst]

theorem trimEnd_append_cons (hc : isBlank c = false) :
    trimEnd (left ++ c :: right) = left ++ c :: trimEnd right := by
  have hreverse : trimStart (right.reverse ++ c :: left.reverse) =
      trimStart right.reverse ++ c :: left.reverse := trimStart_append_cons hc
  simp only [trimStart] at hreverse
  simp [trimEnd, hreverse]

/-- A mark that is no blank keeps the two sides of it apart. -/
theorem trim_append_cons (hc : isBlank c = false) :
    trim (left ++ c :: right) = trimStart left ++ c :: trimEnd right := by
  rw [trim, trimStart_append_cons hc, trimEnd_append_cons hc]

end DonationFlow.Text
