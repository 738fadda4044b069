import DonationFlow.Config
import DonationFlow.Proofs.Checked
import DonationFlow.Proofs.Text.Blank

/-!
# Lists in text

A list is written as `key=value,key=value`, with blanks and blank entries wherever the
writer likes.  `Lists` says which pairs a text writes, without reading it; a text that
writes none has an entry that is no pair.  Main statement:
`pairs_inverts_rendering_and_rejects_malformed`.
-/

namespace DonationFlow.Config

open DonationFlow.Text

variable {name text : String} {entry key value : List Char} {pair : String × String}
  {list : List (String × String)} {fault : ConfigFault}

/-- A pair that a list can hold: two texts, neither of them blank at an end, that the
marks of the list leave whole.  A value may hold an `=`. -/
structure Listable (pair : String × String) : Prop where
  key_bare : Bare pair.1.toList
  value_bare : Bare pair.2.toList
  no_equals : '=' ∉ pair.1.toList
  no_comma : ',' ∉ pair.1.toList ∧ ',' ∉ pair.2.toList

/-- The entry is the key, an `=` and the value, each with any blanks around it. -/
def WritesPair (entry : List Char) (pair : String × String) : Prop :=
  ∃ key value, entry = key ++ '=' :: value ∧ Padded key pair.1.toList ∧
    Padded value pair.2.toList

/-- The text is made of entries with a comma between each two.  Those that are not
blank write the pairs, in order. -/
structure Lists (text : String) (list : List (String × String)) : Prop where
  listable : ∀ pair ∈ list, Listable pair
  rendered : ∃ entries, text.toList = [','].intercalate entries ∧
    List.Forall₂ WritesPair (entries.filter (¬AllBlank ·)) list

/-- The entry is no pair: it has no `=`, or nothing but blanks on one side of the first. -/
def Malformed (entry : List Char) : Prop :=
  '=' ∉ entry ∨ ∃ key value, entry = key ++ '=' :: value ∧ '=' ∉ key ∧
    (AllBlank key ∨ AllBlank value)

/-- What stands between the commas of the text, less the blank parts. -/
def entriesOf (text : String) : List (List Char) :=
  (text.toList.splitOn ',').filter (¬AllBlank ·)

/-! ## One entry -/

theorem isBlank_equals : Text.isBlank '=' = false := by decide

theorem isBlank_comma : Text.isBlank ',' = false := by decide

/-- An entry has no `=`, or a first one. -/
theorem equals_cases (entry : List Char) :
    '=' ∉ entry ∨ ∃ key value, entry = key ++ '=' :: value ∧ '=' ∉ key := by
  cases hcut : cut? '=' entry with
  | none => exact Or.inl (cut?_eq_none_iff.1 hcut)
  | some sides => exact Or.inr ⟨sides.1, sides.2, cut?_eq_some_iff.1 hcut⟩

/-- An entry has one first `=` only. -/
theorem sides_unique {key' value' : List Char} (hkey : '=' ∉ key) (hkey' : '=' ∉ key')
    (h : key ++ '=' :: value = key' ++ '=' :: value') : key = key' ∧ value = value' := by
  have hcut := cut?_eq_some_iff.2 ⟨h, hkey'⟩
  rw [cut?_eq_some_iff.2 ⟨rfl, hkey⟩] at hcut
  exact Prod.mk.inj (Option.some.inj hcut)

theorem malformed_append_iff (hkey : '=' ∉ key) :
    Malformed (key ++ '=' :: value) ↔ AllBlank key ∨ AllBlank value := by
  constructor
  · rintro (hnone | ⟨key', value', heq, hkey', hblank⟩)
    · exact absurd List.mem_append_cons_self hnone
    · obtain ⟨rfl, rfl⟩ := sides_unique hkey hkey' heq
      exact hblank
  · exact fun hblank => Or.inr ⟨key, value, rfl, hkey, hblank⟩

/-- What pair an entry writes is told by the two sides of its first `=`. -/
theorem writesPair_append_iff (hkey : '=' ∉ key) (hpair : Listable pair) :
    WritesPair (key ++ '=' :: value) pair ↔
      trim key = pair.1.toList ∧ trim value = pair.2.toList := by
  rw [← hpair.key_bare.padded_iff, ← hpair.value_bare.padded_iff]
  constructor
  · rintro ⟨key', value', heq, hpaddedKey, hpaddedValue⟩
    have hkey' : '=' ∉ key' := mt (hpaddedKey.mem_iff isBlank_equals).1 hpair.no_equals
    obtain ⟨rfl, rfl⟩ := sides_unique hkey hkey' heq
    exact ⟨hpaddedKey, hpaddedValue⟩
  · exact fun hpadded => ⟨key, value, rfl, hpadded⟩

theorem splitEntry?_trim_of_not_mem (h : '=' ∉ entry) : splitEntry? (trim entry) = none := by
  have htrim : '=' ∉ trim entry := mt ((padded_trim entry).mem_iff isBlank_equals).2 h
  rw [ splitEntry?, cut?_eq_none_iff.2 htrim]
  rfl

/-- An entry is cut at its first `=`, and the two sides are trimmed. -/
theorem splitEntry?_trim (hkey : '=' ∉ key) :
    splitEntry? (trim (key ++ '=' :: value)) =
      if AllBlank key ∨ AllBlank value then none else some (trim key, trim value) := by
  have hstart : '=' ∉ trimStart key := mt ((padded_trimStart key).mem_iff isBlank_equals).2 hkey
  have hcut : cut? '=' (trimStart key ++ '=' :: trimEnd value) =
      some (trimStart key, trimEnd value) := cut?_eq_some_iff.2 ⟨rfl, hstart⟩
  -- each side is trimmed at one end with the entry, and then once more at both
  rw [ splitEntry?, trim_append_cons isBlank_equals, hcut]
  simp only [Option.bind_eq_bind, Option.bind_some, ← (padded_trimStart key).trim_eq,
    ← (padded_trimEnd value).trim_eq]
  simp only [Bool.or_eq_true, List.isEmpty_iff, trim_eq_nil_iff]

/-- The two sides of an entry that has no comma make a pair, if neither is blank. -/
theorem listable_sides (hcomma : ',' ∉ key ++ '=' :: value) (hkey : '=' ∉ key)
    (hkeyText : ¬AllBlank key) (hvalueText : ¬AllBlank value) :
    Listable (String.ofList (trim key), String.ofList (trim value)) := by
  have hnot : ∀ side, ',' ∉ side → ',' ∉ trim side :=
    fun side => mt ((padded_trim side).mem_iff isBlank_comma).2
  have hequals : '=' ∉ trim key := mt ((padded_trim key).mem_iff isBlank_equals).2 hkey
  simp only [List.mem_append, List.mem_cons, not_or] at hcomma
  obtain ⟨hkeyComma, -, hvalueComma⟩ := hcomma
  constructor
  · rw [String.toList_ofList]
    exact bare_trim hkeyText
  · rw [String.toList_ofList]
    exact bare_trim hvalueText
  · rw [String.toList_ofList]
    exact hequals
  · rw [String.toList_ofList, String.toList_ofList]
    exact ⟨hnot key hkeyComma, hnot value hvalueComma⟩

/-- An entry is read as the pair that it writes. -/
theorem readEntry_eq_ok_iff (hcomma : ',' ∉ entry) :
    readEntry name (trim entry) = .ok pair ↔ Listable pair ∧ WritesPair entry pair := by
  rcases equals_cases entry with hnone | ⟨key, value, rfl, hkey⟩
  · rw [readEntry, splitEntry?_trim_of_not_mem hnone]
    constructor
    · exact nofun
    · rintro ⟨-, key, value, rfl, -⟩
      exact absurd List.mem_append_cons_self hnone
  · rw [readEntry, splitEntry?_trim hkey]
    split_ifs with hblank
    · constructor
      · exact nofun
      · rintro ⟨hpair, hwrites⟩
        obtain ⟨hkeyText, hvalueText⟩ := (writesPair_append_iff hkey hpair).1 hwrites
        rw [← trim_eq_nil_iff, ← trim_eq_nil_iff, hkeyText, hvalueText] at hblank
        exact hblank.elim (absurd · hpair.key_bare.ne_nil) (absurd · hpair.value_bare.ne_nil)
    · obtain ⟨hkeyText, hvalueText⟩ := not_or.1 hblank
      constructor
      · rintro ⟨rfl⟩
        have hpair := listable_sides hcomma hkey hkeyText hvalueText
        rw [writesPair_append_iff hkey hpair, String.toList_ofList, String.toList_ofList]
        exact ⟨hpair, rfl, rfl⟩
      · rintro ⟨hpair, hwrites⟩
        obtain ⟨hkeyText, hvalueText⟩ := (writesPair_append_iff hkey hpair).1 hwrites
        simp only [hkeyText, hvalueText, String.ofList_toList]

/-- An entry is refused if it is malformed, and the fault shows what it is. -/
theorem readEntry_eq_error_iff :
    readEntry name (trim entry) = .error fault ↔
      Malformed entry ∧ fault = .badEntry name (String.ofList (trim entry)) := by
  rcases equals_cases entry with hnone | ⟨key, value, rfl, hkey⟩
  · rw [readEntry, splitEntry?_trim_of_not_mem hnone, Except.error.injEq]
    exact ⟨fun h => ⟨Or.inl hnone, h.symm⟩, fun h => h.2.symm⟩
  · rw [readEntry, splitEntry?_trim hkey, malformed_append_iff hkey]
    split_ifs with hblank
    · rw [Except.error.injEq]
      exact ⟨fun h => ⟨hblank, h.symm⟩, fun h => h.2.symm⟩
    · exact ⟨nofun, fun h => absurd h.1 hblank⟩

/-! ## The list -/

theorem not_mem_of_mem_entriesOf (h : entry ∈ entriesOf text) : ',' ∉ entry := by
  have hmem := List.mem_of_mem_filter h
  rw [← pieces_eq_splitOn] at hmem
  exact not_mem_of_mem_pieces hmem

/-- A list is read entry by entry. -/
theorem pairs_eq_mapM (name text : String) :
    pairs name text = (entriesOf text).mapM fun entry => readEntry name (trim entry) := by
  have hkept : (!·.isEmpty) ∘ trim = fun entry => decide (¬AllBlank entry) := by
    funext entry
    rw [Bool.eq_iff_iff]
    simp [trim_eq_nil_iff]
  rw [pairs, pieces_eq_splitOn, List.filter_map, List.mapM_map, hkept, entriesOf]
  rfl

theorem WritesPair.not_mem (h : WritesPair entry pair) (hpair : Listable pair) :
    ',' ∉ entry := by
  obtain ⟨key, value, rfl, hkey, hvalue⟩ := h
  rw [List.mem_append, List.mem_cons, hkey.mem_iff isBlank_comma, hvalue.mem_iff isBlank_comma]
  simp [hpair.no_comma]

/-- The entries that a text was made of are those between its commas. -/
theorem lists_iff :
    Lists text list ↔
      (∀ pair ∈ list, Listable pair) ∧ List.Forall₂ WritesPair (entriesOf text) list := by
  constructor
  · rintro ⟨hlistable, entries, htext, hwrites⟩
    refine ⟨hlistable, ?_⟩
    -- a comma is no blank and is in no pair, so no entry is cut any further
    have hcomma : ∀ entry ∈ entries, ',' ∉ entry := by
      intro entry hentry
      by_cases hblank : AllBlank entry
      · intro hmem
        exact absurd (hblank ',' hmem) (by decide)
      · have hmem : entry ∈ entries.filter (¬AllBlank ·) := List.mem_filter.2 ⟨hentry, by simpa⟩
        obtain ⟨pair, hpair, hwritten⟩ := exists_of_mem_of_forall₂ hwrites entry hmem
        exact hwritten.not_mem (hlistable pair hpair)
    cases entries with
    | nil => simpa [entriesOf, htext, AllBlank] using hwrites
    | cons entry entries =>
      rwa [entriesOf, htext, List.splitOn_intercalate ',' hcomma (by simp)]
  · rintro ⟨hlistable, hwrites⟩
    exact ⟨hlistable, text.toList.splitOn ',', (List.intercalate_splitOn ',').symm, hwrites⟩

theorem forall₂_readEntry_iff {entries : List (List Char)}
    (hcomma : ∀ entry ∈ entries, ',' ∉ entry) :
    List.Forall₂ (fun entry pair => readEntry name (trim entry) = .ok pair) entries list ↔
      (∀ pair ∈ list, Listable pair) ∧ List.Forall₂ WritesPair entries list := by
  induction entries generalizing list with
  | nil =>
    rw [List.forall₂_nil_left_iff, List.forall₂_nil_left_iff]
    constructor
    · rintro rfl
      exact ⟨by simp, rfl⟩
    · exact fun h => h.2
  | cons entry entries ih =>
    obtain ⟨hfirst, hothers⟩ := List.forall_mem_cons.1 hcomma
    cases list with
    | nil => simp
    | cons pair list =>
      rw [List.forall₂_cons, List.forall₂_cons, readEntry_eq_ok_iff hfirst, ih hothers,
        List.forall_mem_cons]
      exact and_and_and_comm

theorem pairs_eq_ok_iff : pairs name text = .ok list ↔ Lists text list := by
  rw [pairs_eq_mapM, mapM_eq_ok_iff, lists_iff,
    forall₂_readEntry_iff fun _ => not_mem_of_mem_entriesOf]

theorem Lists.unique {list' : List (String × String)} (h : Lists text list)
    (h' : Lists text list') : list = list' := by
  have hread : pairs "" text = .ok list := pairs_eq_ok_iff.2 h
  rw [pairs_eq_ok_iff.2 h'] at hread
  exact (Except.ok.inj hread).symm

/-- An entry that is not refused is not malformed. -/
theorem exists_readEntry_iff :
    (∃ pair, readEntry name (trim entry) = .ok pair) ↔ ¬Malformed entry := by
  cases hread : readEntry name (trim entry) with
  | error fault => simp [(readEntry_eq_error_iff.1 hread).1]
  | ok pair =>
    have hnot : ¬Malformed entry := by
      intro hmalformed
      rw [readEntry_eq_error_iff.2 ⟨hmalformed, rfl⟩] at hread
      cases hread
    simp [hnot]

/-- A list is refused for the first of its entries that is malformed. -/
theorem pairs_eq_error_iff :
    pairs name text = .error fault ↔ ∃ before entry after,
      entriesOf text = before ++ entry :: after ∧ (∀ earlier ∈ before, ¬Malformed earlier) ∧
      Malformed entry ∧ fault = .badEntry name (String.ofList (trim entry)) := by
  simp only [pairs_eq_mapM, mapM_eq_error_iff, exists_readEntry_iff, readEntry_eq_error_iff]

theorem exists_fault_iff :
    (∃ fault, pairs name text = .error fault) ↔ ∃ entry ∈ entriesOf text, Malformed entry := by
  constructor
  · rintro ⟨fault, hfault⟩
    obtain ⟨before, entry, after, hentries, -, hmalformed, -⟩ := pairs_eq_error_iff.1 hfault
    exact ⟨entry, by simp [hentries], hmalformed⟩
  · rintro ⟨entry, hentry, hmalformed⟩
    cases hpairs : pairs name text with
    | error fault => exact ⟨fault, rfl⟩
    | ok list =>
      rw [pairs_eq_mapM, mapM_eq_ok_iff] at hpairs
      obtain ⟨pair, -, hread⟩ := exists_of_mem_of_forall₂ hpairs entry hentry
      exact absurd hmalformed (exists_readEntry_iff.1 ⟨pair, hread⟩)

/-- A text is read as the pairs that it writes, and as no others.  It is refused exactly
if a part of it between commas, not blank itself, has no `=`, or has nothing but blanks
before or after its first one. -/
theorem pairs_inverts_rendering_and_rejects_malformed (name text : String) :
    (∀ list, pairs name text = .ok list ↔ Lists text list) ∧
    ((∃ fault, pairs name text = .error fault) ↔
      ∃ entry ∈ text.toList.splitOn ',', ¬AllBlank entry ∧ Malformed entry) := by
  constructor
  · intro list
    exact pairs_eq_ok_iff
  · rw [exists_fault_iff]
    simp only [entriesOf, List.mem_filter, decide_eq_true_eq, and_assoc]

/-- Blanks, blank entries and a second `=` do no harm. -/
example :
    (pairs "RPC_URLS" " 8453 = https://base.example?key=1,,\t, 1=https://eth.example ,").toOption =
      some [("8453", "https://base.example?key=1"), ("1", "https://eth.example")] := by
  decide +kernel

end DonationFlow.Config
