import DonationFlow.Json.Reader
import DonationFlow.Proofs.Text.Numeral
import Mathlib.Data.List.Basic
import Mathlib.Tactic.SplitIfs

/-!
# One value, one text

A value is plain if no number in it is kept as text.  The first character of a
plain value tells its kind, a number ends before the first character that is no
digit, and a quote before the first quotation mark that is not escaped.  So a
plain value is known by its text, whatever stands behind it.  Main statement:
`Plain.eq_of_render_eq`.
-/

namespace DonationFlow.Json

/-- What may stand behind a value without being taken for part of a number. -/
def Closes (rest : List Char) : Prop := ∀ c ∈ rest.head?, c.isDigit = false

theorem closes_nil : Closes [] := fun _ h => nomatch h

theorem closes_cons {c : Char} (h : c.isDigit = false) (rest : List Char) :
    Closes (c :: rest) := by
  rintro d ⟨⟩
  exact h

/-! ## Numbers -/

/-- Digits end where something stands that is none. -/
theorem digits_append_inj {left right rest tail : List Char}
    (hleft : ∀ c ∈ left, c.isDigit = true) (hright : ∀ c ∈ right, c.isDigit = true)
    (hrest : Closes rest) (htail : Closes tail) (h : left ++ rest = right ++ tail) :
    left = right ∧ rest = tail := by
  induction left generalizing right with
  | nil =>
    cases right with
    | nil => exact ⟨rfl, h⟩
    | cons d right =>
      have hdigit := hright d List.mem_cons_self
      rw [hrest d (by rw [← List.nil_append rest, h]; rfl)] at hdigit
      cases hdigit
  | cons c left ih =>
    cases right with
    | nil =>
      have hdigit := hleft c List.mem_cons_self
      rw [htail c (by rw [← List.nil_append tail, ← h]; rfl)] at hdigit
      cases hdigit
    | cons d right =>
      obtain ⟨rfl, hbehind⟩ := List.cons.inj h
      obtain ⟨rfl, hsame⟩ := ih (fun c hc => hleft c (List.mem_cons_of_mem _ hc))
        (fun c hc => hright c (List.mem_cons_of_mem _ hc)) hbehind
      exact ⟨rfl, hsame⟩

theorem decimal_append_inj {left right : Nat} {rest tail : List Char} (hrest : Closes rest)
    (htail : Closes tail)
    (h : (Text.decimal left).toList ++ rest = (Text.decimal right).toList ++ tail) :
    left = right ∧ rest = tail := by
  simp only [Text.decimal, String.toList_ofList] at h
  obtain ⟨hdigits, hsame⟩ := digits_append_inj (fun _ => Text.isDigit_of_mem_numeral)
    (fun _ => Text.isDigit_of_mem_numeral) hrest htail h
  exact ⟨(Text.numeral_inj (by omega) (by omega)).1 hdigits, hsame⟩

/-- A number begins with a digit, or with a minus sign if it is negative. -/
theorem exists_signedDecimal_eq (value : Int) :
    ∃ c rest, (signedDecimal value).toList = c :: rest ∧
      if value < 0 then c = '-' else c.isDigit = true := by
  cases value with
  | ofNat n =>
    obtain ⟨c, rest, hnumeral⟩ := List.exists_cons_of_ne_nil (Text.numeral_ne_nil 10 n)
    refine ⟨c, rest, by rw [signedDecimal, Text.decimal, String.toList_ofList, hnumeral], ?_⟩
    rw [if_neg (by simp)]
    exact Text.isDigit_of_mem_numeral (hnumeral ▸ List.mem_cons_self)
  | negSucc n =>
    refine ⟨'-', (Text.decimal (n + 1)).toList, by simp [signedDecimal], ?_⟩
    rw [if_pos (Int.negSucc_lt_zero n)]

theorem signedDecimal_append_inj {left right : Int} {rest tail : List Char}
    (hrest : Closes rest) (htail : Closes tail)
    (h : (signedDecimal left).toList ++ rest = (signedDecimal right).toList ++ tail) :
    left = right ∧ rest = tail := by
  obtain ⟨c, digits, hleft, hfirst⟩ := exists_signedDecimal_eq left
  obtain ⟨d, numerals, hright, hother⟩ := exists_signedDecimal_eq right
  have hsign : c = d := by
    rw [hleft, hright] at h
    exact (List.cons.inj h).1
  cases left with
  | ofNat m =>
    cases right with
    | ofNat n =>
      obtain ⟨rfl, hsame⟩ := decimal_append_inj hrest htail h
      exact ⟨rfl, hsame⟩
    | negSucc n =>
      rw [if_pos (Int.negSucc_lt_zero n)] at hother
      rw [if_neg (by simp), hsign, hother] at hfirst
      cases hfirst
  | negSucc m =>
    rw [if_pos (Int.negSucc_lt_zero m)] at hfirst
    cases right with
    | ofNat n =>
      rw [if_neg (by simp), ← hsign, hfirst] at hother
      cases hother
    | negSucc n =>
      simp only [signedDecimal, String.toList_append, List.append_assoc] at h
      obtain ⟨hsucc, hsame⟩ := decimal_append_inj hrest htail (List.append_cancel_left h)
      exact ⟨by rw [Nat.succ.inj hsucc], hsame⟩

/-! ## Quoted texts -/

/-- An escaped character reads back. -/
theorem characters_escape (c : Char) (rest : List Char) :
    Reader.characters (escape c ++ rest) = Reader.inFront c (Reader.characters rest) := by
  unfold escape
  split_ifs with hquote hslash hline hreturn htab hback hfeed hcontrol
  · rw [hquote]
    rfl
  · rw [hslash]
    rfl
  · rw [hline]
    rfl
  · rw [hreturn]
    rfl
  · rw [htab]
    rfl
  · rw [← Char.ofNat_toNat c, hback]
    rfl
  · rw [← Char.ofNat_toNat c, hfeed]
    rfl
  · have hvalue := Text.value?_hexPadded 4 c.toNat
    have hlength : (Text.hexPadded 4 c.toNat).length = 4 :=
      Text.length_hexPadded (by omega) (Nat.lt_of_lt_of_le hcontrol (by decide))
    obtain ⟨w, x, y, z, hdigits⟩ := List.length_eq_four.1 hlength
    rw [hdigits] at hvalue ⊢
    have hlow : Reader.isLow c.toNat = false := by
      simp only [Reader.isLow, Bool.and_eq_false_iff, decide_eq_false_iff_not]
      omega
    have hhigh : Reader.isHigh c.toNat = false := by
      simp only [Reader.isHigh, Bool.and_eq_false_iff, decide_eq_false_iff_not]
      omega
    simp only [List.cons_append, List.nil_append, Reader.characters, hvalue, hlow, hhigh,
      Bool.false_eq_true, if_false, Char.ofNat_toNat]
  · simp [Reader.characters, hslash, hcontrol]

theorem characters_quote (text rest : List Char) :
    Reader.characters (text.flatMap escape ++ '"' :: rest) = .ok text rest := by
  induction text with
  | nil => rfl
  | cons c text ih =>
    rw [List.flatMap_cons, List.append_assoc, characters_escape, ih]
    rfl

/-- A quoted text ends at its closing quotation mark. -/
theorem quote_append_inj {left right : String} {rest tail : List Char}
    (h : quote left ++ rest = quote right ++ tail) : left = right ∧ rest = tail := by
  simp only [quote, List.cons_append, List.append_assoc, List.nil_append, List.cons.injEq,
    true_and] at h
  have hread := characters_quote left.toList rest
  rw [h, characters_quote] at hread
  injection hread with htext hsame
  exact ⟨(String.toList_inj.1 htext).symm, hsame.symm⟩

/-! ## Values -/

/-- No number of the value is kept as text. -/
inductive Plain : Json → Prop
  | null : Plain null
  | bool (value : Bool) : Plain (bool value)
  | int (value : Int) : Plain (int value)
  | str (text : String) : Plain (str text)
  | arr {items : List Json} (hitems : ∀ item ∈ items, Plain item) : Plain (arr items)
  | obj {entries : List (String × Json)} (hentries : ∀ entry ∈ entries, Plain entry.2) :
    Plain (obj entries)

inductive Kind where
  | null
  | bool (value : Bool)
  | int
  | str
  | arr
  | obj
  deriving DecidableEq

/-- The kind of value that the character opens. -/
def kindOf? (c : Char) : Option Kind :=
  if c = 'n' then some .null
  else if c = 't' then some (.bool true)
  else if c = 'f' then some (.bool false)
  else if c = '"' then some .str
  else if c = '[' then some .arr
  else if c = '\x7b' then some .obj
  else if c = '-' || c.isDigit then some .int
  else none

/-- The kind of a plain value. -/
def kind : Json → Kind
  | .null => .null
  | .bool value => .bool value
  | .int _ | .decimal _ => .int
  | .str _ => .str
  | .arr _ => .arr
  | .obj _ => .obj

theorem kindOf?_of_isDigit {c : Char} (h : c.isDigit = true) : kindOf? c = some .int := by
  unfold kindOf?
  split_ifs <;> simp_all

/-- The first character of a plain value tells its kind. -/
theorem Plain.exists_chars_eq {value : Json} (h : value.Plain) :
    ∃ c rest, chars value = c :: rest ∧ kindOf? c = some value.kind := by
  cases h with
  | null => exact ⟨_, _, rfl, rfl⟩
  | bool value => cases value <;> exact ⟨_, _, rfl, rfl⟩
  | int value =>
    obtain ⟨c, rest, heq, hfirst⟩ := exists_signedDecimal_eq value
    refine ⟨c, rest, by rw [chars, heq], ?_⟩
    split_ifs at hfirst
    · rw [hfirst]
      rfl
    · exact kindOf?_of_isDigit hfirst
  | str text => exact ⟨_, _, rfl, rfl⟩
  | arr => exact ⟨_, _, by rw [chars, List.cons_append], rfl⟩
  | obj => exact ⟨_, _, by rw [chars, List.cons_append], rfl⟩

theorem Plain.kind_eq {left right : Json} (hleft : left.Plain) (hright : right.Plain)
    {rest tail : List Char} (h : chars left ++ rest = chars right ++ tail) :
    left.kind = right.kind := by
  obtain ⟨c, _, hchars, hkind⟩ := hleft.exists_chars_eq
  obtain ⟨d, _, hother, hkindOther⟩ := hright.exists_chars_eq
  rw [hchars, hother] at h
  rw [(List.cons.inj h).1, hkindOther] at hkind
  exact (Option.some.inj hkind).symm

/-! ## Sequences -/

/-- The parts with a comma in front of each, the first one apart. -/
def separated {α : Type} (write : α → List Char) (first : Bool) : List α → List Char
  | [] => []
  | part :: parts => (if first then [] else [',']) ++ write part ++ separated write false parts

def writeEntry (entry : String × Json) : List Char := quote entry.1 ++ ':' :: chars entry.2

theorem itemChars_eq (first : Bool) (items : List Json) :
    itemChars first items = separated chars first items := by
  induction items generalizing first with
  | nil => rw [itemChars, separated]
  | cons item items ih => rw [itemChars, separated, ih]

theorem entryChars_eq (first : Bool) (entries : List (String × Json)) :
    entryChars first entries = separated writeEntry first entries := by
  induction entries generalizing first with
  | nil => rw [entryChars, separated]
  | cons entry entries ih =>
    rw [entryChars, separated, ih, writeEntry]
    simp only [List.append_assoc, List.cons_append]

/-- The part is told from each of the others by its text, whatever closes it. -/
def Told {α : Type} (write : α → List Char) (part : α) (others : List α) : Prop :=
  ∀ other ∈ others, ∀ rest tail, Closes rest → Closes tail →
    write part ++ rest = write other ++ tail → part = other ∧ rest = tail

/-- The part begins with something else than the end. -/
def Begins {α : Type} (write : α → List Char) (close : Char) (part : α) : Prop :=
  ∃ c text, write part = c :: text ∧ c ≠ close

section Sequences

variable {α : Type} {write : α → List Char} {close : Char}

theorem separated_cons_ne (hcomma : close ≠ ',') {first : Bool} {part : α} {parts : List α}
    {rest tail : List Char} (hpart : Begins write close part) :
    separated write first (part :: parts) ++ rest ≠ close :: tail := by
  obtain ⟨c, text, hwrite, hne⟩ := hpart
  rw [separated, hwrite]
  intro h
  cases first with
  | true => exact hne (List.cons.inj h).1
  | false => exact hcomma (List.cons.inj h).1.symm

theorem closes_separated (hdigit : close.isDigit = false) (parts : List α) (rest : List Char) :
    Closes (separated write false parts ++ close :: rest) := by
  cases parts with
  | nil => exact closes_cons hdigit rest
  | cons part parts => exact closes_cons (by decide) _

/-- A sequence is known by its text if each of its parts is. -/
theorem separated_append_inj (hdigit : close.isDigit = false) (hcomma : close ≠ ',')
    {first : Bool} {left right : List α} {rest tail : List Char}
    (htold : ∀ part ∈ left, Told write part right)
    (hleft : ∀ part ∈ left, Begins write close part)
    (hright : ∀ part ∈ right, Begins write close part)
    (h : separated write first left ++ close :: rest =
      separated write first right ++ close :: tail) : left = right ∧ rest = tail := by
  induction left generalizing right first with
  | nil =>
    cases right with
    | nil => exact ⟨rfl, (List.cons.inj h).2⟩
    | cons other right =>
      exact absurd h.symm (separated_cons_ne hcomma (hright other List.mem_cons_self))
  | cons part left ih =>
    cases right with
    | nil => exact absurd h (separated_cons_ne hcomma (hleft part List.mem_cons_self))
    | cons other right =>
      simp only [separated, List.append_assoc] at h
      obtain ⟨rfl, hbehind⟩ := htold part List.mem_cons_self other List.mem_cons_self _ _
        (closes_separated hdigit left rest) (closes_separated hdigit right tail)
        (List.append_cancel_left h)
      obtain ⟨rfl, hsame⟩ := ih
        (fun part hpart other hother => htold part (List.mem_cons_of_mem _ hpart) other
          (List.mem_cons_of_mem _ hother))
        (fun part hpart => hleft part (List.mem_cons_of_mem _ hpart))
        (fun part hpart => hright part (List.mem_cons_of_mem _ hpart)) hbehind
      exact ⟨rfl, hsame⟩

end Sequences

/-! ## Plain values and their texts -/

theorem Plain.begins {value : Json} (h : value.Plain) {close : Char}
    (hclose : kindOf? close = none) : Begins chars close value := by
  obtain ⟨c, rest, hchars, hkind⟩ := h.exists_chars_eq
  refine ⟨c, rest, hchars, ?_⟩
  rintro rfl
  rw [hclose] at hkind
  cases hkind

theorem begins_writeEntry (entry : String × Json) : Begins writeEntry '\x7d' entry :=
  ⟨'"', _, rfl, by decide⟩

/-- A plain value ends where its text does, and is known by it. -/
theorem Plain.chars_append_inj {left right : Json} (hleft : left.Plain) (hright : right.Plain)
    {rest tail : List Char} (hrest : Closes rest) (htail : Closes tail)
    (h : chars left ++ rest = chars right ++ tail) : left = right ∧ rest = tail := by
  have hkind := hleft.kind_eq hright h
  induction hleft generalizing right rest tail with
  | null =>
    cases hright with
    | null => exact ⟨rfl, List.append_cancel_left h⟩
    | _ => cases hkind
  | bool value =>
    cases hright with
    | bool other =>
      obtain rfl := Kind.bool.inj hkind
      exact ⟨rfl, List.append_cancel_left h⟩
    | _ => cases hkind
  | int value =>
    cases hright with
    | int other =>
      rw [chars, chars] at h
      obtain ⟨rfl, hsame⟩ := signedDecimal_append_inj hrest htail h
      exact ⟨rfl, hsame⟩
    | _ => cases hkind
  | str text =>
    cases hright with
    | str other =>
      rw [chars, chars] at h
      obtain ⟨rfl, hsame⟩ := quote_append_inj h
      exact ⟨rfl, hsame⟩
    | _ => cases hkind
  | @arr items hitems ih =>
    cases hright with
    | @arr others hothers =>
      simp only [chars, itemChars_eq, List.cons_append, List.append_assoc, List.nil_append,
        List.cons.injEq, true_and] at h
      obtain ⟨rfl, hsame⟩ := separated_append_inj (by decide) (by decide)
        (fun item hitem other hother rest tail hrest htail heq =>
          ih item hitem (hothers other hother) hrest htail heq
            ((hitems item hitem).kind_eq (hothers other hother) heq))
        (fun item hitem => (hitems item hitem).begins (by decide))
        (fun other hother => (hothers other hother).begins (by decide)) h
      exact ⟨rfl, hsame⟩
    | _ => cases hkind
  | @obj entries hentries ih =>
    cases hright with
    | @obj others hothers =>
      simp only [chars, entryChars_eq, List.cons_append, List.append_assoc, List.nil_append,
        List.cons.injEq, true_and] at h
      have htold : ∀ entry ∈ entries, Told writeEntry entry others := by
        rintro ⟨key, value⟩ hentry ⟨otherKey, other⟩ hother rest tail hrest htail heq
        simp only [writeEntry, List.append_assoc, List.cons_append] at heq
        obtain ⟨rfl, hvalues⟩ := quote_append_inj heq
        have hvalue := (List.cons.inj hvalues).2
        obtain ⟨rfl, hsame⟩ := ih _ hentry (hothers _ hother) hrest htail hvalue
          ((hentries _ hentry).kind_eq (hothers _ hother) hvalue)
        exact ⟨rfl, hsame⟩
      obtain ⟨rfl, hsame⟩ := separated_append_inj (by decide) (by decide) htold
        (fun entry _ => begins_writeEntry entry) (fun entry _ => begins_writeEntry entry) h
      exact ⟨rfl, hsame⟩
    | _ => cases hkind

/-- Plain values of one text are one value. -/
theorem Plain.eq_of_render_eq {left right : Json} (hleft : left.Plain) (hright : right.Plain)
    (h : left.render = right.render) : left = right := by
  have hchars : chars left ++ [] = chars right ++ [] := by
    rw [String.ofList_inj.1 h]
  exact (hleft.chars_append_inj hright closes_nil closes_nil hchars).1

end DonationFlow.Json
