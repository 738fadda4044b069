import DonationFlow.Proofs.Json.Reading

/-!
# Records of texts

A record is written as an object, or as an array of its values, with blanks wherever
they may stand.  Where all values are texts or null, what is made of it is known by what
each field makes of its value: a known key may stand once in an object and others are
passed over, and an array gives the fields in order.  Main statements: `yields_object`,
`yields_array`, `exists_fault_of_startsOtherwise`.
-/

namespace DonationFlow.Json

/-! ## How a record is written -/

/-- A value with blanks around it. -/
inductive WritesItem : Option String → List Char → Prop
  | intro {value : Option String} {first last : List Char} (hfirst : Blanks first)
      (hlast : Blanks last) : WritesItem value (first ++ writeOption value ++ last)

/-- An entry with blanks around its parts. -/
inductive WritesEntry : String × Option String → List Char → Prop
  | intro {key : String} {value : Option String} {first second item : List Char}
      (hfirst : Blanks first) (hsecond : Blanks second) (hitem : WritesItem value item) :
      WritesEntry (key, value) (first ++ quote key ++ second ++ ':' :: item)

/-- Parts with a comma between them, up to the closing character. -/
inductive Lists {α : Type} (writes : α → List Char → Prop) (close : Char) :
    List α → List Char → Prop
  | last {part : α} {text : List Char} (hpart : writes part text) :
      Lists writes close [part] (text ++ [close])
  | cons {part : α} {parts : List α} {text rest : List Char} (hpart : writes part text)
      (hrest : Lists writes close parts rest) :
      Lists writes close (part :: parts) (text ++ ',' :: rest)

/-- Parts between an opening and a closing character, behind blanks. -/
inductive Encloses {α : Type} (writes : α → List Char → Prop) (opening close : Char) :
    List α → List Char → Prop
  | empty {first second : List Char} (hfirst : Blanks first) (hsecond : Blanks second) :
      Encloses writes opening close [] (first ++ opening :: second ++ [close])
  | full {parts : List α} {first text : List Char} (hfirst : Blanks first)
      (htext : Lists writes close parts text) :
      Encloses writes opening close parts (first ++ opening :: text)

/-- The text writes an object of the entries. -/
def WritesObject : List (String × Option String) → List Char → Prop :=
  Encloses WritesEntry '\x7b' '\x7d'

/-- The text writes an array of the values. -/
def WritesArray : List (Option String) → List Char → Prop := Encloses WritesItem '[' ']'

theorem Lists.length_le {α : Type} {writes : α → List Char → Prop} {close : Char}
    {parts : List α} {text : List Char} (h : Lists writes close parts text) :
    parts.length ≤ text.length := by
  induction h with
  | last => simp
  | cons _ _ ih =>
    rw [List.length_cons, List.length_append, List.length_cons]
    omega

/-- The parts of an entry, with what stands behind it. -/
theorem WritesEntry.exists_append_eq {key : String} {value : Option String} {text : List Char}
    (h : WritesEntry (key, value) text) (rest : List Char) :
    ∃ first second third last, Blanks first ∧ Blanks second ∧ Blanks third ∧ Blanks last ∧
      text ++ rest = first ++ '"' :: (key.toList.flatMap escape ++ '"' ::
        (second ++ ':' :: (third ++ (writeOption value ++ (last ++ rest))))) := by
  obtain ⟨hfirst, hsecond, ⟨hthird, hlast⟩⟩ := h
  refine ⟨_, _, _, _, hfirst, hsecond, hthird, hlast, ?_⟩
  simp [quote]

/-! ## What is made of it -/

/-- A field of a record: what it makes of a value, and whether an array may end before
it. -/
structure Slot (σ : Type) where
  name : String
  take : Option String → Option (σ → σ)
  optional : Bool := false

section Making

variable {σ : Type}

/-- What an entry makes of a record.  A known key may stand once, with a value that its
field takes. -/
def settle (slots : List (Slot σ)) (seen : List String) (key : String) (value : Option String)
    (record : σ) : Option σ :=
  match slots.find? (·.name = key) with
  | none => some record
  | some slot => if seen.contains key then none else (slot.take value).map (· record)

/-- What the entries of an object make of a record, one after the other. -/
def ofEntries (slots : List (Slot σ)) :
    List String → List (String × Option String) → σ → Option σ
  | _, [], record => some record
  | seen, (key, value) :: entries, record =>
    (settle slots seen key value record).bind (ofEntries slots (key :: seen) entries)

/-- What the items of an array make of a record. -/
def ofItems : List (Slot σ) → List (Option String) → σ → Option σ
  | [], [], record => some record
  | [], _ :: _, _ => none
  | slot :: slots, [], record => if slot.optional then ofItems slots [] record else none
  | slot :: slots, value :: values, record =>
    (slot.take value).bind fun set => ofItems slots values (set record)

end Making

namespace Reader

section Records

variable {σ : Type} {fields : List (Member σ)} {slots : List (Slot σ)}
  {entries : List (String × Option String)} {values : List (Option String)}
  {seen : List String} {text rest : List Char}

/-- The field makes of a written value what the slot says. -/
structure Fills (field : Member σ) (slot : Slot σ) : Prop where
  name : field.name = slot.name
  optional : field.optional = slot.optional
  yields : ∀ blanks value rest, Blanks blanks →
    Yields (field.read (blanks ++ (writeOption value ++ rest))) rest (slot.take value)

/-- A key is known to the fields if it is to the slots. -/
theorem rel_find? (h : List.Forall₂ Fills fields slots) (key : String) :
    Option.Rel Fills (fields.find? (·.name = key)) (slots.find? (·.name = key)) := by
  induction h with
  | nil => exact .none
  | cons hfills _ ih =>
    rw [List.find?_cons, List.find?_cons, hfills.name]
    split
    · exact .some hfills
    · exact ih

/-! ### Objects -/

/-- What comes behind an entry. -/
def behind (fields : List (Member σ)) (fuel : Nat) (seen : List String) (record : σ) :
    Reader σ := do
  match ← peek with
  | some ',' => do
    take
    entriesOf fields false fuel seen record
  | some '\x7d' => do
    take
    return record
  | _ => malformed

/-- What comes behind the colon of an entry. -/
def entryValue (fields : List (Member σ)) (key : String) (record : σ) : Reader σ :=
  match fields.find? (·.name = key) with
  | some field => (· record) <$> field.read
  | none => skip >>= fun _ => pure record

section Key

variable {first second : List Char} (key : String) (atStart : Bool) (fuel : Nat)
  (seen : List String) (record : σ) (rest : List Char)

/-- An entry is its value and what comes behind it, if its key is not a known one that
was seen before. -/
theorem entriesOf_of_new (hfirst : Blanks first) (hsecond : Blanks second)
    (hnew : ((fields.find? (·.name = key)).isSome && seen.contains key) = false) :
    entriesOf fields atStart (fuel + 1) seen record
        (first ++ '"' :: (key.toList.flatMap escape ++ '"' :: (second ++ ':' :: rest))) =
      (entryValue fields key record >>= behind fields fuel (key :: seen)) rest := by
  rw [entriesOf]
  refine (bind_of_ok (peek_blanks hfirst (by decide) _)).trans ?_
  refine (bind_of_ok (take_cons _ _)).trans ?_
  refine (bind_of_ok (quoted_escape key _)).trans ?_
  dsimp only
  rw [hnew, if_neg Bool.false_ne_true]
  refine (bind_of_ok (peek_blanks hsecond (by decide) _)).trans ?_
  refine (bind_of_ok (take_cons _ _)).trans ?_
  rw [entryValue]
  cases fields.find? (·.name = key) with
  | none => rw [bind_assoc]; rfl
  | some field => rfl

theorem entriesOf_of_seen (hfirst : Blanks first)
    (hseen : ((fields.find? (·.name = key)).isSome && seen.contains key) = true) :
    entriesOf fields atStart (fuel + 1) seen record
        (first ++ '"' :: (key.toList.flatMap escape ++ '"' :: rest)) = .error .shape rest := by
  rw [entriesOf]
  refine (bind_of_ok (peek_blanks hfirst (by decide) _)).trans ?_
  refine (bind_of_ok (take_cons _ _)).trans ?_
  refine (bind_of_ok (quoted_escape key _)).trans ?_
  dsimp only
  rw [hseen, if_pos rfl]
  rfl

end Key

theorem yields_entryValue (h : List.Forall₂ Fills fields slots) {key : String}
    {blanks : List Char} (hblanks : Blanks blanks)
    (hnew : ((fields.find? (·.name = key)).isSome && seen.contains key) = false)
    (value : Option String) (record : σ) (rest : List Char) :
    Yields (entryValue fields key record (blanks ++ (writeOption value ++ rest))) rest
      (settle slots seen key value record) := by
  have hknown := rel_find? h key
  unfold entryValue settle
  generalize fields.find? (·.name = key) = field, slots.find? (·.name = key) = slot
    at hknown hnew ⊢
  cases hknown with
  | none => exact bind_of_ok (skip_writeOption hblanks value rest)
  | some hfills =>
    have hseen : ¬seen.contains key = true := Bool.eq_false_iff.1 hnew
    dsimp only
    rw [if_neg hseen]
    exact (hfills.yields blanks value rest hblanks).map _

theorem settle_of_seen (h : List.Forall₂ Fills fields slots) {key : String}
    (hseen : ((fields.find? (·.name = key)).isSome && seen.contains key) = true)
    (value : Option String) (record : σ) : settle slots seen key value record = none := by
  have hknown := rel_find? h key
  unfold settle
  generalize fields.find? (·.name = key) = field, slots.find? (·.name = key) = slot
    at hknown hseen ⊢
  cases hknown with
  | none => cases hseen
  | some => exact if_pos hseen

/-- One entry, and what comes behind it. -/
theorem yields_entry (h : List.Forall₂ Fills fields slots) {key : String}
    {value : Option String} (hentry : WritesEntry (key, value) text) {fuel : Nat}
    {tail : List Char} {finish : σ → Option σ}
    (hbehind : ∀ last record, Blanks last →
      Yields (behind fields fuel (key :: seen) record (last ++ tail)) rest (finish record))
    (atStart : Bool) (record : σ) :
    Yields (entriesOf fields atStart (fuel + 1) seen record (text ++ tail)) rest
      ((settle slots seen key value record).bind finish) := by
  obtain ⟨first, second, third, last, hfirst, hsecond, hthird, hlast, htext⟩ :=
    hentry.exists_append_eq tail
  rw [htext]
  cases hseen : (fields.find? (·.name = key)).isSome && seen.contains key with
  | false =>
    rw [entriesOf_of_new key atStart fuel seen record _ hfirst hsecond hseen]
    exact (yields_entryValue h hthird hseen value record _).bind fun record =>
      hbehind last record hlast
  | true =>
    rw [entriesOf_of_seen key atStart fuel seen record _ hfirst hseen,
      settle_of_seen h hseen value record]
    exact ⟨_, _, rfl⟩

/-- The entries of an object, up to and with its closing brace. -/
theorem yields_entries (h : List.Forall₂ Fills fields slots)
    (hlists : Lists WritesEntry '\x7d' entries text) {fuel : Nat} (hfuel : entries.length ≤ fuel)
    (atStart : Bool) (seen : List String) (record : σ) (rest : List Char) :
    Yields (entriesOf fields atStart fuel seen record (text ++ rest)) rest
      (ofEntries slots seen entries record) := by
  induction hlists generalizing fuel atStart seen record with
  | last hentry =>
    obtain ⟨fuel, rfl⟩ := Nat.exists_eq_add_of_le' hfuel
    rw [List.append_assoc]
    refine yields_entry h hentry (fun last record hlast => ?_) atStart record
    refine (bind_of_ok (peek_blanks hlast (by decide) _)).trans ?_
    exact bind_of_ok (take_cons _ _)
  | @cons entry entries text tail hentry hrest ih =>
    obtain ⟨fuel, rfl⟩ := Nat.exists_eq_add_of_le' (Nat.le_trans (Nat.le_add_left 1 _) hfuel)
    rw [List.append_assoc]
    refine yields_entry h hentry (fun last record hlast => ?_) atStart record
    have hcomma : behind fields fuel (entry.1 :: seen) record (last ++ (',' :: tail ++ rest)) =
        entriesOf fields false fuel (entry.1 :: seen) record (tail ++ rest) :=
      (bind_of_ok (peek_blanks hlast (by decide) _)).trans (bind_of_ok (take_cons _ _))
    rw [hcomma]
    exact ih (Nat.le_of_succ_le_succ hfuel) false _ record

/-- What is made of a record that is written as an object. -/
theorem yields_object (h : List.Forall₂ Fills fields slots) (htext : WritesObject entries text)
    (blank : σ) (rest : List Char) :
    Yields (record fields blank (text ++ rest)) rest (ofEntries slots [] entries blank) := by
  have hbrace : ∀ first text, Blanks first → record fields blank (first ++ '\x7b' :: text) =
      entriesOf fields true (fuelFor text) [] blank text := fun first text hfirst =>
    (bind_of_ok (peek_blanks hfirst (by decide) _)).trans (bind_of_ok (take_cons _ _))
  cases htext with
  | empty hfirst hsecond =>
    rw [List.append_assoc, List.append_assoc, List.cons_append, hbrace _ _ hfirst, fuelFor,
      entriesOf]
    refine (bind_of_ok (peek_blanks hsecond (by decide) _)).trans ?_
    exact bind_of_ok (take_cons _ _)
  | @full _ first text hfirst hlists =>
    have hfuel : entries.length ≤ fuelFor (text ++ rest) := by
      have hlength := hlists.length_le
      rw [fuelFor, List.length_append]
      omega
    rw [List.append_assoc, List.cons_append, hbrace _ _ hfirst]
    exact yields_entries h hlists hfuel true [] blank rest

/-! ### Arrays -/

section Items

variable {α : Type} {reader : Reader α} {blanks : List Char}

theorem item?_of_closed (h : Blanks blanks) (atStart : Bool) (rest : List Char) :
    item? atStart reader (blanks ++ ']' :: rest) = .ok none (']' :: rest) :=
  bind_of_ok (peek_blanks h (by decide) _)

/-- An item is its value, at the start of an array or behind a comma. -/
theorem yields_item (h : Blanks blanks) {value : Option String} {outcome : Option α}
    (hreader : Yields (reader (writeOption value ++ rest)) rest outcome) :
    Yields (item? true reader (blanks ++ (writeOption value ++ rest))) rest (outcome.map some) ∧
      ∀ last, Blanks last →
        Yields (item? false reader (last ++ ',' :: (blanks ++ (writeOption value ++ rest)))) rest
          (outcome.map some) := by
  have hcomma : ∀ last, Blanks last →
      item? false reader (last ++ ',' :: (blanks ++ (writeOption value ++ rest))) =
        item? true reader (blanks ++ (writeOption value ++ rest)) := by
    intro last hlast
    rw [item?, bind_of_ok (peek_blanks hlast (by decide) _)]
    refine (bind_of_ok (take_cons _ _)).trans ?_
    rw [item?]
    cases value with
    | none => rw [bind_of_ok (peek_null h rest), bind_of_ok (peek_null h rest)]; rfl
    | some value =>
      rw [bind_of_ok (peek_text h value rest), bind_of_ok (peek_text h value rest)]; rfl
  have hfirst : item? true reader (blanks ++ (writeOption value ++ rest)) =
      (some <$> reader) (writeOption value ++ rest) := by
    rw [item?]
    cases value with
    | none => rw [bind_of_ok (peek_null h rest)]; rfl
    | some value => rw [bind_of_ok (peek_text h value rest)]; rfl
  refine ⟨?_, fun last hlast => ?_⟩
  · rw [hfirst]
    exact hreader.map some
  · rw [hcomma last hlast, hfirst]
    exact hreader.map some

end Items

/-- What is left of an array behind an item: its end, or a comma and more items. -/
inductive Follows : List (Option String) → List Char → Prop
  | closed {last : List Char} (hlast : Blanks last) : Follows [] (last ++ [']'])
  | more {values : List (Option String)} {last text : List Char} (hlast : Blanks last)
      (htext : Lists WritesItem ']' values text) : Follows values (last ++ ',' :: text)

theorem exists_follows {value : Option String} (h : Lists WritesItem ']' (value :: values) text) :
    ∃ first behind, Blanks first ∧ Follows values behind ∧
      text = first ++ (writeOption value ++ behind) := by
  cases h with
  | last hitem =>
    obtain ⟨hfirst, hlast⟩ := hitem
    exact ⟨_, _, hfirst, .closed hlast, by simp⟩
  | cons hitem hrest =>
    obtain ⟨hfirst, hlast⟩ := hitem
    exact ⟨_, _, hfirst, .more hlast hrest, by simp⟩

/-- At the end of an array the fields that are left stay as they are, if they may. -/
theorem yields_closed (h : List.Forall₂ Fills fields slots) {last : List Char}
    (hlast : Blanks last) (atStart : Bool) (record : σ) (rest : List Char) :
    Yields (itemsOf atStart fields record (last ++ ']' :: rest)) rest
      (ofItems slots [] record) := by
  induction h generalizing last with
  | nil => exact bind_of_ok (bind_of_ok (peek_blanks hlast (by decide) _))
  | @cons field slot fields slots hfills _ ih =>
    rw [itemsOf, bind_of_ok (item?_of_closed hlast atStart rest), ofItems, hfills.optional]
    split
    · exact ih blanks_nil
    · exact fails_shape _

/-- A record takes the item for its next field, and goes on with what follows. -/
theorem yields_itemsOf_cons {field : Member σ} {slot : Slot σ} {atStart : Bool} {record : σ}
    {value : Option String} {mid : List Char}
    (hitem : Yields (item? atStart field.read text) mid ((slot.take value).map some))
    (hnext : ∀ set : σ → σ,
      Yields (itemsOf false fields (set record) mid) rest (ofItems slots values (set record))) :
    Yields (itemsOf atStart (field :: fields) record text) rest
      (ofItems (slot :: slots) (value :: values) record) := by
  cases htake : slot.take value with
  | none =>
    rw [htake] at hitem
    obtain ⟨fault, left, hfault⟩ := hitem
    rw [itemsOf, ofItems, htake]
    exact ⟨fault, left, bind_of_error hfault⟩
  | some set =>
    rw [htake] at hitem
    rw [itemsOf, ofItems, htake, bind_of_ok hitem]
    exact hnext set

/-- The items of an array behind its first one. -/
theorem yields_follows (h : List.Forall₂ Fills fields slots) (htext : Follows values text)
    (record : σ) (rest : List Char) :
    Yields (itemsOf false fields record (text ++ rest)) rest (ofItems slots values record) := by
  induction h generalizing values text record with
  | nil =>
    cases htext with
    | closed hlast =>
      rw [List.append_assoc]
      exact yields_closed .nil hlast false record rest
    | more hlast hlists =>
      rw [List.append_assoc]
      cases hlists <;>
        exact ⟨_, _, bind_of_error (bind_of_ok (peek_blanks hlast (by decide) _))⟩
  | cons hfills hrest ih =>
    cases htext with
    | closed hlast =>
      rw [List.append_assoc]
      exact yields_closed (.cons hfills hrest) hlast false record rest
    | more hlast hlists =>
      cases values with
      | nil => cases hlists
      | cons value values =>
        obtain ⟨first, behind, hfirst, hfollows, rfl⟩ := exists_follows hlists
        rw [List.append_assoc, List.cons_append, List.append_assoc, List.append_assoc]
        have hvalue := hfills.yields [] value (behind ++ rest) blanks_nil
        exact yields_itemsOf_cons ((yields_item hfirst hvalue).2 _ hlast) fun set =>
          ih hfollows (set record)

/-- What is made of a record that is written as an array. -/
theorem yields_array (h : List.Forall₂ Fills fields slots) (htext : WritesArray values text)
    (blank : σ) (rest : List Char) :
    Yields (record fields blank (text ++ rest)) rest (ofItems slots values blank) := by
  have hbracket : ∀ first text, Blanks first → record fields blank (first ++ '[' :: text) =
      itemsOf true fields blank text := fun first text hfirst =>
    (bind_of_ok (peek_blanks hfirst (by decide) _)).trans (bind_of_ok (take_cons _ _))
  cases htext with
  | empty hfirst hsecond =>
    rw [List.append_assoc, List.append_assoc, List.cons_append, hbracket _ _ hfirst]
    exact yields_closed h hsecond true blank rest
  | full hfirst hlists =>
    rw [List.append_assoc, List.cons_append, hbracket _ _ hfirst]
    cases values with
    | nil => cases hlists
    | cons value values =>
      obtain ⟨first, behind, hblanks, hfollows, rfl⟩ := exists_follows hlists
      rw [List.append_assoc, List.append_assoc]
      cases h with
      | nil =>
        cases value with
        | none => exact ⟨_, _, bind_of_error (bind_of_ok (peek_null hblanks _))⟩
        | some value => exact ⟨_, _, bind_of_error (bind_of_ok (peek_text hblanks value _))⟩
      | cons hfills hrest =>
        have hvalue := hfills.yields [] value (behind ++ rest) blanks_nil
        exact yields_itemsOf_cons (yields_item hblanks hvalue).1 fun set =>
          yields_follows hrest hfollows (set blank) rest

/-! ### Other values -/

/-- The text begins, behind blanks, with neither a brace nor a bracket. -/
def StartsOtherwise (text : List Char) : Prop :=
  ∀ c ∈ (text.dropWhile isBlank).head?, c ≠ '\x7b' ∧ c ≠ '['

/-- Such a text is no record. -/
theorem exists_fault_of_startsOtherwise (htext : StartsOtherwise text) (blank : σ) :
    ∃ fault left, record fields blank text = .error fault left := by
  have hpeek : peek text =
      .ok (text.dropWhile isBlank).head? (text.dropWhile isBlank) := rfl
  obtain ⟨fault, left, hother⟩ := @fails_otherShape σ (text.dropWhile isBlank)
  refine ⟨fault, left, ?_⟩
  rw [record, bind_of_ok hpeek]
  rw [StartsOtherwise] at htext
  generalize (text.dropWhile isBlank).head? = next at htext ⊢
  split
  · exact absurd rfl (htext _ rfl).2
  · exact absurd rfl (htext _ rfl).1
  · exact hother

end Records

end Reader

end DonationFlow.Json
