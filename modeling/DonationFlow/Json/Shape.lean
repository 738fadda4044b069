import DonationFlow.Intent
import DonationFlow.Json.Reader
import DonationFlow.Position

/-!
# Shapes

Readers of values of a known shape.  A record is an object, or an array of its
fields in order; unknown entries are passed over and a known one may come only
once.
-/

namespace DonationFlow.Json.Reader

/-- The value that comes next is well formed but of another shape. -/
def otherShape {α : Type} : Reader α := do
  match ← peek with
  | some 'n' => expect "null".toList
  | some 't' => expect "true".toList
  | some 'f' => expect "false".toList
  | some '"' => do
    take
    let _ ← quoted false
  | some '[' | some '\x7b' => pure ()
  | some c => if c = '-' || c.isDigit then let _ ← number false else malformed
  | none => malformed
  shape

def startsNumber (c : Char) : Bool := c = '-' || c.isDigit

/-- An integer between two bounds. -/
def intWithin (low high : Int) : Reader Int := do
  match ← peek with
  | some c =>
    if startsNumber c then
      match ← number false with
      | .int n => if low ≤ n && n ≤ high then return n else shape
      | _ => shape
    else otherShape
  | none => malformed

/-- A natural number below the bound. -/
def natBelow (bound : Nat) : Reader Nat := do
  return (← intWithin 0 ((bound : Int) - 1)).toNat

def text : Reader String := do
  match ← peek with
  | some '"' => do
    take
    quoted false
  | _ => otherShape

def flag : Reader Bool := do
  match ← peek with
  | some 't' => do
    expect "true".toList
    return true
  | some 'f' => do
    expect "false".toList
    return false
  | _ => otherShape

/-- Nothing for `null`, else a value. -/
def optionOf {α : Type} (reader : Reader α) : Reader (Option α) := do
  match ← peek with
  | some 'n' => do
    expect "null".toList
    return none
  | _ => some <$> reader

/-- A word, written as text or as an integer of 64 bits. -/
def word : Reader Word := do
  match ← peek with
  | some '"' => do
    match Text.prefixedWord? (← text) with
    | some word => return word
    | none => shape
  | _ => return Word.wrap (← natBelow (Nat.pow 2 64))

/-- What the next item of an array is read as, and nothing at the closing
bracket, which stays.  A comma stands before every item but the first. -/
def item? {α : Type} (first : Bool) (reader : Reader α) : Reader (Option α) := do
  match ← peek with
  | some ']' => return none
  | some c =>
    if !first then
      if c ≠ ',' then malformed
      take
      if (← peek) = some ']' then malformed
    some <$> reader
  | none => malformed

def closingBracket : Reader Unit := do
  if (← peek) = some ']' then take else malformed

def byte : Reader UInt8 := return UInt8.ofNat (← natBelow 256)

/-- The bytes of an array of this many.  One item more is passed over if it is
no byte, and so is a comma with nothing behind it. -/
def bytes (first : Bool) : Nat → Reader (List UInt8)
  | 0 => do
    if let some (some _) ← attempt (item? first byte) then shape
    closingBracket
    return []
  | count + 1 => do
    let some byte ← item? first byte | shape
    return byte :: (← bytes false count)

/-- A hash, written as text or as an array of its bytes. -/
def txHash : Reader TxHash := do
  match ← peek with
  | some '[' => do
    take
    let some hash := TxHash.ofBytes? (← bytes true TxHash.width) | shape
    return hash
  | _ => do
    let some hash := TxHash.parse? (← text) | shape
    return hash

def actionNamed : String → Option Action
  | "donate" => some .donate
  | "wealth_build" => some .wealthBuild
  | "stake" => some .stake
  | _ => none

def actionName : Reader Action := do
  match actionNamed (← text) with
  | some action => return action
  | none => shape

/-- An action: its name, or an object that gives the name a null value. -/
def action : Reader Action := do
  match ← peek with
  | some '"' => actionName
  | some '\x7b' => do
    take
    let some '"' ← peek | malformed
    let action ← actionName
    let some ':' ← peek | malformed
    take
    match ← peek with
    | some 'n' => expect "null".toList
    | _ => otherShape
    let some '\x7d' ← peek | malformed
    take
    return action
  | _ => malformed

/-- One field of a record under construction. -/
structure Member (σ : Type) where
  name : String
  read : Reader (σ → σ)
  /-- Whether an array may end before the field. -/
  optional : Bool := false

def Member.of {σ α : Type} (name : String) (reader : Reader α) (set : α → σ → σ) : Member σ where
  name := name
  read := set <$> reader

section Record

variable {σ : Type} (fields : List (Member σ))

/-- The fields of a record written as an array. -/
def itemsOf (first : Bool) : List (Member σ) → σ → Reader σ
  | [], record => do
    closingBracket
    return record
  | field :: rest, record => do
    match ← item? first field.read with
    | some set => itemsOf false rest (set record)
    | none => if field.optional then itemsOf first rest record else shape

/-- The entries of a record written as an object, up to the closing brace. -/
def entriesOf (first : Bool) : (fuel : Nat) → (seen : List String) → σ → Reader σ
  | 0, _, _ => malformed
  | fuel + 1, seen, record => do
    match ← peek with
    | some '\x7d' => do
      if !first then malformed
      take
      return record
    | some '"' => do
      take
      let key ← quoted false
      let known := fields.find? (·.name = key)
      if known.isSome && seen.contains key then shape
      let some ':' ← peek | malformed
      take
      let record ← match known with
        | some field => (· record) <$> field.read
        | none => do
          skip
          pure record
      match ← peek with
      | some ',' => do
        take
        entriesOf false fuel (key :: seen) record
      | some '\x7d' => do
        take
        return record
      | _ => malformed
    | _ => malformed

/-- A record built up from `blank`. -/
def record (blank : σ) : Reader σ := do
  match ← peek with
  | some '[' => do
    take
    itemsOf true fields blank
  | some '\x7b' => do
    take
    let text ← get
    entriesOf fields true (fuelFor text) [] blank
  | _ => otherShape

end Record

/-- The value of a required field. -/
def required {α : Type} : Option α → Reader α
  | some value => return value
  | none => shape

end DonationFlow.Json.Reader
