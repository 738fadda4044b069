import DonationFlow.Error

/-!
# JSON values

Values and their compact text.  A number is an integer of at most 64 bits or a
decimal kept in its written form.
-/

namespace DonationFlow

inductive Json where
  | null
  | bool (value : Bool)
  | int (value : Int)
  /-- A number with a fraction, an exponent or too many digits, as text. -/
  | decimal (text : String)
  | str (text : String)
  | arr (items : List Json)
  | obj (entries : List (String × Json))
  deriving Repr

namespace Json

instance : Inhabited Json := ⟨null⟩

def nat (n : Nat) : Json := .int n

def ofOption {α : Type} (encode : α → Json) : Option α → Json
  | some value => encode value
  | none => null

def lookUp? (key : String) : Json → Option Json
  | obj entries => (entries.find? (·.1 = key)).map (·.2)
  | _ => none

def text? : Json → Option String
  | str text => some text
  | _ => none

/-- A character inside a quoted text. -/
def escape (c : Char) : List Char :=
  if c = '"' then ['\\', '"']
  else if c = '\\' then ['\\', '\\']
  else if c = '\n' then ['\\', 'n']
  else if c = '\r' then ['\\', 'r']
  else if c = '\t' then ['\\', 't']
  else if c.toNat = 8 then ['\\', 'b']
  else if c.toNat = 12 then ['\\', 'f']
  else if c.toNat < 32 then '\\' :: 'u' :: Text.hexPadded 4 c.toNat
  else [c]

def quote (text : String) : List Char := '"' :: text.toList.flatMap escape ++ ['"']

mutual

def chars : Json → List Char
  | null => "null".toList
  | bool true => "true".toList
  | bool false => "false".toList
  | int value => (signedDecimal value).toList
  | decimal text => text.toList
  | str text => quote text
  | arr items => '[' :: itemChars true items ++ [']']
  | obj entries => '\x7b' :: entryChars true entries ++ ['\x7d']

def itemChars (first : Bool) : List Json → List Char
  | [] => []
  | item :: items => (if first then [] else [',']) ++ chars item ++ itemChars false items

def entryChars (first : Bool) : List (String × Json) → List Char
  | [] => []
  | (key, value) :: entries =>
    (if first then [] else [',']) ++ quote key ++ ':' :: chars value ++ entryChars false entries

end

/-- The text without blanks. -/
def render (value : Json) : String := String.ofList value.chars

end Json

end DonationFlow
