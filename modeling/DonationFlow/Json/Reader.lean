import DonationFlow.Json.Number

/-!
# Reading JSON

A reader goes through the text once and stops at the first fault.  A text that
is no JSON is told from JSON of another shape than the one asked for.  What is
left of the text is known after a fault too: it begins behind the character
that could not be read.
-/

namespace DonationFlow.Json

inductive Fault where
  /-- The text is not JSON. -/
  | malformed
  /-- It is, so far, but not of the shape asked for. -/
  | shape
  deriving DecidableEq, Repr

/-- A reader of the text that is left, with or without a fault. -/
abbrev Reader (α : Type) := EStateM Fault (List Char) α

namespace Reader

def isBlank (c : Char) : Bool := c = ' ' || c = '\n' || c = '\r' || c = '\t'

/-- Skips blanks and shows the next character without taking it. -/
def peek : Reader (Option Char) := fun text =>
  let rest := text.dropWhile isBlank
  .ok rest.head? rest

/-- Takes one character. -/
def take : Reader Unit := modify List.tail

def malformed {α : Type} : Reader α := throw .malformed

def shape {α : Type} : Reader α := throw .shape

/-- What follows this many bytes; a character that they cut through stays. -/
def afterBytes : Nat → List Char → List Char
  | _, [] => []
  | count, c :: rest =>
    if c.utf8Size ≤ count then afterBytes (count - c.utf8Size) rest else c :: rest

/-- The next byte cannot be read. -/
def stray {α : Type} : Reader α := fun text => .error .malformed (afterBytes 1 text)

/-- Takes the character if it comes next. -/
def optional (c : Char) : Reader Bool := fun text =>
  match text with
  | d :: rest => if c = d then .ok true rest else .ok false text
  | [] => .ok false text

/-- Takes exactly these characters. -/
def expect : List Char → Reader Unit
  | [] => pure ()
  | c :: word => do
    if ← optional c then expect word else stray

/-- The digits that come next. -/
def digits : Reader (List Char) := fun text =>
  .ok (text.takeWhile Char.isDigit) (text.dropWhile Char.isDigit)

/-- The digits of a whole number; a zero is not followed by further digits. -/
def wholeDigits : Reader (List Char) := do
  if ← optional '0' then
    if ((← get).head?.map Char.isDigit) = some true then malformed else return ['0']
  else
    let taken ← digits
    if taken.isEmpty then stray else return taken

/-- The digits behind a point. -/
def fractionDigits : Reader (List Char) := do
  let taken ← digits
  if taken.isEmpty then malformed else return taken

/-- Reads on in a number that starts with `value`.  It stops at the digit that
brings the number beyond 31 bits. -/
def boundedDigits (value : Nat) : Reader Nat
  | [] => .ok value []
  | c :: rest =>
    match Text.digit? 10 c with
    | none => .ok value (c :: rest)
    | some digit =>
      let next := 10 * value + digit
      if next < Nat.pow 2 31 then boundedDigits next rest else malformed rest

/-- The sign and digits of an exponent, which is bounded where it would make
the number too large. -/
def exponent (bounded : Bool) : Reader Int := do
  let minus ← optional '-'
  let _ ← if minus then pure false else optional '+'
  if ((← get).head?.map Char.isDigit) ≠ some true then stray
  if bounded && !minus then return ← boundedDigits 0
  let size : Int := (Text.value? 10 (← digits)).getD 0
  return if minus then -size else size

/-- A number as written.  Only one that is kept may be too large. -/
def literal (passedOver : Bool) : Reader Literal := do
  let negative ← optional '-'
  let whole ← wholeDigits
  let fraction ← if ← optional '.' then some <$> fractionDigits else pure none
  let isZero := (whole ++ fraction.getD []).all (· = '0')
  let small ← optional 'e'
  let marked ← if small then pure true else optional 'E'
  let exponent ← if marked then some <$> exponent (!passedOver && !isZero) else pure none
  return { negative, whole, fraction, exponent }

def unescaped? : Char → Option Char
  | '"' => some '"'
  | '\\' => some '\\'
  | '/' => some '/'
  | 'b' => some '\x08'
  | 'f' => some '\x0c'
  | 'n' => some '\n'
  | 'r' => some '\r'
  | 't' => some '\t'
  | _ => none

def isHigh (n : Nat) : Bool := 0xD800 ≤ n && n < 0xDC00

def isLow (n : Nat) : Bool := 0xDC00 ≤ n && n < 0xE000

/-- The character that the halves of a surrogate pair stand for. -/
def paired (high low : Nat) : Char :=
  Char.ofNat (0x10000 + (high - 0xD800) * 0x400 + (low - 0xDC00))

/-- The character in front of those read after it. -/
def inFront (c : Char) :
    EStateM.Result Fault (List Char) (List Char) → EStateM.Result Fault (List Char) (List Char)
  | .ok read rest => .ok (c :: read) rest
  | .error fault rest => .error fault rest

/-- The characters up to the closing quote.  A character beyond 16 bits may be
given by the halves of its surrogate pair, of which none may stand alone.  Four
bytes are taken for the digits of a code unit, whatever they are. -/
def characters : Reader (List Char)
  | [] => malformed []
  | '"' :: rest => .ok [] rest
  | '\\' :: 'u' :: a :: b :: c :: d :: rest =>
    match Text.value? 16 [a, b, c, d] with
    | none => malformed (afterBytes 4 (a :: b :: c :: d :: rest))
    | some unit =>
      if isLow unit then malformed rest
      else if isHigh unit then
        match rest with
        | '\\' :: 'u' :: a :: b :: c :: d :: rest =>
          match Text.value? 16 [a, b, c, d] with
          | none => malformed (afterBytes 4 (a :: b :: c :: d :: rest))
          | some low =>
            if isLow low then inFront (paired unit low) (characters rest) else malformed rest
        | '\\' :: 'u' :: rest => malformed (afterBytes 4 rest)
        | '\\' :: rest => stray rest
        | rest => stray rest
      else inFront (Char.ofNat unit) (characters rest)
  | '\\' :: 'u' :: rest => malformed (afterBytes 4 rest)
  | '\\' :: c :: rest =>
    match unescaped? c with
    | none => stray (c :: rest)
    | some plain => inFront plain (characters rest)
  | c :: rest => if c.toNat < 32 then malformed rest else inFront c (characters rest)

/-- Passes over a quoted text up to its closing quote; halves of surrogate
pairs may stand alone in it. -/
def passQuoted : Reader Unit
  | [] => malformed []
  | '"' :: rest => .ok () rest
  | '\\' :: 'u' :: a :: b :: c :: d :: rest =>
    if (Text.value? 16 [a, b, c, d]).isSome then passQuoted rest else malformed rest
  | '\\' :: c :: rest =>
    if (unescaped? c).isSome then passQuoted rest else malformed rest
  | c :: rest => if c.toNat < 32 then malformed rest else passQuoted rest

/-- The text whose opening quote was taken; nothing is kept of one that is
passed over. -/
def quoted (passedOver : Bool) : Reader String := do
  if passedOver then
    passQuoted
    return ""
  else return String.ofList (← characters)

/-- The value put under the key, in place of an earlier one, keys ascending. -/
def insertSorted (key : String) (value : Json) : List (String × Json) → List (String × Json)
  | [] => [(key, value)]
  | (other, kept) :: rest =>
    if key = other then (key, value) :: rest
    else if key < other then (key, value) :: (other, kept) :: rest
    else (other, kept) :: insertSorted key value rest

def number (passedOver : Bool) : Reader Json := do
  match (← literal passedOver).value? with
  | some value => return value
  | none => if passedOver then return .null else malformed

mutual

/-- A value of any shape.  A value that is only passed over may nest without
limit; `depth` is ignored for it. -/
def value (passedOver : Bool) : (fuel depth : Nat) → Reader Json
  | 0, _ => malformed
  | fuel + 1, depth => do
    match ← peek with
    | some 'n' => do
      expect "null".toList
      return .null
    | some 't' => do
      expect "true".toList
      return .bool true
    | some 'f' => do
      expect "false".toList
      return .bool false
    | some '"' => do
      take
      return .str (← quoted passedOver)
    | some '[' => do
      take
      if depth = 0 && !passedOver then malformed
      return .arr (← items passedOver true fuel (depth - 1))
    | some '\x7b' => do
      take
      if depth = 0 && !passedOver then malformed
      return .obj (← entries passedOver true fuel (depth - 1) [])
    | some _ => number passedOver
    | none => malformed

/-- The items up to the closing bracket. -/
def items (passedOver first : Bool) : (fuel depth : Nat) → Reader (List Json)
  | 0, _ => malformed
  | fuel + 1, depth => do
    match ← peek with
    | some ']' => do
      if !first then malformed
      take
      return []
    | some _ => do
      let item ← value passedOver fuel depth
      match ← peek with
      | some ',' => do
        take
        return item :: (← items passedOver false fuel depth)
      | some ']' => do
        take
        return [item]
      | _ => malformed
    | none => malformed

/-- The entries up to the closing brace. -/
def entries (passedOver first : Bool) :
    (fuel depth : Nat) → List (String × Json) → Reader (List (String × Json))
  | 0, _, _ => malformed
  | fuel + 1, depth, read => do
    match ← peek with
    | some '\x7d' => do
      if !first then malformed
      take
      return read
    | some '"' => do
      take
      let key ← quoted passedOver
      let some ':' ← peek | malformed
      take
      let read := insertSorted key (← value passedOver fuel depth) read
      match ← peek with
      | some ',' => do
        take
        entries passedOver false fuel depth read
      | some '\x7d' => do
        take
        return read
      | _ => malformed
    | _ => malformed

end

/-- Every step of reading takes a character or ends a nesting. -/
def fuelFor (text : List Char) : Nat := 2 * text.length + 2

/-- A value nested at most `depth` deep. -/
def any (depth : Nat) : Reader Json := fun text => value false (fuelFor text) depth text

/-- Passes over a value. -/
def skip : Reader Unit := do
  let text ← get
  let _ ← value true (fuelFor text) 0

/-- What comes of a reader, and nothing where it fails; it goes on from there. -/
def attempt {α : Type} (reader : Reader α) : Reader (Option α) := fun text =>
  match reader text with
  | .ok value rest => .ok (some value) rest
  | .error _ rest => .ok none rest

/-- Reads a whole text, with nothing but blanks after the value. -/
def whole {α : Type} (reader : Reader α) (text : String) : Except Fault α :=
  match reader text.toList with
  | .ok value rest => if rest.all isBlank then .ok value else .error .malformed
  | .error fault _ => .error fault

/-- Reads the start of a text. -/
def leading {α : Type} (reader : Reader α) (text : String) : Except Fault α :=
  match reader text.toList with
  | .ok value _ => .ok value
  | .error fault _ => .error fault

end Reader

end DonationFlow.Json
