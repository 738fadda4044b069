/-!
# Keccak-256

The sponge with rate 136, capacity 64 and the one-bit domain padding, used for
the four-byte selectors of contract functions.
-/

namespace DonationFlow.Keccak

/-- Twenty-five 64-bit lanes; lane `x + 5 * y` stands in column `x`, row `y`. -/
abbrev Lanes := List UInt64

def lane (state : Lanes) (x y : Nat) : UInt64 := state.getD (x % 5 + 5 * (y % 5)) 0

/-- The state whose lane in column `x`, row `y` is `f x y`. -/
def tabulate (f : Nat → Nat → UInt64) : Lanes :=
  (List.range 25).map fun i => f (i % 5) (i / 5)

def rotateLeft (word : UInt64) (bits : Nat) : UInt64 :=
  if bits % 64 = 0 then word
  else (word <<< UInt64.ofNat (bits % 64)) ||| (word >>> UInt64.ofNat (64 - bits % 64))

/-- Rotation of each lane in the `ρ` step. -/
def offsets : List Nat :=
  [0, 1, 62, 28, 27, 36, 44, 6, 55, 20, 3, 10, 43, 25, 39, 41, 45, 15, 21, 8, 18, 2, 61, 56, 14]

/-- Constants of the `ι` step, one a round. -/
def roundConstants : List UInt64 :=
  [0x0000000000000001, 0x0000000000008082, 0x800000000000808A, 0x8000000080008000,
   0x000000000000808B, 0x0000000080000001, 0x8000000080008081, 0x8000000000008009,
   0x000000000000008A, 0x0000000000000088, 0x0000000080008009, 0x000000008000000A,
   0x000000008000808B, 0x800000000000008B, 0x8000000000008089, 0x8000000000008003,
   0x8000000000008002, 0x8000000000000080, 0x000000000000800A, 0x800000008000000A,
   0x8000000080008081, 0x8000000000008080, 0x0000000080000001, 0x8000000080008008]

def column (state : Lanes) (x : Nat) : UInt64 :=
  lane state x 0 ^^^ lane state x 1 ^^^ lane state x 2 ^^^ lane state x 3 ^^^ lane state x 4

def theta (state : Lanes) : Lanes :=
  let parity := (List.range 5).map (column state)
  tabulate fun x y =>
    lane state x y ^^^ parity.getD ((x + 4) % 5) 0 ^^^ rotateLeft (parity.getD ((x + 1) % 5) 0) 1

/-- The `ρ` and `π` steps: lane `(x, y)` is rotated and moves to `(y, 2x + 3y)`. -/
def rhoPi (state : Lanes) : Lanes :=
  tabulate fun x y =>
    let fromX := x + 3 * y
    rotateLeft (lane state fromX x) (offsets.getD (fromX % 5 + 5 * x) 0)

def chi (state : Lanes) : Lanes :=
  tabulate fun x y => lane state x y ^^^ (~~~(lane state (x + 1) y) &&& lane state (x + 2) y)

def iota (state : Lanes) (constant : UInt64) : Lanes :=
  match state with
  | first :: rest => (first ^^^ constant) :: rest
  | [] => []

def permute (state : Lanes) : Lanes :=
  roundConstants.foldl (fun state constant => iota (chi (rhoPi (theta state))) constant) state

def rate : Nat := 136

/-- The little-endian lane of up to eight bytes. -/
def laneOfBytes (bytes : List UInt8) : UInt64 :=
  bytes.foldr (fun byte word => (word <<< 8) ||| byte.toUInt64) 0

def absorb (state : Lanes) (block : List UInt8) : Lanes :=
  permute ((List.range 25).map fun i =>
    state.getD i 0 ^^^ laneOfBytes ((block.drop (8 * i)).take 8))

/-- The message filled up to a multiple of the rate. -/
def pad (message : List UInt8) : List UInt8 :=
  let missing := rate - message.length % rate
  if missing = 1 then message ++ [0x81]
  else message ++ [0x01] ++ List.replicate (missing - 2) 0 ++ [0x80]

/-- The blocks of a padded message. -/
def blocks (message : List UInt8) : List (List UInt8) :=
  (List.range (message.length / rate)).map fun i => (message.drop (rate * i)).take rate

def laneBytes (word : UInt64) : List UInt8 :=
  (List.range 8).map fun i => (word >>> UInt64.ofNat (8 * i)).toUInt8

/-- The 32-byte digest. -/
def digest (message : List UInt8) : List UInt8 :=
  let final := (blocks (pad message)).foldl absorb (List.replicate 25 0)
  ((final.take 4).flatMap laneBytes)

/-- The first four bytes of the digest of a function's signature. -/
def selector (signature : String) : List UInt8 :=
  (digest signature.toUTF8.toList).take 4

end DonationFlow.Keccak
