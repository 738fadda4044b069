/-!
# Machine words

An amount on a chain is a natural number below `2 ^ 256`.  The operations that
may leave that range say so: they answer `none`, stop at the bound, or are
named for the wrap.
-/

namespace DonationFlow

/-- The number of words. -/
def wordLimit : Nat := Nat.pow 2 256

theorem wordLimit_pos : 0 < wordLimit := by decide

/-- A 256-bit unsigned word. -/
@[ext] structure Word where
  toNat : Nat
  toNat_lt : toNat < wordLimit
  deriving DecidableEq

namespace Word

instance : Repr Word := ⟨fun word _ => repr word.toNat⟩

/-- The word of value `n`, if `n` is in range. -/
def ofNat? (n : Nat) : Option Word :=
  if h : n < wordLimit then some ⟨n, h⟩ else none

/-- The word of value `n` modulo `wordLimit`. -/
def wrap (n : Nat) : Word :=
  ⟨n % wordLimit, Nat.mod_lt n (by decide)⟩

/-- The word nearest to `n` from below. -/
def clamp (n : Nat) : Word :=
  ⟨min n (wordLimit - 1), by have := wordLimit_pos; omega⟩

def zero : Word := ⟨0, by decide⟩

/-- The greatest word. -/
def top : Word := ⟨wordLimit - 1, by decide⟩

instance : Inhabited Word := ⟨zero⟩

def isZero (word : Word) : Bool := word.toNat == 0

instance : LT Word := ⟨fun left right => left.toNat < right.toNat⟩

instance (left right : Word) : Decidable (left < right) :=
  inferInstanceAs (Decidable (left.toNat < right.toNat))

/-- The sum, if it is in range. -/
def add? (left right : Word) : Option Word := ofNat? (left.toNat + right.toNat)

/-- The product, if it is in range. -/
def mul? (left right : Word) : Option Word := ofNat? (left.toNat * right.toNat)

/-- The difference, zero when `right` is the greater. -/
def monus (left right : Word) : Word :=
  ⟨left.toNat - right.toNat, Nat.lt_of_le_of_lt (Nat.sub_le _ _) left.toNat_lt⟩

/-- The whole quotient. -/
def quot (left right : Word) : Word :=
  ⟨left.toNat / right.toNat, Nat.lt_of_le_of_lt (Nat.div_le_self _ _) left.toNat_lt⟩

theorem ofNat?_eq_some_iff {n : Nat} {word : Word} :
    ofNat? n = some word ↔ word.toNat = n := by
  unfold ofNat?
  split
  · rename_i h
    simp only [Option.some.injEq, Word.ext_iff]
    exact eq_comm
  · rename_i h
    simp only [reduceCtorEq, false_iff]
    intro heq
    exact h (heq ▸ word.toNat_lt)

theorem ofNat?_eq_none_iff {n : Nat} : ofNat? n = none ↔ wordLimit ≤ n := by
  unfold ofNat?
  split <;> simp <;> omega

@[simp] theorem toNat_zero : zero.toNat = 0 := rfl

@[simp] theorem toNat_monus (left right : Word) :
    (left.monus right).toNat = left.toNat - right.toNat := rfl

theorem isZero_iff {word : Word} : word.isZero = true ↔ word.toNat = 0 := by
  simp [isZero]

theorem add?_eq_some_iff {left right sum : Word} :
    left.add? right = some sum ↔ sum.toNat = left.toNat + right.toNat :=
  ofNat?_eq_some_iff

theorem add?_eq_none_iff {left right : Word} :
    left.add? right = none ↔ wordLimit ≤ left.toNat + right.toNat :=
  ofNat?_eq_none_iff

theorem mul?_eq_some_iff {left right product : Word} :
    left.mul? right = some product ↔ product.toNat = left.toNat * right.toNat :=
  ofNat?_eq_some_iff

theorem mul?_eq_none_iff {left right : Word} :
    left.mul? right = none ↔ wordLimit ≤ left.toNat * right.toNat :=
  ofNat?_eq_none_iff

end Word

end DonationFlow
