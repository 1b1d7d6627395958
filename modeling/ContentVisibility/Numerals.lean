/-!
# Integers of a given width and their digits

* `Bits.count`: how many values a number of bits can tell apart;
* `Bits.holdsUnsigned`, `Bits.holdsSigned`: which integers those are;
* `Text.hexDigit`, `Text.hexValue?`: a hexadecimal digit and its value; either letter case is read,
  lower case is written;
* `Text.hexWritten`, `Text.hexRead?`: a number as a fixed count of digits, and back.
-/

namespace ContentVisibility.Bits

/-- How many values `bits` bits can tell apart. -/
def count (bits : Nat) : Nat := Nat.pow 2 bits

theorem count_pos (bits : Nat) : 0 < count bits := Nat.pow_pos (by decide)

/-- Whether `bits` bits without a sign hold the integer. -/
def holdsUnsigned (bits : Nat) (i : Int) : Bool := decide (0 ≤ i) && decide (i < count bits)

/-- Whether `bits` bits hold the integer when one of them is for the sign. -/
def holdsSigned (bits : Nat) (i : Int) : Bool :=
  decide (-(count (bits - 1) : Int) ≤ i) && decide (i < count (bits - 1))

end ContentVisibility.Bits

namespace ContentVisibility.Text

/-- The digit of a value below sixteen, in lower case. -/
def hexDigit (value : Nat) : Char := Char.ofNat (if value < 10 then 48 + value else 87 + value)

/-- The value of a digit in either letter case. -/
def hexValue? (c : Char) : Option Nat :=
  let n := c.toNat
  if 48 ≤ n && n ≤ 57 then some (n - 48)
  else if 65 ≤ n && n ≤ 70 then some (n - 55)
  else if 97 ≤ n && n ≤ 102 then some (n - 87)
  else none

/-- The digits stand between `0` and `f`. -/
theorem toNat_of_hexValue? {c : Char} (h : (hexValue? c).isSome = true) :
    48 ≤ c.toNat ∧ c.toNat ≤ 102 := by
  simp only [hexValue?, Bool.and_eq_true, decide_eq_true_eq] at h
  split at h
  · omega
  · split at h
    · omega
    · split at h
      · omega
      · cases h

/-- The last `width` digits of a number, most significant first. -/
def hexWritten : Nat → Nat → List Char
  | 0, _ => []
  | width + 1, n => hexWritten width (n / 16) ++ [hexDigit (n % 16)]

/-- The number that the digits write, continuing the number `start`. -/
def hexReadFrom? (start : Nat) : List Char → Option Nat
  | [] => some start
  | c :: cs => do hexReadFrom? (16 * start + (← hexValue? c)) cs

/-- The number that the digits write, if all characters are digits. -/
def hexRead? (cs : List Char) : Option Nat := hexReadFrom? 0 cs

end ContentVisibility.Text
