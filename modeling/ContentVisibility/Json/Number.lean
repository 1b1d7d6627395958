import ContentVisibility.Numerals

/-!
# Numbers as written

A number is kept as it is written: no digit of it is lost, whatever its size. Only the exponent has
one written form, with the letter `e` and a sign.

* `Number`: the parts of a written number;
* `Number.text`: the written form;
* `Number.integer?`: the value of a number that is written as an integer;
* `Number.word?`: the same for integers of 64 bits.
-/

namespace ContentVisibility.Json

abbrev Digit := Fin 10

def Digit.char (d : Digit) : Char := Char.ofNat (48 + d.val)

def Digit.ofChar? (c : Char) : Option Digit :=
  if h : 48 ≤ c.toNat ∧ c.toNat < 58 then some ⟨c.toNat - 48, by omega⟩ else none

/-- The number that digits write, continuing the number `start`. -/
def Digit.valueFrom (start : Nat) (ds : List Digit) : Nat :=
  ds.foldl (fun n d => 10 * n + d.val) start

/-- An exponent: its sign and its digits, of which there is at least one. -/
structure Exponent where
  negative : Bool
  first : Digit
  others : List Digit
  deriving DecidableEq, Repr

/-- A number as it is written. -/
structure Number where
  /-- Whether a minus sign stands before the number. -/
  negative : Bool
  /-- The part before the point. -/
  whole : Nat
  /-- The digits after the point; without any there is no point. -/
  fraction : List Digit
  exponent : Option Exponent
  deriving DecidableEq, Repr

def Exponent.chars (e : Exponent) : List Char :=
  ['e', if e.negative then '-' else '+'] ++ (e.first :: e.others).map Digit.char

namespace Number

/-- The written form, as characters. -/
def chars (n : Number) : List Char :=
  (if n.negative then ['-'] else []) ++ Nat.toDigits 10 n.whole ++
    (if n.fraction.isEmpty then [] else '.' :: n.fraction.map Digit.char) ++
    (n.exponent.map Exponent.chars).getD []

def text (n : Number) : String := String.ofList n.chars

def ofInt (i : Int) : Number := ⟨decide (i < 0), i.natAbs, [], none⟩

/-- The value of a number that has neither a point nor an exponent. -/
def integer? (n : Number) : Option Int :=
  if n.fraction.isEmpty && n.exponent.isNone then
    some (if n.negative then -(n.whole : Int) else n.whole)
  else none

/-- The value of a number that is written as an integer of 64 bits: unsigned without a minus sign,
signed and not zero with one. -/
def word? (n : Number) : Option Int :=
  n.integer?.filter fun i =>
    if n.negative then Bits.holdsSigned 64 i && i != 0 else Bits.holdsUnsigned 64 i

end Number

end ContentVisibility.Json
