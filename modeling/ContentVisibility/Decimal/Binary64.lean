import ContentVisibility.Json.Number

/-!
# Floats of 64 bits

A float is an integer of at most 53 bits times a power of two. All arithmetic here is exact, on
natural numbers.

* `Binary64.nearest`: the float nearest to a decimal, the one with the even integer of two;
* `Binary64.shortest`: the fewest decimal digits that read back as the float, and of those the
  nearest to it;
* `Binary64.compactText`, `Binary64.positionalText`: the two written forms.
-/

namespace ContentVisibility.Decimal

/-- A float of 64 bits. -/
inductive Binary64 where
  /-- The integer `mantissa` times two to the power of `exponent`. -/
  | finite (negative : Bool) (mantissa : Nat) (exponent : Int)
  | infinite (negative : Bool)
  | nan
  deriving DecidableEq, Repr

namespace Binary64

/-! ## From a decimal to the nearest float -/

/-- The base to the power of `e`, or one where `e` is negative. -/
def pow (base : Nat) (e : Int) : Nat := Nat.pow base e.toNat

/-- The quotient rounded to the nearest integer, to the even one of two. -/
def roundedQuotient (n d : Nat) : Nat :=
  let q := n / d
  let r := n % d
  if 2 * r < d then q else if d < 2 * r then q + 1 else q + q % 2

/-- The float nearest to the positive fraction `n / d`. -/
def nearestFraction (negative : Bool) (n d : Nat) : Binary64 :=
  let k : Int := (n.log2 : Int) - d.log2
  let l := if d * pow 2 k ≤ n * pow 2 (-k) then k else k - 1
  let e := max (l - 52) (-1074)
  let m := roundedQuotient (n * pow 2 (-e)) (d * pow 2 e)
  let (m, e) := if m = Bits.count 53 then (Bits.count 52, e + 1) else (m, e)
  if 971 < e then .infinite negative else .finite negative m e

/-- The float nearest to `digits` times ten to the power of `e`. Beyond the powers that are told
apart, the answer is an infinity or a zero. -/
def nearest (negative : Bool) (digits : Nat) (e : Int) : Binary64 :=
  let size := (Nat.toDigits 10 digits).length + e
  if digits = 0 || size < -330 then .finite negative 0 (-1074)
  else if 330 < size then .infinite negative
  else nearestFraction negative (digits * pow 10 e) (pow 10 (-e))

/-- The float nearest to a number, unless that is an infinity. -/
def ofNumber (n : Json.Number) : Option Binary64 :=
  let power : Int := match n.exponent with
    | none => 0
    | some e =>
      let size : Int := Json.Digit.valueFrom 0 (e.first :: e.others)
      if e.negative then -size else size
  match nearest n.negative (Json.Digit.valueFrom n.whole n.fraction) (power - n.fraction.length) with
  | .infinite _ => none
  | f => some f

/-! ## The fewest digits that read back -/

/-- The power of ten below a positive fraction. -/
def powerBelow (n d : Nat) : Int :=
  let k : Int := ((Nat.toDigits 10 n).length : Int) - (Nat.toDigits 10 d).length
  if d * pow 10 k ≤ n * pow 10 (-k) then k else k - 1

/-- Of the two multiples of ten to the power of `s` next to the float, the nearest one that reads
back as the float, if one does. -/
def nearMultiple? (m : Nat) (e s : Int) : Option Nat :=
  let unit := pow 2 e * pow 10 (-s)
  let whole := pow 2 (-e) * pow 10 s
  let below := if m = Bits.count 52 && -1074 < e then 1 else 2
  let readsBack (c : Nat) : Bool :=
    if m % 2 = 0 then (4 * m - below) * unit ≤ 4 * c * whole && 4 * c * whole ≤ (4 * m + 2) * unit
    else (4 * m - below) * unit < 4 * c * whole && 4 * c * whole < (4 * m + 2) * unit
  let c := m * unit / whole
  let down := m * unit - c * whole
  let up := (c + 1) * whole - m * unit
  if readsBack c && (!readsBack (c + 1) || down < up || (down = up && c % 2 = 0)) then some c
  else if readsBack (c + 1) then some (c + 1)
  else none

/-- The fewest digits that read back as the positive float `m * 2 ^ e`, as a multiple of a power
of ten. -/
def shortest (m : Nat) (e : Int) : Nat × Int :=
  let p := powerBelow (m * pow 2 e) (pow 2 (-e))
  let tried := (List.range 17).findSome? fun (n : Nat) =>
    (nearMultiple? m e (p - (n : Int))).map fun c => (c, p - (n : Int))
  tried.getD (0, 0)

/-- The significant digits of the positive float `m * 2 ^ e`, and how many digits stand before the
point. -/
def significant (m : Nat) (e : Int) : List Char × Int :=
  let (c, s) := shortest m e
  let digits := Nat.toDigits 10 c
  let kept := (digits.reverse.dropWhile (· == '0')).reverse
  (kept, s + digits.length)

/-! ## Written forms -/

/-- The digits with a point behind the first `point` of them, and zeros where digits are missing. -/
def withPoint (digits : List Char) (point : Int) : List Char :=
  if point ≤ 0 then "0.".toList ++ List.replicate (-point).toNat '0' ++ digits
  else
    let n := point.toNat
    if digits.length ≤ n then digits ++ List.replicate (n - digits.length) '0'
    else digits.take n ++ '.' :: digits.drop n

def signChars (negative : Bool) : List Char := if negative then ['-'] else []

def positionalText : Binary64 → String
  | nan => "NaN"
  | infinite negative => String.ofList (signChars negative ++ "inf".toList)
  | finite negative m e =>
    let body :=
      if m = 0 then ['0']
      else
        let (digits, point) := significant m e
        withPoint digits point
    String.ofList (signChars negative ++ body)

/-- The form with a point or an exponent: an exponent is written from ten to the power of sixteen on
and below ten to the power of minus five. -/
def compactText : Binary64 → String
  | nan => "NaN"
  | infinite negative => String.ofList (signChars negative ++ "inf".toList)
  | finite negative m e =>
    let body :=
      if m = 0 then "0.0".toList
      else
        let (digits, point) := significant m e
        if -5 < point && point ≤ 16 then
          withPoint digits point ++ (if digits.length ≤ point then ".0".toList else [])
        else
          digits.take 1 ++ (if digits.length = 1 then [] else '.' :: digits.drop 1) ++
            ['e', if point ≤ 0 then '-' else '+'] ++ Nat.toDigits 10 (point - 1).natAbs
    String.ofList (signChars negative ++ body)

/-- Whether the float is a zero of either sign. -/
def isZero : Binary64 → Bool
  | finite _ m _ => m == 0
  | _ => false

end Binary64

end ContentVisibility.Decimal
