import ContentVisibility.Numerals
import ContentVisibility.Toml.Value

/-!
# TOML scalars without quotes

Numbers, truth values, dates and times are runs of letters, digits and a few signs. A run is read as
a whole.

* `integer?`, `float?`, `datetime?`: what a run can be;
* `Value.ofRun?`: the value that a run writes.
-/

namespace ContentVisibility.Toml

open Decimal (Binary64)

/-! ## Digits -/

def isDigit (c : Char) : Bool := (Json.Digit.ofChar? c).isSome

/-- The digits without the underscores that stand between two of them. -/
def ungrouped? (isDigit : Char → Bool) : List Char → Option (List Char)
  | [] => none
  | [c] => if isDigit c then some [c] else none
  | c :: '_' :: cs => if isDigit c then (ungrouped? isDigit cs).map (c :: ·) else none
  | c :: cs => if isDigit c then (ungrouped? isDigit cs).map (c :: ·) else none

def numberTo (base : Nat) (cs : List Char) : Nat :=
  cs.foldl (fun n c => base * n + (Text.hexValue? c).getD 0) 0

/-- The sign of a number and what stands behind it. -/
def signed (cs : List Char) : Bool × List Char :=
  match cs with
  | '-' :: cs => (true, cs)
  | '+' :: cs => (false, cs)
  | cs => (false, cs)

/-- The decimal digits of the part before the point, in which no zero leads. -/
def wholeDigits? (cs : List Char) : Option (List Char) :=
  match ungrouped? isDigit cs with
  | some ['0'] => some ['0']
  | some ('0' :: _) => none
  | digits => digits

/-! ## Numbers -/

/-- Whether the character is a digit to the base. -/
def isDigitTo (base : Nat) (c : Char) : Bool := (Text.hexValue? c).any fun value => value < base

def integer? (cs : List Char) : Option Int :=
  let toBase (base : Nat) (cs : List Char) : Option Int :=
    (ungrouped? (isDigitTo base) cs).map fun digits => (numberTo base digits : Int)
  match cs with
  | '0' :: 'x' :: cs => toBase 16 cs
  | '0' :: 'o' :: cs => toBase 8 cs
  | '0' :: 'b' :: cs => toBase 2 cs
  | cs =>
    let (negative, cs) := signed cs
    (wholeDigits? cs).map fun digits =>
      let n : Int := numberTo 10 digits
      if negative then -n else n

/-- The exponent that a run writes behind its mark. -/
def exponent? (cs : List Char) : Option Int :=
  let (negative, cs) := signed cs
  (ungrouped? isDigit cs).map fun digits =>
    let n : Int := numberTo 10 digits
    if negative then -n else n

/-- The float that a run writes. A run without a point and an exponent is no float. -/
def float? (cs : List Char) : Option Value := do
  let (negative, cs) := signed cs
  if cs = "inf".toList then return .float (.infinite negative)
  if cs = "nan".toList then return .float .nan
  let isMark (c : Char) : Bool := c = 'e' || c = 'E'
  let mantissa := cs.takeWhile fun c => !isMark c
  let whole ← wholeDigits? (mantissa.takeWhile (· != '.'))
  let fraction ← match mantissa.dropWhile (· != '.') with
    | [] => some []
    | _ :: digits => ungrouped? isDigit digits
  let exponent ← match cs.dropWhile fun c => !isMark c with
    | [] => if fraction.isEmpty then none else some 0
    | _ :: cs => exponent? cs
  match Binary64.nearest negative (numberTo 10 (whole ++ fraction)) (exponent - fraction.length) with
  | .infinite negative => some (.huge negative)
  | f => some (.float f)

/-! ## Dates and times -/

/-- The number that two digits at the front write, and what stands behind them. -/
def twoDigits? : List Char → Option (Nat × List Char)
  | a :: b :: cs => if isDigit a && isDigit b then some (numberTo 10 [a, b], cs) else none
  | _ => none

def twoDigits (n : Nat) : List Char := [Char.ofNat (48 + n / 10 % 10), Char.ofNat (48 + n % 10)]

/-- How many days a month has. -/
def daysIn (year month : Nat) : Nat :=
  if month = 2 then
    if year % 4 = 0 && (year % 100 != 0 || year % 400 = 0) then 29 else 28
  else if month = 4 || month = 6 || month = 9 || month = 11 then 30
  else 31

/-- A date at the front, and what stands behind it. -/
def date? (cs : List Char) : Option (List Char × List Char) := do
  let (century, cs) ← twoDigits? cs
  let (rest, cs) ← twoDigits? cs
  let year := 100 * century + rest
  let '-' :: cs := cs | none
  let (month, cs) ← twoDigits? cs
  let '-' :: cs := cs | none
  let (day, cs) ← twoDigits? cs
  if 1 ≤ month && month ≤ 12 && 1 ≤ day && day ≤ daysIn year month then
    some (twoDigits century ++ twoDigits rest ++ '-' :: twoDigits month ++ '-' :: twoDigits day, cs)
  else none

/-- The digits of a fraction of a second: at most nine, without zeros at the end. -/
def fractionDigits (cs : List Char) : List Char :=
  let kept := ((cs.take 9).reverse.dropWhile (· == '0')).reverse
  if kept.isEmpty then ['0'] else kept

/-- The seconds of a time, which may be left out, and what stands behind them. -/
def seconds? (cs : List Char) : Option (List Char × List Char) :=
  match cs with
  | ':' :: cs => do
    let (second, cs) ← twoDigits? cs
    if 60 < second then none
    else
      match cs with
      | '.' :: cs =>
        let digits := cs.takeWhile isDigit
        if digits.isEmpty then none
        else some (':' :: twoDigits second ++ '.' :: fractionDigits digits, cs.dropWhile isDigit)
      | cs => some (':' :: twoDigits second, cs)
  | cs => some ([], cs)

/-- A time at the front, and what stands behind it. -/
def time? (cs : List Char) : Option (List Char × List Char) := do
  let (hour, cs) ← twoDigits? cs
  let ':' :: cs := cs | none
  let (minute, cs) ← twoDigits? cs
  let (seconds, cs) ← seconds? cs
  if hour ≤ 23 && minute ≤ 59 then some (twoDigits hour ++ ':' :: twoDigits minute ++ seconds, cs)
  else none

/-- The offset of a time, which may be left out. -/
def offset? (cs : List Char) : Option (List Char) :=
  match cs with
  | [] => some []
  | ['Z'] | ['z'] => some ['Z']
  | sign :: cs => do
    if sign != '+' && sign != '-' then none
    let (hour, cs) ← twoDigits? cs
    let ':' :: cs := cs | none
    let (minute, cs) ← twoDigits? cs
    let sign := if hour = 0 && minute = 0 then '+' else sign
    if hour ≤ 23 && minute ≤ 59 && cs.isEmpty then
      some (sign :: twoDigits hour ++ ':' :: twoDigits minute)
    else none

/-- The date, time or both that a run writes, in normal form. -/
def datetime? (cs : List Char) : Option (List Char) :=
  match date? cs with
  | some (date, []) => some date
  | some (date, mark :: cs) => do
    if mark != 'T' && mark != 't' && mark != ' ' then none
    let (time, cs) ← time? cs
    let offset ← offset? cs
    some (date ++ 'T' :: time ++ offset)
  | none =>
    match time? cs with
    | some (time, []) => some time
    | _ => none

/-! ## Runs -/

/-- Whether a run of a scalar can hold the character. -/
def isRunChar (c : Char) : Bool :=
  c.isAlphanum || c = '+' || c = '-' || c = '_' || c = '.' || c = ':'

/-- Whether the run is a date, behind which a blank and a time may follow. -/
def isDate (cs : List Char) : Bool := (date? cs).any fun (_, rest) => rest.isEmpty

def Value.ofRun? (cs : List Char) : Option Value :=
  if cs = "true".toList then some (.boolean true)
  else if cs = "false".toList then some (.boolean false)
  else
    match integer? cs, float? cs, datetime? cs with
    | some i, _, _ => some (.integer i)
    | none, some v, _ => some v
    | none, none, some text => some (.datetime (String.ofList text))
    | none, none, none => none

end ContentVisibility.Toml
