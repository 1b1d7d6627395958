import ContentVisibility.Settings.Layer

/-!
# Settings from the environment

A variable of the environment whose name starts with a prefix is a setting; two underscores in the
rest of the name lead from a table to an entry, and letter case does not matter.

* `Environment.layer`: the layer of the environment.
-/

namespace ContentVisibility

/-- The variables of the environment, with their values. -/
abbrev Environment := List (String × String)

namespace Environment

/-! ## Values -/

/-- The integer of 64 bits that a text writes; zeros may lead. -/
def integer? (s : String) : Option Int :=
  let (negative, digits) := Toml.signed s.toList
  if digits.isEmpty || !digits.all Toml.isDigit then none
  else
    let n : Int := Toml.numberTo 10 digits
    let i := if negative then -n else n
    if Bits.holdsSigned 64 i then some i else none

/-- The exponent behind its mark. -/
def exponent? (cs : List Char) : Option Int :=
  let (negative, digits) := Toml.signed cs
  if digits.isEmpty || !digits.all Toml.isDigit then none
  else
    let n : Int := Toml.numberTo 10 digits
    some (if negative then -n else n)

/-- The float that a text writes. There need be digits on one side of the point only. -/
def float? (s : String) : Option Decimal.Binary64 := do
  let (negative, cs) := Toml.signed s.toList
  let word := String.ofList (cs.map Char.toLower)
  if word = "inf" || word = "infinity" then return .infinite negative
  if word = "nan" then return .nan
  let isMark (c : Char) : Bool := c = 'e' || c = 'E'
  let mantissa := cs.takeWhile fun c => !isMark c
  let whole := mantissa.takeWhile (· != '.')
  let fraction := (mantissa.dropWhile (· != '.')).drop 1
  if !(whole ++ fraction).all Toml.isDigit || (whole ++ fraction).isEmpty then none
  let exponent ← match cs.dropWhile fun c => !isMark c with
    | [] => some 0
    | _ :: cs => exponent? cs
  return .nearest negative (Toml.numberTo 10 (whole ++ fraction)) (exponent - fraction.length)

/-- What the value of a variable stands for: a truth value, a number or a text. -/
def valueTree (s : String) : Tree :=
  let word := String.ofList (Text.lower s)
  if word = "true" then .flag true
  else if word = "false" then .flag false
  else
    match integer? s, float? s with
    | some i, _ => .integer i
    | none, some f => .float f
    | none, none => .text s

/-! ## Names -/

/-- The characters with a dot for each pair of underscores. -/
def dotted : List Char → List Char
  | '_' :: '_' :: cs => '.' :: dotted cs
  | c :: cs => c :: dotted cs
  | [] => []

/-- The name of the setting that a variable gives, if its name starts with the prefix and an
underscore. -/
def settingName? (leading name : String) : Option String :=
  let start := Text.lower (leading ++ "_")
  let cs := Text.lower name
  if start.isPrefixOf cs then some (String.ofList (dotted (cs.drop start.length))) else none

def layer (leading : String) (environment : Environment) : List (String × Tree) :=
  environment.filterMap fun (name, value) =>
    (settingName? leading name).map fun setting => (setting, valueTree value)

end Environment

end ContentVisibility
