import ContentVisibility.Json.Reader

/-!
# Scalars at the front of a text

* `number`: a number;
* `mismatch`: the refusal of a value of another kind than expected;
* `string`, `bool`, `null`: scalars of one kind.
-/

namespace ContentVisibility.Json.Reader

/-- A number, at its first character; `stray` is what becomes of another character where a digit has
to be. -/
def numberOr (stray : Reader Digit) : Reader Number := do
  match ← peek with
  | some '-' => do skip; numberRest stray true
  | _ => numberRest stray false

/-- A number, at its first character. -/
def number : Reader Number := numberOr (failAhead .invalidNumber)

def numberFound (n : Number) : Found :=
  match n.word? with
  | some i => .integer i
  | none => .number

/-- Refuse the value at hand, which is of another kind than expected. A scalar is read first, so
that the message can show it and the place is behind it. -/
def mismatch (expected : String) : Reader α := do
  match ← peekToken with
  | none => failHere .endInValue
  | some 'n' => do skip; literalRest "ull".toList; reject (.wrongType .null expected)
  | some 't' => do skip; literalRest "rue".toList; reject (.wrongType (.bool true) expected)
  | some 'f' => do skip; literalRest "alse".toList; reject (.wrongType (.bool false) expected)
  | some '"' => do
    skip
    let s ← stringRest
    reject (.wrongType (.string s) expected)
  | some '[' => reject (.wrongType .sequence expected)
  | some '{' => reject (.wrongType .map expected)
  | some c =>
    if c = '-' || (Digit.ofChar? c).isSome then do
      let n ← number
      reject (.wrongType (numberFound n) expected)
    else failAhead .expectedValue

def string (expected : String) : Reader String := do
  match ← peekToken with
  | some '"' => do skip; stringRest
  | _ => mismatch expected

def bool : Reader Bool := do
  match ← peekToken with
  | some 't' => do skip; literalRest "rue".toList; pure true
  | some 'f' => do skip; literalRest "alse".toList; pure false
  | _ => mismatch "a boolean"

def null (expected : String) : Reader Unit := do
  match ← peekToken with
  | some 'n' => do skip; literalRest "ull".toList
  | _ => mismatch expected

end ContentVisibility.Json.Reader
