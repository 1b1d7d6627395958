import ContentVisibility.Json.Reader

/-!
# Passing over a value

A member that nothing asks for is passed over and not read: its strings may hold lone surrogates
and it may be nested to any depth, but its brackets, commas and quotes have to be in order.

* `skipValue`: pass over one value.
-/

namespace ContentVisibility.Json.Reader

/-! ## Scalars -/

/-- Pass over an escape, behind the backslash. -/
def skipEscape : Reader Unit := do
  match ← peek with
  | none => failHere .endInString
  | some 'u' => do skip; let _ ← fourHex
  | some c => if (letterEscape? c).isSome then skip else failAhead .invalidEscape

/-- Pass over a string up to its closing quote, in at most `steps` steps. -/
def skipStringSteps : Nat → Reader Unit
  | 0 => failHere .endInString
  | steps + 1 => do
    match ← peek with
    | none => failHere .endInString
    | some '"' => skip
    | some '\\' => do skip; skipEscape; skipStringSteps steps
    | some c =>
      if c.toNat < 0x20 then failHere .controlCharacter
      else do skip; skipStringSteps steps

/-- Pass over a string, behind its opening quote. -/
def skipString : Reader Unit := do skipStringSteps (← remaining)

/-- Take a character that is a digit, and say whether there was one. -/
def skipDigit : Reader Bool := do
  match (← peek).bind Digit.ofChar? with
  | some _ => do skip; pure true
  | none => pure false

/-- Pass over an exponent, if there is one. -/
def skipExponent : Reader Unit := do
  let c ← peek
  if c = some 'e' || c = some 'E' then do
    skip
    let _ ← exponentSign
    if ← skipDigit then let _ ← digitRun
    else failAhead .invalidNumber

/-- Pass over a fraction and an exponent, where there are any. -/
def skipFraction : Reader Unit := do
  if (← peek) = some '.' then do
    skip
    if ← skipDigit then let _ ← digitRun
    else failAhead .invalidNumber
  skipExponent

/-- Pass over a number, behind its minus sign. -/
def skipNumber : Reader Unit := do
  match (← peek).bind Digit.ofChar? with
  | none => failAhead .invalidNumber
  | some first => do
    skip
    if first.val = 0 then
      if ((← peek).bind Digit.ofChar?).isSome then failAhead .invalidNumber
    else
      let _ ← digitRun
    skipFraction

/-! ## Values -/

/-- A quote that opens the key of a member, and the key with the colon behind it. -/
def skipKey : Reader Unit := do
  match ← peekToken with
  | none => failHere .endInObject
  | some '"' => do
    skip
    skipString
    match ← peekToken with
    | none => failHere .endInObject
    | some ':' => skip
    | some _ => failAhead .expectedColon
  | some _ => failAhead .keyNotString

mutual

/-- Pass over a value, in at most `steps` steps. -/
def skipValueSteps : Nat → Reader Unit
  | 0 => failHere .endInValue
  | steps + 1 => do
    match ← peekToken with
    | none => failHere .endInValue
    | some 'n' => do skip; literalRest "ull".toList
    | some 't' => do skip; literalRest "rue".toList
    | some 'f' => do skip; literalRest "alse".toList
    | some '-' => do skip; skipNumber
    | some '"' => do skip; skipString
    | some '[' => do
      skip
      match ← peekToken with
      | none => failHere .endInList
      | some ']' => skip
      | some _ => do skipValueSteps steps; skipItems steps
    | some '{' => do
      skip
      match ← peekToken with
      | none => failHere .endInObject
      | some '}' => skip
      | some _ => do skipKey; skipValueSteps steps; skipMembers steps
    | some c => if (Digit.ofChar? c).isSome then skipNumber else failAhead .expectedValue

/-- Pass over the items behind the first one and the closing bracket. -/
def skipItems : Nat → Reader Unit
  | 0 => failHere .endInList
  | steps + 1 => do
    match ← peekToken with
    | none => failHere .endInList
    | some ']' => skip
    | some ',' => do skip; skipValueSteps steps; skipItems steps
    | some _ => failAhead .expectedCommaOrBracket

/-- Pass over the members behind the first one and the closing brace. -/
def skipMembers : Nat → Reader Unit
  | 0 => failHere .endInObject
  | steps + 1 => do
    match ← peekToken with
    | none => failHere .endInObject
    | some '}' => skip
    | some ',' => do skip; skipKey; skipValueSteps steps; skipMembers steps
    | some _ => failAhead .expectedCommaOrBrace

end

/-- Pass over a value. -/
def skipValue : Reader Unit := do skipValueSteps (← remaining)

end ContentVisibility.Json.Reader
