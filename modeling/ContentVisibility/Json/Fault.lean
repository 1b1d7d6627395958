import ContentVisibility.Identifier.Spelling
import ContentVisibility.Text.Basic

/-!
# What can be wrong with JSON text

* `Problem`: the text is JSON but not of the shape that was asked for;
* `SyntaxFault`: the text is not JSON;
* `Fault`: one of the two, with the place it was met at, if that is known;
* `Fault.message`: the wording.
-/

namespace ContentVisibility.Json

/-! ## Positions -/

/-- A place in a text: the line, counted from one, and the bytes already taken from that line. -/
structure Position where
  line : Nat
  column : Nat
  deriving DecidableEq, Repr

namespace Position

def start : Position := ⟨1, 0⟩

def behind (p : Position) (c : Char) : Position :=
  if c = '\n' then ⟨p.line + 1, 0⟩ else ⟨p.line, p.column + c.utf8Size⟩

/-- The place behind the first byte of a character. -/
def behindByte (p : Position) (c : Char) : Position :=
  if c = '\n' then ⟨p.line + 1, 0⟩ else ⟨p.line, p.column + 1⟩

end Position

/-! ## A shape that was not asked for -/

/-- What was met where something else was asked for. -/
inductive Found where
  | null
  | bool (value : Bool)
  | integer (value : Int)
  /-- An integer beyond 64 bits that a word of 128 bits holds. -/
  | wideInteger (value : Int)
  /-- A number that a word of 64 bits writes the same way. -/
  | float (shown : String)
  /-- A number met before its value was looked at. -/
  | number
  | string (value : String)
  | sequence
  | map
  deriving DecidableEq, Repr

def Found.message : Found → String
  | .null => "null"
  | .bool value => s!"boolean `{value}`"
  | .integer value => s!"integer `{value}`"
  | .wideInteger value =>
    let width := if value < 0 then "i128" else "u128"
    s!"integer `{value}` as {width}"
  | .float shown => s!"floating point `{shown}`"
  | .number => "number"
  | .string value => s!"string {Text.quoted value}"
  | .sequence => "sequence"
  | .map => "map"

/-- The choices of a token, in words. -/
def oneOf : List String → String
  | [] => "there are no variants"
  | [a] => s!"expected `{a}`"
  | [a, b] => s!"expected `{a}` or `{b}`"
  | choices => "expected one of " ++ ", ".intercalate (choices.map fun choice => s!"`{choice}`")

/-- JSON that is not of the shape that was asked for. -/
inductive Problem where
  | wrongType (found : Found) (expected : String)
  /-- An object that stands for a token and has not exactly one member. -/
  | notSingleKey
  | missingField (name : String)
  | duplicateField (name : String)
  | unknownToken (name : String) (choices : List String)
  | wrongLength (length : Nat) (expected : String)
  | misspelledId (fault : Identifier.Misspelling)
  deriving DecidableEq, Repr

def Problem.message : Problem → String
  | .wrongType found expected => s!"invalid type: {found.message}, expected {expected}"
  | .notSingleKey => "invalid value: map, expected map with a single key"
  | .missingField name => s!"missing field `{name}`"
  | .duplicateField name => s!"duplicate field `{name}`"
  | .unknownToken name choices => s!"unknown variant `{name}`, {oneOf choices}"
  | .wrongLength length expected => s!"invalid length {length}, expected {expected}"
  | .misspelledId fault => s!"UUID parsing failed: {fault.message}"

/-! ## Text that is not JSON -/

/-- Where the grammar of JSON is broken. -/
inductive SyntaxFault where
  | endInList
  | endInObject
  | endInString
  | endInValue
  | expectedColon
  | expectedCommaOrBracket
  | expectedCommaOrBrace
  | expectedLiteral
  | expectedValue
  | invalidEscape
  | invalidNumber
  | controlCharacter
  | keyNotString
  | loneSurrogate
  | trailingComma
  | trailingCharacters
  | unfinishedPair
  | tooDeep
  deriving DecidableEq, Repr

def SyntaxFault.message : SyntaxFault → String
  | .endInList => "EOF while parsing a list"
  | .endInObject => "EOF while parsing an object"
  | .endInString => "EOF while parsing a string"
  | .endInValue => "EOF while parsing a value"
  | .expectedColon => "expected `:`"
  | .expectedCommaOrBracket => "expected `,` or `]`"
  | .expectedCommaOrBrace => "expected `,` or `\x7d`"
  | .expectedLiteral => "expected ident"
  | .expectedValue => "expected value"
  | .invalidEscape => "invalid escape"
  | .invalidNumber => "invalid number"
  | .controlCharacter => "control character (\\u0000-\\u001F) found while parsing a string"
  | .keyNotString => "key must be a string"
  | .loneSurrogate => "lone leading surrogate in hex escape"
  | .trailingComma => "trailing comma"
  | .trailingCharacters => "trailing characters"
  | .unfinishedPair => "unexpected end of hex escape"
  | .tooDeep => "recursion limit exceeded"

/-! ## Faults -/

/-- Why a text was refused. -/
inductive Cause where
  | grammar (fault : SyntaxFault)
  | shape (problem : Problem)
  /-- A decoder of the host gives a reason of its own. -/
  | worded (reason : String)
  deriving DecidableEq, Repr

/-- Why a text was refused, and where. Content that was held back has no place any more. -/
structure Fault where
  cause : Cause
  position : Option Position
  deriving DecidableEq, Repr

def Fault.message (f : Fault) : String :=
  let text := match f.cause with
    | .grammar fault => fault.message
    | .shape problem => problem.message
    | .worded reason => reason
  match f.position with
  | some p => s!"{text} at line {p.line} column {p.column}"
  | none => text

end ContentVisibility.Json
