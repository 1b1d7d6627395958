import ContentVisibility.Json.Fault
import ContentVisibility.Json.Number

/-!
# Reading text from left to right

A reader takes characters from the front of what is left of a text and keeps count of where it is.

* `Cursor`: what is left of the text, and the place reached;
* `Reader`: reads a value at a cursor, or refuses with a fault;
* `literalRest`, `stringRest`, `numberRest`: the scalars of JSON behind their first character.
-/

namespace ContentVisibility.Json

/-- What is left of a text, and the place reached. -/
structure Cursor where
  rest : List Char
  position : Position
  /-- How many characters are left. -/
  left : Nat
  left_eq : left = rest.length
  deriving DecidableEq, Repr

namespace Cursor

def ofText (s : String) : Cursor := ⟨s.toList, .start, s.toList.length, rfl⟩

def next (cur : Cursor) : Cursor where
  rest := cur.rest.tail
  position := cur.rest.head?.elim cur.position cur.position.behind
  left := cur.left - 1
  left_eq := by simp [cur.left_eq]

/-- The place behind the first byte of the next character, or the place reached at the end. -/
def ahead (cur : Cursor) : Position := cur.rest.head?.elim cur.position cur.position.behindByte

def nextN (cur : Cursor) (n : Nat) : Cursor where
  rest := cur.rest.drop n
  position := (cur.rest.take n).foldl Position.behind cur.position
  left := cur.left - n
  left_eq := by simp [cur.left_eq]

/-- The blank characters of JSON. -/
def isBlank (c : Char) : Bool := c = ' ' || c = '\n' || c = '\t' || c = '\r'

/-- The cursor behind the blank characters of JSON. -/
def skipBlanks (cur : Cursor) : Cursor := cur.nextN (cur.rest.takeWhile isBlank).length

/-- The place `n` bytes on, if the text has that many. -/
def behindBytes? (p : Position) : Nat → List Char → Option Position
  | 0, _ => some p
  | _ + 1, [] => none
  | n + 1, c :: rest =>
    if c.utf8Size ≤ n + 1 then behindBytes? (p.behind c) (n + 1 - c.utf8Size) rest
    else some ⟨p.line, p.column + (n + 1)⟩

def atEnd (cur : Cursor) : Position := cur.rest.foldl Position.behind cur.position

end Cursor

/-- Reads a value at a cursor, or refuses. -/
abbrev Reader := StateT Cursor (Except Fault)

namespace Reader

/-! ## Refusing -/

/-- Refuse at the place reached. -/
def failHere (fault : SyntaxFault) : Reader α :=
  fun cur => .error ⟨.grammar fault, some cur.position⟩

/-- Refuse behind the next byte. -/
def failAhead (fault : SyntaxFault) : Reader α :=
  fun cur => .error ⟨.grammar fault, some cur.ahead⟩

/-- The shape is not the one asked for, as known at the place reached. -/
def reject (problem : Problem) : Reader α :=
  fun cur => .error ⟨.shape problem, some cur.position⟩

/-- The shape of the value being read is not the one asked for. The place is behind the closing
bracket of the value, where that is next, and before it otherwise. -/
def rejectClosing (close : Char) (problem : Problem) : Reader α :=
  fun cur =>
    let cur := cur.skipBlanks
    .error ⟨.shape problem, some (if cur.rest.head? = some close then cur.next else cur).position⟩

/-! ## Single characters -/

def peek : Reader (Option Char) := fun cur => .ok (cur.rest.head?, cur)

def skip : Reader Unit := fun cur => .ok ((), cur.next)

/-- The next character that is not blank, which is left in place. -/
def peekToken : Reader (Option Char) := fun cur =>
  let cur := cur.skipBlanks
  .ok (cur.rest.head?, cur)

/-- How many characters are left, which bounds how many steps a reading can take. -/
def remaining : Reader Nat := fun cur => .ok (cur.left, cur)

/-! ## Literals -/

/-- The given characters. -/
def literalRest : List Char → Reader Unit
  | [] => pure ()
  | expected :: more => do
    match ← peek with
    | none => failHere .endInValue
    | some c => if c = expected then do skip; literalRest more else failAhead .expectedLiteral

/-! ## Strings -/

/-- Four hexadecimal digits. They are counted in bytes before they are looked at. -/
def fourHex : Reader Nat := fun cur =>
  match Cursor.behindBytes? cur.position 4 cur.rest with
  | none => .error ⟨.grammar .endInString, some cur.atEnd⟩
  | some p =>
    match Text.hexRead? (cur.rest.take 4) with
    | none => .error ⟨.grammar .invalidEscape, some p⟩
    | some n => .ok (n, cur.nextN 4)

/-- One given character that continues a pair of escapes. -/
def pairContinues (expected : Char) : Reader Unit := do
  match ← peek with
  | none => failHere .endInString
  | some c => if c = expected then skip else failAhead .unfinishedPair

/-- The character of an escape by number, behind the letter `u`. A character beyond 16 bits is
written by two numbers, the first from D800 to DBFF and the second from DC00 to DFFF. -/
def numberedEscape : Reader Char := do
  let first ← fourHex
  if 0xDC00 ≤ first && first ≤ 0xDFFF then failHere .loneSurrogate
  else if first < 0xD800 || 0xDBFF < first then pure (Char.ofNat first)
  else do
    pairContinues '\\'
    pairContinues 'u'
    let second ← fourHex
    if second < 0xDC00 || 0xDFFF < second then failHere .loneSurrogate
    else pure (Char.ofNat (0x10000 + 0x400 * (first - 0xD800) + (second - 0xDC00)))

/-- The character that a letter behind a backslash stands for. -/
def letterEscape? (c : Char) : Option Char :=
  match c with
  | '"' => some '"'
  | '\\' => some '\\'
  | '/' => some '/'
  | 'b' => some '\x08'
  | 'f' => some '\x0c'
  | 'n' => some '\n'
  | 'r' => some '\r'
  | 't' => some '\t'
  | _ => none

/-- The character of an escape, behind the backslash. -/
def escape : Reader Char := do
  match ← peek with
  | none => failHere .endInString
  | some 'u' => do skip; numberedEscape
  | some c =>
    match letterEscape? c with
    | some d => do skip; pure d
    | none => failAhead .invalidEscape

/-- The characters of a string up to its closing quote, in at most `steps` steps. -/
def stringSteps : Nat → Reader (List Char)
  | 0 => failHere .endInString
  | steps + 1 => do
    match ← peek with
    | none => failHere .endInString
    | some '"' => do skip; pure []
    | some '\\' => do
      skip
      let c ← escape
      let cs ← stringSteps steps
      pure (c :: cs)
    | some c =>
      if c.toNat < 0x20 then failAhead .controlCharacter
      else do
        skip
        let cs ← stringSteps steps
        pure (c :: cs)

/-- A string, behind its opening quote. -/
def stringRest : Reader String := do
  let cs ← stringSteps (← remaining)
  pure (String.ofList cs)

/-! ## Numbers -/

def digitRun : Reader (List Digit) := fun cur =>
  let run := (cur.rest.takeWhile fun c => (Digit.ofChar? c).isSome)
  .ok (run.filterMap Digit.ofChar?, cur.nextN run.length)

/-- A digit that has to be there; `stray` is what becomes of another character. -/
def digitOr (stray : Reader Digit) : Reader Digit := do
  match ← peek with
  | none => failHere .endInValue
  | some c =>
    match Digit.ofChar? c with
    | some d => do skip; pure d
    | none => stray

/-- The digits before the point: a leading zero stands alone. -/
def wholePart (stray : Reader Digit) : Reader Nat := do
  let first ← digitOr stray
  if first = 0 then
    match (← peek).bind Digit.ofChar? with
    | some _ => failAhead .invalidNumber
    | none => pure 0
  else do
    let others ← digitRun
    pure (Digit.valueFrom 0 (first :: others))

/-- The point and the digits behind it, if there is a point. -/
def fractionPart : Reader (List Digit) := do
  match ← peek with
  | some '.' => do
    skip
    let first ← digitOr (failAhead .invalidNumber)
    let others ← digitRun
    pure (first :: others)
  | _ => pure []

/-- The sign of an exponent, if there is one. -/
def exponentSign : Reader Bool := do
  match ← peek with
  | some '-' => do skip; pure true
  | some '+' => do skip; pure false
  | _ => pure false

/-- The exponent, if there is one. -/
def exponentPart (stray : Reader Digit) : Reader (Option Exponent) := do
  let c ← peek
  if c = some 'e' || c = some 'E' then do
    skip
    let negative ← exponentSign
    let first ← digitOr stray
    let others ← digitRun
    pure (some ⟨negative, first, others⟩)
  else pure none

/-- A number, behind its minus sign if it has one; `stray` is what becomes of another character where
its first digit or that of its exponent has to be. -/
def numberRest (stray : Reader Digit) (negative : Bool) : Reader Number := do
  let whole ← wholePart stray
  let fraction ← fractionPart
  let exponent ← exponentPart stray
  pure ⟨negative, whole, fraction, exponent⟩

/-! ## Whole texts -/

def finished : Reader Unit := do
  match ← peekToken with
  | none => pure ()
  | some _ => failAhead .trailingCharacters

def readText (reader : Reader α) (s : String) : Except Fault α := do
  let (a, _) ← (do let a ← reader; finished; pure a : Reader α).run (Cursor.ofText s)
  pure a

end Reader

end ContentVisibility.Json
