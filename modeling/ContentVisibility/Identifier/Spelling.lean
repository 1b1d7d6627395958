import ContentVisibility.Identifier.Basic
import ContentVisibility.Text.Basic

/-!
# Spellings of an identifier

An identifier is accepted as 32 hexadecimal digits, as the hyphenated form, as the hyphenated form
between braces, and as the hyphenated form after `urn:uuid:`; letter case never matters.

* `Identifier.spelled?`: the identifier that a spelling names;
* `Identifier.parse`: the same with blank characters allowed around the spelling, as operands of conditions
  and arguments are read;
* `Identifier.Misspelling`: what is wrong with a text that spells no identifier.
-/

namespace ContentVisibility

namespace Identifier

variable {kind : IdKind}

/-! ## Reading a spelling -/

/-- The characters without the hyphens that separate runs of the given lengths, if they stand where
they should. -/
def unhyphenate? : List Nat → List Char → Option (List Char)
  | [], cs => if cs.isEmpty then some [] else none
  | [n], cs => if cs.length = n then some cs else none
  | n :: ns, cs =>
    match cs.drop n with
    | '-' :: rest => (unhyphenate? ns rest).map (cs.take n ++ ·)
    | _ => none

/-- The marker before the hyphenated form of a resource name. -/
def urn : List Char := "urn:uuid:".toList

/-- What stands after the marker of a resource name, in whatever letter case the marker is. -/
def afterUrn? (cs : List Char) : Option (List Char) :=
  if (cs.take urn.length).map Char.toLower = urn then some (cs.drop urn.length) else none

def betweenBraces? (cs : List Char) : Option (List Char) :=
  match cs with
  | '{' :: rest => if rest.getLast? = some '}' then some rest.dropLast else none
  | _ => none

/-- The 32 characters in the places of the digits of a spelling. -/
def digitPlaces? (cs : List Char) : Option (List Char) :=
  if cs.length = 32 then some cs
  else unhyphenate? runLengths ((betweenBraces? cs).getD ((afterUrn? cs).getD cs))

def spelled? (cs : List Char) : Option (Identifier kind) :=
  ((digitPlaces? cs).bind Text.hexRead?).map ofNumber

/-! ## What is wrong with a text -/

/-- What is wrong with a text that spells no identifier. -/
inductive Misspelling where
  /-- A character that no spelling holds, and the byte it starts at. -/
  | character (c : Char) (offset : Nat)
  /-- Digits only, and as many as no form of an identifier has characters. -/
  | length (found : Nat)
  /-- Runs of digits, but not five of them. A text as long as the hyphenated form is taken for one, also
  if it is a single run. -/
  | runCount (found : Nat)
  /-- Five runs, and the first one of a wrong length; the last takes the blame when the others are
  right, and is then measured to the end of the text. -/
  | runLength (run expected found : Nat)
  deriving DecidableEq, Repr

def Misspelling.message : Misspelling → String
  | .character c offset => s!"invalid character: found `{c}` at {offset}"
  | .length found => s!"invalid length: found {found}"
  | .runCount found => s!"invalid group count: expected 5, found {found}"
  | .runLength run expected found =>
    s!"invalid group length in group {run}: expected {expected}, found {found}"

def byteCount : List Char → Nat
  | [] => 0
  | c :: cs => c.utf8Size + byteCount cs

/-- The first character that is neither a digit nor a hyphen, and the byte it starts at when the
text starts at byte `start`. -/
def strayFrom? (start : Nat) : List Char → Option (Char × Nat)
  | [] => none
  | c :: cs =>
    if c = '-' || (Text.hexValue? c).isSome then strayFrom? (start + c.utf8Size) cs
    else some (c, start)

def lengthsBetweenHyphens (cs : List Char) : List Nat :=
  (cs.splitOn '-').map List.length

/-- How many characters the hyphenated form has. -/
def hyphenatedLength : Nat := 36

/-- What is wrong with the characters, which spell no identifier. -/
def misspelling (cs : List Char) : Misspelling :=
  let (body, start, wrapped) :=
    match betweenBraces? cs, afterUrn? cs with
    | some body, _ => (body, 1, true)
    | none, some body => (body, urn.length, true)
    | none, none => (cs, 0, false)
  match strayFrom? start body with
  | some (c, offset) => .character c offset
  | none =>
    let runs := lengthsBetweenHyphens body
    if runs.length = 1 && !wrapped && body.length ≠ hyphenatedLength then .length (byteCount cs)
    else if runs.length ≠ 5 then .runCount runs.length
    else
      match ((runLengths.zip runs).zipIdx.take 4).find? fun ((expected, found), _) => expected ≠ found with
      | some ((expected, found), run) => .runLength run expected found
      | none => .runLength 4 12 (byteCount cs - 24)

/-! ## Arguments and operands -/

/-- A text that was given for an identifier and is none. -/
structure ParseError where
  kind : IdKind
  /-- The text as it was given, blank characters included. -/
  input : String
  deriving DecidableEq, Repr

def ParseError.message (e : ParseError) : String := s!"invalid {e.kind.word} id '{e.input}'"

/-- The identifier that a text spells, blank characters around the spelling apart. -/
def parse? (s : String) : Option (Identifier kind) := spelled? (Text.trimmed s.toList)

/-- The identifier that a text spells, or the refusal of the text. -/
def parse (s : String) : Except ParseError (Identifier kind) :=
  match parse? s with
  | some id => .ok id
  | none => .error ⟨kind, s⟩

end Identifier

end ContentVisibility
