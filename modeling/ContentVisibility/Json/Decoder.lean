import ContentVisibility.Json.Document

/-!
# Reading typed content

A type says how it is read from text, where a refusal knows its place, and from content that was
held back, where it does not. The two agree on what they accept, except that a number held back may
look like an object.

* `Decoder`: the two ways to read a type;
* `Vocabulary`, `Decoder.word`: a choice among words;
* `Decoder.string`, `bool`, `optional`, `list`, `id`: the other shapes.
-/

namespace ContentVisibility.Json

/-- How a type is read. -/
structure Decoder (α : Type) where
  /-- From text. -/
  text : Reader α
  /-- From content that was held back. -/
  held : Held → Except Problem α

/-- The content is of another kind than expected. -/
def Held.mismatch (content : Held) (expected : String) : Except Problem α :=
  .error (.wrongType content.found expected)

/-- What a check makes of a value just read, or its refusal at the place reached. -/
def Reader.checked (result : Except Problem α) : Reader α :=
  match result with
  | .ok a => pure a
  | .error problem => reject problem

namespace Decoder

def map (f : α → β) (d : Decoder α) : Decoder β where
  text := f <$> d.text
  held content := f <$> d.held content

/-! ## Scalars -/

def heldString (expected : String) : Held → Except Problem String
  | .string s => .ok s
  | content => content.mismatch expected

def checkedString (expected : String) (check : String → Except Problem α) : Decoder α where
  text := do Reader.checked (check (← Reader.string expected))
  held content := do check (← heldString expected content)

def string : Decoder String := checkedString "a string" .ok

def bool : Decoder Bool where
  text := Reader.bool
  held
    | .bool b => .ok b
    | content => content.mismatch "a boolean"

/-- An identifier, spelled without blank characters around it. -/
def id {kind : IdKind} : Decoder (Identifier kind) :=
  checkedString "a formatted UUID string" fun s =>
    match Identifier.spelled? s.toList with
    | some id => .ok id
    | none => .error (.misspelledId (Identifier.misspelling s.toList))

/-! ## Optional values and lists -/

/-- A value, or null for none. -/
def optional (d : Decoder α) : Decoder (Option α) where
  text := do
    match ← Reader.peekToken with
    | some 'n' => do Reader.skip; Reader.literalRest "ull".toList; pure none
    | _ => some <$> d.text
  held
    | .null => .ok none
    | content => some <$> d.held content

def list (d : Decoder α) : Decoder (List α) where
  text := do
    match ← Reader.peekToken with
    | some '[' => Reader.items d.text
    | _ => Reader.mismatch "a sequence"
  held
    | .sequence items => items.mapM d.held
    | content => content.mismatch "a sequence"

end Decoder

/-! ## Words -/

/-- A set of words that each stand for a value. -/
structure Vocabulary (α : Type) where
  /-- The words, in the order in which messages list them. -/
  words : List (String × α)
  /-- What any other word stands for, if other words are accepted. -/
  unknown : Option α

namespace Vocabulary

def find? (v : Vocabulary α) (word : String) : Option α :=
  ((v.words.find? fun entry => entry.1 == word).map Prod.snd).or v.unknown

/-- What a word stands for, or the refusal of the word. -/
def find (v : Vocabulary α) (word : String) : Except Problem α :=
  match v.find? word with
  | some a => .ok a
  | none => .error (.unknownToken word (v.words.map Prod.fst))

end Vocabulary

namespace Decoder

/-- A word of the vocabulary, or an object whose one key is such a word and whose value is null. -/
def word (v : Vocabulary α) : Decoder α where
  text := do
    match ← Reader.peekToken with
    | none => Reader.failHere .endInValue
    | some '"' => do
      Reader.skip
      Reader.checked (v.find (← Reader.stringRest))
    | some '{' => do
      Reader.skip
      let a ← Reader.checked (v.find (← Reader.string "variant identifier"))
      Reader.colon
      Reader.null "unit"
      match ← Reader.peekToken with
      | some '}' => do Reader.skip; pure a
      | some _ => Reader.failHere .expectedValue
      | none => Reader.failHere .endInObject
    | some _ => Reader.failAhead .expectedValue
  held
    | .string s => v.find s
    | .map [(s, carried)] => do
      let a ← v.find s
      match carried with
      | .null | .map [] => pure a
      | other => other.mismatch "unit"
    | .map _ => .error .notSingleKey
    | content => content.mismatch "string or map"

end Decoder

end ContentVisibility.Json
