import ContentVisibility.Json.Brackets
import ContentVisibility.Json.Held
import ContentVisibility.Json.Scalar

/-!
# Whole documents

* `value`: a value, nested to at most a given depth;
* `held`: content that is held back;
* `Value.parse`: the value that a text holds.
-/

namespace ContentVisibility.Json

/-- What the parts of a document are made into. -/
structure Builder (α : Type) where
  null : α
  bool : Bool → α
  number : Number → α
  string : String → α
  array : List α → α
  object : List (String × α) → α
  /-- Whether an object whose first key is `numberKey` stands for a number. -/
  marksNumbers : Bool

def Value.builder : Builder Value where
  null := .null
  bool := .bool
  number := .number
  string := .string
  array := .array
  object members := .object (Members.ofList members)
  marksNumbers := true

def Held.builder : Builder Held where
  null := .null
  bool := .bool
  number := .ofNumber
  string := .string
  array := .sequence
  object := .map
  marksNumbers := false

namespace Reader

/-- How many containers may stand inside one another. -/
def nestingLimit : Nat := 127

/-! ## Numbers spelled in a string -/

/-- Refuse behind the second byte from here, or behind the first one if there is no other. -/
def failFurther (fault : SyntaxFault) : Reader α := fun cur =>
  .error ⟨.grammar fault, some ((Cursor.behindBytes? cur.position 2 cur.rest).getD cur.ahead)⟩

/-- The number that a text is, all of it. Of what is no number, the place is where the text goes on
behind what has been looked at. -/
def wholeNumber : Reader Number := fun cur =>
  match cur.rest with
  | [] => failHere .endInValue cur
  | c :: _ =>
    if c = '-' || (Digit.ofChar? c).isSome then
      match numberOr (failFurther .invalidNumber) cur with
      | .ok (n, cur) => if cur.rest.isEmpty then .ok (n, cur) else failAhead .invalidNumber cur
      | .error fault => .error fault
    else failAhead .invalidNumber cur

/-- The number that the string behind the key of a marked number spells. A fault in the spelling is
placed inside the string. -/
def markedNumber : Reader Number := do
  colon
  let s ← string "string containing a number"
  match wholeNumber (Cursor.ofText s) with
  | .ok (n, _) => do endObject; pure n
  | .error fault => throw fault

/-! ## Documents -/

/-- An object, at its opening brace. -/
def object (b : Builder α) (document : Reader α) : Reader α := do
  skip
  let member (read : List (String × α)) (key : String) : Reader (List (String × α)) := do
    colon
    let a ← document
    pure ((key, a) :: read)
  if ← moreMembers true then
    skip
    let key ← stringRest
    if b.marksNumbers && key == numberKey then
      let n ← markedNumber
      pure (b.number n)
    else
      let read ← foldMembers member false (← member [] key)
      endObject
      pure (b.object read.reverse)
  else
    skip
    pure (b.object [])

/-- A list, at its opening bracket. -/
def list (b : Builder α) (document : Reader α) : Reader α := do
  let as ← items document
  pure (b.array as)

/-- A document whose containers are read as given. -/
def documentWith (b : Builder α) (list object : Reader α) : Reader α := do
  match ← peekToken with
  | none => failHere .endInValue
  | some 'n' => do skip; literalRest "ull".toList; pure b.null
  | some 't' => do skip; literalRest "rue".toList; pure (b.bool true)
  | some 'f' => do skip; literalRest "alse".toList; pure (b.bool false)
  | some '"' => do
    skip
    let s ← stringRest
    pure (b.string s)
  | some '[' => list
  | some '{' => object
  | some c =>
    if c = '-' || (Digit.ofChar? c).isSome then do
      let n ← number
      pure (b.number n)
    else failAhead .expectedValue

/-- A document with at most `depth` containers inside one another. -/
def document (b : Builder α) : Nat → Reader α
  | 0 => documentWith b (failAhead .tooDeep) (failAhead .tooDeep)
  | depth + 1 => documentWith b (list b (document b depth)) (object b (document b depth))

def value : Reader Value := document Value.builder nestingLimit

/-- Content held back inside `containers` containers. -/
def held (containers : Nat) : Reader Held := document Held.builder (nestingLimit - containers)

end Reader

/-- The value that a text holds. -/
def Value.parse (s : String) : Except Fault Value := Reader.value.readText s

end ContentVisibility.Json
