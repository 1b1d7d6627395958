import ContentVisibility.Json.Decoder

/-!
# Content of several kinds

An object names its kind in one member, a list in its first item. The kind decides how the rest is
read, and the member may stand behind the rest, so the rest is held back.

* `Kinds`: the kinds of a type;
* `Kinds.read`: from text, the kind and the rest;
* `Kinds.ofValue`: the same from a value.
-/

namespace ContentVisibility.Json

/-- The kinds of a type. -/
structure Kinds (κ : Type) where
  /-- What messages call the type. -/
  title : String
  /-- The member that names the kind. -/
  key : String
  vocabulary : Vocabulary κ

namespace Kinds

def expected : String := "variant identifier"

/-- The kind, where it is known, and the members read so far, last one first. -/
abbrev Parts (κ : Type) := Option κ × List (String × Held)

/-! ## From text -/

/-- Read the member with the given key, behind the key. -/
def member (kinds : Kinds κ) (parts : Parts κ) (key : String) : Reader (Parts κ) :=
  if key = kinds.key then
    if parts.1.isSome then Reader.rejectClosing '}' (.duplicateField kinds.key)
    else do
      Reader.colon
      let kind ← Reader.checked (kinds.vocabulary.find (← Reader.string expected))
      pure (some kind, parts.2)
  else do
    Reader.colon
    let content ← Reader.held 1
    pure (parts.1, (key, content) :: parts.2)

def readObject (kinds : Kinds κ) : Reader (κ × Held) := do
  Reader.skip
  let parts ← Reader.foldMembers kinds.member true (none, [])
  match parts.1 with
  | none => Reader.rejectClosing '}' (.missingField kinds.key)
  | some kind => do
    Reader.endObject
    pure (kind, .map parts.2.reverse)

def readList (kinds : Kinds κ) : Reader (κ × Held) := do
  Reader.skip
  if ← Reader.moreItems true then
    let kind ← Reader.checked (kinds.vocabulary.find (← Reader.string expected))
    let rest ← Reader.itemsSteps (Reader.held 1) ((← Reader.remaining) + 1) false
    pure (kind, .sequence rest)
  else Reader.rejectClosing ']' (.missingField kinds.key)

/-- Read the kind and the rest. A number that is no integer of 64 bits is taken for an object
without the member. -/
def read (kinds : Kinds κ) : Reader (κ × Held) := do
  match ← Reader.peekToken with
  | some '{' => kinds.readObject
  | some '[' => kinds.readList
  | some c =>
    if c = '-' || (Digit.ofChar? c).isSome then do
      let n ← Reader.number
      match n.word? with
      | some i => Reader.reject (.wrongType (.integer i) kinds.title)
      | none => Reader.reject (.missingField kinds.key)
    else Reader.mismatch kinds.title
  | none => Reader.mismatch kinds.title

/-! ## From a value -/

/-- The kind that a value names. -/
def kindOf (kinds : Kinds κ) : Value → Except Problem κ
  | .string s => kinds.vocabulary.find s
  | .null => .error (.wrongType .null expected)
  | .bool b => .error (.wrongType (.bool b) expected)
  | .number _ => .error (.wrongType .number expected)
  | .array _ => .error (.wrongType .sequence expected)
  | .object _ => .error (.wrongType .map expected)

def memberOf (kinds : Kinds κ) (parts : Parts κ) (member : String × Value) :
    Except Problem (Parts κ) :=
  if member.1 = kinds.key then
    if parts.1.isSome then .error (.duplicateField kinds.key)
    else do
      let kind ← kinds.kindOf member.2
      pure (some kind, parts.2)
  else do
    let content ← member.2.held
    pure (parts.1, (member.1, content) :: parts.2)

def ofValue (kinds : Kinds κ) : Value → Except Problem (κ × Held)
  | .object members => do
    let parts ← members.foldlM kinds.memberOf (none, [])
    match parts.1 with
    | none => throw (.missingField kinds.key)
    | some kind => pure (kind, .map parts.2.reverse)
  | .array [] => .error (.missingField kinds.key)
  | .array (first :: others) => do
    let kind ← kinds.kindOf first
    let rest ← Value.heldItems others
    pure (kind, .sequence rest)
  | .number n =>
    match n.form with
    | .word i => .error (.wrongType (.integer i) kinds.title)
    | .wide i => .error (.wrongType (.wideInteger i) kinds.title)
    | .float shown => .error (.wrongType (.float shown) kinds.title)
    | .marked => .error (.missingField kinds.key)
  | .null => .error (.wrongType .null kinds.title)
  | .bool b => .error (.wrongType (.bool b) kinds.title)
  | .string s => .error (.wrongType (.string s) kinds.title)

end Kinds

/-- Content without fields: the members of an object are passed over, a list has to be empty. -/
def Held.noFields : Held → Except Problem Unit
  | .sequence [] => .ok ()
  | .sequence items => .error (.wrongLength items.length "0 elements in sequence")
  | _ => .ok ()

end ContentVisibility.Json
