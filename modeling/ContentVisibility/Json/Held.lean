import ContentVisibility.Json.Fault
import ContentVisibility.Json.Value
import ContentVisibility.Decimal.Binary64

/-!
# Content held back

The kind of a rule decides how the rest of it is read, and may stand behind it. The rest is held
back until the kind is known. What is held differs from a value in two ways: a repeated key keeps
all its members, and a number that is no integer of 64 bits is held as an object of one member.

* `Held`: content held back;
* `numberKey`: the key of the one member that such a number is held under;
* `Held.ofNumber`: how a number of a text is held;
* `Value.held`: how a value is held.
-/

namespace ContentVisibility.Json

/-- Content held back until it is known how to read it. -/
inductive Held where
  | null
  | bool (value : Bool)
  | integer (value : Int)
  | float (shown : String)
  | string (value : String)
  | sequence (items : List Held)
  | map (members : List (String × Held))
  deriving Repr

/-- The key of the one member that a number is held under. -/
def numberKey : String := "$serde_json::private::Number"

/-- A number as an object of one member. -/
def Held.markedNumber (n : Number) : Held := .map [(numberKey, .string n.text)]

/-- What the content is, in a message. -/
def Held.found : Held → Found
  | .null => .null
  | .bool b => .bool b
  | .integer i => .integer i
  | .float shown => .float shown
  | .string s => .string s
  | .sequence _ => .sequence
  | .map _ => .map

/-! ## Numbers of a text -/

def Held.ofNumber (n : Number) : Held :=
  match n.word? with
  | some i => .integer i
  | none => .markedNumber n

/-! ## Numbers of a value -/

/-- How a number of a value presents itself. -/
inductive NumberForm where
  /-- An integer of 64 bits. -/
  | word (value : Int)
  /-- An integer of 128 bits, which nothing accepts. -/
  | wide (value : Int)
  /-- A number that its nearest 64-bit float writes the same way. -/
  | float (shown : String)
  /-- Any other number, as an object of one member. -/
  | marked
  deriving DecidableEq, Repr

/-- How a number of a value presents itself. -/
def Number.form (n : Number) : NumberForm :=
  let exact : NumberForm :=
    match Decimal.Binary64.ofNumber n with
    | some f =>
      if f.compactText = n.text || f.positionalText = n.text then .float f.compactText else .marked
    | none => .marked
  match n.integer? with
  | some i =>
    let fits := if n.negative then Bits.holdsSigned else Bits.holdsUnsigned
    if fits 64 i then .word i else if fits 128 i then .wide i else exact
  | none => exact

mutual

def Value.held : Value → Except Problem Held
  | .null => .ok .null
  | .bool b => .ok (.bool b)
  | .number n =>
    match n.form with
    | .word i => .ok (.integer i)
    | .wide i => .error (.wrongType (.wideInteger i) "any value")
    | .float shown => .ok (.float shown)
    | .marked => .ok (.markedNumber n)
  | .string s => .ok (.string s)
  | .array items => (heldItems items).map .sequence
  | .object members => (heldMembers members).map .map

def Value.heldItems : List Value → Except Problem (List Held)
  | [] => .ok []
  | item :: items => do
    let first ← item.held
    let others ← heldItems items
    pure (first :: others)

def Value.heldMembers : List (String × Value) → Except Problem (List (String × Held))
  | [] => .ok []
  | (key, value) :: members => do
    let first ← value.held
    let others ← heldMembers members
    pure ((key, first) :: others)

end

end ContentVisibility.Json
