import ContentVisibility.Json.Decoder
import ContentVisibility.Json.Skip

/-!
# Records

A record is read from an object, whose members may come in any order, or from a list that holds the
fields in their own order. Members that no field asks for are passed over.

* `FieldSpec`, `Fields`: the fields of a record;
* `Decoder.record`: reads a record with given fields.
-/

namespace ContentVisibility.Json

/-- A field of a record. -/
structure FieldSpec (α : Type) where
  /-- The key that messages use. -/
  name : String
  /-- Other keys that are accepted. -/
  aliases : List String
  decoder : Decoder α
  /-- The value of the field when the record does not give it, if it may leave it out. -/
  absent : Option α

namespace FieldSpec

def required (name : String) (decoder : Decoder α) : FieldSpec α := ⟨name, [], decoder, none⟩

/-- A field with a value for records that do not give it. -/
def defaulted (name : String) (decoder : Decoder α) (absent : α) : FieldSpec α :=
  ⟨name, [], decoder, some absent⟩

def orAs (spec : FieldSpec α) (key : String) : FieldSpec α :=
  { spec with aliases := spec.aliases ++ [key] }

def answersTo (spec : FieldSpec α) (key : String) : Bool :=
  key == spec.name || spec.aliases.contains key

end FieldSpec

/-- The fields of a record, whose values make up a tuple. -/
inductive Fields : Type → Type 1 where
  | done : Fields Unit
  | field {α β : Type} (spec : FieldSpec α) (others : Fields β) : Fields (α × β)

namespace Fields

def count : Fields τ → Nat
  | done => 0
  | field _ others => others.count + 1

@[reducible] def Slots : Fields τ → Type
  | done => Unit
  | @field α _ _ others => Option α × others.Slots

def empty : (fields : Fields τ) → fields.Slots
  | done => ()
  | field _ others => (none, others.empty)

/-- The values of all fields, once the members have been read. -/
def complete : (fields : Fields τ) → fields.Slots → Except Problem τ
  | done, _ => .ok ()
  | field spec others, slots => do
    let (slot, slots) := slots
    match slot.or spec.absent with
    | some a => pure (a, ← others.complete slots)
    | none => throw (.missingField spec.name)

/-! ## Members by key -/

/-- Read the member with the given key, behind the key. -/
def takeText : (fields : Fields τ) → fields.Slots → String → Reader fields.Slots
  | done, slots, _ => do
    Reader.colon
    Reader.skipValue
    pure slots
  | field spec others, slots, key =>
    let (slot, slots) := slots
    if spec.answersTo key then
      if slot.isSome then Reader.rejectClosing '}' (.duplicateField spec.name)
      else do
        Reader.colon
        let a ← spec.decoder.text
        pure (some a, slots)
    else do
      let slots ← others.takeText slots key
      pure (slot, slots)

/-- Take the member with the given key and content. -/
def takeHeld : (fields : Fields τ) → fields.Slots → String × Held → Except Problem fields.Slots
  | done, slots, _ => .ok slots
  | field spec others, slots, (key, content) =>
    let (slot, slots) := slots
    if spec.answersTo key then
      if slot.isSome then .error (.duplicateField spec.name)
      else do
        let a ← spec.decoder.held content
        pure (some a, slots)
    else do
      let slots ← others.takeHeld slots (key, content)
      pure (slot, slots)

/-! ## Values in order -/

/-- Read the values of a list in the order of the fields; `index` fields came before. -/
def positionalText (expected : String) : (fields : Fields τ) → (index : Nat) → Bool → Reader τ
  | done, _, _ => pure ()
  | field spec others, index, first => do
    if ← Reader.moreItems first then
      let a ← spec.decoder.text
      let rest ← others.positionalText expected (index + 1) false
      pure (a, rest)
    else
      match spec.absent with
      | some a => do
        let rest ← others.positionalText expected (index + 1) first
        pure (a, rest)
      | none => Reader.rejectClosing ']' (.wrongLength index expected)

/-- Take items in the order of the fields; what is left over comes with the values. -/
def positionalHeld (expected : String) :
    (fields : Fields τ) → (index : Nat) → List Held → Except Problem (τ × List Held)
  | done, _, items => .ok ((), items)
  | field spec others, index, item :: items => do
    let a ← spec.decoder.held item
    let (rest, extra) ← others.positionalHeld expected (index + 1) items
    pure ((a, rest), extra)
  | field spec others, index, [] => do
    match spec.absent with
    | some a => do
      let (rest, extra) ← others.positionalHeld expected (index + 1) []
      pure ((a, rest), extra)
    | none => throw (.wrongLength index expected)

end Fields

def elements (n : Nat) : String := if n = 1 then "1 element" else s!"{n} elements"

/-- Nothing is left over of a list of `total` items of which `taken` could be taken. -/
def noneLeft (taken total : Nat) (extra : List Held) : Except Problem Unit :=
  if extra.isEmpty then .ok ()
  else .error (.wrongLength total s!"{elements taken} in sequence")

namespace Decoder

/-- A record: `title` is what messages call it, `build` makes it from the values of its fields. -/
def record (title : String) (fields : Fields τ) (build : τ → α) : Decoder α where
  text := do
    match ← Reader.peekToken with
    | some '[' => do
      Reader.skip
      let values ← fields.positionalText s!"{title} with {elements fields.count}" 0 true
      Reader.endList
      pure (build values)
    | some '{' => do
      Reader.skip
      let slots ← Reader.foldMembers fields.takeText true fields.empty
      match fields.complete slots with
      | .ok values => do
        Reader.endObject
        pure (build values)
      | .error problem => Reader.rejectClosing '}' problem
    | _ => Reader.mismatch title
  held
    | .map members => do
      let slots ← members.foldlM fields.takeHeld fields.empty
      let values ← fields.complete slots
      pure (build values)
    | .sequence items => do
      let (values, extra) ← fields.positionalHeld s!"{title} with {elements fields.count}" 0 items
      noneLeft fields.count items.length extra
      pure (build values)
    | content => content.mismatch title

end Decoder

end ContentVisibility.Json
