import ContentVisibility.Settings.Source
import ContentVisibility.Toml.Document

/-!
# Settings from one file

A file of settings is a TOML document. Read on its own, each setting has to have its own type.

* `Toml.source`: the conversions of a document that is read on its own;
* `Settings.ofFile`: the settings that a document gives.
-/

namespace ContentVisibility

namespace Toml

mutual

/-- Whether all numbers of a value can be read: integers fit into 128 bits, with or without a sign,
and no decimal number is beyond the floats. -/
def Value.fits : Value → Bool
  | .integer i => Bits.holdsSigned 128 i || Bits.holdsUnsigned 128 i
  | .huge _ => false
  | .array items => itemsFit items
  | .table entries => entriesFit entries
  | .string _ | .float _ | .boolean _ | .datetime _ => true

def itemsFit : List Value → Bool
  | [] => true
  | item :: items => item.fits && itemsFit items

/-- Whether all numbers of a table can be read. -/
def entriesFit : List (String × Value) → Bool
  | [] => true
  | (_, value) :: entries => value.fits && entriesFit entries

end

/-- The entries of a table. Those that no name asks for are read too, although nothing is made of
them. A list gives its items the names in order, and further items are not read. A date or a time
counts as a table, in which there is nothing that could be asked for. -/
def Value.entries? (names : List String) : Value → Option (List (String × Value))
  | .table entries =>
    if entriesFit (entries.filter fun (name, _) => !names.contains name) then some entries else none
  | .array items => some (names.zip items)
  | .datetime _ => some []
  | _ => none

/-- The conversions of a document that is read on its own: none. A word may also be the one key of a
table, with nothing in it. -/
def source : Source Value where
  entries? := Value.entries?
  flag?
    | .boolean b => some b
    | _ => none
  text?
    | .string s => some s
    | _ => none
  word?
    | .string s => some s
    | .table [(key, .table [])] | .table [(key, .array [])] => some key
    | _ => none
  list?
    | .array items => some items
    | _ => none

end Toml

/-- The settings that a document gives, before they are checked. -/
def Settings.ofFile (text : String) : Option Settings := do
  let entries ← Toml.parse? .strict text
  Toml.source.settings? (.table entries)

end ContentVisibility
