import ContentVisibility.Numerals

/-!
# Identifiers

A user and a group are each known by a number of 128 bits. The written form groups its 32 lower-case
hexadecimal digits by hyphens into runs of 8, 4, 4, 4 and 12.

* `Identifier`: an identifier of a kind; `UserId` and `GroupId` are its two uses;
* `Identifier.text`: the written form.
-/

namespace ContentVisibility

/-- What an identifier names. -/
inductive IdKind where
  | user
  | group
  deriving DecidableEq, Repr

def IdKind.word : IdKind → String
  | .user => "user"
  | .group => "group"

/-- An identifier of 128 bits. -/
structure Identifier (kind : IdKind) where
  /-- The identifier as a number. -/
  number : Nat
  number_lt : number < Bits.count 128
  deriving DecidableEq, Repr

abbrev UserId := Identifier .user

abbrev GroupId := Identifier .group

namespace Identifier

variable {kind : IdKind}

/-- The identifier with this number, the number being taken modulo the size of the range. -/
def ofNumber (n : Nat) : Identifier kind := ⟨n % Bits.count 128, Nat.mod_lt _ (Bits.count_pos 128)⟩

/-- The lengths of the runs of digits in the hyphenated form. -/
def runLengths : List Nat := [8, 4, 4, 4, 12]

/-- The characters cut into runs of the given lengths, joined by hyphens. -/
def hyphenate : List Nat → List Char → List Char
  | [], cs => cs
  | [_], cs => cs
  | n :: ns, cs => cs.take n ++ '-' :: hyphenate ns (cs.drop n)

def digits (id : Identifier kind) : List Char := Text.hexWritten 32 id.number

/-- The written form: lower-case digits in hyphenated runs. -/
def text (id : Identifier kind) : String := String.ofList (hyphenate runLengths id.digits)

instance : ToString (Identifier kind) := ⟨text⟩

end Identifier

end ContentVisibility
