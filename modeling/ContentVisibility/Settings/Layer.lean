import ContentVisibility.Settings.File
import ContentVisibility.Text.Fold

/-!
# Layers of settings

Settings come in layers. Each layer changes the tree that those below it have made: tables are merged
key by key, all else is replaced.

* `Tree`: the settings of one or more layers;
* `Tree.set`: the tree with one more setting;
* `Tree.source`: the conversions between scalars that the merged tree allows;
* `Tree.ofDocument?`, `Tree.ofSettings`: the layers of a document and of settings.
-/

namespace ContentVisibility

open Json (Members.get? Members.put)

/-- The settings of one or more layers. -/
inductive Tree where
  /-- A place in a list to which nothing was assigned. -/
  | absent
  | flag (value : Bool)
  | integer (value : Int)
  | float (value : Decimal.Binary64)
  | text (value : String)
  | list (items : List Tree)
  | table (entries : List (String × Tree))

namespace Tree

/-! ## Changing a tree -/

/-- A step from a tree to a part of it. -/
inductive Step where
  | key (name : String)
  /-- The item of a list with this index; a negative one counts from the end. -/
  | index (i : Int)
  deriving DecidableEq, Repr

/-- The entries of a table; anything else has none. -/
def entries : Tree → List (String × Tree)
  | table entries => entries
  | _ => []

/-- The items of a list; anything else has none. -/
def items : Tree → List Tree
  | list items => items
  | _ => []

/-- Change the entry of a table with the given name; a tree that is no table becomes one. -/
def changeEntry (name : String) (change : Tree → Tree) (tree : Tree) : Tree :=
  let old := (Members.get? name tree.entries).getD .absent
  .table (Members.put name (change old) tree.entries)

/-- Change the item of a list with the given index; a tree that is no list becomes one, and a list
that is too short is filled up. -/
def changeItem (i : Int) (change : Tree → Tree) (tree : Tree) : Tree :=
  let old := tree.items
  let fromStart : Int := if i < 0 then i + old.length else i
  if fromStart < 0 then
    .list (change .absent :: List.replicate ((-fromStart).toNat - 1) .absent ++ old)
  else
    let n := fromStart.toNat
    let filled := old ++ List.replicate (n + 1 - old.length) .absent
    .list (filled.modify n change)

/-- Change the part of a tree to which the steps lead. -/
def change (f : Tree → Tree) : List Step → Tree → Tree
  | [], tree => f tree
  | .key name :: steps, tree => changeEntry name (change f steps) tree
  | .index i :: steps, tree => changeItem i (change f steps) tree

mutual

/-- The tree `old` with `new` put over it. Below a table, a tree that is no table counts as an empty
one. -/
def overlaid (old : Tree) : Tree → Tree
  | .table entries => overlaidEntries (.table old.entries) entries
  | new => new

/-- The tree with the entries put over it, one after another. -/
def overlaidEntries (old : Tree) : List (String × Tree) → Tree
  | [] => old
  | (name, new) :: entries => overlaidEntries (changeEntry name (fun old => overlaid old new) old) entries

end

/-! ## Names of settings -/

/-- Whether a name in a path can hold the character. -/
def isNameChar (c : Char) : Bool := c.isAlphanum || c = '_' || c = '-'

/-- The index between brackets, behind the opening one, and what stands behind the closing one. Blanks
may stand around the index, which is an integer of 64 bits. -/
def index? (cs : List Char) : Option (Int × List Char) :=
  let isSpace (c : Char) : Bool := c = ' ' || c = '\t'
  let (negative, cs) := match cs.dropWhile isSpace with
    | '-' :: cs => (true, cs)
    | cs => (false, cs)
  let digits := cs.takeWhile Toml.isDigit
  let n : Int := Toml.numberTo 10 digits
  let i := if negative then -n else n
  match (cs.dropWhile Toml.isDigit).dropWhile isSpace with
  | ']' :: cs => if digits.isEmpty || !Bits.holdsSigned 64 i then none else some (i, cs)
  | _ => none

/-- The steps behind a name: a dot and a name, or an index between brackets. -/
def stepsFrom? : Nat → List Char → Option (List Step)
  | _, [] => some []
  | 0, _ => none
  | n + 1, '.' :: cs =>
    let name := cs.takeWhile isNameChar
    if name.isEmpty then none
    else (stepsFrom? n (cs.dropWhile isNameChar)).map (.key (String.ofList name) :: ·)
  | n + 1, '[' :: cs =>
    (index? cs).bind fun (i, cs) => (stepsFrom? n cs).map (.index i :: ·)
  | _, _ => none

/-- The steps of a path: a name, and further names and indices. -/
def steps? (cs : List Char) : Option (List Step) :=
  let name := cs.takeWhile isNameChar
  if name.isEmpty then none
  else (stepsFrom? cs.length (cs.dropWhile isNameChar)).map (.key (String.ofList name) :: ·)

/-- The tree with one more setting. A name that is no path is taken as it is. -/
def set (tree : Tree) (name : String) (new : Tree) : Tree :=
  change (fun old => overlaid old new) ((steps? name.toList).getD [.key name]) tree

/-- The tree with the settings of one more layer. -/
def setAll (tree : Tree) (layer : List (String × Tree)) : Tree :=
  layer.foldl (fun tree (name, new) => tree.set name new) tree

/-! ## Conversions -/

def flag? : Tree → Option Bool
  | flag b => some b
  | integer i => some (i != 0)
  | float f => some !f.isZero
  | text s =>
    let word := String.ofList (Text.lower s)
    if word ∈ ["1", "true", "on", "yes"] then some true
    else if word ∈ ["0", "false", "off", "no"] then some false
    else none
  | absent | list _ | table _ => none

def text? : Tree → Option String
  | text s => some s
  | flag b => some (if b then "true" else "false")
  | integer i => some (toString i)
  | float f => some f.positionalText
  | absent | list _ | table _ => none

/-- The conversions between scalars that the merged tree allows. -/
def source : Source Tree where
  entries? names
    | table entries => some entries
    | list items => some (names.zip items)
    | _ => none
  flag? := flag?
  text? := text?
  word?
    | text s => some s
    | table [(key, _)] => some key
    | _ => none
  list?
    | list items => some items
    | _ => none

/-! ## Layers -/

/-- The key of a table that stands for a date or a time. -/
def dateKey : String := "$__toml_private_datetime"

/-- What stands for a date or a time in a table: what is under the date key, if no other key is
before that in order. -/
def markedDate? (entries : List (String × Toml.Value)) : Option Toml.Value :=
  if entries.any fun (name, _) => name < dateKey then none else Members.get? dateKey entries

mutual

/-- The tree of a value of a document. Integers must fit into 64 bits, and decimal numbers must not
be beyond the floats. -/
def ofToml? : Toml.Value → Option Tree
  | .string s => some (text s)
  | .integer i => if Bits.holdsSigned 64 i then some (integer i) else none
  | .float f => some (float f)
  | .huge _ => none
  | .boolean b => some (flag b)
  | .datetime s => some (text s)
  | .array items => (ofTomlItems? items).map list
  | .table entries =>
    match markedDate? entries with
    | some (.string s) => (Toml.datetime? s.toList).map fun cs => text (String.ofList cs)
    | some _ => none
    | none => (ofTomlEntries? entries).map table

def ofTomlItems? : List Toml.Value → Option (List Tree)
  | [] => some []
  | item :: items => do
    let tree ← ofToml? item
    let trees ← ofTomlItems? items
    some (tree :: trees)

def ofTomlEntries? : List (String × Toml.Value) → Option (List (String × Tree))
  | [] => some []
  | (name, value) :: entries => do
    let tree ← ofToml? value
    let trees ← ofTomlEntries? entries
    some ((name, tree) :: trees)

end

/-- The layer of a document, which must not stand for a date or a time. A byte order mark in front of
the document does not belong to it. -/
def ofDocument? (text : String) : Option (List (String × Tree)) := do
  let body := match text.toList with
    | '\ufeff' :: cs => String.ofList cs
    | _ => text
  let entries ← Toml.parse? .standard body
  if (markedDate? entries).isSome then none else ofTomlEntries? entries

def ofSettings (settings : Settings) : List (String × Tree) := [
  ("engine", table [
    ("malformed_rules", text settings.engine.malformedRules.word),
    ("audit", flag settings.engine.audit)]),
  ("widgets", table [
    ("visibility_key", text settings.widgets.visibilityKey),
    ("child_keys", list (settings.widgets.childKeys.map text))]),
  ("logging", table [("filter", text settings.logging.filter)])]

end Tree

end ContentVisibility
