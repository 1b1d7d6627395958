import ContentVisibility.Decimal.Binary64
import ContentVisibility.Json.Value

/-!
# TOML values

* `Value`: a value of a TOML document; the document is a table;
* `Node`: a value while the document is read, when tables may still grow;
* `Dialect`: which tables a key with dots may add to;
* `Node.assign`, `Node.putSection`: the two ways in which a document gives a table an entry.
-/

namespace ContentVisibility.Toml

open Json (Members.get? Members.put)

/-- A value of a TOML document. -/
inductive Value where
  | string (value : String)
  | integer (value : Int)
  | float (value : Decimal.Binary64)
  /-- A decimal number beyond the largest float. -/
  | huge (negative : Bool)
  | boolean (value : Bool)
  /-- A date, a time or both, in normal form. -/
  | datetime (text : String)
  | array (items : List Value)
  | table (entries : List (String × Value))
  deriving Repr

/-- What has made a table. -/
inductive Origin where
  /-- A header of its own; the document itself counts as such a table. -/
  | header
  /-- The header of a table inside it. -/
  | passage
  /-- A key with dots. -/
  | dots
  deriving DecidableEq, Repr

/-- How documents are read. -/
structure Dialect where
  /-- Whether a key with dots may add to a table that the header of a table inside it has made. -/
  keysExtend : Bool
  deriving DecidableEq, Repr

/-- Tables may be extended by keys with dots until they get a header of their own. -/
def Dialect.standard : Dialect := ⟨true⟩

/-- A table is given by headers or by keys with dots, but not by both. -/
def Dialect.strict : Dialect := ⟨false⟩

/-- Whether an entry under a key with dots may go into a table. -/
def Dialect.admits (dialect : Dialect) : Origin → Bool
  | .header => false
  | .passage => dialect.keysExtend
  | .dots => true

/-- A value while the document is read. -/
inductive Node where
  /-- A value that is complete, such as a scalar, a list or a table between braces. -/
  | closed (value : Value)
  | table (origin : Origin) (entries : List (String × Node))
  /-- A list of tables, each given by a header; the last one may still grow. -/
  | tables (earlier : List (List (String × Node))) (last : List (String × Node))

namespace Node

abbrev Entries := List (String × Node)

/-! ## Growing tables -/

/-- Change the table at the end of a path; tables on the way that are missing are made by `made`. A
key with dots passes only through tables that have no header of their own. -/
def update (made : Origin) (change : Origin → Entries → Option (Origin × Entries)) :
    List String → Origin → Entries → Option (Origin × Entries)
  | [], origin, entries => change origin entries
  | key :: path, origin, entries =>
    match Members.get? key entries with
    | none => do
      let (inside, inner) ← update made change path made []
      some (origin, entries ++ [(key, .table inside inner)])
    | some (.table inside inner) =>
      if made = .dots && inside = .header then none
      else do
        let (inside, inner) ← update made change path inside inner
        some (origin, Members.put key (.table inside inner) entries)
    | some (.tables earlier last) => do
      let (_, last) ← update made change path .header last
      some (origin, Members.put key (.tables earlier last) entries)
    | some (.closed _) => none

/-- A key with the path of tables before it. -/
structure Path where
  tables : List String
  key : String
  deriving DecidableEq, Repr

/-- Give a table an entry, whose key may have dots. A table that gets an entry under a key with dots
can no longer get a header. -/
def assign (dialect : Dialect) (entries : Entries) (path : Path) (value : Value) : Option Entries :=
  let insert (origin : Origin) (inner : Entries) : Option (Origin × Entries) :=
    if (Members.get? path.key inner).isSome then none
    else if path.tables.isEmpty then some (origin, inner ++ [(path.key, .closed value)])
    else if dialect.admits origin then some (.dots, inner ++ [(path.key, .closed value)])
    else none
  (update .dots insert path.tables .header entries).map Prod.snd

def assignAll (dialect : Dialect) (entries : Entries) (assignments : List (Path × Value)) :
    Option Entries :=
  assignments.foldlM (fun entries (path, value) => assign dialect entries path value) entries

/-- A header and the entries below it. -/
structure Section where
  path : Path
  /-- Whether the header adds a table to a list of tables. -/
  repeated : Bool
  assignments : List (Path × Value)

/-- Put the table of a header into the document. A header may take over a table that was made on the
way to another header. -/
def putSection (dialect : Dialect) (document : Entries) (s : Section) : Option Entries :=
  let key := s.path.key
  let single (entries : Entries) : Option Entries := do
    let start ← match Members.get? key entries with
      | none => some []
      | some (.table .passage inner) => some inner
      | some _ => none
    let inner ← assignAll dialect start s.assignments
    some (Members.put key (.table .header inner) entries)
  let another (entries : Entries) : Option Entries := do
    let inner ← assignAll dialect [] s.assignments
    match Members.get? key entries with
    | none => some (entries ++ [(key, .tables [] inner)])
    | some (.tables earlier last) =>
      some (Members.put key (.tables (earlier ++ [last]) inner) entries)
    | some _ => none
  let change (origin : Origin) (entries : Entries) : Option (Origin × Entries) :=
    ((if s.repeated then another else single) entries).map (origin, ·)
  (update .passage change s.path.tables .header document).map Prod.snd

/-! ## Finished values -/

mutual

def value : Node → Value
  | closed value => value
  | table _ entries => .table (entryValues entries)
  | tables earlier last => .array (tableValues earlier ++ [.table (entryValues last)])

def entryValues : List (String × Node) → List (String × Value)
  | [] => []
  | (key, node) :: entries => (key, node.value) :: entryValues entries

def tableValues : List (List (String × Node)) → List Value
  | [] => []
  | entries :: others => .table (entryValues entries) :: tableValues others

end

end Node

end ContentVisibility.Toml
