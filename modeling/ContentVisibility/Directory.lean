import ContentVisibility.User.Record

/-!
# Directories

* `Outage`: why a directory or a membership store gives no answer;
* `Directory`: users by identifier, in ascending order;
* `Directory.parse`: the directory that a text lists; of two records with one identifier the later
  one is kept.
-/

namespace ContentVisibility

/-- Why a directory or a membership store gives no answer. -/
inductive Outage where
  | directory (reason : String)
  | memberships (user : UserId) (reason : String)
  /-- What is stored cannot be decoded. -/
  | invalidData (fault : Json.Fault)
  deriving DecidableEq, Repr

def Outage.message : Outage → String
  | directory reason => s!"User directory unavailable: {reason}"
  | memberships user reason => s!"Group membership lookup failed for user {user.text}: {reason}"
  | invalidData fault => s!"Invalid directory data: {fault.message}"

/-- Users, at most one for each identifier. -/
abbrev Directory := Catalog User fun user => user.id.number

namespace Directory

def user? (directory : Directory) (id : UserId) : Option User := directory.find? id.number

/-- The groups that the record of a user lists; none without a record. -/
def groupsOf (directory : Directory) (id : UserId) : GroupSet :=
  ((directory.user? id).map User.groups).getD .empty

def userIds (directory : Directory) : List UserId := directory.entries.map User.id

def isEmpty (directory : Directory) : Bool := directory.entries.isEmpty

def reader : Json.Reader Directory := do
  let users ← (Json.Decoder.list User.decoder).text
  pure (Catalog.ofList users)

def parse (s : String) : Except Json.Fault Directory := reader.readText s

def invalid (fault : Json.Fault) : String := (Outage.invalidData fault).message

end Directory

end ContentVisibility
