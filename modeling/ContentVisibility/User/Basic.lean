import ContentVisibility.Catalog
import ContentVisibility.Identifier.Basic

/-!
# Users

* `GroupSet`: a set of groups in ascending order;
* `User`: what is known of a user at the time of a decision.
-/

namespace ContentVisibility

abbrev GroupSet := Catalog GroupId Identifier.number

namespace GroupSet

def contains (groups : GroupSet) (group : GroupId) : Bool := (groups.find? group.number).isSome

/-- Whether the two sets have a group in common. -/
def meets (groups others : GroupSet) : Bool := groups.entries.any others.contains

end GroupSet

/-- What is known of a user. Records are often incomplete, so each attribute may be missing. -/
structure User where
  id : UserId
  department : Option String
  location : Option String
  jobTitle : Option String
  preferredLanguage : Option String
  groups : GroupSet
  /-- False for accounts that were deleted or switched off. -/
  active : Bool

namespace User

/-- An active user without attributes and groups. -/
def ofId (id : UserId) : User := ⟨id, none, none, none, none, .empty, true⟩

def joining (user : User) (group : GroupId) : User :=
  { user with groups := user.groups.put group }

def joiningAll (user : User) (groups : GroupSet) : User :=
  { user with groups := user.groups.putAll groups.entries }

/-- The user, whose account is switched off. -/
def deactivated (user : User) : User := { user with active := false }

def isMemberOf (user : User) (group : GroupId) : Bool := user.groups.contains group

end User

end ContentVisibility
