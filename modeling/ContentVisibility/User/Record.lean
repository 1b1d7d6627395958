import ContentVisibility.Json.Record
import ContentVisibility.User.Basic

/-!
# User records

* `GroupSet.decoder`, `User.decoder`: how sets of groups and users are read;
* `GroupSet.json`, `User.json`: how they are written.
-/

namespace ContentVisibility

/-! ## Reading -/

/-- A set of groups is read from a list of identifiers in any order. -/
def GroupSet.decoder : Json.Decoder GroupSet := (Json.Decoder.list .id).map Catalog.ofList

/-- An attribute, which a record may leave out. -/
def User.attributeField (name : String) : Json.FieldSpec (Option String) :=
  .defaulted name (.optional .string) none

/-- A user is read from a record with at least an identifier; an account is active unless the record
says otherwise. -/
def User.decoder : Json.Decoder User :=
  .record "struct UserSnapshot"
    (.field (.required "user_id" .id) <|
      .field (attributeField "department") <|
      .field (attributeField "location") <|
      .field (attributeField "job_title") <|
      .field (attributeField "preferred_language") <|
      .field (.defaulted "group_ids" GroupSet.decoder .empty) <|
      .field (.defaulted "active" .bool true) .done)
    fun (id, department, location, jobTitle, preferredLanguage, groups, active, ()) =>
      ⟨id, department, location, jobTitle, preferredLanguage, groups, active⟩

def User.parse (s : String) : Except Json.Fault User := User.decoder.text.readText s

/-! ## Writing -/

/-- A text, or null for none. -/
def optionalText (s : Option String) : Json.Value := (s.map .string).getD .null

def GroupSet.json (groups : GroupSet) : Json.Value :=
  .array (groups.entries.map fun group => .string group.text)

/-- The record of a user, with all its fields. -/
def User.json (user : User) : Json.Value :=
  .object [
    ("user_id", .string user.id.text),
    ("department", optionalText user.department),
    ("location", optionalText user.location),
    ("job_title", optionalText user.jobTitle),
    ("preferred_language", optionalText user.preferredLanguage),
    ("group_ids", user.groups.json),
    ("active", .bool user.active)]

def User.text (user : User) : String := user.json.text

end ContentVisibility
