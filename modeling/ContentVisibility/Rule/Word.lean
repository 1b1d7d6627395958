import ContentVisibility.Json.Decoder
import ContentVisibility.Rule.Basic

/-!
# Words for fields and operators

Each field, operator and logic has a word that is written and further words that are read. A field
or an operator that is not known here reads as `unknown`, so that a rule of a newer authoring tool
can still be read.

* `Field.word`, `Operator.word`, `Logic.word`: the written word;
* `Field.vocabulary`, `Operator.vocabulary`, `Logic.vocabulary`: the words that are read;
* `Field.title`, `Operator.title`: the name in messages.
-/

namespace ContentVisibility

/-! ## Fields -/

def Field.word : Field → String
  | .department => "department"
  | .location => "location"
  | .jobTitle => "job_title"
  | .preferredLanguage => "preferred_language"
  | .group => "group"
  | .unknown => "unknown"

def Field.title : Field → String
  | .department => "Department"
  | .location => "Location"
  | .jobTitle => "JobTitle"
  | .preferredLanguage => "PreferredLanguage"
  | .group => "Group"
  | .unknown => "Unknown"

def Field.vocabulary : Json.Vocabulary Field where
  words := [
    ("department", .department), ("Department", .department),
    ("location", .location), ("Location", .location),
    ("job_title", .jobTitle), ("jobTitle", .jobTitle), ("JobTitle", .jobTitle),
    ("preferred_language", .preferredLanguage), ("preferredLanguage", .preferredLanguage),
    ("PreferredLanguage", .preferredLanguage),
    ("group", .group), ("Group", .group), ("groups", .group)]
  unknown := some .unknown

/-! ## Operators -/

def Operator.word : Operator → String
  | .equals => "equals"
  | .notEquals => "not_equals"
  | .isIn => "in"
  | .notIn => "not_in"
  | .contains => "contains"
  | .startsWith => "starts_with"
  | .memberOf => "member_of"
  | .notMemberOf => "not_member_of"
  | .unknown => "unknown"

def Operator.title : Operator → String
  | .equals => "Equals"
  | .notEquals => "NotEquals"
  | .isIn => "In"
  | .notIn => "NotIn"
  | .contains => "Contains"
  | .startsWith => "StartsWith"
  | .memberOf => "MemberOf"
  | .notMemberOf => "NotMemberOf"
  | .unknown => "Unknown"

def Operator.vocabulary : Json.Vocabulary Operator where
  words := [
    ("equals", .equals), ("Equals", .equals),
    ("not_equals", .notEquals), ("notEquals", .notEquals), ("NotEquals", .notEquals),
    ("in", .isIn), ("In", .isIn),
    ("not_in", .notIn), ("notIn", .notIn), ("NotIn", .notIn),
    ("contains", .contains), ("Contains", .contains),
    ("starts_with", .startsWith), ("startsWith", .startsWith), ("StartsWith", .startsWith),
    ("member_of", .memberOf), ("memberOf", .memberOf), ("MemberOf", .memberOf),
    ("not_member_of", .notMemberOf), ("notMemberOf", .notMemberOf), ("NotMemberOf", .notMemberOf)]
  unknown := some .unknown

/-! ## Logics -/

def Logic.word : Logic → String
  | .and => "AND"
  | .or => "OR"

/-- The words for logics; no others are accepted. -/
def Logic.vocabulary : Json.Vocabulary Logic where
  words := [
    ("AND", .and), ("And", .and), ("and", .and), ("OR", .or), ("Or", .or), ("or", .or)]
  unknown := none

end ContentVisibility
