import ContentVisibility.User.Basic

/-!
# Rules

A rule guards a piece of content: it admits everyone, the members of some groups, or the users for
whom a set of conditions holds.

* `Field`, `Operator`, `Condition`: a condition on an attribute or on the groups of a user;
* `Logic`, `RuleSet`: conditions of which all or at least one must hold;
* `Rule`: a rule.
-/

namespace ContentVisibility

/-- What a condition looks at. -/
inductive Field where
  | department
  | location
  | jobTitle
  | preferredLanguage
  /-- The groups of the user. -/
  | group
  /-- A word that is not known here; a condition on it never holds. -/
  | unknown
  deriving DecidableEq, Repr

/-- How a condition compares. -/
inductive Operator where
  | equals
  | notEquals
  | isIn
  | notIn
  | contains
  | startsWith
  | memberOf
  | notMemberOf
  /-- A word that is not known here; a condition with it never holds. -/
  | unknown
  deriving DecidableEq, Repr

/-- Whether the operator compares with a list of values. -/
def Operator.takesList (operator : Operator) : Bool := operator = .isIn || operator = .notIn

/-- The attribute that a condition looks at; the groups are not an attribute. -/
def User.attribute (user : User) : Field → Option String
  | .department => user.department
  | .location => user.location
  | .jobTitle => user.jobTitle
  | .preferredLanguage => user.preferredLanguage
  | .group | .unknown => none

/-- A condition on a user. -/
structure Condition where
  field : Field
  operator : Operator
  /-- What to compare with. -/
  value : Option String
  /-- What to compare with, for operators that take a list. -/
  values : Option (List String)
  deriving DecidableEq, Repr

namespace Condition

def single (field : Field) (operator : Operator) (value : String) : Condition :=
  ⟨field, operator, some value, none⟩

/-- A condition that compares with a list of values. -/
def multiple (field : Field) (operator : Operator) (values : List String) : Condition :=
  ⟨field, operator, none, some values⟩

def memberOf (group : GroupId) : Condition := single .group .memberOf group.text

def notMemberOf (group : GroupId) : Condition := single .group .notMemberOf group.text

end Condition

/-- How many conditions of a set must hold. -/
inductive Logic where
  /-- All of them. -/
  | and
  /-- At least one. -/
  | or
  deriving DecidableEq, Repr

/-- Conditions, and how many of them must hold. -/
structure RuleSet where
  logic : Logic
  conditions : List Condition
  deriving DecidableEq, Repr

namespace RuleSet

def empty (logic : Logic) : RuleSet := ⟨logic, []⟩

/-- The set with one more condition at its end. -/
def adding (rules : RuleSet) (condition : Condition) : RuleSet :=
  { rules with conditions := rules.conditions ++ [condition] }

end RuleSet

/-- What guards a piece of content. -/
inductive Rule where
  /-- Everyone is admitted. -/
  | all
  /-- The members of any of the groups are admitted. -/
  | groups (ids : GroupSet)
  /-- The users are admitted for whom the set holds. -/
  | rules (set : RuleSet)

end ContentVisibility
