import ContentVisibility.Identifier.Spelling
import ContentVisibility.Rule.Word

/-!
# Issues of a rule

A rule that can be read may still hold conditions that never match. An authoring tool shows these
before the rule is saved; a decision takes the rule as it is.

* `Flaw`: what is wrong with a condition;
* `Issue`: what is wrong with a rule;
* `Rule.issues`: all issues of a rule, in order.
-/

namespace ContentVisibility

/-- What is wrong with a condition. -/
inductive Flaw where
  | unknownField
  | unknownOperator
  | missingValue (operator : Operator)
  | missingValues (operator : Operator)
  | invalidGroupId (value : String)
  | unsupportedOperator (field : Field) (operator : Operator)
  deriving DecidableEq, Repr

def Flaw.message : Flaw → String
  | .unknownField => "unknown field"
  | .unknownOperator => "unknown operator"
  | .missingValue operator => s!"{operator.title} requires `value`"
  | .missingValues operator => s!"{operator.title} requires `values`"
  | .invalidGroupId value => s!"'{value}' is not a valid group id"
  | .unsupportedOperator field operator => s!"{operator.title} is not supported on {field.title}"

/-- What is wrong with a rule. -/
inductive Issue where
  | emptyGroupList
  | emptyOrRuleSet
  /-- The condition at the index, counted from zero, has a flaw. -/
  | condition (index : Nat) (flaw : Flaw)
  deriving DecidableEq, Repr

def Issue.message : Issue → String
  | .emptyGroupList => "group rule lists no groups and can never match"
  | .emptyOrRuleSet => "OR rule set has no conditions and can never match"
  | .condition index flaw => s!"condition {index}: {flaw.message}"

namespace Condition

/-- Whether the values of the condition name groups. -/
def namesGroups (c : Condition) : Bool :=
  c.operator = .memberOf || c.operator = .notMemberOf || c.field = .group

/-- The values among the given ones that name no group, where they should. -/
def invalidGroups (c : Condition) (values : List String) : List Flaw :=
  if c.namesGroups then
    (values.filter fun value => (Identifier.parse? value : Option GroupId).isNone).map .invalidGroupId
  else []

/-- What is wrong with the operator and the values of a condition. -/
def operandFlaws (c : Condition) : List Flaw :=
  if c.operator = .unknown then [.unknownOperator]
  else if c.field = .group ∧ (c.operator = .contains ∨ c.operator = .startsWith) then
    [.unsupportedOperator c.field c.operator]
  else if c.operator.takesList then
    match c.values with
    | some values => c.invalidGroups values
    | none => [.missingValues c.operator]
  else
    match c.value with
    | some value => c.invalidGroups [value]
    | none => [.missingValue c.operator]

def flaws (c : Condition) : List Flaw :=
  (if c.field = .unknown then [.unknownField] else []) ++ c.operandFlaws

end Condition

def RuleSet.issues (set : RuleSet) : List Issue :=
  (if set.logic = .or ∧ set.conditions = [] then [.emptyOrRuleSet] else []) ++
    set.conditions.zipIdx.flatMap fun (c, index) => c.flaws.map (.condition index)

def Rule.issues : Rule → List Issue
  | .all => []
  | .groups ids => if ids.entries.isEmpty then [.emptyGroupList] else []
  | .rules set => set.issues

end ContentVisibility
