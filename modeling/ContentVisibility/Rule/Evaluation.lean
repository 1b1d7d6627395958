import ContentVisibility.Identifier.Spelling
import ContentVisibility.Rule.Basic
import ContentVisibility.Text.Fold

/-!
# Deciding a rule

A condition is first made into a test of the user. What is wrong with the condition is reported as
warnings while that is done, whatever the user; without a test the condition does not hold. The
conditions of a set are looked at in order, up to the first one that settles the result.

* `Test`: what a usable condition asks of a user;
* `Condition.test`: the test that a condition stands for, and the warnings about it;
* `Condition.decide`, `RuleSet.decide`, `Rule.decide`: the decision for a user.
-/

namespace ContentVisibility

/-! ## Warnings -/

/-- Why a condition cannot be used. -/
inductive Unsupported where
  | unknownWord
  | comparisonOfGroups
  deriving DecidableEq, Repr

/-- What is wrong with a condition that is being decided. -/
inductive Warning where
  | unsupported (field : Field) (operator : Operator) (reason : Unsupported)
  | missingValue (field : Field) (operator : Operator)
  | missingValues (field : Field) (operator : Operator)
  /-- The one group of the condition cannot be read. -/
  | malformedGroup (operator : Operator) (error : Identifier.ParseError)
  /-- One of several groups cannot be read and is left out. -/
  | skippedGroup (operator : Operator) (error : Identifier.ParseError)
  deriving DecidableEq, Repr

/-! ## Tests -/

/-- What a condition asks of a user. A missing attribute is among no values. -/
inductive Test where
  /-- Whether the attribute equals one of the values, as wanted. -/
  | among (field : Field) (values : List String) (wanted : Bool)
  | contains (field : Field) (value : String)
  | startsWith (field : Field) (value : String)
  /-- Whether the user belongs to one of the groups, as wanted. -/
  | member (groups : List GroupId) (wanted : Bool)
  deriving DecidableEq, Repr

/-- Whether the test holds of a user. Texts are compared in lower case. -/
def Test.holds (user : User) : Test → Bool
  | among field values wanted =>
    ((user.attribute field).any fun a => values.any fun v => Text.foldsTo a v) == wanted
  | contains field value =>
    (user.attribute field).any fun a => Text.occursIn (Text.lower value) (Text.lower a)
  | startsWith field value =>
    (user.attribute field).any fun a => (Text.lower value).isPrefixOf (Text.lower a)
  | member groups wanted => groups.any user.isMemberOf == wanted

/-! ## From conditions to tests -/

/-- Warnings, and what could be made in spite of them. -/
structure Reading (α : Type) where
  warnings : List Warning
  result : Option α
  deriving DecidableEq, Repr

namespace Reading

def clean (a : α) : Reading α := ⟨[], some a⟩

def useless (warning : Warning) : Reading α := ⟨[warning], none⟩

def map (f : α → β) (r : Reading α) : Reading β := ⟨r.warnings, r.result.map f⟩

/-- Make something of the result that may be warned about too. -/
def bind (r : Reading α) (f : α → Reading β) : Reading β :=
  match r.result with
  | some a => ⟨r.warnings ++ (f a).warnings, (f a).result⟩
  | none => ⟨r.warnings, none⟩

end Reading

namespace Condition

def operand (c : Condition) : Reading String :=
  match c.value with
  | some value => .clean value
  | none => .useless (.missingValue c.field c.operator)

def operands (c : Condition) : Reading (List String) :=
  match c.values with
  | some values => .clean values
  | none => .useless (.missingValues c.field c.operator)

def groupNamed (operator : Operator) (value : String) : Reading GroupId :=
  match Identifier.parse value with
  | .ok group => .clean group
  | .error e => .useless (.malformedGroup operator e)

/-- The groups that the values name, those left out that cannot be read. If all are, nothing is
left to compare with. -/
def groupsNamed (operator : Operator) (values : List String) : Reading (List GroupId) :=
  let parsed := values.map fun value => (Identifier.parse value : Except Identifier.ParseError GroupId)
  let groups := parsed.filterMap fun
    | .ok group => some group
    | .error _ => none
  ⟨parsed.filterMap fun
      | .ok _ => none
      | .error e => some (.skippedGroup operator e),
    if groups.isEmpty then none else some groups⟩

def groupTest (c : Condition) (wanted : Bool) : Reading Test :=
  (c.operand.bind (groupNamed c.operator)).map fun group => .member [group] wanted

/-- The test on the groups of the user, for several groups. -/
def groupsTest (c : Condition) (wanted : Bool) : Reading Test :=
  (c.operands.bind (groupsNamed c.operator)).map fun groups => .member groups wanted

/-- The test that a condition stands for. Operators of membership ignore the field, and on the
groups the comparisons for equality are tests of membership. -/
def test (c : Condition) : Reading Test :=
  match c.field, c.operator with
  | _, .unknown | .unknown, _ => .useless (.unsupported c.field c.operator .unknownWord)
  | _, .memberOf | .group, .equals => c.groupTest true
  | _, .notMemberOf | .group, .notEquals => c.groupTest false
  | .group, .isIn => c.groupsTest true
  | .group, .notIn => c.groupsTest false
  | .group, .contains | .group, .startsWith =>
    .useless (.unsupported c.field c.operator .comparisonOfGroups)
  | field, .equals => c.operand.map fun value => .among field [value] true
  | field, .notEquals => c.operand.map fun value => .among field [value] false
  | field, .isIn => c.operands.map fun values => .among field values true
  | field, .notIn => c.operands.map fun values => .among field values false
  | field, .contains => c.operand.map fun value => .contains field value
  | field, .startsWith => c.operand.map fun value => .startsWith field value

end Condition

/-! ## Decisions -/

/-- The outcome of a decision, and the warnings given on the way. -/
structure Decision where
  holds : Bool
  warnings : List Warning
  deriving DecidableEq, Repr

def Condition.decide (c : Condition) (user : User) : Decision :=
  ⟨c.test.result.any (Test.holds user), c.test.warnings⟩

/-- Look at the conditions in order up to the first one with the outcome `stop`. -/
def Condition.decideUntil (stop : Bool) (user : User) : List Condition → Decision
  | [] => ⟨!stop, []⟩
  | c :: cs =>
    let first := c.decide user
    if first.holds = stop then first
    else
      let others := decideUntil stop user cs
      ⟨others.holds, first.warnings ++ others.warnings⟩

def RuleSet.decide (set : RuleSet) (user : User) : Decision :=
  match set.logic with
  | .and => Condition.decideUntil false user set.conditions
  | .or => Condition.decideUntil true user set.conditions

/-- Whether the rule admits the user. -/
def Rule.decide (rule : Rule) (user : User) : Decision :=
  match rule with
  | .all => ⟨true, []⟩
  | .groups ids => ⟨ids.meets user.groups, []⟩
  | .rules set => set.decide user

end ContentVisibility
