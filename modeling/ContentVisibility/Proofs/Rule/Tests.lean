import ContentVisibility.Rule.Issue
import ContentVisibility.Rule.Evaluation
import Mathlib.Data.List.Basic

/-!
# The test that a condition stands for

* `Condition.groupsAmong`: the groups that values name;
* `Condition.MakesSense.test`: a condition that makes sense is a test of groups or of an attribute,
  against a list or against one value;
* `Condition.MakesSense.result_test`: the test, if the condition says what it compares with;
* `Condition.result_test_of_not_makesSense`: any other condition stands for no test;
* `Condition.holds_decideUntil`: what conditions come to that are looked at one after another.
-/

namespace ContentVisibility

/-- Whether the operator asks for something to be so; the negated operators ask for it not to be so. -/
def Operator.wanted : Operator → Bool
  | .notEquals | .notIn | .notMemberOf => false
  | .equals | .isIn | .contains | .startsWith | .memberOf | .unknown => true

namespace Condition

variable {c : Condition}

/-! ## Groups that values name -/

/-- Whether a value names no group. -/
def namesNone (value : String) : Bool := (Identifier.parse? value : Option GroupId).isNone

/-- The groups that the values name. -/
def groupsAmong (values : List String) : List GroupId := values.filterMap Identifier.parse?

theorem result_groupsNamed (operator : Operator) (values : List String) :
    (groupsNamed operator values).result =
      if groupsAmong values = [] then none else some (groupsAmong values) := by
  simp only [groupsNamed, List.filterMap_map, List.isEmpty_iff]
  rw [List.filterMap_congr (g := Identifier.parse?)]
  · rfl
  · intro value _
    rw [Function.comp_apply, Identifier.parse]
    cases (Identifier.parse? value : Option GroupId) <;> rfl

theorem groupsAmong_eq_nil_iff {values : List String} :
    groupsAmong values = [] ↔ ∀ value ∈ values, namesNone value = true := by
  rw [groupsAmong, List.filterMap_eq_nil_iff]
  simp only [namesNone, Option.isNone_iff_eq_none]

theorem groupsAmong_filter (values : List String) :
    groupsAmong (values.filter fun value => !namesNone value) = groupsAmong values := by
  rw [groupsAmong, List.filterMap_filter, groupsAmong]
  refine List.filterMap_congr fun value _ => ?_
  rw [namesNone]
  cases (Identifier.parse? value : Option GroupId) <;> rfl

/-- The test on the groups that the values name, if there is one. -/
def membersTest? (wanted : Bool) (values : List String) : Option Test :=
  if groupsAmong values = [] then none else some (.member (groupsAmong values) wanted)

theorem membersTest?_eq_none_iff {wanted : Bool} {values : List String} :
    membersTest? wanted values = none ↔ ∀ value ∈ values, namesNone value = true := by
  rw [membersTest?, ← groupsAmong_eq_nil_iff]
  split <;> simp_all

theorem membersTest?_filter (wanted : Bool) (values : List String) :
    membersTest? wanted (values.filter fun value => !namesNone value) = membersTest? wanted values := by
  rw [membersTest?, groupsAmong_filter, membersTest?]

/-! ## Conditions that make sense -/

theorem test_of_unknown (h : c.field = .unknown ∨ c.operator = .unknown) :
    c.test = .useless (.unsupported c.field c.operator .unknownWord) := by
  obtain ⟨field, operator, value, values⟩ := c
  rcases h with rfl | rfl
  · cases operator <;> rfl
  · cases field <;> rfl

theorem test_of_comparison (hfield : c.field = .group)
    (hop : c.operator = .contains ∨ c.operator = .startsWith) :
    c.test = .useless (.unsupported c.field c.operator .comparisonOfGroups) := by
  obtain ⟨field, operator, value, values⟩ := c
  obtain rfl : field = .group := hfield
  rcases hop with rfl | rfl <;> rfl

/-- The field and the operator are known, and the operator compares what the field is. -/
structure MakesSense (c : Condition) : Prop where
  field : c.field ≠ .unknown
  operator : c.operator ≠ .unknown
  comparison : ¬ (c.field = .group ∧ (c.operator = .contains ∨ c.operator = .startsWith))

/-- The test of an attribute against the values. -/
def attributeTest (c : Condition) (values : List String) : Test :=
  match c.operator, values with
  | .contains, [value] => .contains c.field value
  | .startsWith, [value] => .startsWith c.field value
  | operator, values => .among c.field values operator.wanted

/-- A condition that makes sense is a test of groups or of an attribute, against a list or against one
value. -/
theorem MakesSense.test (h : c.MakesSense) :
    c.test =
      if c.operator.takesList then
        if c.namesGroups then c.groupsTest c.operator.wanted else c.operands.map c.attributeTest
      else
        if c.namesGroups then c.groupTest c.operator.wanted
        else c.operand.map fun value => c.attributeTest [value] := by
  obtain ⟨hfield, hop, hcompared⟩ := h
  obtain ⟨field, operator, value, values⟩ := c
  cases operator <;> cases field <;> first | rfl | simp_all

/-! ## Tests that conditions stand for -/

theorem result_groupTest_eq (c : Condition) (wanted : Bool) :
    (c.groupTest wanted).result = c.value.bind fun value => membersTest? wanted [value] := by
  rw [groupTest, operand]
  cases c.value with
  | none => rfl
  | some value =>
    simp only [Reading.clean, Reading.bind, Reading.map, groupNamed, Identifier.parse,
      Option.bind_some, membersTest?, groupsAmong]
    cases hread : (Identifier.parse? value : Option GroupId) <;> simp [hread, Reading.useless]

theorem result_groupsTest_eq (c : Condition) (wanted : Bool) :
    (c.groupsTest wanted).result = c.values.bind (membersTest? wanted) := by
  rw [groupsTest, operands]
  cases c.values with
  | none => rfl
  | some values =>
    simp only [Reading.clean, Reading.bind, Reading.map, result_groupsNamed, Option.bind_some,
      membersTest?]
    split <;> rfl

theorem result_operand_map (c : Condition) (f : String → Test) :
    (c.operand.map f).result = c.value.map f := by
  rw [operand]
  cases c.value <;> rfl

theorem result_operands_map (c : Condition) (f : List String → Test) :
    (c.operands.map f).result = c.values.map f := by
  rw [operands]
  cases c.values <;> rfl

/-- The values that a condition compares with: those of its list, or the one that it has. -/
def comparands (c : Condition) : Option (List String) :=
  if c.operator.takesList then c.values else c.value.map fun value => [value]

/-- The test against the values, if there is one. -/
def testOf? (c : Condition) (values : List String) : Option Test :=
  if c.namesGroups then membersTest? c.operator.wanted values else some (c.attributeTest values)

/-- The test that a condition stands for, if it makes sense and says what it compares with. -/
theorem MakesSense.result_test (h : c.MakesSense) : c.test.result = c.comparands.bind c.testOf? := by
  rw [h.test, comparands]
  unfold testOf?
  cases c.operator.takesList <;> cases c.namesGroups <;>
    simp only [if_true, if_false, Bool.false_eq_true]
  · rw [result_operand_map, Option.bind_map]
    exact Option.map_eq_bind
  · rw [result_groupTest_eq, Option.bind_map]
    rfl
  · rw [result_operands_map]
    exact Option.map_eq_bind
  · exact c.result_groupsTest_eq c.operator.wanted

theorem result_test_of_not_makesSense (h : ¬ c.MakesSense) : c.test.result = none := by
  by_cases hunknown : c.field = .unknown ∨ c.operator = .unknown
  · rw [test_of_unknown hunknown]
    rfl
  · by_cases hcompared : c.field = .group ∧ (c.operator = .contains ∨ c.operator = .startsWith)
    · rw [test_of_comparison hcompared.1 hcompared.2]
      rfl
    · rw [not_or] at hunknown
      exact absurd ⟨hunknown.1, hunknown.2, hcompared⟩ h

/-! ## Decisions -/

theorem decide_holds_iff (c : Condition) (user : User) :
    (c.decide user).holds = true ↔ ∃ t ∈ c.test.result, t.holds user = true :=
  Option.any_eq_true _ _

theorem MakesSense.holds_decide (h : c.MakesSense) (user : User) :
    (c.decide user).holds = c.comparands.any fun values => (c.testOf? values).any (Test.holds user) := by
  rw [decide, h.result_test]
  cases c.comparands <;> rfl

theorem holds_of_not_makesSense (h : ¬ c.MakesSense) (user : User) : (c.decide user).holds = false := by
  rw [decide, result_test_of_not_makesSense h]
  rfl

theorem holds_decideUntil (stop : Bool) (user : User) (cs : List Condition) :
    (decideUntil stop user cs).holds = stop ↔ ∃ c ∈ cs, (c.decide user).holds = stop := by
  induction cs with
  | nil => cases stop <;> simp [decideUntil]
  | cons c cs ih =>
    rw [decideUntil]
    split
    · next h => simp [h]
    · next h => simp [h, ih]

end Condition

end ContentVisibility
