import ContentVisibility.Proofs.Rule.Flaws
import ContentVisibility.Proofs.Text.Fold
import ContentVisibility.Proofs.User.Groups

/-!
# Conditions that somebody meets

Issues are to tell the conditions that nobody meets. They do, but for lists: a condition on groups is
flagged for each value that names no group and still goes by the others, and a condition is not flagged
for an empty list, which nothing is among.

* `Test.exists_holds_iff`: the tests that somebody passes;
* `Condition.exists_holds_iff`: the conditions that somebody meets;
* `Condition.never_holds_iff_of_flaws`: nobody meets a flagged condition, unless it `ListsGroup`;
* `Condition.exists_holds_iff_of_flaws`: somebody meets the others, unless they are `OfNothing`;
* `RuleSet.flagged_never_holds`: what an issue says about the condition at its index;
* `Rule.unflagged_can_hold`: what it says that there is none.
-/

namespace ContentVisibility

/-! ## Tests that somebody passes -/

/-- The field is an attribute of users. -/
def Field.IsAttribute (field : Field) : Prop := field ≠ .group ∧ field ≠ .unknown

/-- An active user of whom nothing else is known than that all attributes have the value. -/
def User.described (value : String) : User :=
  { User.ofId (.ofNumber 0) with
    department := some value, location := some value, jobTitle := some value,
    preferredLanguage := some value }

theorem User.attribute_described {field : Field} (h : field.IsAttribute) (value : String) :
    (User.described value).attribute field = some value := by
  cases field with
  | department | location | jobTitle | preferredLanguage => rfl
  | group => exact absurd rfl h.1
  | unknown => exact absurd rfl h.2

theorem User.isAttribute_of_some {user : User} {field : Field} {value : String}
    (h : user.attribute field = some value) : field.IsAttribute := by
  constructor <;> rintro rfl <;> cases h

/-- An active user of whom nothing else is known than one group. -/
def User.grouped (group : GroupId) : User := (User.ofId (.ofNumber 0)).joining group

theorem User.isMemberOf_grouped (group : GroupId) : (User.grouped group).isMemberOf group = true :=
  (GroupSet.contains_put _ group group).2 (.inr rfl)

namespace Test

/-- There is something that the test can find: a value for an attribute, or a group. A test for
something not to be found can always be passed. -/
def Passable : Test → Prop
  | among field values wanted => wanted = true → values ≠ [] ∧ field.IsAttribute
  | contains field _ | startsWith field _ => field.IsAttribute
  | member groups wanted => wanted = true → groups ≠ []

/-- **Somebody passes a test if and only if there is something that it can find.** -/
theorem exists_holds_iff (t : Test) : (∃ user, t.holds user = true) ↔ t.Passable := by
  have hfold : ∀ value, Text.foldsTo value value = true := fun value => by simp [Text.foldsTo]
  -- what is to be found is given to a user made for it; what is not to be found nobody has to have
  cases t with
  | among field values wanted =>
    cases wanted with
    | false => exact ⟨fun _ => nofun, fun _ => ⟨User.ofId (.ofNumber 0), by cases field <;> rfl⟩⟩
    | true =>
      simp only [holds, beq_true, Option.any_eq_true]
      constructor
      · rintro ⟨user, a, ha, hvalue⟩ -
        obtain ⟨value, hvalue, -⟩ := List.any_eq_true.1 hvalue
        exact ⟨List.ne_nil_of_mem hvalue, User.isAttribute_of_some ha⟩
      · intro h
        obtain ⟨hne, hfield⟩ := h rfl
        obtain ⟨value, others, rfl⟩ := List.exists_cons_of_ne_nil hne
        exact ⟨User.described value, value, User.attribute_described hfield value,
          List.any_eq_true.2 ⟨value, List.mem_cons_self .., hfold value⟩⟩
  | contains field value =>
    simp only [holds, Option.any_eq_true]
    constructor
    · rintro ⟨user, a, ha, -⟩
      exact User.isAttribute_of_some ha
    · intro hfield
      exact ⟨User.described value, value, User.attribute_described hfield value,
        Text.occursIn_iff.2 List.infix_rfl⟩
  | startsWith field value =>
    simp only [holds, Option.any_eq_true]
    constructor
    · rintro ⟨user, a, ha, -⟩
      exact User.isAttribute_of_some ha
    · intro hfield
      exact ⟨User.described value, value, User.attribute_described hfield value,
        List.isPrefixOf_iff_prefix.2 List.prefix_rfl⟩
  | member groups wanted =>
    cases wanted with
    | false =>
      have hnone : ∀ group ∈ groups, (User.ofId (.ofNumber 0)).isMemberOf group = false :=
        fun _ _ => rfl
      exact ⟨fun _ => nofun, fun _ => ⟨User.ofId (.ofNumber 0), by simpa [holds] using hnone⟩⟩
    | true =>
      simp only [holds, beq_true, List.any_eq_true]
      constructor
      · rintro ⟨user, group, hgroup, -⟩ -
        exact List.ne_nil_of_mem hgroup
      · intro h
        obtain ⟨group, others, rfl⟩ := List.exists_cons_of_ne_nil (h rfl)
        exact ⟨User.grouped group, group, List.mem_cons_self .., User.isMemberOf_grouped group⟩

end Test

namespace Condition

variable {c : Condition}

theorem exists_holds_iff (c : Condition) :
    (∃ user, (c.decide user).holds = true) ↔ ∃ t ∈ c.test.result, t.Passable := by
  simp only [decide_holds_iff, ← Test.exists_holds_iff]
  exact ⟨fun ⟨user, t, ht, hholds⟩ => ⟨t, ht, user, hholds⟩,
    fun ⟨t, ht, user, hholds⟩ => ⟨user, t, ht, hholds⟩⟩

theorem passable_of_mem_membersTest? {wanted : Bool} {values : List String} {t : Test}
    (h : t ∈ membersTest? wanted values) : t.Passable := by
  rw [membersTest?] at h
  split at h
  · cases h
  · next hne =>
    cases h
    exact fun _ => hne

/-! ## Flagged conditions -/

theorem makesSense_of_flaws (h : c.flaws = []) : c.MakesSense := by
  rw [flaws, List.append_eq_nil_iff, operandFlaws] at h
  obtain ⟨hfield, hoperand⟩ := h
  refine ⟨fun hunknown => ?_, fun hunknown => ?_, fun hcompared => ?_⟩
  · simp [hunknown] at hfield
  · simp [hunknown] at hoperand
  · rw [if_neg (by rintro hunknown; simp [hunknown] at hcompared), if_pos hcompared] at hoperand
    cases hoperand

/-- The condition is about the groups of a list, and some value of the list names one. -/
def ListsGroup (c : Condition) : Prop :=
  c.field = .group ∧ c.operator.takesList = true ∧
    ∃ values ∈ c.values, ∃ value ∈ values, namesNone value = false

/-- The condition without the values of its list that name no group. -/
def sifted (c : Condition) : Condition :=
  { c with values := c.values.map (List.filter fun value => !namesNone value) }

namespace ListsGroup

theorem namesGroups (h : c.ListsGroup) : c.namesGroups = true := by
  simp [Condition.namesGroups, h.1]

theorem makesSense (h : c.ListsGroup) : c.MakesSense := by
  obtain ⟨hfield, hlist, -⟩ := h
  refine ⟨by simp [hfield], fun hop => ?_, ?_⟩
  · rw [hop] at hlist
    cases hlist
  · rintro ⟨-, hop | hop⟩ <;> rw [hop] at hlist <;> cases hlist

theorem comparands_eq (h : c.ListsGroup) : c.comparands = c.values := if_pos h.2.1

theorem result_test (h : c.ListsGroup) :
    c.test.result = c.values.bind (membersTest? c.operator.wanted) := by
  rw [h.makesSense.result_test, h.comparands_eq]
  exact congrArg _ (funext fun _ => if_pos h.namesGroups)

/-- Leaving out the values that name no group leaves the others. -/
theorem sifted (h : c.ListsGroup) : c.sifted.ListsGroup := by
  obtain ⟨hfield, hlist, values, hvalues, value, hvalue, hnames⟩ := h
  refine ⟨hfield, hlist, _, Option.mem_map_of_mem _ hvalues, value, ?_, hnames⟩
  exact List.mem_filter.2 ⟨hvalue, by rw [hnames]; rfl⟩

theorem result_test_sifted (h : c.ListsGroup) : c.sifted.test.result = c.test.result := by
  rw [h.sifted.result_test, h.result_test]
  show (c.values.map _).bind _ = _
  rw [Option.bind_map]
  exact congrArg _ (funext (membersTest?_filter c.operator.wanted))

theorem flaws_sifted (h : c.ListsGroup) : c.sifted.flaws = [] := by
  have hgroups := h.sifted.namesGroups
  rw [h.sifted.makesSense.flaws_eq, h.sifted.comparands_eq]
  obtain ⟨-, -, values, hvalues, -⟩ := h
  have hsifted : c.sifted.values = some (values.filter fun value => !namesNone value) := by
    rw [Condition.sifted, Option.mem_def.1 hvalues]
    rfl
  rw [hsifted, Option.elim_some]
  apply (invalidGroups_eq_nil_iff hgroups).2
  intro value hvalue
  simpa using (List.mem_filter.1 hvalue).2

theorem exists_holds (h : c.ListsGroup) : ∃ user, (c.decide user).holds = true := by
  obtain ⟨-, -, values, hvalues, value, hvalue, hnames⟩ := id h
  rw [Condition.exists_holds_iff, h.result_test, Option.mem_def.1 hvalues, Option.bind_some]
  cases htest : membersTest? c.operator.wanted values with
  | some t => exact ⟨t, rfl, passable_of_mem_membersTest? htest⟩
  | none =>
    rw [membersTest?_eq_none_iff.1 htest value hvalue] at hnames
    cases hnames

end ListsGroup

theorem field_of_namesGroups (h : c.namesGroups = true) (hlist : c.operator.takesList = true) :
    c.field = .group := by
  cases hop : c.operator <;> simp_all [namesGroups, Operator.takesList]

/-- **A condition with a flaw stands for no test, unless it lists a group.** -/
theorem result_test_of_flaws (h : c.flaws ≠ []) (hlists : ¬ c.ListsGroup) : c.test.result = none := by
  by_cases hsense : c.MakesSense
  swap
  · exact result_test_of_not_makesSense hsense
  rw [hsense.flaws_eq] at h
  rw [hsense.result_test]
  cases hcomparands : c.comparands with
  | none => rfl
  | some values =>
    rw [hcomparands, Option.elim_some] at h
    -- Values are flawed only where they are to name groups.
    have hgroups : c.namesGroups = true := by
      by_contra hnot
      exact h (invalidGroups_eq_nil (Bool.not_eq_true _ ▸ hnot) values)
    rw [Option.bind_some, testOf?, if_pos hgroups]
    apply membersTest?_eq_none_iff.2
    intro value hvalue
    by_contra hnames
    rw [Bool.not_eq_true] at hnames
    rw [comparands] at hcomparands
    cases hlist : c.operator.takesList with
    | true =>
      rw [if_pos hlist] at hcomparands
      have hfield := field_of_namesGroups hgroups hlist
      exact hlists ⟨hfield, hlist, values, hcomparands, value, hvalue, hnames⟩
    | false =>
      -- The one value there is names a group, and then nothing is wrong with it.
      rw [hlist, if_neg Bool.false_ne_true] at hcomparands
      obtain ⟨other, -, rfl⟩ := Option.map_eq_some_iff.1 hcomparands
      apply h
      rw [invalidGroups_eq_nil_iff hgroups]
      intro single hsingle
      rw [List.mem_singleton.1 hsingle, ← List.mem_singleton.1 hvalue]
      exact hnames

/-- A condition with a flaw is met by nobody if and only if it lists no group. -/
theorem never_holds_iff_of_flaws (h : c.flaws ≠ []) :
    (∀ user, (c.decide user).holds = false) ↔ ¬ c.ListsGroup := by
  constructor
  · intro hnever hlists
    obtain ⟨user, hholds⟩ := hlists.exists_holds
    rw [hnever user] at hholds
    cases hholds
  · intro hlists user
    rw [Condition.decide, result_test_of_flaws h hlists]
    rfl

/-! ## Conditions that are not flagged -/

/-- Nothing can be found: the list that the condition compares with is empty. That an attribute is
none of its values holds of everyone. -/
def OfNothing (c : Condition) : Prop :=
  c.values = some [] ∧ (c.operator = .isIn ∨ c.operator = .notIn ∧ c.field = .group)

/-- A condition is of nothing if it compares with no values, and either with groups or to find something. -/
theorem ofNothing_iff :
    c.OfNothing ↔ c.comparands = some [] ∧ (c.namesGroups = true ∨ c.operator.wanted = true) := by
  rw [OfNothing, comparands]
  cases hlist : c.operator.takesList with
  | true =>
    have hop : c.operator = .isIn ∨ c.operator = .notIn := by
      simpa [Operator.takesList] using hlist
    rw [if_pos rfl]
    rcases hop with hop | hop <;> simp [hop, namesGroups, Operator.wanted]
  | false =>
    have hop : c.operator ≠ .isIn ∧ c.operator ≠ .notIn := by
      simpa [Operator.takesList] using hlist
    simp [hop.1, hop.2]

theorem MakesSense.isAttribute (h : c.MakesSense) (hgroups : c.namesGroups = false) :
    c.field.IsAttribute := by
  refine ⟨fun hfield => ?_, h.field⟩
  simp [namesGroups, hfield] at hgroups

/-- The test of an attribute can be passed unless the attribute is to be among no values. -/
theorem passable_attributeTest_iff (hfield : c.field.IsAttribute) (values : List String) :
    (c.attributeTest values).Passable ↔ ¬ (values = [] ∧ c.operator.wanted = true) := by
  unfold attributeTest
  split
  · simp [Test.Passable, hfield]
  · simp [Test.Passable, hfield]
  · simp only [Test.Passable, hfield, and_true, not_and']

theorem exists_mem_membersTest?_iff {wanted : Bool} {values : List String}
    (h : ∀ value ∈ values, namesNone value = false) :
    (∃ t ∈ membersTest? wanted values, t.Passable) ↔ values ≠ [] := by
  cases htest : membersTest? wanted values with
  | none =>
    rw [membersTest?_eq_none_iff] at htest
    have hnil : values = [] := by
      refine List.eq_nil_iff_forall_not_mem.2 fun value hvalue => ?_
      have hnames := htest value hvalue
      rw [h value hvalue] at hnames
      cases hnames
    simp [hnil]
  | some t =>
    have hne : values ≠ [] := by
      rintro rfl
      cases htest
    have hpassable := passable_of_mem_membersTest? htest
    simp [hne, hpassable]

/-- **A condition without flaws is met by somebody if and only if there is something to be found.** -/
theorem exists_holds_iff_of_flaws (h : c.flaws = []) :
    (∃ user, (c.decide user).holds = true) ↔ ¬ c.OfNothing := by
  have hsense := makesSense_of_flaws h
  rw [exists_holds_iff, hsense.result_test, ofNothing_iff]
  rw [hsense.flaws_eq] at h
  cases hcomparands : c.comparands with
  | none =>
    rw [hcomparands] at h
    cases h
  | some values =>
    rw [hcomparands, Option.elim_some] at h
    rw [Option.bind_some, testOf?, Option.some.injEq]
    cases hgroups : c.namesGroups with
    | true =>
      rw [if_pos rfl, exists_mem_membersTest?_iff ((invalidGroups_eq_nil_iff hgroups).1 h)]
      simp
    | false =>
      have hpassable := passable_attributeTest_iff (hsense.isAttribute hgroups) values
      simpa using hpassable

end Condition

/-! ## Rules -/

namespace RuleSet

variable {set : RuleSet} {i : Nat}

theorem issue_mem_issues_iff {flaw : Flaw} :
    .condition i flaw ∈ set.issues ↔ ∃ c, set.conditions[i]? = some c ∧ flaw ∈ c.flaws := by
  have hwhole : Issue.condition i flaw ∉
      (if set.logic = .or ∧ set.conditions = [] then [Issue.emptyOrRuleSet] else []) := by
    split <;> simp
  rw [issues, List.mem_append, or_iff_right hwhole, List.mem_flatMap]
  constructor
  · rintro ⟨⟨c, index⟩, hentry, hflaw⟩
    obtain ⟨other, hother, heq⟩ := List.mem_map.1 hflaw
    cases heq
    exact ⟨c, List.mem_zipIdx_iff_getElem?.1 hentry, hother⟩
  · rintro ⟨c, hc, hflaw⟩
    exact ⟨(c, i), List.mem_zipIdx_iff_getElem?.2 hc, List.mem_map_of_mem hflaw⟩

/-- **An issue says that nobody meets the condition at its index**, unless the condition lists a group.
Then it is decided as the condition without the values that name none, which has no issues. -/
theorem flagged_never_holds {flaw : Flaw} (h : .condition i flaw ∈ (Rule.rules set).issues) :
    ∃ c, set.conditions[i]? = some c ∧
      ((∀ user, (c.decide user).holds = false) ↔ ¬ c.ListsGroup) ∧
      (c.ListsGroup → c.sifted.flaws = [] ∧
        ∀ user, (c.decide user).holds = (c.sifted.decide user).holds) := by
  obtain ⟨c, hc, hflaw⟩ := issue_mem_issues_iff.1 h
  refine ⟨c, hc, Condition.never_holds_iff_of_flaws (List.ne_nil_of_mem hflaw), fun hlists => ?_⟩
  refine ⟨hlists.flaws_sifted, fun user => ?_⟩
  rw [Condition.decide, Condition.decide, hlists.result_test_sifted]

theorem flagged_never_holds_misspelled :
    .condition 1 (.invalidGroupId "x") ∈ (Rule.rules ⟨.or,
        [.memberOf (.ofNumber 7), .single .department .notMemberOf "x"]⟩).issues ∧
      ∀ user, ((Condition.single .department .notMemberOf "x").decide user).holds = false := by
  have hissue : .condition 1 (.invalidGroupId "x") ∈ (Rule.rules ⟨.or,
      [.memberOf (.ofNumber 7), .single .department .notMemberOf "x"]⟩).issues := by decide +kernel
  obtain ⟨c, hc, hnever, -⟩ := flagged_never_holds hissue
  obtain rfl : Condition.single .department .notMemberOf "x" = c := Option.some.inj hc
  exact ⟨hissue, hnever.2 nofun⟩

/-- A list of two values that names one group. -/
def partlyNamed : Condition := .multiple .group .isIn ["x", (.ofNumber 7 : GroupId).text]

theorem partlyNamed_holds :
    .condition 0 (.invalidGroupId "x") ∈ (Rule.rules ⟨.and, [partlyNamed]⟩).issues ∧
      (partlyNamed.decide (User.grouped (.ofNumber 7))).holds = true := by
  decide +kernel

end RuleSet

namespace Rule

/-- A list of groups is flagged if and only if it admits nobody. -/
theorem issues_groups_eq_nil_iff (ids : GroupSet) :
    (Rule.groups ids).issues = [] ↔ ∃ user, ((Rule.groups ids).decide user).holds = true := by
  have hissues : (Rule.groups ids).issues = [] ↔ ids.entries ≠ [] := by
    rw [issues]
    cases ids.entries <;> simp
  rw [hissues]
  constructor
  · intro hne
    obtain ⟨group, others, hids⟩ := List.exists_cons_of_ne_nil hne
    refine ⟨User.grouped group, List.any_eq_true.2 ⟨group, ?_, User.isMemberOf_grouped group⟩⟩
    rw [hids]
    exact List.mem_cons_self ..
  · rintro ⟨user, hholds⟩
    obtain ⟨group, hgroup, -⟩ := List.any_eq_true.1 hholds
    exact List.ne_nil_of_mem hgroup

/-- **A condition without an issue is met by somebody**, unless it compares with an empty list that nothing
is among. A list of groups without an issue admits somebody, and only such a list does. -/
theorem unflagged_can_hold (set : RuleSet) (ids : GroupSet) :
    (∀ (i : Nat) (c : Condition), set.conditions[i]? = some c →
      (∀ flaw, .condition i flaw ∉ (Rule.rules set).issues) →
      ((∃ user, (c.decide user).holds = true) ↔ ¬ c.OfNothing)) ∧
    ((Rule.groups ids).issues = [] ↔
      ∃ user, ((Rule.groups ids).decide user).holds = true) := by
  refine ⟨fun i c hc hissues => ?_, issues_groups_eq_nil_iff ids⟩
  have hflaws : c.flaws = [] := by
    apply List.eq_nil_iff_forall_not_mem.2
    intro flaw hflaw
    exact hissues flaw (RuleSet.issue_mem_issues_iff.2 ⟨c, hc, hflaw⟩)
  exact Condition.exists_holds_iff_of_flaws hflaws

theorem unflagged_can_hold_elsewhere :
    (∃ user, ((Condition.multiple .department .notIn []).decide user).holds = true) ∧
      ∃ user, ((Rule.groups (Catalog.ofList [.ofNumber 7])).decide user).holds = true := by
  have hissues : (Rule.rules ⟨.and, [.multiple .department .notIn []]⟩).issues = [] := by decide
  have hids : (Rule.groups (Catalog.ofList [.ofNumber 7])).issues = [] := by decide
  obtain ⟨hconditions, hgroups⟩ := unflagged_can_hold ⟨.and, [.multiple .department .notIn []]⟩
    (Catalog.ofList [.ofNumber 7])
  refine ⟨(hconditions 0 _ rfl fun flaw => ?_).2 ?_, hgroups.1 hids⟩
  · rw [hissues]
    exact List.not_mem_nil
  · rintro ⟨-, hop | ⟨-, hfield⟩⟩
    · cases hop
    · cases hfield

theorem emptyList_never_holds :
    (Rule.rules ⟨.and, [.multiple .department .isIn []]⟩).issues = [] ∧
      ¬ ∃ user, ((Condition.multiple .department .isIn []).decide user).holds = true := by
  refine ⟨rfl, ?_⟩
  rw [Condition.exists_holds_iff]
  rintro ⟨t, ht, hpassable⟩
  cases ht
  exact (hpassable rfl).1 rfl

end Rule

end ContentVisibility
