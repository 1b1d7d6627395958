import ContentVisibility.Proofs.Rule.Order
import ContentVisibility.Proofs.User.Groups

/-!
# What a rule sees of a user

A rule looks at the attributes that its conditions name and at the groups that it lists, and at nothing
else: neither at the identifier of a user nor at whether the account is active, which is for those to
judge who look the user up.

* `Rule.Names`, `Rule.listedGroups`: the attributes and the groups that a rule looks at;
* `User.AgreeOn`: two users who are the same as far as a rule looks;
* `Rule.decide_congr`: such users get the same decision, with the same warnings;
* `Rule.glimpse`: all that a rule needs to know of a user;
* `Rule.decide_eq_of_named`: a rule sees only what it names.
-/

namespace ContentVisibility

/-! ## What is named -/

namespace Condition

/-- Whether the operator is one of membership, which ignores the field. -/
def asksMembership (c : Condition) : Bool := c.operator = .memberOf || c.operator = .notMemberOf

/-- The groups that the value and the values of a condition name, if they are to name groups. -/
def listedGroups (c : Condition) : List GroupId :=
  if c.namesGroups then (c.value.toList ++ c.values.getD []).filterMap Identifier.parse? else []

end Condition

namespace Rule

def conditions : Rule → List Condition
  | .rules set => set.conditions
  | .all | .groups _ => []

/-- A condition of the rule is about the field, and is not one of membership. -/
def Names (rule : Rule) (field : Field) : Prop :=
  ∃ c ∈ rule.conditions, c.asksMembership = false ∧ c.field = field

instance (rule : Rule) : DecidablePred rule.Names :=
  fun field => inferInstanceAs (Decidable
    (∃ c ∈ rule.conditions, c.asksMembership = false ∧ c.field = field))

/-- The groups that the rule lists, by itself or in its conditions. -/
def listedGroups : Rule → List GroupId
  | .all => []
  | .groups ids => ids.entries
  | .rules set => set.conditions.flatMap Condition.listedGroups

end Rule

/-- The users have the same attributes where the field is such, and belong to the same groups of the
list. -/
structure User.AgreeOn (fields : Field → Prop) (groups : List GroupId) (user user' : User) : Prop where
  attributes (field : Field) : fields field → user.attribute field = user'.attribute field
  members : ∀ group ∈ groups, user.isMemberOf group = user'.isMemberOf group

theorem User.AgreeOn.mono {fields fields' : Field → Prop} {groups groups' : List GroupId}
    {user user' : User} (h : AgreeOn fields groups user user')
    (hfields : ∀ field, fields' field → fields field) (hgroups : ∀ group ∈ groups', group ∈ groups) :
    AgreeOn fields' groups' user user' :=
  ⟨fun field hfield => h.attributes field (hfields field hfield),
    fun group hgroup => h.members group (hgroups group hgroup)⟩

/-! ## Tests -/

namespace Test

/-- The test looks at the attribute. -/
def Reads (field : Field) : Test → Prop
  | among f _ _ | contains f _ | startsWith f _ => f = field
  | member .. => False

/-- The groups that the test looks for. -/
def groups : Test → List GroupId
  | among .. | contains .. | startsWith .. => []
  | member groups _ => groups

theorem holds_congr {user user' : User} {t : Test}
    (h : User.AgreeOn (fun field => t.Reads field) t.groups user user') :
    t.holds user = t.holds user' := by
  cases t with
  | among field values wanted => rw [holds, holds, h.attributes field rfl]
  | contains field value => rw [holds, holds, h.attributes field rfl]
  | startsWith field value => rw [holds, holds, h.attributes field rfl]
  | member groups wanted =>
    have hany : groups.any user.isMemberOf = groups.any user'.isMemberOf := by
      rw [Bool.eq_iff_iff, List.any_eq_true, List.any_eq_true]
      refine exists_congr fun group => and_congr_right fun hgroup => ?_
      rw [h.members group hgroup]
    rw [holds, holds, hany]

end Test

/-! ## Conditions -/

namespace Condition

variable {c : Condition} {t : Test}

/-- The test looks at nothing but what the condition names. -/
structure Covers (c : Condition) (t : Test) : Prop where
  attributes (field : Field) : t.Reads field → c.asksMembership = false ∧ c.field = field
  members : ∀ group ∈ t.groups, group ∈ c.listedGroups

theorem mem_of_mem_comparands {values : List String} (h : c.comparands = some values) :
    ∀ value ∈ values, value ∈ c.value.toList ++ c.values.getD [] := by
  rw [comparands] at h
  split at h
  · intro value hvalue
    simp [h, hvalue]
  · obtain ⟨value, hvalue, rfl⟩ := Option.map_eq_some_iff.1 h
    simp [hvalue]

/-- A test for the groups that values of the condition name looks for groups that it lists. -/
theorem covers_membersTest? {wanted : Bool} {values : List String} (hnames : c.namesGroups = true)
    (hvalues : ∀ value ∈ values, value ∈ c.value.toList ++ c.values.getD [])
    (h : membersTest? wanted values = some t) : c.Covers t := by
  rw [membersTest?] at h
  split at h
  · cases h
  · cases h
    refine ⟨fun _ hreads => hreads.elim, fun group hgroup => ?_⟩
    obtain ⟨value, hvalue, hread⟩ := List.mem_filterMap.1 hgroup
    rw [listedGroups, if_pos hnames]
    exact List.mem_filterMap.2 ⟨value, hvalues value hvalue, hread⟩

theorem covers_attributeTest (hnames : c.namesGroups = false) (values : List String) :
    c.Covers (c.attributeTest values) := by
  have hasks : c.asksMembership = false := (Bool.or_eq_false_iff.1 hnames).1
  unfold attributeTest
  split <;> exact ⟨fun _ hfield => ⟨hasks, hfield⟩, nofun⟩

/-- The test that a condition stands for looks at nothing but what the condition names. -/
theorem covers_test (h : c.test.result = some t) : c.Covers t := by
  have hsense : c.MakesSense := by
    by_contra hnot
    rw [result_test_of_not_makesSense hnot] at h
    cases h
  rw [hsense.result_test] at h
  obtain ⟨values, hvalues, htest⟩ := Option.bind_eq_some_iff.1 h
  cases hnames : c.namesGroups with
  | true =>
    rw [testOf?, if_pos hnames] at htest
    exact covers_membersTest? hnames (mem_of_mem_comparands hvalues) htest
  | false =>
    rw [testOf?, hnames] at htest
    cases htest
    exact covers_attributeTest hnames values

theorem decide_congr {user user' : User} (h : User.AgreeOn
    (fun field => c.asksMembership = false ∧ c.field = field) c.listedGroups user user') :
    c.decide user = c.decide user' := by
  have hholds : c.test.result.any (Test.holds user) = c.test.result.any (Test.holds user') := by
    cases htest : c.test.result with
    | none => rfl
    | some t =>
      have hcovers := covers_test htest
      exact Test.holds_congr (h.mono hcovers.attributes hcovers.members)
  rw [decide, decide, hholds]

/-- Conditions that decide the users alike are looked at up to the same one. -/
theorem decideUntil_congr {stop : Bool} {user user' : User} {cs : List Condition}
    (h : ∀ c ∈ cs, c.decide user = c.decide user') :
    decideUntil stop user cs = decideUntil stop user' cs := by
  induction cs with
  | nil => rfl
  | cons c cs ih =>
    rw [decideUntil, decideUntil, h c (List.mem_cons_self ..),
      ih fun d hd => h d (List.mem_cons_of_mem c hd)]

end Condition

/-! ## Rules -/

namespace Rule

variable {rule : Rule} {user user' : User}

/-- The users are the same as far as the rule looks. -/
def SameFor (rule : Rule) (user user' : User) : Prop :=
  User.AgreeOn rule.Names rule.listedGroups user user'

theorem decide_congr (h : rule.SameFor user user') : rule.decide user = rule.decide user' := by
  cases rule with
  | all => rfl
  | groups ids =>
    have hmeets : ids.meets user.groups = ids.meets user'.groups := by
      rw [Bool.eq_iff_iff, GroupSet.meets, GroupSet.meets, List.any_eq_true, List.any_eq_true]
      refine exists_congr fun group => and_congr_right fun hgroup => ?_
      rw [show user.groups.contains group = user'.groups.contains group from h.members group hgroup]
    rw [decide, decide, hmeets]
  | rules set =>
    have hconditions : ∀ c ∈ set.conditions, c.decide user = c.decide user' := by
      intro c hc
      refine Condition.decide_congr (h.mono (fun field hfield => ⟨c, hc, hfield⟩) fun group hgroup => ?_)
      exact List.mem_flatMap.2 ⟨c, hc, hgroup⟩
    rw [decide, decide, RuleSet.decide_eq, RuleSet.decide_eq, Condition.decideUntil_congr hconditions]

/-- All that the rule needs to know of a user: no identifier, no word on the account, the attributes
that the rule names, and the groups of the user among those that it lists. -/
def glimpse (rule : Rule) (user : User) : User where
  id := .ofNumber 0
  department := if rule.Names .department then user.department else none
  location := if rule.Names .location then user.location else none
  jobTitle := if rule.Names .jobTitle then user.jobTitle else none
  preferredLanguage := if rule.Names .preferredLanguage then user.preferredLanguage else none
  groups := Catalog.ofList (rule.listedGroups.filter user.isMemberOf)
  active := false

theorem sameFor_glimpse (rule : Rule) (user : User) : rule.SameFor user (rule.glimpse user) := by
  constructor
  · intro field hnames
    cases field <;> simp [User.attribute, glimpse, hnames]
  · intro group hgroup
    have hlisted : (rule.glimpse user).isMemberOf group = true ↔ user.isMemberOf group = true := by
      refine (GroupSet.contains_ofList _ group).trans ?_
      rw [List.mem_filter, and_iff_right hgroup]
    rw [Bool.eq_iff_iff, hlisted]

/-- **A rule sees only what it names.** Two users who have the same attributes where a condition other
than one of membership names them, and who belong to the same groups of those that the rule lists, get
the same decision with the same warnings. So a rule may as well be shown a user without an identifier,
with an account that is not active, and without other attributes and other groups. -/
theorem decide_eq_of_named (rule : Rule) :
    (∀ user user' : User,
      (∀ field, rule.Names field → user.attribute field = user'.attribute field) →
      (∀ group ∈ rule.listedGroups, user.isMemberOf group = user'.isMemberOf group) →
      (rule.decide user).holds = (rule.decide user').holds ∧
        (rule.decide user).warnings = (rule.decide user').warnings) ∧
    ∀ user : User, rule.decide (rule.glimpse user) = rule.decide user := by
  refine ⟨fun user user' hattributes hmembers => ?_, fun user => ?_⟩
  · rw [decide_congr (⟨hattributes, hmembers⟩ : rule.SameFor user user')]
    exact ⟨rfl, rfl⟩
  · exact (decide_congr (rule.sameFor_glimpse user)).symm

/-- A rule on one attribute and on one group, with a value that names no group. -/
def namingRule : Rule :=
  .rules ⟨.or, [.single .department .equals "Sales",
    .multiple .group .notIn [(.ofNumber 7 : GroupId).text, "x"], .single .location .contains "o"]⟩

/-- Two users who differ in all that the rule does not name. -/
theorem decide_eq_of_named_namingRule :
    let user : User := { User.ofId (.ofNumber 1) with
      department := some "Law", location := some "Oslo", jobTitle := some "Judge",
      groups := Catalog.ofList [.ofNumber 7] }
    let user' : User := { User.ofId (.ofNumber 2) with
      department := some "Law", location := some "Oslo",
      groups := Catalog.ofList [.ofNumber 7, .ofNumber 8], active := false }
    namingRule.listedGroups = [.ofNumber 7] ∧
      (namingRule.decide user).holds = (namingRule.decide user').holds ∧
      (namingRule.decide user).warnings = (namingRule.decide user').warnings ∧
      (namingRule.decide user).holds = true ∧ (namingRule.decide user).warnings.length = 1 := by
  intro user user'
  have hlisted : namingRule.listedGroups = [.ofNumber 7] := by decide +kernel
  obtain ⟨hholds, hwarnings⟩ := (decide_eq_of_named namingRule).1 user user'
    (fun field hnames => by cases field <;> first | rfl | exact absurd hnames (by decide))
    (fun group hgroup => by
      rw [hlisted, List.mem_singleton] at hgroup
      subst hgroup
      decide)
  exact ⟨hlisted, hholds, hwarnings, by decide +kernel, by decide +kernel⟩

end Rule

end ContentVisibility
