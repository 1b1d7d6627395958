import ContentVisibility.Proofs.Identifier.Written
import ContentVisibility.Proofs.Rule.Satisfiable

/-!
# Operators that look for a user among values

Apart from those for a part of an attribute, all operators look for the user among the values that the
condition compares with: for the attribute, or for a group of the user. They differ in how many values
there are and in whether the user is to be found.

* `Condition.finds`, `Condition.CanUse`: whether the user is found among some values, and whether these can
  be compared with;
* `Condition.holds_iff_found`: what a condition with such an operator comes to;
* `Contrast.opposites_decide`: of two opposite conditions exactly one holds if they can be used at all;
* `RuleSet.lists_decide`: a condition on a list is a set of conditions on its values, and a list of groups
  is a set of conditions of membership.
-/

namespace ContentVisibility

/-- The operator looks for the user among the values that a condition compares with. -/
def Operator.searches : Operator → Bool
  | .equals | .notEquals | .isIn | .notIn | .memberOf | .notMemberOf => true
  | .contains | .startsWith | .unknown => false

namespace Condition

variable {c : Condition} {user : User} {values : List String}

/-! ## Users among values -/

/-- The text names a group. -/
def NamesGroup (value : String) : Prop := ∃ group : GroupId, Identifier.parse value = .ok group

theorem namesGroup_iff {value : String} : NamesGroup value ↔ namesNone value = false := by
  simp only [NamesGroup, Identifier.parse_eq_ok_iff, namesNone]
  cases (Identifier.parse? value : Option GroupId) <;> simp

instance : DecidablePred NamesGroup := fun _ => decidable_of_iff' _ namesGroup_iff

/-- Whether the user is found among the values: one of them is the attribute of the user, or names a group
that the user belongs to. -/
def finds (c : Condition) (user : User) (values : List String) : Bool :=
  if c.namesGroups then (groupsAmong values).any user.isMemberOf
  else (user.attribute c.field).any fun a => values.any fun value => Text.foldsTo a value

theorem namesGroups_iff : c.namesGroups = true ↔
    (c.operator = .memberOf ∨ c.operator = .notMemberOf) ∨ c.field = .group := by
  simp only [namesGroups, Bool.or_eq_true, decide_eq_true_eq]

/-- The values can be compared with: where they are to name groups, one of them does. -/
def CanUse (c : Condition) (values : List String) : Prop :=
  c.namesGroups = true → ∃ value ∈ values, NamesGroup value

theorem namesGroups_of_isAttribute (hfield : c.field.IsAttribute)
    (hop : ¬ (c.operator = .memberOf ∨ c.operator = .notMemberOf)) : c.namesGroups = false := by
  rw [← Bool.not_eq_true, namesGroups_iff]
  exact not_or.2 ⟨hop, hfield.1⟩

theorem canUse_of_namesGroups (hnames : c.namesGroups = false) (values : List String) :
    c.CanUse values := by
  intro h
  rw [hnames] at h
  cases h

theorem canUse_single_iff (hnames : c.namesGroups = true) {value : String} :
    c.CanUse [value] ↔ NamesGroup value := by
  simp [CanUse, hnames]

/-- Who is found among values is found at one of them. -/
theorem finds_eq_any (c : Condition) (user : User) (values : List String) :
    c.finds user values = values.any fun value => c.finds user [value] := by
  unfold finds
  cases c.namesGroups with
  | true =>
    -- A value that names no group adds none to look for.
    simp only [if_true, groupsAmong, List.any_filterMap]
    congr 1
    funext value
    cases hread : (Identifier.parse? value : Option GroupId) <;> simp [hread]
  | false => cases user.attribute c.field <;> simp

theorem attributeTest_of_searches (h : c.operator.searches = true) (values : List String) :
    c.attributeTest values = .among c.field values c.operator.wanted := by
  unfold attributeTest
  cases hop : c.operator <;> simp_all [Operator.searches]

theorem membersTest?_of_namesGroup (h : ∃ value ∈ values, NamesGroup value) (wanted : Bool) :
    membersTest? wanted values = some (.member (groupsAmong values) wanted) := by
  refine if_neg fun hnone => ?_
  obtain ⟨value, hvalue, hnames⟩ := h
  rw [namesGroup_iff, groupsAmong_eq_nil_iff.1 hnone value hvalue] at hnames
  cases hnames

theorem membersTest?_of_not_namesGroup (h : ¬ ∃ value ∈ values, NamesGroup value) (wanted : Bool) :
    membersTest? wanted values = none := by
  rw [membersTest?_eq_none_iff]
  intro value hvalue
  by_contra hnames
  rw [Bool.not_eq_true] at hnames
  exact h ⟨value, hvalue, namesGroup_iff.2 hnames⟩

theorem any_testOf?_iff (h : c.operator.searches = true) (user : User) (values : List String) :
    (c.testOf? values).any (Test.holds user) = true ↔
      c.CanUse values ∧ c.finds user values = c.operator.wanted := by
  rw [testOf?, CanUse, finds]
  cases c.namesGroups with
  | false => simp [attributeTest_of_searches h, Test.holds]
  | true =>
    by_cases hnames : ∃ value ∈ values, NamesGroup value
    · simp [membersTest?_of_namesGroup hnames, hnames, Test.holds]
    · simp [membersTest?_of_not_namesGroup hnames, hnames]

theorem makesSense_of_searches (h : c.operator.searches = true) (hfield : c.field ≠ .unknown) :
    c.MakesSense := by
  refine ⟨hfield, ?_, ?_⟩
  · intro hop
    rw [hop] at h
    cases h
  · rintro ⟨-, hop | hop⟩ <;> rw [hop] at h <;> cases h

/-- What a condition comes to that looks for the user among values. -/
theorem holds_iff_found (h : c.operator.searches = true) :
    (c.decide user).holds = true ↔
      c.field ≠ .unknown ∧
        ∃ values ∈ c.comparands, c.CanUse values ∧ c.finds user values = c.operator.wanted := by
  by_cases hfield : c.field = .unknown
  · rw [holds_of_not_makesSense (fun hsense => hsense.field hfield)]
    simp [hfield]
  · rw [(makesSense_of_searches h hfield).holds_decide, Option.any_eq_true, and_iff_right hfield]
    simp only [any_testOf?_iff h, Option.mem_def]

/-- Values among which somebody is found can be compared with. -/
theorem canUse_of_finds (h : c.finds user values = true) : c.CanUse values := by
  intro hnames
  rw [finds, if_pos hnames, List.any_eq_true] at h
  obtain ⟨group, hgroup, -⟩ := h
  obtain ⟨value, hvalue, hread⟩ := List.mem_filterMap.1 hgroup
  exact ⟨value, hvalue, group, Identifier.parse_eq_ok_iff.2 hread⟩

theorem holds_iff_finds (h : c.operator.searches = true) (hwanted : c.operator.wanted = true)
    (hvalues : c.comparands = some values) :
    (c.decide user).holds = true ↔ c.field ≠ .unknown ∧ c.finds user values = true := by
  rw [holds_iff_found h, hvalues, hwanted]
  simpa using fun _ hfinds => canUse_of_finds hfinds

theorem holds_iff_not_finds (h : c.operator.searches = true) (hwanted : c.operator.wanted = false)
    (hvalues : c.comparands = some values) :
    (c.decide user).holds = true ↔
      c.field ≠ .unknown ∧ c.CanUse values ∧ c.finds user values = false := by
  rw [holds_iff_found h, hvalues, hwanted]
  simp

/-! ## Membership of one group -/

/-- A condition that compares with what is written for a group looks for the members of that group. -/
theorem holds_of_text (h : c.operator.searches = true) (hfield : c.field ≠ .unknown)
    (hnames : c.namesGroups = true) {group : GroupId} (hvalues : c.comparands = some [group.text])
    (user : User) : (c.decide user).holds = (user.isMemberOf group == c.operator.wanted) := by
  have hread : (Identifier.parse? group.text : Option GroupId) = some group :=
    Identifier.parse_eq_ok_iff.1 (Identifier.parse_text group)
  have huse : c.CanUse [group.text] :=
    fun _ => ⟨group.text, List.mem_singleton_self _, group, Identifier.parse_text group⟩
  have hfinds : c.finds user [group.text] = user.isMemberOf group := by
    simp [finds, hnames, groupsAmong, hread]
  rw [Bool.eq_iff_iff, holds_iff_found h, hvalues, beq_iff_eq]
  simp [hfield, huse, hfinds]

theorem holds_memberOf (user : User) (group : GroupId) :
    ((memberOf group).decide user).holds = user.isMemberOf group := by
  have hfield : (memberOf group).field ≠ .unknown := by simp [memberOf, single]
  exact (holds_of_text rfl hfield rfl rfl user).trans (beq_true _)

theorem holds_notMemberOf (user : User) (group : GroupId) :
    ((notMemberOf group).decide user).holds = !user.isMemberOf group := by
  have hfield : (notMemberOf group).field ≠ .unknown := by simp [notMemberOf, single]
  exact (holds_of_text rfl hfield rfl rfl user).trans (beq_false _)

end Condition

/-! ## Opposite operators -/

/-- What two opposite operators are about. -/
inductive Contrast where
  | equality
  | listing
  | membership
  deriving DecidableEq, Repr

namespace Contrast

open Condition (NamesGroup CanUse)

variable (contrast : Contrast) (wanted : Bool) (field : Field) (value : Option String)
  (values : Option (List String)) (user : User)

/-- The operator for the user to be found, or not to be found. -/
def operator : Contrast → Bool → Operator
  | equality, true => .equals
  | equality, false => .notEquals
  | listing, true => .isIn
  | listing, false => .notIn
  | membership, true => .memberOf
  | membership, false => .notMemberOf

/-- What a condition with either operator compares with is there; where it is to name groups, it names
one. -/
def Usable : Prop :=
  match contrast with
  | equality => ∃ v, value = some v ∧ (field = .group → NamesGroup v)
  | listing => ∃ vs, values = some vs ∧ (field = .group → ∃ v ∈ vs, NamesGroup v)
  | membership => ∃ v, value = some v ∧ NamesGroup v

/-- The condition with the operator. -/
def condition : Condition := ⟨field, contrast.operator wanted, value, values⟩

theorem searches_operator : (contrast.operator wanted).searches = true := by
  cases contrast <;> cases wanted <;> rfl

theorem wanted_operator : (contrast.operator wanted).wanted = wanted := by
  cases contrast <;> cases wanted <;> rfl

theorem comparands_condition : (contrast.condition wanted field value values).comparands =
    (contrast.condition true field value values).comparands := by
  cases contrast <;> cases wanted <;> rfl

theorem namesGroups_condition : (contrast.condition wanted field value values).namesGroups =
    (contrast.condition true field value values).namesGroups := by
  cases contrast <;> cases wanted <;> rfl

/-- Both conditions look for the user in the same way. -/
theorem finds_condition (among : List String) :
    (contrast.condition wanted field value values).finds user among =
      (contrast.condition true field value values).finds user among := by
  rw [Condition.finds, namesGroups_condition]
  rfl

theorem usable_iff : contrast.Usable field value values ↔
    ∃ among ∈ (contrast.condition true field value values).comparands,
      (contrast.condition true field value values).CanUse among := by
  simp only [CanUse, Condition.namesGroups_iff]
  cases contrast <;>
    simp [Usable, condition, operator, Condition.comparands, Operator.takesList]

/-- The user is found or not found by both conditions alike; each holds if this is what it wants. -/
theorem exists_holds_iff : ∃ found : Bool, ∀ wanted,
    ((contrast.condition wanted field value values).decide user).holds = true ↔
      (field ≠ .unknown ∧ contrast.Usable field value values) ∧ found = wanted := by
  refine ⟨(contrast.condition true field value values).comparands.any
    ((contrast.condition true field value values).finds user), fun wanted => ?_⟩
  have hsearches : (contrast.condition wanted field value values).operator.searches = true :=
    contrast.searches_operator wanted
  have hwanted : (contrast.condition wanted field value values).operator.wanted = wanted :=
    contrast.wanted_operator wanted
  rw [Condition.holds_iff_found hsearches, usable_iff, comparands_condition, hwanted, and_assoc]
  simp only [CanUse, namesGroups_condition, finds_condition]
  cases (contrast.condition true field value values).comparands with
  | none => simp
  | some among => simp [condition]

/-- **Of two opposite conditions never both hold, and exactly one holds if they can be used**: if the field
is known, and what they compare with is there and names a group where it has to. Otherwise neither holds,
so that a condition that cannot be used keeps everyone out. -/
theorem opposites_decide :
    let asked := ((contrast.condition true field value values).decide user).holds
    let denied := ((contrast.condition false field value values).decide user).holds
    ¬ (asked = true ∧ denied = true) ∧
      (asked ≠ denied ↔ field ≠ .unknown ∧ contrast.Usable field value values) ∧
      (asked = false ∧ denied = false ↔
        ¬ (field ≠ .unknown ∧ contrast.Usable field value values)) := by
  intro asked denied
  obtain ⟨found, hholds⟩ := contrast.exists_holds_iff field value values user
  have hasked : asked = true ↔ _ := hholds true
  have hdenied : denied = true ↔ _ := hholds false
  by_cases husable : field ≠ .unknown ∧ contrast.Usable field value values
  · cases found <;> simp_all
  · simp_all

/-- A list without a readable group admits nobody, also where it is to keep its members out. -/
example : ((listing.condition false .group none (some ["x"])).decide
    (User.ofId (.ofNumber 1))).holds = false := by decide +kernel

end Contrast

/-! ## Lists as sets of conditions -/

namespace RuleSet

open Condition (NamesGroup)

variable (user : User) (field : Field) (value : Option String) (values : Option (List String))

theorem holds_isIn (vs : List String) :
    (Condition.decide ⟨field, .isIn, value, some vs⟩ user).holds =
      (decide ⟨.or, vs.map fun v => ⟨field, .equals, some v, values⟩⟩ user).holds := by
  let list : Condition := ⟨field, .isIn, value, some vs⟩
  have hlist : (list.decide user).holds = true ↔ field ≠ .unknown ∧ list.finds user vs = true :=
    Condition.holds_iff_finds rfl rfl rfl
  have hsingle : ∀ v, (Condition.decide ⟨field, .equals, some v, values⟩ user).holds = true ↔
      field ≠ .unknown ∧ list.finds user [v] = true :=
    fun v => Condition.holds_iff_finds rfl rfl rfl
  rw [holds_or, List.any_map, Bool.eq_iff_iff, hlist, Condition.finds_eq_any, List.any_eq_true,
    List.any_eq_true]
  simp only [Function.comp_apply, hsingle]
  constructor
  · rintro ⟨hfield, v, hv, hfinds⟩
    exact ⟨v, hv, hfield, hfinds⟩
  · rintro ⟨v, hv, hfield, hfinds⟩
    exact ⟨hfield, v, hv, hfinds⟩

/-- Being none of the values is being different from each of them that can be compared with, if there is
one. -/
theorem holds_notIn_iff {vs : List String} (hfield : field ≠ .unknown)
    (huse : Condition.CanUse ⟨field, .notIn, value, some vs⟩ vs) :
    (Condition.decide ⟨field, .notIn, value, some vs⟩ user).holds = true ↔
      ∀ v ∈ vs, Condition.CanUse ⟨field, .notEquals, some v, values⟩ [v] →
        (Condition.decide ⟨field, .notEquals, some v, values⟩ user).holds = true := by
  let list : Condition := ⟨field, .notIn, value, some vs⟩
  have hlist : (list.decide user).holds = true ↔ list.finds user vs = false := by
    rw [Condition.holds_iff_not_finds rfl rfl rfl, and_iff_right hfield, and_iff_right huse]
  have hsingle : ∀ v, (Condition.decide ⟨field, .notEquals, some v, values⟩ user).holds = true ↔
      list.CanUse [v] ∧ list.finds user [v] = false := by
    intro v
    rw [Condition.holds_iff_not_finds rfl rfl rfl, and_iff_right hfield]
    rfl
  rw [hlist, Condition.finds_eq_any, List.any_eq_false]
  refine forall₂_congr fun v _ => ?_
  rw [hsingle v, Bool.not_eq_true]
  constructor
  · exact fun hfinds huse => ⟨huse, hfinds⟩
  · -- At a value that cannot be compared with nobody is found.
    intro h
    by_contra hfound
    rw [Bool.not_eq_false] at hfound
    rw [(h (Condition.canUse_of_finds hfound)).2] at hfound
    cases hfound

/-- Being none of some values is being different from each of them. -/
theorem holds_notIn_attribute (hfield : field.IsAttribute) (vs : List String) :
    (Condition.decide ⟨field, .notIn, value, some vs⟩ user).holds =
      (decide ⟨.and, vs.map fun v => ⟨field, .notEquals, some v, values⟩⟩ user).holds := by
  have hlist : Condition.CanUse ⟨field, .notIn, value, some vs⟩ vs :=
    Condition.canUse_of_namesGroups (Condition.namesGroups_of_isAttribute hfield (by simp)) vs
  have hsingle : ∀ v, Condition.CanUse ⟨field, .notEquals, some v, values⟩ [v] := fun v =>
    Condition.canUse_of_namesGroups (Condition.namesGroups_of_isAttribute hfield (by simp)) [v]
  rw [Bool.eq_iff_iff, holds_and, List.all_map, List.all_eq_true,
    holds_notIn_iff user field value values hfield.2 hlist]
  simp only [hsingle, forall_const, Function.comp_apply]

theorem holds_notIn_group {vs : List String} (hnames : ∃ v ∈ vs, NamesGroup v) :
    (Condition.decide ⟨.group, .notIn, value, some vs⟩ user).holds =
      (decide ⟨.and, (vs.filter (NamesGroup ·)).map
        fun v => ⟨.group, .notEquals, some v, values⟩⟩ user).holds := by
  rw [Bool.eq_iff_iff, holds_and, List.all_map, List.all_eq_true,
    holds_notIn_iff user .group value values nofun fun _ => hnames]
  simp only [List.mem_filter, Function.comp_apply, decide_eq_true_eq, and_imp]
  refine forall₂_congr fun v _ => ?_
  rw [Condition.canUse_single_iff rfl]

/-- **A condition on a list is a set of conditions on its values.** Being among values is being equal to
one of them. Being none of them is being different from each, on the groups of a user from each that
names a group, if one does. A rule that lists groups is a set of conditions of membership, one of which
must hold, and fails if the opposite conditions all hold. -/
theorem lists_decide (vs : List String) (ids : GroupSet) :
    (Condition.decide ⟨field, .isIn, value, some vs⟩ user).holds =
        (decide ⟨.or, vs.map fun v => ⟨field, .equals, some v, values⟩⟩ user).holds ∧
      (field.IsAttribute →
        (Condition.decide ⟨field, .notIn, value, some vs⟩ user).holds =
          (decide ⟨.and, vs.map fun v => ⟨field, .notEquals, some v, values⟩⟩ user).holds) ∧
      ((∃ v ∈ vs, NamesGroup v) →
        (Condition.decide ⟨.group, .notIn, value, some vs⟩ user).holds =
          (decide ⟨.and, (vs.filter (NamesGroup ·)).map
            fun v => ⟨.group, .notEquals, some v, values⟩⟩ user).holds) ∧
      ((Rule.groups ids).decide user).holds =
        (decide ⟨.or, ids.entries.map Condition.memberOf⟩ user).holds ∧
      ((Rule.groups ids).decide user).holds =
        !(decide ⟨.and, ids.entries.map Condition.notMemberOf⟩ user).holds := by
  refine ⟨holds_isIn user field value values vs,
    fun hfield => holds_notIn_attribute user field value values hfield vs,
    fun hnames => holds_notIn_group user value values hnames, ?_, ?_⟩
  · simp only [holds_or, List.any_map, Function.comp_def, Condition.holds_memberOf]
    rfl
  · simp only [holds_and, List.all_map, Function.comp_def, Condition.holds_notMemberOf]
    rw [← List.not_any_eq_all_not, Bool.not_not]
    rfl

/-- A user with a department who belongs to one group. -/
def lawyer : User :=
  { User.ofId (.ofNumber 1) with department := some "LAW", groups := Catalog.ofList [.ofNumber 8] }

/-- A department, twice, and a group. -/
def mixedValues : List String := ["law", "{00000000-0000-0000-0000-000000000007}", "Law"]

theorem lists_decide_mixedValues :
    Field.department.IsAttribute ∧ (∃ v ∈ mixedValues, NamesGroup v) ∧
      (decide ⟨.or, mixedValues.map fun v => ⟨.department, .equals, some v, none⟩⟩ lawyer).holds =
        true ∧
      (decide ⟨.and, mixedValues.map fun v => ⟨.department, .notEquals, some v, none⟩⟩ lawyer).holds =
        false ∧
      (decide ⟨.and, (mixedValues.filter (NamesGroup ·)).map
        fun v => ⟨.group, .notEquals, some v, none⟩⟩ lawyer).holds = true ∧
      ((Rule.groups (Catalog.ofList [.ofNumber 8, .ofNumber 7])).decide lawyer).holds = true := by
  have hfield : Field.department.IsAttribute := ⟨by decide, by decide⟩
  have hnames : ∃ v ∈ mixedValues, NamesGroup v := by decide +kernel
  obtain ⟨hin, hnotIn, hgroups, hlisted, -⟩ := lists_decide lawyer .department none none mixedValues
    (Catalog.ofList [.ofNumber 8, .ofNumber 7])
  exact ⟨hfield, hnames, hin.symm.trans (by decide +kernel),
    (hnotIn hfield).symm.trans (by decide +kernel), (hgroups hnames).symm.trans (by decide +kernel),
    hlisted.trans (by decide +kernel)⟩

end RuleSet

end ContentVisibility
