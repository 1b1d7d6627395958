import ContentVisibility.Proofs.Rule.Order

/-!
# Warnings and issues

What is wrong with a condition is found out twice: as issues, when its rule is looked at before it is
saved, and as warnings, when it is decided. The two findings are made in different orders and come
down to the same.

* `Condition.MakesSense.flaws_eq`: what is wrong with a condition that makes sense;
* `Condition.test_warnings_eq_nil_iff`: a condition is warned about if and only if it has a flaw;
* `Condition.length_test_warnings`: on a known field there are as many warnings as flaws;
* `RuleSet.issuesAt_eq`: the issues at the index of a condition are its flaws;
* `Rule.warnings_decide_of_issues`: a rule without issues is decided without warnings.
-/

namespace ContentVisibility

/-! ## Groups that values name -/

namespace Condition

theorem length_warnings_groupNamed (operator : Operator) (value : String) :
    (groupNamed operator value).warnings.length = ([value].filter namesNone).length := by
  rw [groupNamed, Identifier.parse, List.filter_cons, namesNone]
  cases (Identifier.parse? value : Option GroupId) <;> rfl

theorem length_warnings_groupsNamed (operator : Operator) (values : List String) :
    (groupsNamed operator values).warnings.length = (values.filter namesNone).length := by
  rw [groupsNamed]
  simp only
  induction values with
  | nil => rfl
  | cons value values ih =>
    rw [List.map_cons, List.filterMap_cons, List.filter_cons, namesNone, Identifier.parse]
    cases (Identifier.parse? value : Option GroupId) with
    | none => simpa using ih
    | some group => simpa using ih

variable {c : Condition}

theorem length_invalidGroups (h : c.namesGroups = true) (values : List String) :
    (c.invalidGroups values).length = (values.filter namesNone).length := by
  rw [invalidGroups, if_pos h, List.length_map]
  rfl

theorem invalidGroups_eq_nil (h : c.namesGroups = false) (values : List String) :
    c.invalidGroups values = [] := by
  rw [invalidGroups, h]
  rfl

theorem invalidGroups_eq_nil_iff (h : c.namesGroups = true) {values : List String} :
    c.invalidGroups values = [] ↔ ∀ value ∈ values, namesNone value = false := by
  rw [← List.length_eq_zero_iff, length_invalidGroups h, List.length_eq_zero_iff,
    List.filter_eq_nil_iff]
  simp only [Bool.not_eq_true]

/-! ## One condition -/

/-- What is wrong with a condition that does not say what it compares with. -/
def missing (c : Condition) : Flaw :=
  if c.operator.takesList then .missingValues c.operator else .missingValue c.operator

/-- What is wrong with a condition that makes sense. -/
theorem MakesSense.flaws_eq (h : c.MakesSense) :
    c.flaws = c.comparands.elim [c.missing] c.invalidGroups := by
  rw [flaws, if_neg h.field, List.nil_append, operandFlaws, if_neg h.operator, if_neg h.comparison,
    comparands]
  unfold missing
  split
  · cases c.values <;> rfl
  · cases c.value <;> rfl

theorem MakesSense.warnings_test (h : c.MakesSense) :
    c.test.warnings =
      if c.operator.takesList then
        if c.namesGroups then (c.operands.bind (groupsNamed c.operator)).warnings
        else c.operands.warnings
      else
        if c.namesGroups then (c.operand.bind (groupNamed c.operator)).warnings
        else c.operand.warnings := by
  rw [h.test]
  cases c.operator.takesList <;> cases c.namesGroups <;> rfl

theorem length_test_warnings (hfield : c.field ≠ .unknown) :
    c.test.warnings.length = c.flaws.length := by
  by_cases hop : c.operator = .unknown
  · rw [test_of_unknown (.inr hop), flaws, if_neg hfield, operandFlaws, if_pos hop]
    rfl
  by_cases hcompared : c.field = .group ∧ (c.operator = .contains ∨ c.operator = .startsWith)
  · rw [test_of_comparison hcompared.1 hcompared.2, flaws, if_neg hfield, operandFlaws, if_neg hop,
      if_pos hcompared]
    rfl
  have hsense : c.MakesSense := ⟨hfield, hop, hcompared⟩
  rw [hsense.warnings_test, hsense.flaws_eq, comparands]
  split
  · cases hvalues : c.values with
    | none => simp [operands, hvalues, Reading.bind, Reading.useless]
    | some values =>
      cases hgroups : c.namesGroups with
      | true =>
        rw [Option.elim_some, length_invalidGroups hgroups, ← length_warnings_groupsNamed c.operator]
        simp [operands, hvalues, Reading.bind, Reading.clean]
      | false => simp [operands, hvalues, Reading.clean, invalidGroups_eq_nil hgroups]
  · cases hvalue : c.value with
    | none => simp [operand, hvalue, Reading.bind, Reading.useless]
    | some value =>
      cases hgroups : c.namesGroups with
      | true =>
        rw [Option.map_some, Option.elim_some, length_invalidGroups hgroups,
          ← length_warnings_groupNamed c.operator]
        simp [operand, hvalue, Reading.bind, Reading.clean]
      | false => simp [operand, hvalue, Reading.clean, invalidGroups_eq_nil hgroups]

theorem test_warnings_eq_nil_iff (c : Condition) : c.test.warnings = [] ↔ c.flaws = [] := by
  by_cases hfield : c.field = .unknown
  · rw [test_of_unknown (.inl hfield), flaws, if_pos hfield]
    simp [Reading.useless]
  · rw [← List.length_eq_zero_iff, length_test_warnings hfield, List.length_eq_zero_iff]

end Condition

/-! ## The conditions of a set -/

/-- The index of the condition that an issue is about. -/
def Issue.index? : Issue → Option Nat
  | .condition index _ => some index
  | .emptyGroupList | .emptyOrRuleSet => none

namespace RuleSet

/-- The issues about the condition at an index. -/
def issuesAt (set : RuleSet) (i : Nat) : List Issue :=
  set.issues.filter fun issue => issue.index? = some i

/-- Among the issues of conditions at other indices none is about this one. -/
theorem filter_issues_of_ne {conditions : List (Condition × Nat)} {i : Nat}
    (h : ∀ entry ∈ conditions, entry.2 ≠ i) :
    (conditions.flatMap fun (c, index) => c.flaws.map (Issue.condition index)).filter
      (fun issue => issue.index? = some i) = [] := by
  rw [List.filter_eq_nil_iff]
  intro issue hissue
  obtain ⟨⟨c, index⟩, hentry, hflaw⟩ := List.mem_flatMap.1 hissue
  obtain ⟨flaw, -, rfl⟩ := List.mem_map.1 hflaw
  simpa [Issue.index?] using h _ hentry

/-- The issues at the index of a condition are its flaws. -/
theorem issuesAt_eq {set : RuleSet} {i : Nat} {c : Condition} (h : set.conditions[i]? = some c) :
    set.issuesAt i = c.flaws.map (.condition i) := by
  obtain ⟨hi, hc⟩ := List.getElem?_eq_some_iff.1 h
  have hconditions : set.conditions =
      set.conditions.take i ++ c :: set.conditions.drop (i + 1) := by
    rw [← hc, ← List.drop_eq_getElem_cons, List.take_append_drop]
  have hwhole : ∀ issues : List Issue, (∀ issue ∈ issues, issue.index? = none) →
      issues.filter (fun issue => issue.index? = some i) = [] := by
    intro issues hnone
    rw [List.filter_eq_nil_iff]
    intro issue hm
    simp [hnone issue hm]
  have hlen : (set.conditions.take i).length = i := List.length_take_of_le (Nat.le_of_lt hi)
  rw [issuesAt, issues, List.filter_append, hwhole _ (by split <;> simp [Issue.index?]),
    List.nil_append, hconditions, List.zipIdx_append, List.zipIdx_cons, List.flatMap_append,
    List.flatMap_cons, List.filter_append, List.filter_append, hlen, Nat.zero_add,
    filter_issues_of_ne, filter_issues_of_ne, List.nil_append, List.append_nil, List.filter_eq_self]
  · intro issue hissue
    obtain ⟨flaw, -, rfl⟩ := List.mem_map.1 hissue
    simp [Issue.index?]
  · rintro ⟨c, index⟩ hentry
    have := (List.mem_zipIdx hentry).1
    simp only
    omega
  · rintro ⟨c, index⟩ hentry
    have := (List.mem_zipIdx hentry).2.1
    simp only
    omega

theorem flaws_eq_nil_of_issues {set : RuleSet} (h : set.issues = []) :
    ∀ c ∈ set.conditions, c.flaws = [] := by
  intro c hc
  obtain ⟨i, hi⟩ := List.mem_iff_getElem?.1 hc
  have hat := issuesAt_eq hi
  rw [issuesAt, h, List.filter_nil] at hat
  exact List.map_eq_nil_iff.1 hat.symm

end RuleSet

/-! ## Decisions -/

/-- Only the conditions that are looked at are warned about. -/
theorem Condition.exists_of_mem_decideUntil {stop : Bool} {user : User} {cs : List Condition}
    {warning : Warning} (h : warning ∈ (decideUntil stop user cs).warnings) :
    ∃ c ∈ cs, warning ∈ c.test.warnings := by
  rw [warnings_decideUntil] at h
  obtain ⟨c, hc, hwarning⟩ := List.mem_flatMap.1 h
  exact ⟨c, mem_of_mem_upTo hc, hwarning⟩

theorem Rule.warnings_decide_of_issues {rule : Rule} (h : rule.issues = []) (user : User) :
    (rule.decide user).warnings = [] := by
  cases rule with
  | all | groups ids => rfl
  | rules set =>
    refine List.eq_nil_iff_forall_not_mem.2 fun warning hm => ?_
    obtain ⟨c, hc, hwarning⟩ : ∃ c ∈ set.conditions, warning ∈ c.test.warnings := by
      rw [decide, RuleSet.decide_eq] at hm
      exact Condition.exists_of_mem_decideUntil hm
    rw [c.test_warnings_eq_nil_iff.2 (RuleSet.flaws_eq_nil_of_issues h c hc)] at hwarning
    cases hwarning

end ContentVisibility
