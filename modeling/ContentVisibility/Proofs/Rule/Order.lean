import ContentVisibility.Proofs.Rule.Tests

/-!
# Conditions in order

The conditions of a set are looked at from the first one on, up to one that settles the result. What
comes out is the same in whatever order they stand; what is warned about depends on the order, since
conditions behind the one that settles the result are not looked at.

* `Condition.upTo`: the conditions up to the first one with an outcome;
* `Condition.warnings_decideUntil`: the warnings are those of the conditions that are looked at;
* `RuleSet.holds_decide`: the result is that of all conditions taken together;
* `RuleSet.decide_in_order`: result and warnings of a set.
-/

namespace ContentVisibility

namespace Condition

variable {stop : Bool} {user : User}

/-- The conditions up to the first one with the outcome `stop`, that one included, or all of them if
there is none. -/
def upTo (stop : Bool) (user : User) (cs : List Condition) : List Condition :=
  cs.take (cs.findIdx (fun c => (c.decide user).holds == stop) + 1)

theorem upTo_cons_of_eq {c : Condition} (h : (c.decide user).holds = stop) (cs : List Condition) :
    upTo stop user (c :: cs) = [c] := by
  simp [upTo, List.findIdx_cons, h]

theorem upTo_cons_of_ne {c : Condition} (h : (c.decide user).holds ≠ stop) (cs : List Condition) :
    upTo stop user (c :: cs) = c :: upTo stop user cs := by
  have hnot : ((c.decide user).holds == stop) = false := beq_false_of_ne h
  simp [upTo, List.findIdx_cons, hnot]

theorem mem_of_mem_upTo {c : Condition} {cs : List Condition} (h : c ∈ upTo stop user cs) : c ∈ cs :=
  List.mem_of_mem_take h

/-- The warnings of the conditions that are looked at come one after another. -/
theorem warnings_decideUntil (stop : Bool) (user : User) (cs : List Condition) :
    (decideUntil stop user cs).warnings =
      (upTo stop user cs).flatMap fun c => (c.decide user).warnings := by
  induction cs with
  | nil => rfl
  | cons c cs ih =>
    rw [decideUntil]
    split
    · next h =>
      rw [upTo_cons_of_eq h]
      exact (List.append_nil _).symm
    · next h =>
      rw [upTo_cons_of_ne h, List.flatMap_cons, ← ih]

end Condition

/-! ## The result of a set -/

namespace Logic

/-- The outcome of a condition that settles the result, whatever the others come to. -/
def settling : Logic → Bool
  | .and => false
  | .or => true

/-- The outcomes of all conditions taken together. -/
def join : Logic → List Bool → Bool
  | .and, outcomes => outcomes.all id
  | .or, outcomes => outcomes.any id

/-- Of two outcomes either both are the one that settles the result, or both are the other one. -/
theorem eq_of_eq_iff : ∀ {outcome outcome' stop : Bool},
    (outcome = stop ↔ outcome' = stop) → outcome = outcome' := by
  decide

theorem join_eq_settling_iff (logic : Logic) (outcomes : List Bool) :
    logic.join outcomes = logic.settling ↔ logic.settling ∈ outcomes := by
  cases logic <;> simp [join, settling]

/-- Outcomes come to the same if the same ones are among them, in whatever order and however often. -/
theorem join_congr (logic : Logic) {outcomes outcomes' : List Bool}
    (h : ∀ outcome, outcome ∈ outcomes ↔ outcome ∈ outcomes') :
    logic.join outcomes = logic.join outcomes' := by
  have hsettled := h logic.settling
  rw [← join_eq_settling_iff, ← join_eq_settling_iff] at hsettled
  exact eq_of_eq_iff hsettled

end Logic

namespace RuleSet

theorem decide_eq (set : RuleSet) (user : User) :
    set.decide user = Condition.decideUntil set.logic.settling user set.conditions := by
  rw [decide]
  cases set.logic <;> rfl

theorem holds_decide (set : RuleSet) (user : User) :
    (set.decide user).holds = set.logic.join (set.conditions.map fun c => (c.decide user).holds) := by
  -- Both are settled if one condition has the outcome that settles.
  have hsettled : (set.decide user).holds = set.logic.settling ↔
      set.logic.join (set.conditions.map fun c => (c.decide user).holds) = set.logic.settling := by
    rw [decide_eq, Condition.holds_decideUntil, Logic.join_eq_settling_iff, List.mem_map]
  exact Logic.eq_of_eq_iff hsettled

theorem holds_and (cs : List Condition) (user : User) :
    (decide ⟨.and, cs⟩ user).holds = cs.all fun c => (c.decide user).holds := by
  rw [holds_decide]
  exact List.all_map

theorem holds_or (cs : List Condition) (user : User) :
    (decide ⟨.or, cs⟩ user).holds = cs.any fun c => (c.decide user).holds := by
  rw [holds_decide]
  exact List.any_map

/-- **A set is decided in the order of its conditions.** The result is that of all conditions taken
together, so it stays the same when they change places or are repeated. The warnings are those of the
conditions up to the first one that settles the result, in order, and of no condition behind it. -/
theorem decide_in_order (set : RuleSet) (user : User) :
    (set.decide user).holds =
        set.logic.join (set.conditions.map fun c => (c.decide user).holds) ∧
      (∀ conditions : List Condition, (∀ c, c ∈ conditions ↔ c ∈ set.conditions) →
        (RuleSet.decide ⟨set.logic, conditions⟩ user).holds = (set.decide user).holds) ∧
      (set.decide user).warnings =
        (Condition.upTo set.logic.settling user set.conditions).flatMap
          fun c => (c.decide user).warnings := by
  refine ⟨set.holds_decide user, fun conditions hsame => ?_, ?_⟩
  · rw [holds_decide, holds_decide]
    refine set.logic.join_congr fun outcome => ?_
    simp only [List.mem_map, hsame]
  · rw [decide_eq, Condition.warnings_decideUntil]

/-- A condition that is warned about and holds, one that fails without a warning, and one that is warned
about and fails. -/
def mixedSet : RuleSet :=
  ⟨.and, [.multiple .group .notIn ["x", (.ofNumber 7 : GroupId).text],
    .multiple .department .isIn [], .single .unknown .equals "y"]⟩

theorem decide_in_order_mixedSet :
    let user := User.ofId (.ofNumber 1)
    (∀ c, c ∈ mixedSet.conditions.reverse ↔ c ∈ mixedSet.conditions) ∧
      (mixedSet.decide user).holds = false ∧
      (RuleSet.decide ⟨.and, mixedSet.conditions.reverse⟩ user).holds = false ∧
      (mixedSet.decide user).warnings = [.skippedGroup .notIn ⟨.group, "x"⟩] ∧
      (RuleSet.decide ⟨.and, mixedSet.conditions.reverse⟩ user).warnings =
        [.unsupported .unknown .equals .unknownWord] := by
  intro user
  have hsame : ∀ c, c ∈ mixedSet.conditions.reverse ↔ c ∈ mixedSet.conditions :=
    fun c => List.mem_reverse
  obtain ⟨hholds, hreordered, hwarnings⟩ := decide_in_order mixedSet user
  obtain ⟨-, -, hbehind⟩ := decide_in_order ⟨.and, mixedSet.conditions.reverse⟩ user
  have hfails : (mixedSet.decide user).holds = false := hholds.trans (by decide +kernel)
  exact ⟨hsame, hfails, (hreordered _ hsame).trans hfails, hwarnings.trans (by decide +kernel),
    hbehind.trans (by decide +kernel)⟩

end RuleSet

end ContentVisibility
