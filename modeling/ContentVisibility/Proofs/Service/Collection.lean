import ContentVisibility.Proofs.Service.Audience
import ContentVisibility.Proofs.Service.Warnings

/-!
# Collections

A collection is filtered by one look-up of its user, and comes out as if each of its items had been
decided by itself.

* `filterVisible_outcome`: the items whose rules admit the record of the user;
* `filterVisible_eq_isVisible`: the items, the failures and the warnings of a collection are those of
  the decisions on its items.
-/

namespace ContentVisibility.Service

variable {σ α : Type} (service : Service σ)

theorem filterVisible_outcome (id : UserId) (items : List α) (ruleOf : α → Option String) (s : σ) :
    (service.filterVisible id items ruleOf s).outcome =
      (service.resolve id s).outcome.map fun user =>
        items.filter fun item => user.any fun user => (service.admitsText user (ruleOf item)).1 := by
  rcases h : service.resolve id s with ⟨user | failure | _, trace, t⟩
  · rw [filterVisible, Run.bind_done h]
    cases user with
    | none => simp [Outcome.map]
    | some user => simp only [Run.note_bind, Run.noteIf_bind, Run.pure_apply, Outcome.map, Option.any_some]
  · rw [filterVisible, Run.bind_failed h]
    rfl
  · rw [filterVisible, Run.bind_waiting h]
    rfl

variable {service} {id : UserId} {s : σ}

/-- An item is among the ones that are left if and only if its decision lets the user through. -/
theorem filter_isVisible {user : Option User} (h : (service.resolve id s).outcome = .done user)
    (items : List α) (ruleOf : α → Option String) :
    (items.filter fun item => user.any fun user => (service.admitsText user (ruleOf item)).1) =
      items.filter fun item =>
        decide ((service.isVisible id (ruleOf item) s).outcome = .done true) := by
  refine List.filter_congr fun item _ => ?_
  rw [isVisible_outcome, h, Bool.eq_iff_iff, decide_eq_true_iff, Outcome.map, Outcome.done.injEq]

theorem warnings_filterVisible_eq_flatMap (items : List α) (ruleOf : α → Option String) :
    (service.filterVisible id items ruleOf s).warnings =
      items.flatMap fun item => (service.isVisible id (ruleOf item) s).warnings := by
  simp only [warnings_filterVisible, warnings_isVisible]
  cases service.known id s with
  | none => exact (List.flatMap_eq_nil_iff.2 fun _ _ => rfl).symm
  | some user => rfl

/-- With collaborators that always answer alike a decision gives the same warnings, whenever it is
made. -/
theorem warnings_isVisible_steady (h : service.host.Fixed) (rule : Option String) (s s' : σ) :
    (service.isVisible id rule s).warnings = (service.isVisible id rule s').warnings := by
  rw [warnings_isVisible, warnings_isVisible, known, known, steady_resolve h id s s']

/-- **A collection is filtered as if each item were decided by itself.** It fails, or is left waiting,
as a decision without a rule does, also if it is empty. Otherwise every item has its decision, and the
items that are left are those whose decisions let the user through. The warnings are those of the
decisions, one item after another; for a user who is not known there are no items left and no warnings.
When the decisions are made makes no difference to collaborators that always answer alike. -/
theorem filterVisible_eq_isVisible (service : Service σ) (id : UserId) (items : List α)
    (ruleOf : α → Option String) (s : σ) :
    let ran := service.filterVisible id items ruleOf s
    let decision := fun item => service.isVisible id (ruleOf item) s
    let alone := service.isVisible id none s
    (∀ failure, ran.outcome = .failed failure ↔ alone.outcome = .failed failure) ∧
    (ran.outcome = .waiting ↔ alone.outcome = .waiting) ∧
    (∀ answer, alone.outcome = .done answer →
      (∀ item ∈ items, ∃ visible, (decision item).outcome = .done visible) ∧
      ran.outcome = .done (items.filter fun item => decide ((decision item).outcome = .done true))) ∧
    ran.warnings = (items.flatMap fun item => (decision item).warnings) ∧
    ((service.resolve id s).outcome = .done none → ran.outcome = .done [] ∧ ran.warnings = []) ∧
    (service.host.Fixed → ∀ item s',
      (service.isVisible id (ruleOf item) s').outcome = (decision item).outcome ∧
      (service.isVisible id (ruleOf item) s').warnings = (decision item).warnings) := by
  intro ran decision alone
  have hran := service.filterVisible_outcome id items ruleOf s
  have halone := service.isVisible_outcome id none s
  refine ⟨fun failure => ?_, ?_, fun answer hanswer => ?_, warnings_filterVisible_eq_flatMap items ruleOf,
    fun hunknown => ?_, fun hfixed item s' => ?_⟩
  · rw [show ran.outcome = _ from hran, show alone.outcome = _ from halone]
    cases (service.resolve id s).outcome <;> simp [Outcome.map]
  · rw [show ran.outcome = _ from hran, show alone.outcome = _ from halone]
    cases (service.resolve id s).outcome <;> simp [Outcome.map]
  · rw [show alone.outcome = _ from halone] at hanswer
    cases huser : (service.resolve id s).outcome with
    | failed failure | waiting =>
      rw [huser] at hanswer
      cases hanswer
    | done user =>
      refine ⟨fun item _ => ⟨user.any fun user => (service.admitsText user (ruleOf item)).1, ?_⟩, ?_⟩
      · exact (service.isVisible_outcome id (ruleOf item) s).trans (by rw [huser]; rfl)
      · rw [show ran.outcome = _ from hran, huser, Outcome.map, filter_isVisible huser]
  · refine ⟨?_, ?_⟩
    · rw [show ran.outcome = _ from hran, hunknown, Outcome.map]
      simp
    · rw [show ran.warnings = _ from service.warnings_filterVisible id s items ruleOf,
        known_of_done hunknown]
      rfl
  · exact ⟨steady_isVisible hfixed id (ruleOf item) s' s,
      warnings_isVisible_steady hfixed (ruleOf item) s' s⟩

/-- Items without a rule, with a rule that cannot be read, with no rule to speak of, and with one that
admits nobody. -/
theorem filterVisible_eq_isVisible_outageService :
    let items : List (Option String) := [none, some "?", some " null ", some "[\"groups\",[]]", none]
    let ran := outageService.filterVisible (.ofNumber 7) items (fun rule => rule) ()
    ran.outcome = .done [none, some "?", some " null ", none] ∧ ran.warnings.length = 1 ∧
      (outageService.filterVisible (.ofNumber 8) items (fun rule => rule) ()).outcome =
        .failed (.outage emptyRecord) ∧
      (outageService.filterVisible (.ofNumber 9) items (fun rule => rule) ()).outcome = .done [] := by
  intro items ran
  obtain ⟨-, -, hdone, hwarnings, -, -⟩ :=
    filterVisible_eq_isVisible outageService (.ofNumber 7) items (fun rule => rule) ()
  obtain ⟨hfailed, -⟩ := filterVisible_eq_isVisible outageService (.ofNumber 8) items (fun rule => rule) ()
  obtain ⟨-, -, -, -, hunknown, -⟩ :=
    filterVisible_eq_isVisible outageService (.ofNumber 9) items (fun rule => rule) ()
  refine ⟨(hdone true rfl).2.trans (congrArg Outcome.done ?_), ?_, (hfailed _).2 rfl, (hunknown rfl).1⟩
  · decide +kernel
  · rw [show ran.warnings = _ from hwarnings]
    decide +kernel

end ContentVisibility.Service
