import ContentVisibility.Proofs.Rule.Flaws
import ContentVisibility.Proofs.Rule.Trimmed
import ContentVisibility.Proofs.Rule.Written
import ContentVisibility.Proofs.Service.Audience

/-!
# Requests with rules that have no issues

* `Rule.Sound`: a rule given as text that can be read and has no issues;
* `notes_isVisible`, `notes_filterVisible`, `notes_audienceMembers`: what is noted during a request
  comes from look-ups, from its rules and from the audit;
* `warnings_match_issues`: warnings and issues about conditions agree, and no request with rules that
  have no issues gives a warning.
-/

namespace ContentVisibility

/-- The rule, if there is one, can be read as it stands and has no issues. -/
def Rule.Sound (rule : Option String) : Prop :=
  ∀ text ∈ rule, ∃ r, Rule.parse text = .ok r ∧ r.issues = []

/-- The gate of a sound rule gives no warnings, neither by itself nor when a user comes to it. -/
theorem Options.quiet_of_sound (options : Options) {rule : Option String} (h : Rule.Sound rule) :
    (options.gateOfText rule).2 = [] ∧
      ∀ user, ((options.gateOfText rule).1.admits user).2 = [] := by
  cases rule with
  | none => exact ⟨rfl, fun _ => rfl⟩
  | some text =>
    obtain ⟨r, hparse, hissues⟩ := h text rfl
    rw [options.gateOfText_of_parse hparse]
    refine ⟨rfl, fun user => ?_⟩
    simp only [Gate.admits, Rule.warnings_decide_of_issues hissues, List.map_nil]

namespace Service

variable {σ α : Type} (service : Service σ) {such : Event → Prop}

theorem admitsText_snd (user : User) (rule : Option String) :
    (service.admitsText user rule).2 = (service.options.gateOfText rule).2 ++
      ((service.options.gateOfText rule).1.admits user).2 := rfl

/-! ## What is noted during requests -/

theorem notes_noteIf {event : Event} (h : such event) :
    (Run.noteIf service.options.audit event : Run σ Unit).Notes such := by
  refine Run.notes_note ?_
  split
  · simpa using h
  · nofun

section Requests

variable (hcancelled : ∀ id, such (.resolutionCancelled id)) (hunknown : ∀ id, such (.userNotFound id))
  (hinactive : ∀ id, such (.userInactive id))

include hcancelled hunknown hinactive

theorem notes_isVisible (hdecided : ∀ id visible, such (.decided id visible)) (id : UserId)
    {rule : Option String} (h : ∀ user, ∀ event ∈ (service.admitsText user rule).2, such event) :
    (service.isVisible id rule).Notes such := by
  refine (service.notes_resolve id (hcancelled id) (hunknown id) (hinactive id)).bind fun user => ?_
  cases user with
  | none => exact Run.notes_pure false
  | some user =>
    exact (Run.notes_note (h user)).bind fun _ =>
      (service.notes_noteIf (hdecided id _)).bind fun _ => Run.notes_pure _

theorem notes_filterVisible
    (hfiltered : ∀ id total visible, such (.collectionFiltered id total visible)) (id : UserId)
    {items : List α} {ruleOf : α → Option String}
    (h : ∀ user, ∀ item ∈ items, ∀ event ∈ (service.admitsText user (ruleOf item)).2, such event) :
    (service.filterVisible id items ruleOf).Notes such := by
  refine (service.notes_resolve id (hcancelled id) (hunknown id) (hinactive id)).bind fun user => ?_
  cases user with
  | none => exact Run.notes_pure []
  | some user =>
    refine (Run.notes_note fun event hm => ?_).bind fun _ =>
      (service.notes_noteIf (hfiltered id _ _)).bind fun _ => Run.notes_pure _
    obtain ⟨item, hitem, hevent⟩ := List.mem_flatMap.1 hm
    exact h user item hitem event hevent

theorem notes_membersAmong {gate : Gate} (h : ∀ user, ∀ event ∈ (gate.admits user).2, such event)
    (ids : List UserId) : (service.membersAmong gate ids).Notes such := by
  induction ids with
  | nil => exact Run.notes_pure []
  | cons id ids ih =>
    refine (service.notes_resolve id (hcancelled id) (hunknown id) (hinactive id)).bind fun user => ?_
    cases user with
    | none => exact ih
    | some user => exact (Run.notes_note (h user)).bind fun _ => ih.bind fun _ => Run.notes_pure _

theorem notes_audienceMembers
    (hselected : ∀ candidates members, such (.audienceSelected candidates members))
    {rule : Option String} (hgate : ∀ event ∈ (service.options.gateOfText rule).2, such event)
    (h : ∀ user, ∀ event ∈ ((service.options.gateOfText rule).1.admits user).2, such event)
    (candidates : List UserId) : (service.audienceMembers rule candidates).Notes such := by
  unfold audienceMembers
  rcases hread : service.options.gateOfText rule with ⟨gate, events⟩
  rw [hread] at hgate h
  refine (Run.notes_note hgate).bind fun _ => ?_
  split
  · exact Run.notes_pure []
  · exact (service.notes_membersAmong hcancelled hunknown hinactive h candidates).bind fun _ =>
      (service.notes_noteIf (hselected _ _)).bind fun _ => Run.notes_pure _

end Requests

/-! ## Warnings and issues -/

/-- **Warnings and issues agree.** A condition is warned about, whoever the user is, if and only if
the issues of a set that holds it name its index, and on a known field as often. So a request whose
rules can be read and have no issues gives no warning, whatever the collaborators and the options. -/
theorem warnings_match_issues (s : σ) :
    (∀ (set : RuleSet) (i : Nat) (c : Condition), set.conditions[i]? = some c →
      (∀ user, (c.decide user).warnings ≠ [] ↔ set.issuesAt i ≠ []) ∧
      (∀ user user', (c.decide user).warnings = (c.decide user').warnings) ∧
      (c.field ≠ .unknown →
        ∀ user, (c.decide user).warnings.length = (set.issuesAt i).length)) ∧
    (∀ id rule, Rule.Sound rule →
      ∀ event ∈ (service.isVisible id rule s).events, event.isWarning = false) ∧
    (∀ id (items : List α) ruleOf, (∀ item ∈ items, Rule.Sound (ruleOf item)) →
      ∀ event ∈ (service.filterVisible id items ruleOf s).events, event.isWarning = false) ∧
    (∀ rule candidates, Rule.Sound rule →
      ∀ event ∈ (service.audienceMembers rule candidates s).events, event.isWarning = false) := by
  have hquiet : ∀ user rule, Rule.Sound rule → (service.admitsText user rule).2 = [] := by
    intro user rule h
    obtain ⟨hgate, hadmits⟩ := service.options.quiet_of_sound h
    rw [admitsText_snd, hgate, hadmits user, List.append_nil]
  refine ⟨fun set i c hc => ?_, fun id rule h => ?_, fun id items ruleOf h => ?_,
    fun rule candidates h => ?_⟩
  · rw [RuleSet.issuesAt_eq hc, List.length_map, Ne, Ne, List.map_eq_nil_iff]
    exact ⟨fun _ => not_congr c.test_warnings_eq_nil_iff, fun _ _ => rfl,
      fun hfield _ => Condition.length_test_warnings hfield⟩
  · refine service.notes_isVisible ?_ ?_ ?_ ?_ id ?_ s
    · exact fun _ => rfl
    · exact fun _ => rfl
    · exact fun _ => rfl
    · exact fun _ _ => rfl
    · intro user
      rw [hquiet user rule h]
      nofun
  · refine service.notes_filterVisible ?_ ?_ ?_ ?_ id ?_ s
    · exact fun _ => rfl
    · exact fun _ => rfl
    · exact fun _ => rfl
    · exact fun _ _ _ => rfl
    · intro user item hitem
      rw [hquiet user (ruleOf item) (h item hitem)]
      nofun
  · obtain ⟨hgate, hadmits⟩ := service.options.quiet_of_sound h
    refine service.notes_audienceMembers ?_ ?_ ?_ ?_ ?_ ?_ candidates s
    · exact fun _ => rfl
    · exact fun _ => rfl
    · exact fun _ => rfl
    · exact fun _ _ => rfl
    · rw [hgate]
      nofun
    · intro user
      rw [hadmits user]
      nofun

/-- A set of one condition without flaws and one with two. -/
def flawedSet : RuleSet :=
  ⟨.or, [.single .department .equals "Sales", .multiple .group .notIn ["x", "y"]]⟩

theorem warnings_match_issues_flawedSet :
    (∀ user, ((Condition.multiple .group .notIn ["x", "y"]).decide user).warnings.length =
      (flawedSet.issuesAt 1).length) ∧
    (flawedSet.issuesAt 1).length = 2 ∧
    (∀ event ∈ (outageService.isVisible (.ofNumber 7) (some " [ \"All\" ]\n") ()).events,
      event.isWarning = false) ∧
    (∀ event ∈ (outageService.filterVisible (.ofNumber 7) [none, some "[\"all\"]"] id ()).events,
      event.isWarning = false) ∧
    ∀ event ∈ (outageService.audienceMembers (some "[\"all\"]") [.ofNumber 7] ()).events,
      event.isWarning = false := by
  have htwo : (flawedSet.issuesAt 1).length = 2 := by
    rw [RuleSet.issuesAt_eq rfl, List.length_map]
    decide
  have hread : Rule.parse " [ \"All\" ]\n" = .ok .all ∧ Rule.parse "[\"all\"]" = .ok .all :=
    ⟨Rule.parse_eq_all (by decide +kernel), Rule.parse_eq_all (by decide +kernel)⟩
  have hblanks : Rule.Sound (some " [ \"All\" ]\n") := by
    rintro _ ⟨⟩
    exact ⟨.all, hread.1, rfl⟩
  have hall : Rule.Sound (some "[\"all\"]") := by
    rintro _ ⟨⟩
    exact ⟨.all, hread.2, rfl⟩
  obtain ⟨hconditions, hvisible, hitems, haudience⟩ :=
    warnings_match_issues (α := Option String) outageService ()
  refine ⟨(hconditions flawedSet 1 _ rfl).2.2 nofun, htwo, hvisible _ _ hblanks,
    hitems _ _ _ ?_, haudience _ _ hall⟩
  simp only [List.forall_mem_cons, List.not_mem_nil, false_imp_iff, implies_true, and_true]
  exact ⟨nofun, hall⟩

end Service

end ContentVisibility
