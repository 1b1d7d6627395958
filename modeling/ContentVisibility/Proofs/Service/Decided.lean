import ContentVisibility.Proofs.Service.Page
import ContentVisibility.Proofs.Service.Policy
import ContentVisibility.Proofs.Service.Warnings
import ContentVisibility.Proofs.Widget.Visits

/-!
# Which rules of a page are decided

For a user who is known every widget is decided to whose list pruning comes and that carries a rule.

* `Service.decided`: the rules that are decided for a page, in order;
* `countP_admitsValue`: a decision tells once that a rule is malformed, if it is, and else not at all;
* `filterWidgets_decides`: which widgets of a page are decided, and how often;
* `oneRulePage_decided_twice`: under a child key that is listed twice a rule is decided twice.
-/

namespace ContentVisibility

open Json (Value)

/-! ## Malformed rules -/

/-- The event tells that a rule cannot be read. -/
def Event.isMalformedRule : Event → Bool
  | malformedRule .. => true
  | _ => false

theorem Event.isWarning_of_isMalformedRule {event : Event} (h : event.isMalformedRule = true) :
    event.isWarning = true := by
  cases event <;> simp_all [isMalformedRule, isWarning]

instance (read : Except Json.Fault Rule) : Decidable (∃ fault, read = .error fault) :=
  match read with
  | .ok _ => isFalse nofun
  | .error fault => isTrue ⟨fault, rfl⟩

instance : DecidablePred Rule.Malformed := fun rule =>
  inferInstanceAs (Decidable (∃ text ∈ rule, Text.trim text ≠ "" ∧ Text.trim text ≠ "null" ∧
    ∃ fault, Rule.parse (Text.trim text) = .error fault))

instance : DecidablePred Rule.MalformedInPage
  | .null => inferInstanceAs (Decidable False)
  | .string text => inferInstanceAs (Decidable (Rule.Malformed (some text)))
  | .bool _ | .number _ | .array _ | .object _ =>
    inferInstanceAs (Decidable (∃ fault, Rule.ofValue _ = .error fault))

theorem Gate.countP_admits (gate : Gate) (user : User) :
    (gate.admits user).2.countP Event.isMalformedRule = 0 := by
  cases gate with
  | everyone | nobody => rfl
  | ruled rule =>
    rw [admits, List.countP_eq_zero]
    intro event h
    obtain ⟨warning, -, rfl⟩ := List.mem_map.1 h
    exact Bool.false_ne_true

namespace Options

variable (options : Options)

theorem countP_gate (read : Except Json.Fault Rule) :
    (options.gate read).2.countP Event.isMalformedRule =
      if ∃ fault, read = .error fault then 1 else 0 := by
  cases read <;> simp [gate, Event.isMalformedRule]

theorem countP_gateOfText (rule : Option String) :
    (options.gateOfText rule).2.countP Event.isMalformedRule =
      if Rule.Malformed rule then 1 else 0 := by
  cases rule with
  | none => simp [gateOfText, Rule.Malformed]
  | some text =>
    by_cases hblank : Text.trim text = "" ∨ Text.trim text = "null"
    · have hread : ¬ Rule.Malformed (some text) := by
        rintro ⟨_, ⟨⟩, hempty, hnull, -⟩
        exact hblank.elim hempty hnull
      simp [gateOfText, hblank, hread]
    · have hmalformed : Rule.Malformed (some text) ↔
          ∃ fault, Rule.parse (Text.trim text) = .error fault := by
        rw [not_or] at hblank
        simp [Rule.Malformed, hblank]
      simp only [gateOfText, Option.map_some, hblank, if_false, countP_gate, hmalformed]

theorem countP_gateOfValue (rule : Value) :
    (options.gateOfValue rule).2.countP Event.isMalformedRule =
      if Rule.MalformedInPage rule then 1 else 0 := by
  cases rule with
  | null => simp [gateOfValue, Rule.MalformedInPage]
  | string text => exact options.countP_gateOfText (some text)
  | bool _ | number _ | array _ | object _ => exact options.countP_gate _

end Options

namespace Service

variable {σ : Type} (service : Service σ)

/-- A decision tells once that its rule is malformed. -/
theorem countP_admitsValue (user : User) (rule : Value) :
    (service.admitsValue user rule).2.countP Event.isMalformedRule =
      if Rule.MalformedInPage rule then 1 else 0 := by
  have hsnd : (service.admitsValue user rule).2 = (service.options.gateOfValue rule).2 ++
      ((service.options.gateOfValue rule).1.admits user).2 := rfl
  rw [hsnd, List.countP_append, Options.countP_gateOfValue, Gate.countP_admits, Nat.add_zero]

theorem countP_flatMap_admitsValue (user : User) (rules : List Value) :
    (rules.flatMap fun rule => (service.admitsValue user rule).2).countP Event.isMalformedRule =
      rules.countP fun rule => Rule.MalformedInPage rule := by
  induction rules with
  | nil => rfl
  | cons rule rules ih =>
    rw [List.flatMap_cons, List.countP_append, countP_admitsValue, ih, List.countP_cons, Nat.add_comm]
    simp only [decide_eq_true_eq]

/-! ## The rules of a page -/

/-- The rules that are decided for a page, in order. -/
def decided (user : User) (nodes : List Value) : List Value :=
  (service.options.shape.prune (fun rule => (service.admitsValue user rule).1) nodes).consulted

variable {service} {id : UserId} {s : σ} {content : String} {nodes : List Value} {user : User}

theorem warnings_filterWidgets_decided (hcontent : widgetsOf content = .ok nodes)
    (huser : (service.resolve id s).outcome = .done (some user)) :
    (service.filterWidgets id content s).warnings =
      (service.decided user nodes).flatMap fun rule => (service.admitsValue user rule).2 := by
  by_cases hne : nodes = []
  · subst hne
    rw [service.filterWidgets_nil hcontent]
    rfl
  · rw [service.warnings_filterWidgets id s hcontent hne, known_of_done huser]
    rfl

/-- A request for a page tells of malformed rules as often as it decides them. -/
theorem countP_filterWidgets (hcontent : widgetsOf content = .ok nodes)
    (huser : (service.resolve id s).outcome = .done (some user)) :
    (service.filterWidgets id content s).events.countP Event.isMalformedRule =
      (service.decided user nodes).countP fun rule => Rule.MalformedInPage rule := by
  have hwarnings : (service.filterWidgets id content s).events.countP Event.isMalformedRule =
      (service.filterWidgets id content s).warnings.countP Event.isMalformedRule := by
    rw [Ran.warnings, List.countP_filter]
    refine List.countP_congr fun event _ => ?_
    rw [Bool.and_eq_true]
    exact ⟨fun h => ⟨h, Event.isWarning_of_isMalformedRule h⟩, And.left⟩
  rw [hwarnings, warnings_filterWidgets_decided hcontent huser, countP_flatMap_admitsValue]

/-- The rules that are decided stand at positions of the page. -/
theorem visits_decided
    (hkeys : service.options.shape.Separate ∨ service.options.shape.childKeys.Nodup)
    (hnodes : (Value.array nodes).Fits Json.Reader.nestingLimit)
    (huser : (service.resolve id s).outcome = .done (some user)) :
    Visits (service.options.shape.ruleAt? nodes)
      (service.options.shape.decisions (service.Shows id (some user) s) nodes)
      (service.decided user nodes) := by
  have hshown : ∀ node, service.options.shape.admits
      (fun rule => (service.allows (some user) rule).1) node = true ↔
        service.Shows id (some user) s node := admits_iff_shows huser
  rw [← TreeShape.decisions_congr hshown]
  exact TreeShape.visits_prune hkeys hnodes.items

/-- **Which rules of a page are decided.** The rules that are decided for a user who is known are those
of the widgets at some positions of the page. A position is among them only if its widget carries a
rule and every widget above it is shown; then it is once if the widget is not shown, and else as often
as the keys of the steps to it are listed, multiplied up. Where no key is listed twice that is once. A
warning that a rule is malformed is given each time that a malformed rule is decided. -/
theorem filterWidgets_decides
    (hkeys : service.options.visibilityKey ∉ service.options.childKeys ∨
      service.options.childKeys.Nodup)
    (hcontent : Value.parse content = .ok (.array nodes))
    (huser : (service.resolve id s).outcome = .done (some user)) :
    ∃ visits : List (Nat × List Step),
      visits.map (service.options.shape.ruleAt? nodes) = (service.decided user nodes).map some ∧
      (∀ place, visits.count place =
        service.options.shape.decisions (service.Shows id (some user) s) nodes place) ∧
      (service.options.childKeys.Nodup → visits.Nodup ∧ ∀ i steps, (i, steps) ∈ visits ↔
        (service.options.shape.ruleAt? nodes (i, steps)).isSome ∧
          service.options.shape.Reached (service.Shows id (some user) s) nodes i steps) ∧
      (service.filterWidgets id content s).warnings =
        (service.decided user nodes).flatMap (fun rule => (service.admitsValue user rule).2) ∧
      (service.filterWidgets id content s).events.countP Event.isMalformedRule =
        visits.countP fun place =>
          ∃ rule ∈ service.options.shape.ruleAt? nodes place, Rule.MalformedInPage rule := by
  have hwidgets := widgetsOf_eq hcontent
  obtain ⟨visits, hrules, htimes⟩ := visits_decided hkeys (fits_of_widgetsOf hwidgets) huser
  refine ⟨visits, hrules, htimes, fun hnodup => ?_, warnings_filterWidgets_decided hwidgets huser, ?_⟩
  -- without repeated keys a rule is decided once or not at all
  · have hcount : ∀ i steps, visits.count (i, steps) = if
        (service.options.shape.ruleAt? nodes (i, steps)).isSome ∧
          service.options.shape.Reached (service.Shows id (some user) s) nodes i steps
        then 1 else 0 :=
      fun i steps => (htimes (i, steps)).trans (TreeShape.decisions_of_nodup hnodup nodes i steps)
    refine ⟨List.nodup_iff_count_le_one.2 fun place => ?_, fun i steps => ?_⟩
    · rw [hcount place.1 place.2]
      split <;> omega
    · rw [← List.count_pos_iff, hcount]
      split <;> simp_all
  · have hmalformed : (fun place => decide (∃ rule ∈ service.options.shape.ruleAt? nodes place,
        Rule.MalformedInPage rule)) =
        (fun rule? : Option Value => decide (∃ rule ∈ rule?, Rule.MalformedInPage rule)) ∘
          service.options.shape.ruleAt? nodes := rfl
    rw [countP_filterWidgets hwidgets huser, hmalformed, ← List.countP_map, hrules, List.countP_map]
    refine List.countP_congr fun rule _ => ?_
    simp

/-- The widgets of the page whose rules a known user of it is decided for, some of them twice. -/
theorem filterWidgets_decides_samplePage :
    ∃ visits : List (Nat × List Step),
      visits.map (sampleService.options.shape.ruleAt? samplePage) =
        (sampleService.decided (.ofId (.ofNumber 7)) samplePage).map some ∧
      visits.count (0, []) = 1 ∧ visits.count (1, [⟨"items", 0⟩]) = 2 ∧
      visits.count (1, [⟨"items", 1⟩]) = 1 ∧
      (sampleService.filterWidgets (.ofNumber 7) (Value.array samplePage).text ()).events.countP
        Event.isMalformedRule = 1 := by
  have hcontent := Value.parse_text fits_samplePage
  have huser : (sampleService.resolve (.ofNumber 7) ()).outcome =
    .done (some (.ofId (.ofNumber 7))) := rfl
  obtain ⟨visits, hrules, htimes, -, -, -⟩ :=
    filterWidgets_decides (.inl (by decide)) hcontent huser
  refine ⟨visits, hrules, ?_, ?_, ?_, ?_⟩
  · rw [htimes]
    decide +kernel
  · rw [htimes]
    decide +kernel
  · rw [htimes]
    decide +kernel
  · rw [countP_filterWidgets (widgetsOf_eq hcontent) huser]
    decide +kernel

/-- Settings in which a child key stands twice. -/
def repeatingSettings : Settings :=
  { Settings.standard with widgets := ⟨"visibility", ["children", "children"]⟩ }

/-- A service with these settings, over the same directory. -/
def repeatingService : Service Unit := ⟨sampleService.host, .ofSettings repeatingSettings⟩

/-- A page with one rule, which cannot be read. -/
def oneRulePage : List Value :=
  [.object [("children", .array [.object [("visibility", .string "?")]])]]

theorem fits_oneRulePage : (Value.array oneRulePage).Fits Json.Reader.nestingLimit := by
  refine ⟨?_, by decide⟩
  simp [oneRulePage, Value.WellFormed, Value.WellFormedItems, Value.WellFormedMembers, Json.numberKey]

theorem eq_of_ruleAt?_oneRulePage {place : Nat × List Step} {rule : Value}
    (h : repeatingService.options.shape.ruleAt? oneRulePage place = some rule) :
    place = (0, [⟨"children", 0⟩]) := by
  obtain ⟨_ | i, _ | ⟨⟨key, j⟩, steps⟩⟩ := place
  · cases h
  · rw [TreeShape.ruleAt?_cons rfl] at h
    obtain rfl : key = "children" := by
      simpa [repeatingService, repeatingSettings, Options.shape, Options.ofSettings] using
        TreeShape.mem_childKeys_of_ruleAt? (Option.isSome_iff_exists.2 ⟨rule, h⟩)
    obtain _ | j := j
    · obtain _ | ⟨step, steps⟩ := steps
      · rfl
      · -- the widget with the rule holds no further widgets
        have hnone : ∀ children, Json.Members.get? step.key [("visibility", Value.string "?")] ≠
            some (.array children) := by
          simp [Json.Members.get?]
        rw [TreeShape.ruleAt?_cons rfl, TreeShape.childrenAt_of_no_list hnone,
          TreeShape.ruleAt?_nil] at h
        cases h
    · rw [TreeShape.ruleAt?_of_none rfl] at h
      cases h
  · cases h
  · rw [TreeShape.ruleAt?_of_none rfl] at h
    cases h

/-- The one rule of the page is decided twice, and is warned about twice. -/
theorem oneRulePage_decided_twice :
    repeatingSettings.check = .ok () ∧
    Value.parse (Value.array oneRulePage).text = .ok (.array oneRulePage) ∧
    (repeatingService.resolve (.ofNumber 7) ()).outcome = .done (some (.ofId (.ofNumber 7))) ∧
    (∀ place rule, repeatingService.options.shape.ruleAt? oneRulePage place = some rule →
      place = (0, [⟨"children", 0⟩])) ∧
    repeatingService.decided (.ofId (.ofNumber 7)) oneRulePage = [.string "?", .string "?"] ∧
    (¬ ∃ visits : List (Nat × List Step), visits.Nodup ∧
      visits.map (repeatingService.options.shape.ruleAt? oneRulePage) =
        (repeatingService.decided (.ofId (.ofNumber 7)) oneRulePage).map some) ∧
    (repeatingService.filterWidgets (.ofNumber 7) (Value.array oneRulePage).text ()).events.countP
      Event.isMalformedRule = 2 := by
  have hdecided : repeatingService.decided (.ofId (.ofNumber 7)) oneRulePage =
      [.string "?", .string "?"] := rfl
  have huser : (repeatingService.resolve (.ofNumber 7) ()).outcome =
    .done (some (.ofId (.ofNumber 7))) := rfl
  have hcontent := Value.parse_text fits_oneRulePage
  refine ⟨by decide +kernel, hcontent, huser, fun _ _ => eq_of_ruleAt?_oneRulePage, hdecided, ?_, ?_⟩
  · rintro ⟨visits, hnodup, hrules⟩
    have hlength : visits.length = 2 := by simpa [hdecided] using congrArg List.length hrules
    obtain ⟨place, other, rfl⟩ := List.length_eq_two.1 hlength
    obtain ⟨hplace, hother⟩ : _ ∧ _ := by simpa [hdecided] using hrules
    rw [eq_of_ruleAt?_oneRulePage hplace, eq_of_ruleAt?_oneRulePage hother] at hnodup
    exact absurd hnodup (by decide)
  · rw [countP_filterWidgets (widgetsOf_eq hcontent) huser, hdecided]
    decide +kernel

end Service

end ContentVisibility
