import ContentVisibility.Proofs.Command.Steps
import ContentVisibility.Proofs.Service.Decided
import ContentVisibility.Proofs.Settings.Check

/-!
# Rules that stay as they are

Settings are checked so that no rule is taken for a list of widgets. The check looks at the key of rules
without the blank characters around it, while widgets are searched for the key as it is.

* `TreeShape.RulesIntact`: a page of which some widgets are gone, and no rule has changed;
* `rulesIntact_thin`: thinning out a page leaves its rules intact;
* `check_keeps_rules`: for which keys the check is right, and that rules are intact then;
* `paddedSettings_lose_rule`: a key with a blank character for which it is not.
-/

namespace ContentVisibility

open Json (Value Members.get?)

namespace TreeShape

variable (shape : TreeShape)

/-- Some widgets are gone from a list of widgets. Those that are left, and those inside these, hold the
rules that they held. -/
inductive RulesIntact : List Value → List Value → Prop where
  | nil : RulesIntact [] []
  | gone {node : Value} {nodes left : List Value} (others : RulesIntact nodes left) :
    RulesIntact (node :: nodes) left
  | stays {node after : Value} {nodes left : List Value}
    (rule : after.member? shape.visibilityKey = node.member? shape.visibilityKey)
    (inside : ∀ key, RulesIntact (shape.childrenAt key node) (shape.childrenAt key after))
    (others : RulesIntact nodes left) : RulesIntact (node :: nodes) (after :: left)

variable {shape} {p : Value → Bool}

theorem childrenAt_thinNode (key : String) (node : Value) :
    shape.childrenAt key (shape.thinNode p node) = shape.thin p (shape.childrenAt key node) := by
  by_cases hkey : key ∈ shape.childKeys
  · cases node with
    | object members =>
      rw [thinNode_object, childrenAt, childrenAt, if_pos hkey, if_pos hkey, Value.member?,
        Value.member?, get?_thinned]
      rcases Members.get? key members with _ | value
      · simp [thin]
      · cases value <;> simp [thinMember, hkey, thinChildren, thin]
    | null | bool _ | number _ | string _ | array _ =>
      simp [thinNode, childrenAt, Value.member?, thin]
  · rw [childrenAt_of_notMem hkey, childrenAt_of_notMem hkey, thin]

theorem member?_thinNode {key : String} (h : key ∉ shape.childKeys) (node : Value) :
    (shape.thinNode p node).member? key = node.member? key := by
  cases node with
  | object members =>
    have hsame : shape.thinMember p key = id := by
      funext value
      exact if_neg h
    rw [thinNode_object, Value.member?, Value.member?, get?_thinned, hsame, Option.map_id]
    rfl
  | null | bool _ | number _ | string _ | array _ => rw [thinNode]

theorem rulesIntact_thin_of (h : shape.Separate) {nodes : List Value}
    (hinside : ∀ node ∈ nodes, ∀ key,
      shape.RulesIntact (shape.childrenAt key node) (shape.thin p (shape.childrenAt key node))) :
    shape.RulesIntact nodes (shape.thin p nodes) := by
  induction nodes with
  | nil =>
    rw [thin]
    exact .nil
  | cons node nodes ih =>
    have hothers := ih fun v hv => hinside v (List.mem_cons_of_mem node hv)
    rw [thin]
    split
    · refine .stays (member?_thinNode h node) (fun key => ?_) hothers
      rw [childrenAt_thinNode]
      exact hinside node (List.mem_cons_self ..) key
    · exact .gone hothers

/-- **Thinning out a page leaves its rules intact.** -/
theorem rulesIntact_thin (h : shape.Separate) (nodes : List Value) :
    shape.RulesIntact nodes (shape.thin p nodes) := by
  have hvalue : ∀ v : Value,
      (∀ key, shape.RulesIntact (shape.childrenAt key v) (shape.thin p (shape.childrenAt key v))) ∧
      ∀ children, v = .array children → shape.RulesIntact children (shape.thin p children) := by
    intro v
    induction v using Value.ind with
    | null | bool _ | number _ | string _ =>
      exact ⟨fun key => by rw [childrenAt_of_scalar (by simp), thin]; exact .nil, by simp⟩
    | array items ih =>
      refine ⟨fun key => by rw [childrenAt_of_scalar (by simp), thin]; exact .nil, ?_⟩
      rintro children ⟨⟩
      exact rulesIntact_thin_of h fun node hnode => (ih node hnode).1
    | object members ih =>
      refine ⟨fun key => ?_, by simp⟩
      rcases shape.childrenAt_cases key (.object members) with hnone | ⟨_, ⟨⟩, hchildren⟩
      · rw [hnone, thin]
        exact .nil
      · exact (ih _ (Json.Members.mem_of_get?_eq_some hchildren)).2 _ rfl
  exact (hvalue (.array nodes)).2 nodes rfl

/-- The keys on the way to a widget are child keys. -/
theorem mem_childKeys_of_nodeAt? {nodes : List Value} {i : Nat} {steps : List Step} {node : Value}
    (h : shape.nodeAt? nodes i steps = some node) : ∀ step ∈ steps, step.key ∈ shape.childKeys := by
  induction steps generalizing nodes i with
  | nil => nofun
  | cons step steps ih =>
    obtain ⟨outer, houter, hinside⟩ := Option.bind_eq_some_iff.1 h
    rintro other hother
    rcases List.mem_cons.1 hother with rfl | hother
    · by_contra hkey
      rw [childrenAt_of_notMem hkey] at hinside
      cases steps <;> cases hinside
    · exact ih hinside other hother

end TreeShape

/-! ## Loaded settings -/

/-- All layers together give the settings, or one file does. -/
def Settings.Loaded (settings : Settings) : Prop :=
  (∃ layers : Layers, layers.load = .ok settings) ∨
    ∃ (place : Command.Place Id) (path : String), (place.settingsAt path).run = .ok settings

theorem Settings.Loaded.check {settings : Settings} (h : settings.Loaded) :
    settings.check = .ok () := by
  rcases h with ⟨layers, hlayers⟩ | ⟨place, path, hfile⟩
  · obtain ⟨-, -, -, hcheck⟩ := Layers.load_eq_ok_iff.1 hlayers
    exact hcheck
  · obtain ⟨-, -, -, hcheck⟩ := Command.Place.settingsAt_eq_ok_iff.1 hfile
    exact hcheck

namespace Service

variable {σ : Type} {service : Service σ} {id : UserId} {s : σ}

/-- The rules that are decided stand in widgets that are reached without going into a rule. -/
theorem exists_of_mem_decided (hkey : service.options.shape.Separate) {nodes : List Value}
    (hnodes : (Value.array nodes).Fits Json.Reader.nestingLimit) {user : User}
    (huser : (service.resolve id s).outcome = .done (some user)) {rule : Value}
    (h : rule ∈ service.decided user nodes) :
    ∃ i steps node, service.options.shape.nodeAt? nodes i steps = some node ∧
      node.member? service.options.visibilityKey = some rule ∧
      ∀ step ∈ steps, step.key ≠ service.options.visibilityKey := by
  obtain ⟨visits, hrules, -⟩ := visits_decided (.inl hkey) hnodes huser
  have hvisit : some rule ∈ visits.map (service.options.shape.ruleAt? nodes) :=
    hrules ▸ List.mem_map_of_mem h
  obtain ⟨⟨i, steps⟩, -, hplace⟩ := List.mem_map.1 hvisit
  obtain ⟨node, hnode, hrule⟩ := Option.bind_eq_some_iff.1 hplace
  refine ⟨i, steps, node, hnode, (TreeShape.ruleOf_eq_some_iff.1 hrule).1, fun step hstep he => ?_⟩
  have hmem := TreeShape.mem_childKeys_of_nodeAt? hnode step hstep
  rw [he] at hmem
  exact hkey hmem

theorem rulesIntact_filterWidgets (hkey : service.options.shape.Separate) {content text : String}
    (h : (service.filterWidgets id content s).outcome = .done text) :
    ∃ nodes left, Value.parse content = .ok (.array nodes) ∧ Value.parse text = .ok (.array left) ∧
      service.options.shape.RulesIntact nodes left := by
  obtain ⟨nodes, hcontent, rfl | ⟨user, trace, t, hres⟩⟩ := service.exists_of_filterWidgets_done h
  · have hempty : (Value.array []).text = "[]" := rfl
    rw [service.filterWidgets_nil hcontent, ← hempty] at h
    cases h
    exact ⟨[], [], parse_of_widgetsOf hcontent, Value.parse_text (fits_of_widgetsOf hcontent), .nil⟩
  · have huser : (service.resolve id s).outcome = .done user := by rw [hres]
    rw [filterWidgets_outcome hkey hcontent huser] at h
    cases h
    exact ⟨nodes, service.seen user nodes, parse_of_widgetsOf hcontent,
      Value.parse_text (fits_seen user (fits_of_widgetsOf hcontent)),
      TreeShape.rulesIntact_thin hkey nodes⟩

/-- **The check of settings keeps rules from being taken for lists of widgets.** It passes the settings
whose key of rules is given and is no child key, as these keys are used, exactly if blank characters
around the key of rules make no difference to that. Loaded settings have passed it. Where it is right,
a service with settings that have passed it answers a page with its rules intact, and it decides only
rules of widgets that it reaches without going into a rule. -/
theorem check_keeps_rules (settings : Settings) :
    ((settings.check = .ok () ↔ settings.KeyGiven ∧
        (Options.ofSettings settings).visibilityKey ∉ (Options.ofSettings settings).childKeys) ↔
      (settings.KeyGiven → (Text.trim settings.widgets.visibilityKey ∈ settings.widgets.childKeys ↔
        settings.widgets.visibilityKey ∈ settings.widgets.childKeys))) ∧
    (settings.Loaded → settings.check = .ok ()) ∧
    (settings.check = .ok () →
      (Text.trim settings.widgets.visibilityKey ∈ settings.widgets.childKeys ↔
        settings.widgets.visibilityKey ∈ settings.widgets.childKeys) →
      ∀ service : Service σ, service.options = .ofSettings settings → ∀ id content s text,
        (service.filterWidgets id content s).outcome = .done text →
        ∃ nodes left, Value.parse content = .ok (.array nodes) ∧
          Value.parse text = .ok (.array left) ∧ service.options.shape.RulesIntact nodes left ∧
          ∀ user, (service.resolve id s).outcome = .done (some user) →
            ∀ rule ∈ service.decided user nodes, ∃ i steps node,
              service.options.shape.nodeAt? nodes i steps = some node ∧
              node.member? service.options.visibilityKey = some rule ∧
              ∀ step ∈ steps, step.key ≠ service.options.visibilityKey) := by
  refine ⟨Settings.check_iff_iff, Settings.Loaded.check,
    fun hcheck hkeys service hoptions id content s text htext => ?_⟩
  have hseparate : service.options.shape.Separate := by
    rw [hoptions]
    exact fun hmem => (Settings.check_eq_ok_iff.1 hcheck).2 (hkeys.2 hmem)
  obtain ⟨nodes, left, hcontent, hleft, hintact⟩ := rulesIntact_filterWidgets hseparate htext
  exact ⟨nodes, left, hcontent, hleft, hintact, fun user huser rule hrule =>
    exists_of_mem_decided hseparate (fits_of_widgetsOf (widgetsOf_eq hcontent)) huser hrule⟩

/-- Settings with keys of their own, for the rules and for two lists of widgets. -/
def nestedSettings : Settings :=
  { Settings.standard with widgets := ⟨"rule", ["items", "tabs"]⟩ }

def nestedService : Service Unit := ⟨sampleService.host, .ofSettings nestedSettings⟩

/-- A widget with a rule for everyone that holds two widgets, of which the one is for nobody. -/
def nestedPage : List Value :=
  [.object [("rule", .object [("type", .string "all")]), ("items", .array [
    .object [("rule", .object [("type", .string "groups")])],
    .object [("rule", .string (Value.object [("type", .string "all")]).text), ("tabs", .array [])]])]]

theorem fits_nestedPage : (Value.array nestedPage).Fits Json.Reader.nestingLimit := by
  refine ⟨?_, by decide⟩
  simp [nestedPage, Value.WellFormed, Value.WellFormedItems, Value.WellFormedMembers, Json.numberKey]

/-- The widget for nobody is gone, and the two others hold their rules. -/
theorem check_keeps_rules_nestedPage :
    let left : List Value :=
      [.object [("rule", .object [("type", .string "all")]), ("items", .array [
        .object [("rule", .string (Value.object [("type", .string "all")]).text),
          ("tabs", .array [])]])]]
    nestedSettings.check = .ok () ∧
      (nestedService.filterWidgets (.ofNumber 7) (Value.array nestedPage).text ()).outcome =
        .done (Value.array left).text ∧
      nestedService.options.shape.RulesIntact nestedPage left := by
  intro left
  have hcheck : nestedSettings.check = .ok () := by decide +kernel
  have hkey : nestedService.options.shape.Separate := by decide
  have hparse := Value.parse_text fits_nestedPage
  have huser : (nestedService.resolve (.ofNumber 7) ()).outcome =
      .done (some (.ofId (.ofNumber 7))) := rfl
  have hleft : (Value.array left).Fits Json.Reader.nestingLimit := by
    refine ⟨?_, by decide⟩
    simp [left, Value.WellFormed, Value.WellFormedItems, Value.WellFormedMembers, Json.numberKey]
  have hdone : (nestedService.filterWidgets (.ofNumber 7) (Value.array nestedPage).text ()).outcome =
      .done (Value.array left).text :=
    (filterWidgets_outcome hkey (widgetsOf_eq hparse) huser).trans
      (congrArg Outcome.done (by decide +kernel))
  obtain ⟨nodes, found, hnodes, hfound, hintact, -⟩ := (check_keeps_rules nestedSettings).2.2 hcheck
    (by decide +kernel) nestedService rfl _ _ _ _ hdone
  cases hparse.symm.trans hnodes
  cases (Value.parse_text hleft).symm.trans hfound
  exact ⟨hcheck, hdone, hintact⟩

/-- Settings whose key of rules ends in a blank character and is a child key as it is. -/
def paddedSettings : Settings :=
  { Settings.standard with widgets := ⟨"rule ", ["rule "]⟩ }

/-- A file with these settings. -/
def paddedFile : String := "[widgets]\nvisibility_key = \"rule \"\nchild_keys = [\"rule \"]\n"

def paddedService : Service Unit := ⟨sampleService.host, .ofSettings paddedSettings⟩

/-- A page with one widget, whose rule is a list. -/
def paddedPage : List Value :=
  [.object [("rule ", .array [.object [("rule ", .object [("type", .string "groups")])]])]]

theorem fits_paddedPage : (Value.array paddedPage).Fits Json.Reader.nestingLimit := by
  refine ⟨?_, by decide⟩
  simp [paddedPage, Value.WellFormed, Value.WellFormedItems, Value.WellFormedMembers, Json.numberKey]

theorem loaded_paddedSettings : paddedSettings.Loaded := by
  have hfile : Settings.ofFile paddedFile = some paddedSettings := by decide +kernel
  exact .inr ⟨⟨⟨fun _ => .ok paddedFile⟩, [], none⟩, "config.toml",
    Command.Place.settingsAt_eq_ok_iff.2 ⟨paddedFile, rfl, hfile, by decide +kernel⟩⟩

/-- Settings pass the check although the key of rules is a child key, and a widget that stays loses what
its rule holds; and settings fail the check although the key of rules is no child key. -/
theorem paddedSettings_lose_rule :
    (paddedSettings.Loaded ∧ paddedSettings.check = .ok () ∧
      (Options.ofSettings paddedSettings).visibilityKey ∈
        (Options.ofSettings paddedSettings).childKeys) ∧
    (paddedService.options = .ofSettings paddedSettings ∧
      (paddedService.filterWidgets (.ofNumber 7) (Value.array paddedPage).text ()).outcome =
        .done (Value.array [.object [("rule ", .array [])]]).text ∧
      ¬ paddedService.options.shape.RulesIntact paddedPage [.object [("rule ", .array [])]]) ∧
    ∃ settings : Settings, settings.KeyGiven ∧
      (Options.ofSettings settings).visibilityKey ∉ (Options.ofSettings settings).childKeys ∧
      settings.check ≠ .ok () := by
  refine ⟨⟨loaded_paddedSettings, by decide +kernel, by decide⟩, ⟨rfl, ?_, ?_⟩,
    { Settings.standard with widgets := ⟨"rule ", ["rule"]⟩ }, ⟨'r', by decide, by decide⟩,
    by decide, by decide +kernel⟩
  · rw [filterWidgets_of_resolve _ (widgetsOf_eq (Value.parse_text fits_paddedPage))
      (List.cons_ne_nil _ _) rfl]
    exact congrArg Outcome.done (by decide +kernel)
  · intro h
    cases h with
    | gone others => cases others
    | stays rule inside others =>
      simp [paddedService, paddedSettings, Options.ofSettings, Options.shape, Value.member?,
        Members.get?] at rule

end Service

end ContentVisibility
