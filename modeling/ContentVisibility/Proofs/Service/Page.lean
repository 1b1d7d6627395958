import ContentVisibility.Proofs.Service.Answers
import ContentVisibility.Proofs.Widget.Position

/-!
# Pages as users see them

* `Service.AdmitsRule`, `Service.Shows`: when a rule inside a page admits a user, and when a widget is
  shown to a user who may be unknown;
* `filterWidgets_eq_cut`: a user sees the page without the positions at which, or above which, a
  widget is not shown;
* `filterWidgets_filterWidgets`: a page as a user sees it is seen by that user as it is.
-/

namespace ContentVisibility.Service

open Json (Value)

variable {σ : Type} (service : Service σ)

/-! ## Which widgets are shown -/

/-- Whether a rule inside a page admits a user who is known. A text decides as it does outside of
pages; any other value decides as the rule that it describes, or else by the policy. -/
def AdmitsRule (id : UserId) (user : User) (s : σ) : Value → Prop
  | .string text => (service.isVisible id (some text) s).outcome = .done true
  | value =>
    (∃ rule ∈ (Rule.ofValue value).toOption, (rule.decide user).holds = true) ∨
      ((Rule.ofValue value).toOption = none ∧ service.options.malformedRules = .failOpen)

instance (id : UserId) (user : User) (s : σ) (value : Value) :
    Decidable (service.AdmitsRule id user s value) :=
  match value with
  | .string _ => inferInstanceAs (Decidable (_ = _))
  | .null | .bool _ | .number _ | .array _ | .object _ => inferInstanceAs (Decidable (_ ∨ _))

instance (value : Value) : Decidable (value = .null) :=
  match value with
  | .null => isTrue rfl
  | .bool _ | .number _ | .string _ | .array _ | .object _ => isFalse nofun

/-- Whether a widget is shown: it carries no rule or a null one, or the user is known and admitted. -/
def Shows (id : UserId) (user : Option User) (s : σ) (node : Value) : Prop :=
  ∀ rule ∈ node.member? service.options.visibilityKey,
    rule = .null ∨ ∃ known ∈ user, service.AdmitsRule id known s rule

instance (id : UserId) (user : Option User) (s : σ) : DecidablePred (service.Shows id user s) :=
  fun node => inferInstanceAs (Decidable (∀ rule ∈ node.member? service.options.visibilityKey,
    rule = .null ∨ ∃ known ∈ user, service.AdmitsRule id known s rule))

variable {service} {id : UserId} {s : σ}

theorem admits_gate (options : Options) (user : User) (read : Except Json.Fault Rule) :
    ((options.gate read).1.admits user).1 = true ↔
      (∃ rule ∈ read.toOption, (rule.decide user).holds = true) ∨
        (read.toOption = none ∧ options.malformedRules = .failOpen) := by
  rcases read with fault | rule
  · cases h : options.malformedRules <;>
      simp [Options.gate, Gate.admits, h, Policy.admits, Except.toOption]
  · simp [Options.gate, Gate.admits, Except.toOption]

theorem admitsValue_fst (user : User) (rule : Value) :
    (service.admitsValue user rule).1 = ((service.options.gateOfValue rule).1.admits user).1 := rfl

theorem admitsValue_iff {user : User} (h : (service.resolve id s).outcome = .done (some user))
    {rule : Value} (hnull : rule ≠ .null) :
    (service.admitsValue user rule).1 = true ↔ service.AdmitsRule id user s rule := by
  cases rule with
  | null => exact absurd rfl hnull
  | string text =>
    have hvisible : (service.isVisible id (some text) s).outcome =
        .done (service.admitsText user (some text)).1 := by
      rw [isVisible_outcome, h]
      rfl
    rw [AdmitsRule, hvisible, Outcome.done.injEq]
    rfl
  | bool _ | number _ | array _ | object _ =>
    rw [admitsValue_fst, Options.gateOfValue, admits_gate, AdmitsRule] <;> nofun

/-- Pruning asks of a widget whether it is shown. -/
theorem admits_iff_shows {user : Option User} (h : (service.resolve id s).outcome = .done user)
    (node : Value) :
    service.options.shape.admits (fun rule => (service.allows user rule).1) node = true ↔
      service.Shows id user s node := by
  rw [TreeShape.admits_iff]
  refine forall₂_congr fun rule _ => ?_
  by_cases hnull : rule = .null
  · simp only [hnull, true_or]
  · cases user with
    | none => simp [allows]
    | some known => simpa [allows, hnull] using admitsValue_iff h hnull

/-! ## What a user sees -/

theorem widgetsOf_eq {content : String} {nodes : List Value}
    (h : Value.parse content = .ok (.array nodes)) : widgetsOf content = .ok nodes := by
  rw [widgetsOf, h]

theorem parse_of_widgetsOf {content : String} {nodes : List Value}
    (h : widgetsOf content = .ok nodes) : Value.parse content = .ok (.array nodes) := by
  unfold widgetsOf at h
  split at h
  · next hparse => rw [hparse, Except.ok.inj h]
  · cases h
  · cases h

theorem fits_of_widgetsOf {content : String} {nodes : List Value}
    (h : widgetsOf content = .ok nodes) : (Value.array nodes).Fits Json.Reader.nestingLimit :=
  Value.fits_of_parse (parse_of_widgetsOf h)

/-- The widgets that a user sees, who may be unknown. -/
def seen (service : Service σ) (user : Option User) (nodes : List Value) : List Value :=
  service.options.shape.thin
    (service.options.shape.admits fun rule => (service.allows user rule).1) nodes

theorem filterWidgets_outcome (hkey : service.options.shape.Separate) {content : String}
    {nodes : List Value} (hcontent : widgetsOf content = .ok nodes) {user : Option User}
    (huser : (service.resolve id s).outcome = .done user) :
    (service.filterWidgets id content s).outcome =
      .done (Value.array (service.seen user nodes)).text := by
  by_cases hne : nodes = []
  · subst hne
    rw [service.filterWidgets_nil hcontent, seen, TreeShape.thin]
    rfl
  · rcases hres : service.resolve id s with ⟨outcome, trace, t⟩
    rw [hres] at huser
    obtain rfl : outcome = .done user := huser
    rw [filterWidgets_of_resolve service hcontent hne hres, seen]
    simp only
    rw [TreeShape.prune_result hkey (fits_of_widgetsOf hcontent).items]

/-- **A user sees the page without the positions at which, or above which, a widget is not shown.** -/
theorem filterWidgets_eq_cut (hkey : service.options.visibilityKey ∉ service.options.childKeys)
    {content : String} {nodes : List Value} (hcontent : Value.parse content = .ok (.array nodes))
    {user : Option User} (huser : (service.resolve id s).outcome = .done user) :
    (service.filterWidgets id content s).outcome =
      .done (Value.array (service.options.shape.cut (fun i steps =>
        decide (service.options.shape.Kept (service.Shows id user s) nodes i steps)) nodes)).text := by
  have hnodes := (fits_of_widgetsOf (widgetsOf_eq hcontent)).items
  have hshown : service.options.shape.admits (fun rule => (service.allows user rule).1) =
      fun node => decide (service.Shows id user s node) := by
    funext node
    rw [Bool.eq_iff_iff, admits_iff_shows huser, decide_eq_true_iff]
  rw [filterWidgets_outcome hkey (widgetsOf_eq hcontent) huser, seen, hshown,
    TreeShape.cut_kept fun node hm => (hnodes node hm).1]

/-- A service under which only readable rules admit, over a directory in which one user is known. -/
def sampleService : Service Unit :=
  ⟨.steady (fun id => if id.number = 7 then some (.ofId id) else none) fun _ => .empty,
    ⟨.failClosed, true, "visibility", ["items", "tabs", "items"]⟩⟩

/-- A page with a rule as an object, a rule as text, and a rule that cannot be read. -/
def samplePage : List Value :=
  [.object [("id", .string "a"), ("visibility", .object [("type", .string "groups")])],
    .object [("items", .array [
        .object [("visibility", .string (Value.object [("type", .string "all")]).text)],
        .object [("visibility", .array []), ("tabs", .array [.bool true])]]),
      ("id", .string "b"), ("visibility", .null), ("tabs", .string "none")]]

theorem fits_samplePage : (Value.array samplePage).Fits Json.Reader.nestingLimit := by
  refine ⟨?_, by decide⟩
  simp [samplePage, Value.WellFormed, Value.WellFormedItems, Value.WellFormedMembers, Json.numberKey]

theorem filterWidgets_eq_cut_samplePage :
    (sampleService.filterWidgets (.ofNumber 7) (Value.array samplePage).text ()).outcome =
      .done (Value.array [
        .object [("items", .array [
            .object [("visibility", .string (Value.object [("type", .string "all")]).text)]]),
          ("id", .string "b"), ("visibility", .null), ("tabs", .string "none")]]).text := by
  refine (filterWidgets_eq_cut (by decide) (Value.parse_text fits_samplePage) rfl).trans ?_
  exact congrArg Outcome.done (by decide +kernel)

/-! ## Seeing a page twice -/

theorem seen_seen (hkey : service.options.shape.Separate) (user : Option User) (nodes : List Value) :
    service.seen user (service.seen user nodes) = service.seen user nodes :=
  TreeShape.thin_thin (TreeShape.admits_thinNode hkey _) nodes

theorem fits_seen (user : Option User) {nodes : List Value} {depth : Nat}
    (h : (Value.array nodes).Fits depth) : (Value.array (service.seen user nodes)).Fits depth :=
  (TreeShape.fits_thinNode (.array nodes) depth h).2

/-- What is answered for a page is the text of a page, which its user sees as it is. -/
theorem exists_of_answer (hkey : service.options.shape.Separate) {content text : String}
    (h : (service.filterWidgets id content s).outcome = .done text) :
    ∃ nodes, (Value.array nodes).Fits Json.Reader.nestingLimit ∧ text = (Value.array nodes).text ∧
      (nodes = [] ∨ ∃ user, (service.resolve id s).outcome = .done user ∧
        service.seen user nodes = nodes) := by
  obtain ⟨nodes, hcontent, rfl | ⟨user, trace, t, hres⟩⟩ := service.exists_of_filterWidgets_done h
  · rw [service.filterWidgets_nil hcontent] at h
    cases h
    exact ⟨[], fits_of_widgetsOf hcontent, rfl, .inl rfl⟩
  · have huser : (service.resolve id s).outcome = .done user := by rw [hres]
    rw [filterWidgets_outcome hkey hcontent huser] at h
    cases h
    exact ⟨service.seen user nodes, fits_seen user (fits_of_widgetsOf hcontent), rfl,
      .inr ⟨user, huser, seen_seen hkey user nodes⟩⟩

/-- A page that its user sees as it is: it is answered as it is, and nothing is removed. -/
theorem filterWidgets_of_seen (hkey : service.options.shape.Separate) {nodes : List Value}
    (hfits : (Value.array nodes).Fits Json.Reader.nestingLimit) (hne : nodes ≠ [])
    {user : Option User} (huser : (service.resolve id s).outcome = .done user)
    (hself : service.seen user nodes = nodes) :
    ∃ notes : List Event, (∀ event ∈ notes, ∀ user resolved removed,
        event ≠ .treeFiltered user resolved removed) ∧
      (service.filterWidgets id (Value.array nodes).text s).outcome =
        .done (Value.array nodes).text ∧
      (service.filterWidgets id (Value.array nodes).text s).events =
        notes ++ if service.options.audit then [.treeFiltered id user.isSome 0] else [] := by
  have hcontent : widgetsOf (Value.array nodes).text = .ok nodes :=
    widgetsOf_eq (Value.parse_text hfits)
  have hnotes : (service.resolve id).Notes fun event => ∀ user resolved removed,
      event ≠ .treeFiltered user resolved removed := service.notes_resolve id nofun nofun nofun
  have hlookup := hnotes s
  rcases hres : service.resolve id s with ⟨outcome, trace, t⟩
  rw [hres] at huser hlookup
  obtain rfl : outcome = .done user := huser
  rw [filterWidgets_of_resolve service hcontent hne hres]
  have hremoved := TreeShape.prune_removed hkey hfits.items hself
  have hresult : (service.options.shape.prune (fun rule => (service.allows user rule).1) nodes).result =
      nodes := (TreeShape.prune_result hkey hfits.items).trans hself
  simp only [hremoved, hresult, Ran.events_eq, eventsIn_append, eventsIn_events]
  rw [← List.append_assoc]
  refine ⟨_, fun event hm => ?_, trivial, rfl⟩
  rcases List.mem_append.1 hm with hm | hm
  · exact hlookup event hm
  · obtain ⟨rule, -, hrule⟩ := List.mem_flatMap.1 hm
    rintro user resolved removed rfl
    exact absurd (service.isWarning_of_mem_allows _ rule _ hrule) (by simp [Event.isWarning])

/-- **A page as a user sees it is seen by that user as it is**, and nothing is removed from it. -/
theorem filterWidgets_filterWidgets
    (hkey : service.options.visibilityKey ∉ service.options.childKeys)
    (hfixed : service.host.Fixed) {content text : String}
    (h : (service.filterWidgets id content s).outcome = .done text) (s' : σ) :
    (∃ nodes, widgetsOf text = .ok nodes) ∧
      (service.filterWidgets id text s').outcome = .done text ∧
      (∀ user resolved removed, Event.treeFiltered user resolved removed ∈
        (service.filterWidgets id text s').events → removed = 0) ∧
      (service.options.audit = true → text ≠ "[]" → ∃ resolved,
        Event.treeFiltered id resolved 0 ∈ (service.filterWidgets id text s').events) := by
  obtain ⟨nodes, hfits, rfl, hnodes⟩ := exists_of_answer hkey h
  have hcontent : widgetsOf (Value.array nodes).text = .ok nodes :=
    widgetsOf_eq (Value.parse_text hfits)
  refine ⟨⟨nodes, hcontent⟩, ?_⟩
  by_cases hne : nodes = []
  · subst hne
    rw [service.filterWidgets_nil hcontent]
    exact ⟨rfl, nofun, fun _ hcontra => absurd rfl hcontra⟩
  · obtain ⟨user, huser, hself⟩ := hnodes.resolve_left hne
    have huser' : (service.resolve id s').outcome = .done user := by
      rw [← huser]
      exact steady_resolve hfixed id s' s
    obtain ⟨notes, hnotes, houtcome, hevents⟩ := filterWidgets_of_seen hkey hfits hne huser' hself
    refine ⟨houtcome, fun user' resolved removed hm => ?_, fun haudit _ => ⟨user.isSome, ?_⟩⟩
    · rw [hevents] at hm
      rcases List.mem_append.1 hm with hm | hm
      · exact absurd rfl (hnotes _ hm user' resolved removed)
      · split at hm
        · cases List.mem_singleton.1 hm
          rfl
        · cases hm
    · rw [hevents, haudit]
      simp

theorem filterWidgets_filterWidgets_samplePage :
    ∃ text, (sampleService.filterWidgets (.ofNumber 7) (Value.array samplePage).text ()).outcome =
        .done text ∧
      (sampleService.filterWidgets (.ofNumber 7) text ()).outcome = .done text := by
  have hkey : sampleService.options.shape.Separate := by decide
  have hdone := filterWidgets_outcome hkey (widgetsOf_eq (Value.parse_text fits_samplePage))
    (rfl : (sampleService.resolve (.ofNumber 7) ()).outcome = .done (some (.ofId (.ofNumber 7))))
  exact ⟨_, hdone, (filterWidgets_filterWidgets hkey (Host.fixed_steady _ _) hdone ()).2.1⟩

end ContentVisibility.Service
