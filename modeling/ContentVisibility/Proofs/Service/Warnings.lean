import ContentVisibility.Proofs.Service.Answers

/-!
# Warnings of requests

What is warned about during a request comes from the rules that it decides, and a rule is decided only
for a user who is known.

* `Ran.warnings`: the warnings among the events of a request;
* `Service.known`: the record with which a request about a user goes on;
* `warnings_isVisible`, `warnings_filterVisible`, `warnings_filterWidgets`: the warnings of a request
  about one user are those of its rules, decided for the record of the user;
* `warnings_membersAmong_of_done`, `warnings_membersAmong_of_not_done`: the warnings of a candidate come
  before those of the candidates after it, and a look-up that is not answered leaves none;
* `warnings_audienceMembers`: the warnings of an audience are those of its rule and its candidates.
-/

namespace ContentVisibility

variable {σ α β : Type}

/-! ## Warnings in a trace -/

/-- The warnings of a trace. -/
def warningsIn (trace : List Mark) : List Event := (eventsIn trace).filter Event.isWarning

/-- The warnings of a request, in order. -/
def Ran.warnings (ran : Ran σ α) : List Event := ran.events.filter Event.isWarning

theorem Ran.warnings_eq (ran : Ran σ α) : ran.warnings = warningsIn ran.trace := rfl

@[simp] theorem warningsIn_append (trace more : List Mark) :
    warningsIn (trace ++ more) = warningsIn trace ++ warningsIn more := by
  rw [warningsIn, eventsIn_append, List.filter_append]
  rfl

@[simp] theorem warningsIn_events (events : List Event) :
    warningsIn (events.map .event) = events.filter Event.isWarning := by
  rw [warningsIn, eventsIn_events]

theorem filter_isWarning_eq_self {events : List Event} (h : ∀ event ∈ events, event.isWarning = true) :
    events.filter Event.isWarning = events :=
  List.filter_eq_self.2 h

theorem filter_isWarning_audit (audit : Bool) {event : Event} (h : event.isWarning = false) :
    (if audit then [event] else []).filter Event.isWarning = [] := by
  cases audit <;> simp [h]

namespace Service

variable (service : Service σ)

/-! ## Rules -/

theorem isWarning_of_mem_admitsText (user : User) (rule : Option String) :
    ∀ event ∈ (service.admitsText user rule).2, event.isWarning = true := by
  intro event h
  rcases List.mem_append.1 h with hgate | hdecision
  · exact service.options.isWarning_of_mem_gateOfText rule event hgate
  · exact Gate.isWarning_of_mem_admits _ user event hdecision

/-! ## Look-ups -/

/-- The record with which a request about the user goes on, if the look-up finds one. -/
def known (id : UserId) (s : σ) : Option User :=
  match (service.resolve id s).outcome with
  | .done user => user
  | .failed _ | .waiting => none

variable {service} {id : UserId} {s : σ}

theorem known_of_done {user : Option User} (h : (service.resolve id s).outcome = .done user) :
    service.known id s = user := by
  rw [known, h]

theorem known_of_not_done (h : ∀ user, (service.resolve id s).outcome ≠ .done user) :
    service.known id s = none := by
  unfold known
  split
  · next user hdone => exact absurd hdone (h user)
  · rfl
  · rfl

theorem known_eq_none_iff :
    service.known id s = none ↔ ∀ user, (service.resolve id s).outcome ≠ .done (some user) := by
  unfold known
  cases (service.resolve id s).outcome with
  | done user => cases user <;> simp
  | failed failure => simp
  | waiting => simp

variable (service id s) in
theorem warnings_resolve : (service.resolve id s).warnings = [] := by
  rw [Ran.warnings, List.filter_eq_nil_iff]
  intro event h
  have hnone : (service.resolve id).Notes fun event => event.isWarning = false :=
    service.notes_resolve id rfl rfl rfl
  simp [hnone s event h]

/-- A request that decides rules for the record of a user gives the warnings of these decisions. -/
theorem warnings_resolve_bind {f : Option User → Run σ α} {noted : User → List Event}
    (hnone : ∀ t, (f none t).warnings = []) (hsome : ∀ user t, (f (some user) t).warnings = noted user) :
    ((service.resolve id >>= f) s).warnings = (service.known id s).elim [] noted := by
  have hquiet := service.warnings_resolve id s
  rw [known]
  rcases hres : service.resolve id s with ⟨user | failure | _, trace, t⟩ <;>
    rw [hres, Ran.warnings_eq] at hquiet
  · rw [Run.bind_done hres, Ran.warnings_eq, warningsIn_append, show warningsIn trace = [] from hquiet,
      List.nil_append]
    cases user with
    | none => exact hnone t
    | some user => exact hsome user t
  · rw [Run.bind_failed hres]
    exact hquiet
  · rw [Run.bind_waiting hres]
    exact hquiet

/-! ## Requests about one user -/

variable (service id s) in
theorem warnings_isVisible (rule : Option String) :
    (service.isVisible id rule s).warnings =
      (service.known id s).elim [] fun user => (service.admitsText user rule).2 := by
  refine warnings_resolve_bind (fun t => rfl) fun user t => ?_
  simp only [Run.note_bind, Run.noteIf_bind, Run.pure_apply, Ran.warnings_eq, warningsIn_append,
    warningsIn_events, List.append_nil]
  rw [filter_isWarning_eq_self (service.isWarning_of_mem_admitsText user rule),
    filter_isWarning_audit _ (by rfl), List.append_nil]

variable (service id s) in
theorem warnings_filterVisible (items : List α) (ruleOf : α → Option String) :
    (service.filterVisible id items ruleOf s).warnings = (service.known id s).elim [] fun user =>
      items.flatMap fun item => (service.admitsText user (ruleOf item)).2 := by
  refine warnings_resolve_bind (fun t => rfl) fun user t => ?_
  simp only [Run.note_bind, Run.noteIf_bind, Run.pure_apply, Ran.warnings_eq, warningsIn_append,
    warningsIn_events, List.append_nil]
  rw [filter_isWarning_eq_self, filter_isWarning_audit _ (by rfl), List.append_nil]
  intro event h
  obtain ⟨item, -, hevent⟩ := List.mem_flatMap.1 h
  exact service.isWarning_of_mem_admitsText user (ruleOf item) event hevent

variable (service id s) in
/-- For a page the rules are decided that are looked at while it is pruned. -/
theorem warnings_filterWidgets {content : String} {nodes : List Json.Value}
    (hcontent : widgetsOf content = .ok nodes) (hne : nodes ≠ []) :
    (service.filterWidgets id content s).warnings = (service.known id s).elim [] fun user =>
      (service.options.shape.prune (fun rule => (service.admitsValue user rule).1) nodes).consulted.flatMap
        fun rule => (service.admitsValue user rule).2 := by
  have hwarned : ∀ (user : Option User) (rules : List Json.Value),
      (rules.flatMap fun rule => (service.allows user rule).2).filter Event.isWarning =
        rules.flatMap fun rule => (service.allows user rule).2 := by
    intro user rules
    refine filter_isWarning_eq_self fun event h => ?_
    obtain ⟨rule, -, hrule⟩ := List.mem_flatMap.1 h
    exact service.isWarning_of_mem_allows user rule event hrule
  obtain ⟨node, others, rfl⟩ := List.exists_cons_of_ne_nil hne
  simp only [filterWidgets, hcontent]
  refine warnings_resolve_bind (fun t => ?_) fun user t => ?_
  · simp only [Run.note_bind, Run.noteIf_bind, Run.pure_apply, Ran.warnings_eq, warningsIn_append,
      warningsIn_events, List.append_nil]
    rw [filter_isWarning_audit _ (by rfl), List.append_nil]
    exact (hwarned none _).trans (by simp [allows])
  · simp only [Run.note_bind, Run.noteIf_bind, Run.pure_apply, Ran.warnings_eq, warningsIn_append,
      warningsIn_events, List.append_nil]
    rw [filter_isWarning_audit _ (by rfl), List.append_nil]
    exact hwarned (some user) _

/-! ## Candidates -/

theorem warnings_bind_quiet {x : Run σ α} {f : α → Run σ β} (hf : ∀ a t, (f a t).warnings = []) :
    ((x >>= f) s).warnings = (x s).warnings := by
  rcases hx : x s with ⟨a | failure | _, trace, t⟩
  · rw [Run.bind_done hx, Ran.warnings_eq, warningsIn_append, ← Ran.warnings_eq (f a t), hf a t,
      List.append_nil]
    rfl
  · rw [Run.bind_failed hx]
    rfl
  · rw [Run.bind_waiting hx]
    rfl

theorem warnings_membersAmong_of_done (gate : Gate) (ids : List UserId) {user : Option User}
    (h : (service.resolve id s).outcome = .done user) :
    (service.membersAmong gate (id :: ids) s).warnings =
      (user.elim [] fun user => (gate.admits user).2) ++
        (service.membersAmong gate ids (service.resolve id s).state).warnings := by
  have hquiet := service.warnings_resolve id s
  rcases hres : service.resolve id s with ⟨outcome, trace, t⟩
  rw [hres] at h hquiet
  obtain rfl : outcome = .done user := h
  rw [membersAmong, Run.bind_done hres, Ran.warnings_eq, warningsIn_append,
    show warningsIn trace = [] from hquiet, List.nil_append]
  cases user with
  | none => rfl
  | some user =>
    simp only [Run.note_bind, Run.bind_pure, warningsIn_append, warningsIn_events]
    rw [filter_isWarning_eq_self (Gate.isWarning_of_mem_admits gate user)]
    rfl

theorem warnings_membersAmong_of_not_done (gate : Gate) (ids : List UserId)
    (h : ∀ user, (service.resolve id s).outcome ≠ .done user) :
    (service.membersAmong gate (id :: ids) s).warnings = [] := by
  have hquiet := service.warnings_resolve id s
  rcases hres : service.resolve id s with ⟨user | failure | _, trace, t⟩ <;> rw [hres] at h hquiet
  · exact absurd rfl (h user)
  · rw [membersAmong, Run.bind_failed hres]
    exact hquiet
  · rw [membersAmong, Run.bind_waiting hres]
    exact hquiet

/-- The warnings of an audience are those of its rule, and then those of the candidates. -/
theorem warnings_audienceMembers {rule : Option String}
    (h : (service.options.gateOfText rule).1 ≠ .nobody) (candidates : List UserId) :
    (service.audienceMembers rule candidates s).warnings = (service.options.gateOfText rule).2 ++
      (service.membersAmong (service.options.gateOfText rule).1 candidates s).warnings := by
  have hread := service.options.isWarning_of_mem_gateOfText rule
  have hselected : ∀ members : List UserId, ∀ t : σ,
      ((Run.noteIf service.options.audit (.audienceSelected candidates.length members.length) >>=
        fun _ => pure members) t).warnings = [] := by
    intro members t
    rw [Run.noteIf_bind, Run.pure_apply, List.append_nil, Ran.warnings_eq, warningsIn_events]
    exact filter_isWarning_audit _ rfl
  rcases hgate : service.options.gateOfText rule with ⟨gate, events⟩
  rw [hgate] at h hread
  simp only [audienceMembers, hgate, Run.note_bind, Ran.warnings_eq, warningsIn_append,
    warningsIn_events, filter_isWarning_eq_self hread]
  cases gate with
  | nobody => exact absurd rfl h
  | everyone => exact congrArg (events ++ ·) (warnings_bind_quiet hselected)
  | ruled rule => exact congrArg (events ++ ·) (warnings_bind_quiet hselected)

end Service

end ContentVisibility
