import ContentVisibility.Service.Operations

/-!
# What requests answer

How requests are put together from the look-up of a user, and what such a look-up can do.

* `Run.bind_done`, `bind_failed`, `bind_waiting`, `exists_of_bind_done`: one request after another;
* `callsIn`, `eventsIn`: the calls and the events of a trace;
* `Reply.answer`, `Reply.pauses`, `Reply.left`, `ask_eq`: what comes of waiting for a reply;
* `Outcome.map`, `isVisible_outcome`, `isVisible_calls`, `isVisible_state`: a decision asks what the
  look-up of its user asks, and answers what the user's record gives;
* `filterWidgets_of_resolve`, `exists_of_filterWidgets_done`: what is answered for a page;
* `Run.Notes`, `notes_resolve`: what can be noted during a look-up;
* `Host.Fixed`, `steady_resolve`, `steady_isVisible`: collaborators that always answer alike.
-/

namespace ContentVisibility

variable {σ α β : Type}

/-! ## One request after another -/

/-- The outcome with its answer made into another. -/
def Outcome.map (f : α → β) : Outcome α → Outcome β
  | done a => done (f a)
  | failed failure => failed failure
  | waiting => waiting

namespace Run

variable {x : Run σ α} {f : α → Run σ β} {s t : σ} {a : α} {trace : List Mark}

theorem bind_done (h : x s = ⟨.done a, trace, t⟩) :
    (x >>= f) s = ⟨(f a t).outcome, trace ++ (f a t).trace, (f a t).state⟩ := by
  rw [bind_apply, Run.bind, h]

theorem bind_failed {failure : Failure} (h : x s = ⟨.failed failure, trace, t⟩) :
    (x >>= f) s = ⟨.failed failure, trace, t⟩ := by
  rw [bind_apply, Run.bind, h]

theorem bind_waiting (h : x s = ⟨.waiting, trace, t⟩) : (x >>= f) s = ⟨.waiting, trace, t⟩ := by
  rw [bind_apply, Run.bind, h]

theorem bind_pure (x : Run σ α) (f : α → β) (s : σ) :
    (x >>= fun a => pure (f a)) s = ⟨(x s).outcome.map f, (x s).trace, (x s).state⟩ := by
  rcases h : x s with ⟨a | failure | _, trace, t⟩
  · rw [bind_done h, pure_apply, List.append_nil]
    rfl
  · rw [bind_failed h]
    rfl
  · rw [bind_waiting h]
    rfl

theorem exists_of_bind_done {b : β} (h : ((x >>= f) s).outcome = .done b) :
    ∃ a trace t, x s = ⟨.done a, trace, t⟩ ∧ (f a t).outcome = .done b := by
  rcases hx : x s with ⟨a | failure | _, trace, t⟩
  · rw [bind_done hx] at h
    exact ⟨a, trace, t, rfl, h⟩
  · rw [bind_failed hx] at h
    cases h
  · rw [bind_waiting hx] at h
    cases h

theorem note_bind (events : List Event) (f : Unit → Run σ β) (s : σ) :
    (note events >>= f) s =
      ⟨(f () s).outcome, events.map .event ++ (f () s).trace, (f () s).state⟩ :=
  bind_done rfl

theorem noteIf_bind (audit : Bool) (event : Event) (f : Unit → Run σ β) (s : σ) :
    (noteIf audit event >>= f) s =
      ⟨(f () s).outcome, (if audit then [event] else []).map .event ++ (f () s).trace,
        (f () s).state⟩ :=
  note_bind _ f s

end Run

/-! ## Traces -/

/-- The calls of a trace. -/
def callsIn (trace : List Mark) : List Call :=
  trace.filterMap fun
    | .event _ => none
    | .call call => some call

/-- The events of a trace. -/
def eventsIn (trace : List Mark) : List Event :=
  trace.filterMap fun
    | .event event => some event
    | .call _ => none

theorem Ran.calls_eq (ran : Ran σ α) : ran.calls = callsIn ran.trace := rfl

theorem Ran.events_eq (ran : Ran σ α) : ran.events = eventsIn ran.trace := rfl

@[simp] theorem callsIn_append (trace more : List Mark) :
    callsIn (trace ++ more) = callsIn trace ++ callsIn more :=
  List.filterMap_append ..

@[simp] theorem callsIn_events (events : List Event) : callsIn (events.map .event) = [] := by
  simp [callsIn, List.filterMap_map]

@[simp] theorem eventsIn_append (trace more : List Mark) :
    eventsIn (trace ++ more) = eventsIn trace ++ eventsIn more :=
  List.filterMap_append ..

@[simp] theorem eventsIn_events (events : List Event) :
    eventsIn (events.map .event) = events := by
  rw [eventsIn, List.filterMap_map]
  exact List.filterMap_some

@[simp] theorem eventsIn_call (call : Call) (trace : List Mark) :
    eventsIn (.call call :: trace) = eventsIn trace := rfl

/-- A note is not noticed: neither the outcome nor the calls nor the state depend on it. -/
theorem Run.note_unnoticed (events : List Event) (f : Unit → Run σ β) (s : σ) :
    ((Run.note events >>= f) s).outcome = (f () s).outcome ∧
      ((Run.note events >>= f) s).calls = (f () s).calls ∧
      ((Run.note events >>= f) s).state = (f () s).state := by
  rw [note_bind]
  refine ⟨rfl, ?_, rfl⟩
  rw [Ran.calls_eq, callsIn_append, callsIn_events, List.nil_append, Ran.calls_eq]

/-! ## Waiting for a reply -/

namespace Reply

/-- What is answered in the end, if the request waits for it. -/
def answer : Reply σ α → Option (Except Outage α)
  | now answer _ => some answer
  | later _ rest => rest.answer
  | never _ => none

/-- The states in which the reply is taken up again. -/
def pauses : Reply σ α → List σ
  | now _ _ => []
  | later s rest => s :: rest.pauses
  | never s => [s]

/-- The state that a request is left in: it gives the reply up at the first pause in which it is
cancelled. -/
def left (cancelled : σ → Bool) : Reply σ α → σ
  | now _ s => s
  | later s rest => if cancelled s then s else rest.left cancelled
  | never s => s

end Reply

def Outcome.ofAnswer : Except Outage α → Outcome α
  | .ok a => done a
  | .error outage => failed (.outage outage)

namespace Service

variable (service : Service σ)

/-- A reply is given up if the sign of cancellation is set at one of its pauses, and waited for
otherwise. -/
theorem await_eq (user : UserId) (reply : Reply σ α) : service.await user reply =
    if reply.pauses.any service.host.cancelled then
      ⟨.failed .cancelled, [.event (.resolutionCancelled user)], reply.left service.host.cancelled⟩
    else ⟨reply.answer.elim .waiting .ofAnswer, [], reply.left service.host.cancelled⟩ := by
  induction reply with
  | now answer s => cases answer <;> rfl
  | later s rest ih =>
    rw [await, ih, Reply.pauses, Reply.left, Reply.answer, List.any_cons]
    cases service.host.cancelled s <;> rfl
  | never s =>
    rw [await, Reply.pauses, Reply.left, Reply.answer, List.any_cons, List.any_nil, Bool.or_false]
    cases service.host.cancelled s <;> rfl

/-- So a question, with the call in front. -/
theorem ask_eq (user : UserId) (call : Call) (question : σ → Reply σ α) (s : σ) :
    service.ask user call question s =
      if (question s).pauses.any service.host.cancelled then
        ⟨.failed .cancelled, [.call call, .event (.resolutionCancelled user)],
          (question s).left service.host.cancelled⟩
      else ⟨(question s).answer.elim .waiting .ofAnswer, [.call call],
        (question s).left service.host.cancelled⟩ := by
  simp only [ask, await_eq]
  split <;> rfl

end Service

/-! ## Decisions on one rule -/

instance (outcome : Outcome Bool) : Decidable (outcome = .done true) :=
  match outcome with
  | .done true => isTrue rfl
  | .done false | .failed _ | .waiting => isFalse nofun

namespace Service

variable (service : Service σ) {id : UserId} {s t : σ} {trace : List Mark} {user : Option User}

theorem isVisible_of_resolve (rule : Option String)
    (h : service.resolve id s = ⟨.done user, trace, t⟩) :
    ∃ events : List Event, service.isVisible id rule s =
      ⟨.done (user.any fun user => (service.admitsText user rule).1),
        trace ++ events.map .event, t⟩ := by
  rw [isVisible, Run.bind_done h]
  cases user with
  | none => exact ⟨[], rfl⟩
  | some user =>
    refine ⟨(service.admitsText user rule).2 ++
      if service.options.audit then [.decided id (service.admitsText user rule).1] else [], ?_⟩
    simp only [Run.note_bind, Run.noteIf_bind, Run.pure_apply, List.append_nil, List.map_append]
    rfl

/-- A decision answers what the record of its user gives. -/
theorem isVisible_outcome (id : UserId) (rule : Option String) (s : σ) :
    (service.isVisible id rule s).outcome =
      (service.resolve id s).outcome.map fun user =>
        user.any fun user => (service.admitsText user rule).1 := by
  rcases h : service.resolve id s with ⟨user | failure | _, trace, t⟩
  · obtain ⟨events, hvisible⟩ := service.isVisible_of_resolve rule h
    rw [hvisible]
    rfl
  · rw [isVisible, Run.bind_failed h]
    rfl
  · rw [isVisible, Run.bind_waiting h]
    rfl

theorem isVisible_calls (id : UserId) (rule : Option String) (s : σ) :
    (service.isVisible id rule s).calls = (service.resolve id s).calls := by
  rcases h : service.resolve id s with ⟨user | failure | _, trace, t⟩
  · obtain ⟨events, hvisible⟩ := service.isVisible_of_resolve rule h
    rw [hvisible, Ran.calls_eq, Ran.calls_eq, callsIn_append, callsIn_events, List.append_nil]
  · rw [isVisible, Run.bind_failed h]
    rfl
  · rw [isVisible, Run.bind_waiting h]
    rfl

theorem isVisible_state (id : UserId) (rule : Option String) (s : σ) :
    (service.isVisible id rule s).state = (service.resolve id s).state := by
  rcases h : service.resolve id s with ⟨user | failure | _, trace, t⟩
  · obtain ⟨events, hvisible⟩ := service.isVisible_of_resolve rule h
    rw [hvisible]
  · rw [isVisible, Run.bind_failed h]
  · rw [isVisible, Run.bind_waiting h]

/-! ## Pages -/

/-- Whether a rule inside a page admits a user who may be unknown. -/
def allows (user : Option User) (rule : Json.Value) : Bool × List Event :=
  (user.map fun user => service.admitsValue user rule).getD (false, [])

theorem filterWidgets_of_resolve {content : String} {nodes : List Json.Value}
    (hcontent : widgetsOf content = .ok nodes) (hne : nodes ≠ [])
    (h : service.resolve id s = ⟨.done user, trace, t⟩) :
    service.filterWidgets id content s =
      let pruned := service.options.shape.prune (fun rule => (service.allows user rule).1) nodes
      let warnings := pruned.consulted.flatMap fun rule => (service.allows user rule).2
      let audits : List Event :=
        if service.options.audit then [.treeFiltered id user.isSome pruned.removed] else []
      ⟨.done (Json.Value.array pruned.result).text, trace ++ (warnings ++ audits).map .event, t⟩ := by
  cases nodes with
  | nil => exact absurd rfl hne
  | cons node nodes =>
    simp only [filterWidgets, hcontent, Run.bind_done h, Run.note_bind, Run.noteIf_bind,
      Run.pure_apply, List.append_nil, List.map_append]
    rfl

theorem filterWidgets_nil {content : String} (hcontent : widgetsOf content = .ok []) (id : UserId)
    (s : σ) : service.filterWidgets id content s = ⟨.done "[]", [], s⟩ := by
  rw [filterWidgets, hcontent]
  rfl

/-- Content that is answered is a page, and its user has been looked up unless it is empty. -/
theorem exists_of_filterWidgets_done {content text : String}
    (h : (service.filterWidgets id content s).outcome = .done text) :
    ∃ nodes, widgetsOf content = .ok nodes ∧
      (nodes = [] ∨ ∃ user trace t, service.resolve id s = ⟨.done user, trace, t⟩) := by
  rcases hcontent : widgetsOf content with fault | nodes
  · rw [filterWidgets, hcontent] at h
    cases h
  · refine ⟨nodes, rfl, ?_⟩
    cases nodes with
    | nil => exact .inl rfl
    | cons node nodes =>
      simp only [filterWidgets, hcontent] at h
      obtain ⟨user, trace, t, hres, -⟩ := Run.exists_of_bind_done h
      exact .inr ⟨user, trace, t, hres⟩

end Service

/-! ## What is noted -/

/-- Whatever the request does, its events are such. -/
def Run.Notes (x : Run σ α) (such : Event → Prop) : Prop := ∀ s, ∀ event ∈ (x s).events, such event

section Notes

variable {such : Event → Prop}

theorem Run.notes_pure (a : α) : (pure a : Run σ α).Notes such := by
  intro s event h
  cases h

theorem Run.notes_note {events : List Event} (h : ∀ event ∈ events, such event) :
    (note events : Run σ Unit).Notes such := by
  intro s event hm
  refine h event ?_
  rwa [Ran.events_eq, show (note events s).trace = events.map .event from rfl, eventsIn_events] at hm

theorem Run.Notes.bind {x : Run σ α} {f : α → Run σ β} (hx : x.Notes such)
    (hf : ∀ a, (f a).Notes such) : (x >>= f).Notes such := by
  intro s event hm
  have hfirst := hx s event
  rcases h : x s with ⟨a | failure | _, trace, t⟩ <;> rw [h] at hfirst
  · rw [Run.bind_done h, Ran.events_eq, eventsIn_append, List.mem_append] at hm
    exact hm.elim hfirst (hf a t event)
  · rw [Run.bind_failed h] at hm
    exact hfirst hm
  · rw [Run.bind_waiting h] at hm
    exact hfirst hm

variable (service : Service σ)

theorem Service.notes_abandon (user : UserId) (h : such (.resolutionCancelled user)) :
    (abandon user : Run σ α).Notes such :=
  (Run.notes_note (by simpa using h)).bind fun _ _ _ hm => nomatch hm

theorem Service.notes_ask (user : UserId) (call : Call) (question : σ → Reply σ α)
    (h : such (.resolutionCancelled user)) : (service.ask user call question).Notes such := by
  intro s event hm
  rw [Ran.events_eq, ask_eq] at hm
  split at hm
  · obtain rfl : event = .resolutionCancelled user := by simpa [eventsIn] using hm
    exact h
  · cases hm

/-- A look-up notes nothing but that the user is not known, is inactive, or was abandoned. -/
theorem Service.notes_resolve (id : UserId) (hcancelled : such (.resolutionCancelled id))
    (hunknown : such (.userNotFound id)) (hinactive : such (.userInactive id)) :
    (service.resolve id).Notes such := by
  have hlookup : (service.lookup id).Notes such := by
    refine (service.notes_ask id _ _ hcancelled).bind fun user => ?_
    cases user with
    | none => exact (Run.notes_note (by simpa using hunknown)).bind fun _ => Run.notes_pure _
    | some user =>
      simp only
      split
      · exact (service.notes_ask id _ _ hcancelled).bind fun _ => Run.notes_pure _
      · exact (Run.notes_note (by simpa using hinactive)).bind fun _ => Run.notes_pure _
  intro s
  rw [resolve]
  split
  · exact notes_abandon id hcancelled s
  · exact hlookup s

end Notes

theorem Gate.isWarning_of_mem_admits (gate : Gate) (user : User) :
    ∀ event ∈ (gate.admits user).2, event.isWarning = true := by
  cases gate with
  | everyone | nobody => nofun
  | ruled rule =>
    intro event h
    obtain ⟨warning, -, rfl⟩ := List.mem_map.1 h
    rfl

theorem Options.isWarning_of_mem_gateOfText (options : Options) (rule : Option String) :
    ∀ event ∈ (options.gateOfText rule).2, event.isWarning = true := by
  unfold gateOfText
  split
  · nofun
  · split
    · nofun
    · unfold gate
      split <;> simp [Event.isWarning]

theorem Options.isWarning_of_mem_gateOfValue (options : Options) (rule : Json.Value) :
    ∀ event ∈ (options.gateOfValue rule).2, event.isWarning = true := by
  unfold gateOfValue
  split
  · nofun
  · exact options.isWarning_of_mem_gateOfText _
  · unfold gate
    split <;> simp [Event.isWarning]

/-- What is noted about a rule is a warning. -/
theorem Service.isWarning_of_mem_allows (service : Service σ) (user : Option User)
    (rule : Json.Value) : ∀ event ∈ (service.allows user rule).2, event.isWarning = true := by
  intro event h
  cases user with
  | none => cases h
  | some user =>
    rcases List.mem_append.1 h with hgate | hdecision
    · exact service.options.isWarning_of_mem_gateOfValue rule event hgate
    · exact Gate.isWarning_of_mem_admits _ user event hdecision

/-! ## Collaborators that always answer alike -/

/-- The collaborators always answer a question alike, and no request is cancelled. -/
structure Host.Fixed (host : Host σ) : Prop where
  uncancelled (s : σ) : host.cancelled s = false
  snapshot (id : UserId) (s s' : σ) : (host.snapshot id s).answer = (host.snapshot id s').answer
  groups (id : UserId) (s s' : σ) : (host.groups id s).answer = (host.groups id s').answer

theorem Host.fixed_steady (users : UserId → Option User) (groups : UserId → GroupSet) :
    (Host.steady users groups).Fixed :=
  ⟨fun _ => rfl, fun _ _ _ => rfl, fun _ _ _ => rfl⟩

/-- The request ends alike in every state. -/
def Run.Steady (x : Run σ α) : Prop := ∀ s s', (x s).outcome = (x s').outcome

theorem Run.Steady.bind {x : Run σ α} {f : α → Run σ β} (hx : x.Steady)
    (hf : ∀ a, (f a).Steady) : (x >>= f).Steady := by
  intro s s'
  have hfirst := hx s s'
  rcases h : x s with ⟨a | failure | _, trace, t⟩ <;>
    rcases h' : x s' with ⟨a' | failure' | _, trace', t'⟩ <;> rw [h, h'] at hfirst <;> cases hfirst
  · rw [Run.bind_done h, Run.bind_done h']
    exact hf a t t'
  · rw [Run.bind_failed h, Run.bind_failed h']
  · rw [Run.bind_waiting h, Run.bind_waiting h']

theorem Run.steady_pure (a : α) : (pure a : Run σ α).Steady := fun _ _ => rfl

theorem Run.steady_note (events : List Event) : (note events : Run σ Unit).Steady := fun _ _ => rfl

theorem Service.steady_ask {service : Service σ} (h : service.host.Fixed) (user : UserId)
    (call : Call) {question : σ → Reply σ α}
    (hq : ∀ s s', (question s).answer = (question s').answer) :
    (service.ask user call question).Steady := by
  intro s s'
  have huncancelled : ∀ states : List σ, states.any service.host.cancelled = false :=
    fun states => List.any_eq_false.2 fun t _ => by simp [h.uncancelled t]
  simp only [ask_eq, huncancelled, Bool.false_eq_true, if_false, hq s s']

theorem Service.steady_resolve {service : Service σ} (h : service.host.Fixed) (id : UserId) :
    (service.resolve id).Steady := by
  have hlookup : (service.lookup id).Steady := by
    refine (steady_ask h id _ (h.snapshot id)).bind fun user => ?_
    cases user with
    | none => exact (Run.steady_note _).bind fun _ => Run.steady_pure _
    | some user =>
      simp only
      split
      · exact (steady_ask h id _ (h.groups id)).bind fun _ => Run.steady_pure _
      · exact (Run.steady_note _).bind fun _ => Run.steady_pure _
  intro s s'
  simp only [resolve, h.uncancelled, Bool.false_eq_true, if_false]
  exact hlookup s s'

theorem Service.steady_isVisible {service : Service σ} (h : service.host.Fixed) (id : UserId)
    (rule : Option String) : (service.isVisible id rule).Steady := by
  intro s s'
  rw [isVisible_outcome, isVisible_outcome, steady_resolve h id s s']

end ContentVisibility
