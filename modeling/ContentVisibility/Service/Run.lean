import ContentVisibility.Directory
import ContentVisibility.Event

/-!
# Runs of requests

A request asks two collaborators about users: the directory for the record of a user, and the
membership store for further groups. Both belong to the host, whose state a question may change. A
request may be cancelled at any time; it looks at that before each look-up, and each time a look-up
that has kept it waiting is taken up again.

* `Host`: the collaborators and the sign of cancellation, over a state of any type;
* `Reply`: what a collaborator does when asked;
* `Run`: a request, which leaves a trace of calls and events and ends in an `Outcome`.
-/

namespace ContentVisibility

/-! ## Collaborators -/

/-- What a collaborator does once it is asked. A request that is kept waiting pauses, while the host
may change in any way, and then takes the reply up again. -/
inductive Reply (σ α : Type) where
  /-- It answers without another pause, which leaves the host in the state. -/
  | now (answer : Except Outage α) (s : σ)
  /-- It keeps the request waiting until the host is in the state; the rest follows. -/
  | later (s : σ) (rest : Reply σ α)
  /-- It keeps the request waiting for ever, with the host in the state in the end. -/
  | never (s : σ)

/-- The collaborators of a service, and the sign that the request is cancelled. -/
structure Host (σ : Type) where
  cancelled : σ → Bool
  /-- Ask the directory for the record of a user. -/
  snapshot : UserId → σ → Reply σ (Option User)
  /-- Ask the membership store for the groups of a user. -/
  groups : UserId → σ → Reply σ GroupSet

/-- Collaborators that always answer at once, and always the same; nothing is ever cancelled. -/
def Host.steady (users : UserId → Option User) (groups : UserId → GroupSet) : Host Unit where
  cancelled _ := false
  snapshot id s := .now (.ok (users id)) s
  groups id s := .now (.ok (groups id)) s

/-! ## Outcomes -/

/-- Why content is no page. -/
inductive ContentFault where
  | unreadable (fault : Json.Fault)
  | notList (content : Json.Value)

def ContentFault.message : ContentFault → String
  | unreadable fault => fault.message
  | notList content => s!"expected an array, found {content.article}"

/-- Why a request failed. -/
inductive Failure where
  | outage (cause : Outage)
  | cancelled
  | invalidContent (fault : ContentFault)

def Failure.message : Failure → String
  | outage cause => s!"User resolution failed: {cause.message}"
  | cancelled => "Visibility evaluation cancelled"
  | invalidContent fault => s!"Content is not a JSON widget array: {fault.message}"

/-- How a request ends. -/
inductive Outcome (α : Type) where
  | done (a : α)
  | failed (failure : Failure)
  /-- A lookup never answers and nothing cancels it. -/
  | waiting

/-! ## Runs -/

/-- A question to a collaborator. -/
inductive Call where
  | snapshot (user : UserId)
  | groups (user : UserId)
  deriving DecidableEq, Repr

/-- What happens during a request. -/
inductive Mark where
  | call (call : Call)
  | event (event : Event)
  deriving DecidableEq, Repr

/-- A request that has been answered or left waiting. -/
structure Ran (σ α : Type) where
  outcome : Outcome α
  /-- What happened, in order. -/
  trace : List Mark
  state : σ

def Ran.events (ran : Ran σ α) : List Event :=
  ran.trace.filterMap fun
    | .event event => some event
    | .call _ => none

def Ran.calls (ran : Ran σ α) : List Call :=
  ran.trace.filterMap fun
    | .event _ => none
    | .call call => some call

/-- A request, run from a state of the host. -/
def Run (σ α : Type) := σ → Ran σ α

namespace Run

protected def pure (a : α) : Run σ α := fun s => ⟨.done a, [], s⟩

protected def bind (x : Run σ α) (f : α → Run σ β) : Run σ β := fun s =>
  match x s with
  | ⟨.done a, trace, s⟩ =>
    let ran := f a s
    ⟨ran.outcome, trace ++ ran.trace, ran.state⟩
  | ⟨.failed failure, trace, s⟩ => ⟨.failed failure, trace, s⟩
  | ⟨.waiting, trace, s⟩ => ⟨.waiting, trace, s⟩

instance : Monad (Run σ) where
  pure := Run.pure
  bind := Run.bind

@[simp] theorem pure_apply (a : α) (s : σ) : (pure a : Run σ α) s = ⟨.done a, [], s⟩ := rfl

theorem bind_apply (x : Run σ α) (f : α → Run σ β) (s : σ) : (x >>= f) s = Run.bind x f s := rfl

theorem bind_pure_self (x : Run σ α) : (x >>= fun a => pure a) = x := by
  funext s
  rw [bind_apply]
  unfold Run.bind
  rcases x s with ⟨_ | _ | _, trace, t⟩ <;> simp

theorem pure_bind_self (a : α) (f : α → Run σ β) : (pure a >>= f) = f a := by
  funext s
  simp [bind_apply, Run.bind]

theorem bind_bind_assoc (x : Run σ α) (f : α → Run σ β) (g : β → Run σ γ) :
    (x >>= f) >>= g = x >>= fun a => f a >>= g := by
  funext s
  simp only [bind_apply, Run.bind]
  rcases x s with ⟨a | _ | _, trace, t⟩ <;> simp only
  rcases f a t with ⟨_ | _ | _, trace', t'⟩ <;> simp

instance : LawfulMonad (Run σ) := .mk' _ bind_pure_self pure_bind_self bind_bind_assoc

def fail (failure : Failure) : Run σ α := fun s => ⟨.failed failure, [], s⟩

def note (events : List Event) : Run σ Unit := fun s => ⟨.done (), events.map .event, s⟩

def noteIf (audit : Bool) (event : Event) : Run σ Unit := note (if audit then [event] else [])

def ofAnswer (answer : Except Outage α) : Run σ α :=
  match answer with
  | .ok a => Run.pure a
  | .error outage => fail (.outage outage)

end Run

end ContentVisibility
