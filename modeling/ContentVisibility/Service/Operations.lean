import ContentVisibility.Json.Document
import ContentVisibility.Service.Gate
import ContentVisibility.Service.Run

/-!
# Answering requests

Every request resolves its users first and decides any number of rules without asking again.

* `Service.resolve`: the record of an active user with all groups;
* `Service.isVisible`: whether a user may see what a rule guards;
* `Service.filterVisible`: the items of a collection that a user may see;
* `Service.filterWidgets`: a page as a user sees it;
* `Service.audienceMembers`: the users among candidates that a rule admits.
-/

namespace ContentVisibility

/-- A host, and the options under which it is used. -/
structure Service (σ : Type) where
  host : Host σ
  options : Options

namespace Service

variable {σ : Type} (service : Service σ)

/-! ## Users -/

/-- The request is cancelled while it resolves the user. -/
def abandon (user : UserId) : Run σ α := do
  Run.note [.resolutionCancelled user]
  Run.fail .cancelled

/-- Wait for a reply about a user. Whenever the reply is taken up again, the sign of cancellation is
looked at first; an answer is taken without looking at the sign once more. -/
def await (user : UserId) : Reply σ α → Ran σ α
  | .now answer s => Run.ofAnswer answer s
  | .later s rest => if service.host.cancelled s then abandon user s else await user rest
  | .never s => if service.host.cancelled s then abandon user s else ⟨.waiting, [], s⟩

/-- Ask a collaborator about a user. -/
def ask (user : UserId) (call : Call) (question : σ → Reply σ α) : Run σ α := fun s =>
  let ran := service.await user (question s)
  ⟨ran.outcome, .call call :: ran.trace, ran.state⟩

/-- The record of a user with the groups of both collaborators, if the user is known and active. -/
def lookup (id : UserId) : Run σ (Option User) := do
  match ← service.ask id (.snapshot id) (service.host.snapshot id) with
  | none => do
    Run.note [.userNotFound id]
    pure none
  | some user =>
    if user.active then do
      let groups ← service.ask id (.groups id) (service.host.groups id)
      pure (some (user.joiningAll groups))
    else do
      Run.note [.userInactive id]
      pure none

/-- Look a user up, unless the request is cancelled already. -/
def resolve (id : UserId) : Run σ (Option User) := fun s =>
  if service.host.cancelled s then abandon id s else service.lookup id s

/-! ## Decisions -/

/-- Whether a rule given as text admits the user. -/
def admitsText (user : User) (rule : Option String) : Bool × List Event :=
  let (gate, events) := service.options.gateOfText rule
  let (admitted, more) := gate.admits user
  (admitted, events ++ more)

/-- Whether a rule inside a page admits the user. -/
def admitsValue (user : User) (rule : Json.Value) : Bool × List Event :=
  let (gate, events) := service.options.gateOfValue rule
  let (admitted, more) := gate.admits user
  (admitted, events ++ more)

/-! ## Requests -/

/-- Whether the user may see what the rule guards. A user that is not known sees nothing. -/
def isVisible (id : UserId) (rule : Option String) : Run σ Bool := do
  match ← service.resolve id with
  | none => pure false
  | some user => do
    let (visible, events) := service.admitsText user rule
    Run.note events
    Run.noteIf service.options.audit (.decided id visible)
    pure visible

/-- The items whose rules admit the user, in order. -/
def filterVisible (id : UserId) (items : List α) (ruleOf : α → Option String) :
    Run σ (List α) := do
  match ← service.resolve id with
  | none => pure []
  | some user => do
    let visible := items.filter fun item => (service.admitsText user (ruleOf item)).1
    Run.note (items.flatMap fun item => (service.admitsText user (ruleOf item)).2)
    Run.noteIf service.options.audit (.collectionFiltered id items.length visible.length)
    pure visible

/-- The widgets of a page. -/
def widgetsOf (content : String) : Except ContentFault (List Json.Value) :=
  match Json.Value.parse content with
  | .ok (.array nodes) => .ok nodes
  | .ok value => .error (.notList value)
  | .error fault => .error (.unreadable fault)

/-- The page as the user sees it. A user that is not known sees the widgets without rules; a page
without widgets is the same for everyone, and no user is looked up for it. -/
def filterWidgets (id : UserId) (content : String) : Run σ String := do
  match widgetsOf content with
  | .error fault => Run.fail (.invalidContent fault)
  | .ok [] => pure "[]"
  | .ok nodes => do
    let user ← service.resolve id
    let allows (rule : Json.Value) : Bool × List Event :=
      (user.map fun user => service.admitsValue user rule).getD (false, [])
    let pruned := service.options.shape.prune (fun rule => (allows rule).1) nodes
    Run.note (pruned.consulted.flatMap fun rule => (allows rule).2)
    Run.noteIf service.options.audit (.treeFiltered id user.isSome pruned.removed)
    pure (Json.Value.array pruned.result).text

/-- The candidates that a gate lets through, resolved one after another. -/
def membersAmong (gate : Gate) : List UserId → Run σ (List UserId)
  | [] => pure []
  | id :: ids => do
    match ← service.resolve id with
    | none => membersAmong gate ids
    | some user => do
      let (admitted, events) := gate.admits user
      Run.note events
      let others ← membersAmong gate ids
      pure (if admitted then id :: others else others)

/-- The candidates that the rule admits, in order. The rule is read once; if it admits nobody, no
user is looked up. -/
def audienceMembers (rule : Option String) (candidates : List UserId) : Run σ (List UserId) := do
  let (gate, events) := service.options.gateOfText rule
  Run.note events
  match gate with
  | .nobody => pure []
  | gate => do
    let members ← service.membersAmong gate candidates
    Run.noteIf service.options.audit (.audienceSelected candidates.length members.length)
    pure members

end Service

end ContentVisibility
