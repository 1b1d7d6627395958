import ContentVisibility.Directory
import ContentVisibility.Service.Operations

/-!
# Collaborators in memory

* `Directory.host`: a directory that serves as both collaborators and always answers;
* `Session`: collaborators that can be made to fail or to keep a request waiting, and requests that
  can be cancelled at a given lookup.
-/

namespace ContentVisibility

/-- A directory as both collaborators. -/
def Directory.host (directory : Directory) : Host Unit :=
  .steady directory.user? directory.groupsOf

/-- A service over a directory under the options that settings ask for. -/
def Directory.service (directory : Directory) (settings : Settings) : Service Unit :=
  ⟨directory.host, .ofSettings settings⟩

/-! ## Sessions -/

/-- How a collaborator behaves. -/
inductive Mode where
  | answering
  /-- It never answers. -/
  | stalled
  | failing (reason : String)
  deriving DecidableEq, Repr

/-- The sign of cancellation that requests look at. -/
inductive Binding where
  | root
  /-- A sign of its own, which the root sets too. -/
  | child (set : Bool)
  /-- A sign of its own. -/
  | fresh (set : Bool)
  deriving DecidableEq, Repr

abbrev Memberships := Catalog (UserId × GroupSet) fun entry => entry.1.number

/-- Collaborators whose behaviour changes from request to request. -/
structure Session where
  directory : Directory
  /-- The membership store, if it is not the directory. -/
  memberships : Option Memberships
  directoryMode : Mode
  membershipMode : Mode
  /-- Whether the root sign is set. -/
  root : Bool
  binding : Binding
  /-- The root sign is set when this many more lookups in the directory have started; zero for never. -/
  countdown : Nat

namespace Session

def start (directory : Directory) (memberships : Option Memberships) : Session :=
  ⟨directory, memberships, .answering, .answering, false, .root, 0⟩

/-! ## Cancellation -/

def cancelled (s : Session) : Bool :=
  match s.binding with
  | .root => s.root
  | .child set => set || s.root
  | .fresh set => set

def cancelRoot (s : Session) : Session := { s with root := true }

def cancelCurrent (s : Session) : Session :=
  match s.binding with
  | .root => s.cancelRoot
  | .child _ => { s with binding := .child true }
  | .fresh _ => { s with binding := .fresh true }

def counted (s : Session) : Session :=
  { s with root := s.root || s.countdown == 1, countdown := s.countdown - 1 }

/-! ## Lookups -/

/-- What a collaborator does that would give the answer; the state is the one that it leaves. -/
def Mode.reply (mode : Mode) (answer : α) (outage : String → Outage) (s : σ) : Reply σ α :=
  match mode with
  | .answering => .now (.ok answer) s
  | .stalled => .never s
  | .failing reason => .now (.error (outage reason)) s

/-- The groups that the membership store has for a user. -/
def groupsOf (s : Session) (id : UserId) : GroupSet :=
  match s.memberships with
  | none => s.directory.groupsOf id
  | some memberships => ((memberships.find? id.number).map Prod.snd).getD .empty

def host : Host Session where
  cancelled := cancelled
  snapshot id s := Mode.reply s.directoryMode (s.directory.user? id) .directory s.counted
  groups id s := Mode.reply s.membershipMode (s.groupsOf id) (.memberships id) s

end Session

end ContentVisibility
