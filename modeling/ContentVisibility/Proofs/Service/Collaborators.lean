import ContentVisibility.Proofs.Rule.Sight
import ContentVisibility.Proofs.Service.Lookups

/-!
# What a service learns from its collaborators

Of the users that the directory lists a service learns which are there and active, their attributes,
and the groups that the directory and the membership store list together. How the groups are split
between the two makes no difference, and neither does whether a user is missing or switched off.

* `User.Alike`, `Gate.admits_congr`, `reply_on`: users whom no rule and no request tells apart;
* `Records`, `Records.Alike`: what a directory and a membership store list;
* `Host.Holds`, `Host.InStep`: hosts that answer from such lists, and that are cancelled alike;
* `resolve_of_holds`, `lookups_on`, `answer_on`: look-ups and requests over two hosts;
* `serve_on`: requests one after another are answered alike over both.
-/

namespace ContentVisibility

variable {σ σ' α β : Type}

/-! ## Users whom no rule tells apart -/

/-- The users have the same attributes and belong to the same groups. -/
structure User.Alike (user user' : User) : Prop where
  attributes (field : Field) : user.attribute field = user'.attribute field
  members (group : GroupId) : user.isMemberOf group = user'.isMemberOf group

variable {user user' : User}

theorem User.Alike.sameFor (h : user.Alike user') (rule : Rule) : rule.SameFor user user' :=
  ⟨fun field _ => h.attributes field, fun group _ => h.members group⟩

theorem Gate.admits_congr (h : user.Alike user') (gate : Gate) :
    gate.admits user = gate.admits user' := by
  cases gate with
  | everyone | nobody => rfl
  | ruled rule => rw [admits, admits, Rule.decide_congr (h.sameFor rule)]

namespace Service

variable (service : Service σ) (host' : Host σ')

/-- The service over another host. -/
def on : Service σ' := ⟨host', service.options⟩

theorem admitsText_on (h : user.Alike user') (rule : Option String) :
    service.admitsText user rule = (service.on host').admitsText user' rule := by
  simp only [admitsText, on, Gate.admits_congr h]

theorem admitsValue_on (h : user.Alike user') (rule : Json.Value) :
    service.admitsValue user rule = (service.on host').admitsValue user' rule := by
  simp only [admitsValue, on, Gate.admits_congr h]

/-- A rule that is given as text admits both users, or neither, and nobody who is not known. -/
theorem any_admitsText_on {found found' : Option User} (h : Option.Rel User.Alike found found')
    (rule : Option String) :
    found.any (fun user => (service.admitsText user rule).1) =
      found'.any fun user => ((service.on host').admitsText user rule).1 := by
  cases h with
  | none => rfl
  | some h => rw [Option.any_some, Option.any_some, service.admitsText_on host' h]

theorem allows_on {found found' : Option User} (h : Option.Rel User.Alike found found') :
    service.allows found = (service.on host').allows found' := by
  funext rule
  cases h with
  | none => rfl
  | some h => exact service.admitsValue_on host' h rule

theorem reply_on (request : Request β) {found found' : List (Option User)}
    (h : List.Forall₂ (Option.Rel User.Alike) found found') :
    service.reply request found = (service.on host').reply request found' := by
  have hhead : Option.Rel User.Alike found.head?.join found'.head?.join := by
    cases h with
    | nil => exact .none
    | cons hfirst _ => exact hfirst
  cases request with
  | isVisible id rule => simp only [reply, service.any_admitsText_on host' hhead]
  | filterVisible id items ruleOf => simp only [reply, service.any_admitsText_on host' hhead]
  | filterWidgets id content =>
    simp only [reply, service.allows_on host' hhead]
    rfl
  | audienceMembers rule candidates =>
    have hmembers : ∀ candidates : List UserId,
        ((candidates.zip found).filter fun entry =>
          entry.2.any fun user => (service.admitsText user rule).1).map Prod.fst =
        ((candidates.zip found').filter fun entry =>
          entry.2.any fun user => ((service.on host').admitsText user rule).1).map Prod.fst := by
      clear hhead
      induction h with
      | nil => simp
      | cons hfirst _ ih =>
        rintro (_ | ⟨id, ids⟩)
        · rfl
        · simp only [List.zip_cons_cons, List.filter_cons,
            service.any_admitsText_on host' hfirst rule]
          split
          · rw [List.map_cons, List.map_cons, ih ids]
          · exact ih ids
    exact congrArg Outcome.done (hmembers candidates)

end Service

/-! ## What is listed -/

/-- What a directory and a membership store list. -/
structure Records where
  user? : UserId → Option User
  groupsOf : UserId → GroupSet

namespace Records

variable (records records' : Records)

/-- The directory does not list the user, or as one whose account is switched off. -/
def Absent (id : UserId) : Prop := ∀ user, records.user? id = some user → user.active = false

/-- Both directories list the user as active, with the same attributes, and each of them lists with its
membership store the same groups. -/
structure Matching (id : UserId) (user user' : User) : Prop where
  listed : records.user? id = some user ∧ records'.user? id = some user'
  active : user.active = true ∧ user'.active = true
  attributes (field : Field) : user.attribute field = user'.attribute field
  members (group : GroupId) :
    group ∈ user.groups.entries ∨ group ∈ (records.groupsOf id).entries ↔
      group ∈ user'.groups.entries ∨ group ∈ (records'.groupsOf id).entries

/-- Every user is absent from both, or matches in both. -/
def Alike : Prop :=
  ∀ id, (records.Absent id ∧ records'.Absent id) ∨
    ∃ user user', records.Matching records' id user user'

/-- The record of a user who is there and active, with all groups. -/
def found (id : UserId) : Option User :=
  ((records.user? id).filter User.active).map fun user => user.joiningAll (records.groupsOf id)

variable {records records'}

theorem found_eq_none {id : UserId} (h : records.Absent id) : records.found id = none := by
  rw [found]
  cases huser : records.user? id with
  | none => rfl
  | some user => simp [Option.filter, h user huser]

theorem found_eq_some {id : UserId} (huser : records.user? id = some user) (h : user.active = true) :
    records.found id = some (user.joiningAll (records.groupsOf id)) := by
  rw [found, huser]
  simp [Option.filter, h]

theorem Alike.found (h : records.Alike records') (id : UserId) :
    Option.Rel User.Alike (records.found id) (records'.found id) := by
  rcases h id with ⟨habsent, habsent'⟩ | ⟨user, user', hmatch⟩
  · rw [found_eq_none habsent, found_eq_none habsent']
    exact .none
  · rw [found_eq_some hmatch.listed.1 hmatch.active.1, found_eq_some hmatch.listed.2 hmatch.active.2]
    refine .some ⟨fun field => ?_, fun group => ?_⟩
    · rw [User.attribute_joiningAll, User.attribute_joiningAll, hmatch.attributes]
    · rw [User.isMemberOf_joiningAll, User.isMemberOf_joiningAll, Bool.eq_iff_iff, Bool.or_eq_true,
        Bool.or_eq_true]
      simp only [GroupSet.contains_iff]
      exact hmatch.members group

end Records

/-! ## Hosts that answer from what is listed -/

namespace Host

/-- From the state on every question is answered from the records. -/
structure Holds (host : Host σ) (records : Records) (s : σ) : Prop where
  snapshot (calls : List Call) (id : UserId) :
    (host.snapshot id (host.afterAll calls s)).answer = some (.ok (records.user? id))
  groups (calls : List Call) (id : UserId) :
    (host.groups id (host.afterAll calls s)).answer = some (.ok (records.groupsOf id))

/-- From the states on requests are cancelled at the same questions. -/
structure InStep (host : Host σ) (host' : Host σ') (s : σ) (s' : σ') : Prop where
  cancelled (calls : List Call) :
    host.cancelled (host.afterAll calls s) = host'.cancelled (host'.afterAll calls s')
  tooLate (calls : List Call) (call : Call) :
    host.tooLate call (host.afterAll calls s) = host'.tooLate call (host'.afterAll calls s')

variable {host : Host σ} {host' : Host σ'} {records : Records} {s : σ} {s' : σ'}

theorem Holds.after (h : host.Holds records s) (calls : List Call) :
    host.Holds records (host.afterAll calls s) := by
  constructor
  · intro more id
    rw [← afterAll_append]
    exact h.snapshot _ id
  · intro more id
    rw [← afterAll_append]
    exact h.groups _ id

theorem InStep.after (h : host.InStep host' s s') (calls : List Call) :
    host.InStep host' (host.afterAll calls s) (host'.afterAll calls s') := by
  constructor
  · intro more
    rw [← afterAll_append, ← afterAll_append]
    exact h.cancelled _
  · intro more call
    rw [← afterAll_append, ← afterAll_append]
    exact h.tooLate _ call

/-- Hosts that are never cancelled are in step, whether or not they answer at once. -/
theorem inStep_of_uncancelled (h : ∀ t, host.cancelled t = false)
    (h' : ∀ t, host'.cancelled t = false) : host.InStep host' s s' :=
  ⟨fun calls => by rw [h, h'],
    fun calls call => by rw [tooLate_of_uncancelled (h _), tooLate_of_uncancelled (h' _)]⟩

theorem holds_steady (users : UserId → Option User) (groups : UserId → GroupSet) :
    (steady users groups).Holds ⟨users, groups⟩ () :=
  ⟨fun _ _ => rfl, fun _ _ => rfl⟩

/-- The questions of a look-up are answered with what the records hold. -/
theorem Holds.finding (h : host.Holds records s) (id : UserId) :
    host.finding (id, s) = some (.ok (records.found id)) ∧
      host.findsActive (id, s) = (records.found id).isSome := by
  have hrecord : (host.snapshot id s).answer = some (.ok (records.user? id)) := h.snapshot [] id
  have hgroups : (host.groups id (host.after (.snapshot id) s)).answer =
      some (.ok (records.groupsOf id)) := h.groups [.snapshot id] id
  rw [Host.finding, Host.findsActive, hrecord, hgroups]
  cases huser : records.user? id with
  | none => simp [Records.found, huser]
  | some user =>
    cases hactive : user.active with
    | false => simp [Records.found, huser, Option.filter, hactive]
    | true => simp [Records.found_eq_some huser hactive, Except.map, hactive]

end Host

/-! ## Look-ups -/

/-- What a look-up comes to and what it asks: whether the sign is set before it, which of its answers
would come too late, and the user to be found. -/
def lookedUp (id : UserId) (set late lateGroups : Bool) (found : Option User) :
    Outcome (Option User) × List Call :=
  if set then (.failed .cancelled, [])
  else if late then (.failed .cancelled, [.snapshot id])
  else if found.isSome && lateGroups then (.failed .cancelled, [.snapshot id, .groups id])
  else (.done found, .snapshot id :: if found.isSome then [.groups id] else [])

/-- Both are answered, with answers that are related, or both are cancelled. -/
inductive Outcome.Together (R : α → β → Prop) : Outcome α → Outcome β → Prop
  | done {a : α} {b : β} (h : R a b) : Together R (.done a) (.done b)
  | cancelled : Together R (.failed .cancelled) (.failed .cancelled)

theorem Outcome.Together.map {γ δ : Type} {R : α → β → Prop} {R' : γ → δ → Prop} {x : Outcome α}
    {y : Outcome β} (h : Together R x y) {f : α → γ} {g : β → δ}
    (hfg : ∀ {a b}, R a b → R' (f a) (g b)) : Together R' (x.map f) (y.map g) := by
  cases h with
  | done h => exact .done (hfg h)
  | cancelled => exact .cancelled

/-- What follows on answers that are related is the same if it is the same for all of them. -/
theorem Outcome.Together.bind {γ : Type} {R : α → β → Prop} {x : Outcome α} {y : Outcome β}
    (h : Together R x y) {f : α → Outcome γ} {g : β → Outcome γ}
    (hfg : ∀ {a b}, R a b → f a = g b) : x.bind f = y.bind g := by
  cases h with
  | done h => exact hfg h
  | cancelled => rfl

/-- Users who are alike are looked up alike. -/
theorem lookedUp_congr {found found' : Option User} (h : Option.Rel User.Alike found found')
    (id : UserId) (set late lateGroups : Bool) :
    Outcome.Together (Option.Rel User.Alike) (lookedUp id set late lateGroups found).1
        (lookedUp id set late lateGroups found').1 ∧
      (lookedUp id set late lateGroups found).2 = (lookedUp id set late lateGroups found').2 := by
  have hsame : found.isSome = found'.isSome := by cases h <;> rfl
  simp only [lookedUp, ← hsame]
  split
  · exact ⟨.cancelled, rfl⟩
  · split
    · exact ⟨.cancelled, rfl⟩
    · split
      · exact ⟨.cancelled, rfl⟩
      · exact ⟨.done h, rfl⟩

namespace Service

variable {service : Service σ} {host' : Host σ'} {records records' : Records} {s : σ} {s' : σ'}

theorem resolve_of_holds (h : service.host.Holds records s) (id : UserId) :
    ((service.resolve id s).outcome, (service.resolve id s).calls) =
      lookedUp id (service.host.cancelled s) (service.host.tooLate (.snapshot id) s)
        (service.host.tooLate (.groups id) (service.host.after (.snapshot id) s))
        (records.found id) := by
  obtain ⟨hfinding, hactive⟩ := h.finding id
  cases hs : service.host.cancelled s with
  | true =>
    obtain ⟨houtcome, hcalls⟩ := resolve_of_cancelled id hs
    rw [houtcome, hcalls]
    rfl
  | false =>
    cases hlate : service.host.tooLate (.snapshot id) s with
    | true =>
      obtain ⟨houtcome, hcalls⟩ := resolve_of_tooLate hs hlate
      rw [houtcome, hcalls]
      rfl
    | false =>
      by_cases hboth : service.host.findsActive (id, s) = true ∧
          service.host.tooLate (.groups id) (service.host.after (.snapshot id) s) = true
      · obtain ⟨houtcome, hcalls⟩ := resolve_of_tooLate_groups hs hlate hboth.1 hboth.2
        simp [lookedUp, ← hactive, hboth.1, hboth.2, houtcome, hcalls]
      · obtain ⟨houtcome, hcalls⟩ := resolve_of_finding hs hlate
          (fun h => Bool.eq_false_iff.2 fun hlate => hboth ⟨h, hlate⟩) hfinding
        simp [lookedUp, ← hactive, hboth, houtcome, hcalls, Host.lookupCalls, Outcome.ofAnswer]

/-- A look-up over another host finds a user who is alike, and asks the same questions. -/
theorem resolve_on (halike : records.Alike records') (hholds : service.host.Holds records s)
    (hholds' : host'.Holds records' s') (hstep : service.host.InStep host' s s') (id : UserId) :
    Outcome.Together (Option.Rel User.Alike) (service.resolve id s).outcome
        ((service.on host').resolve id s').outcome ∧
      (service.resolve id s).calls = ((service.on host').resolve id s').calls := by
  have hthis := resolve_of_holds hholds id
  have hother : (((service.on host').resolve id s').outcome,
    ((service.on host').resolve id s').calls) = _ := resolve_of_holds hholds' id
  obtain ⟨houtcome, hcalls⟩ := Prod.mk.inj hthis
  obtain ⟨houtcome', hcalls'⟩ := Prod.mk.inj hother
  have hset : service.host.cancelled s = host'.cancelled s' := hstep.cancelled []
  have hlate : service.host.tooLate (.snapshot id) s = host'.tooLate (.snapshot id) s' :=
    hstep.tooLate [] _
  have hlateGroups : service.host.tooLate (.groups id) (service.host.after (.snapshot id) s) =
      host'.tooLate (.groups id) (host'.after (.snapshot id) s') := hstep.tooLate [.snapshot id] _
  rw [houtcome, hcalls, houtcome', hcalls', hset, hlate, hlateGroups]
  exact lookedUp_congr (halike.found id) id _ _ _

theorem lookups_on (halike : records.Alike records') (hholds : service.host.Holds records s)
    (hholds' : host'.Holds records' s') (hstep : service.host.InStep host' s s') (ids : List UserId) :
    Outcome.Together (List.Forall₂ (Option.Rel User.Alike)) (service.lookups ids s).outcome
        ((service.on host').lookups ids s').outcome ∧
      (service.lookups ids s).calls = ((service.on host').lookups ids s').calls := by
  induction ids generalizing s s' with
  | nil => exact ⟨.done .nil, rfl⟩
  | cons id ids ih =>
    obtain ⟨hends, hasked⟩ := resolve_on halike hholds hholds' hstep id
    -- the same questions leave the two hosts in states that match again
    have hstate := (service.orderly_resolve id s).state
    have hstate' := ((service.on host').orderly_resolve id s').state
    rw [lookups_cons, lookups_cons]
    rcases hres : service.resolve id s with ⟨outcome, trace, t⟩
    rcases hres' : (service.on host').resolve id s' with ⟨outcome', trace', t'⟩
    rw [hres] at hends hasked hstate
    rw [hres'] at hends hasked hstate'
    have hcalls : callsIn trace = callsIn trace' := hasked
    cases hends with
    | cancelled =>
      rw [Run.bind_failed hres, Run.bind_failed hres']
      exact ⟨.cancelled, hasked⟩
    | done hfound =>
      obtain rfl : t = service.host.afterAll (callsIn trace) s := hstate
      obtain rfl : t' = host'.afterAll (callsIn trace) s' := hcalls ▸ hstate'
      obtain ⟨hothers, hothersAsked⟩ :=
        ih (hholds.after (callsIn trace)) (hholds'.after (callsIn trace))
          (hstep.after (callsIn trace))
      simp only [Run.bind_done hres, Run.bind_done hres', Run.bind_pure, Ran.calls_eq, callsIn_append]
      exact ⟨hothers.map fun h => .cons hfound h, congr (congrArg _ hcalls) hothersAsked⟩

/-! ## Requests -/

theorem answer_on (halike : records.Alike records') (hholds : service.host.Holds records s)
    (hholds' : host'.Holds records' s') (hstep : service.host.InStep host' s s')
    (request : Request β) :
    (service.answer request s).outcome = ((service.on host').answer request s').outcome ∧
      (service.answer request s).calls = ((service.on host').answer request s').calls := by
  obtain ⟨houtcome, hcalls, -⟩ := service.answer_amounts request s
  obtain ⟨houtcome', hcalls', -⟩ := (service.on host').answer_amounts request s'
  obtain ⟨hends, hasked⟩ :=
    lookups_on halike hholds hholds' hstep (request.users service.options)
  refine ⟨?_, hcalls.trans (hasked.trans hcalls'.symm)⟩
  rw [houtcome, houtcome']
  exact hends.bind fun h => service.reply_on host' request h

/-- The request is answered, or its content is refused. -/
def Settled (outcome : Outcome α) : Prop :=
  (∃ a, outcome = .done a) ∨ ∃ fault, outcome = .failed (.invalidContent fault)

theorem settled_reply (request : Request β) (found : List (Option User)) :
    Settled (service.reply request found) := by
  cases request with
  | isVisible id rule => exact .inl ⟨_, rfl⟩
  | filterVisible id items ruleOf => exact .inl ⟨_, rfl⟩
  | audienceMembers rule candidates => exact .inl ⟨_, rfl⟩
  | filterWidgets id content =>
    rw [reply]
    cases widgetsOf content with
    | error fault => exact .inr ⟨fault, rfl⟩
    | ok nodes => exact .inl ⟨_, rfl⟩

/-- Look-ups that are answered from the records, and that are not cancelled, find what they hold. -/
theorem lookups_of_holds (hholds : service.host.Holds records s)
    (h : ∀ calls, service.host.cancelled (service.host.afterAll calls s) = false) (ids : List UserId) :
    (service.lookups ids s).outcome = .done (ids.map records.found) := by
  induction ids generalizing s with
  | nil => rfl
  | cons id ids ih =>
    have hstate := (service.orderly_resolve id s).state
    obtain ⟨hends, -⟩ := resolve_of_uncancelled h (hholds.finding id).1
    rw [lookups_cons]
    rcases hres : service.resolve id s with ⟨outcome, trace, t⟩
    rw [hres] at hends hstate
    obtain rfl : outcome = .done (records.found id) := hends
    obtain rfl : t = service.host.afterAll (callsIn trace) s := hstate
    have hothers := ih (hholds.after (callsIn trace)) fun calls => by
      rw [← Host.afterAll_append]
      exact h _
    simp only [Run.bind_done hres, Run.bind_pure, hothers]
    rfl

/-- Requests one after another, each with its answer and with the questions that it asks. -/
def serve (service : Service σ) :
    List ((β : Type) × Request β) → σ → List ((β : Type) × Outcome β × List Call)
  | [], _ => []
  | ⟨β, request⟩ :: requests, s =>
    let ran := service.answer request s
    ⟨β, ran.outcome, ran.calls⟩ :: serve service requests ran.state

theorem settled_of_mem_serve (hholds : service.host.Holds records s)
    (h : ∀ calls, service.host.cancelled (service.host.afterAll calls s) = false)
    (requests : List ((β : Type) × Request β)) :
    ∀ result ∈ service.serve requests s, Settled result.2.1 := by
  induction requests generalizing s with
  | nil => nofun
  | cons entry requests ih =>
    obtain ⟨β, request⟩ := entry
    rw [serve]
    refine List.forall_mem_cons.2 ⟨?_, ?_⟩
    · rw [(service.answer_amounts request s).1, lookups_of_holds hholds h]
      exact settled_reply request _
    · rw [(service.orderly_answer request s).state]
      refine ih (hholds.after _) fun calls => ?_
      rw [← Host.afterAll_append]
      exact h _

/-- **A service depends on its collaborators only through who is there and active, with which attributes
and in which groups.** Let every user be absent from two directories, missing or switched off, or else
active in both with the same attributes and, together with what the two membership stores add, in the
same groups. Then requests one after another have the same answers over both, and ask the same questions.
It makes no difference which questions are answered at once, as long as requests are cancelled at the
same ones; if none is, every request is answered, or its content refused. -/
theorem serve_on (service : Service σ) (host' : Host σ') {records records' : Records}
    (halike : records.Alike records') {s : σ} {s' : σ'} (hholds : service.host.Holds records s)
    (hholds' : host'.Holds records' s') (hstep : service.host.InStep host' s s')
    (requests : List ((β : Type) × Request β)) :
    service.serve requests s = (service.on host').serve requests s' ∧
      ((∀ calls, service.host.cancelled (service.host.afterAll calls s) = false) →
        ∀ result ∈ service.serve requests s, Settled result.2.1) := by
  refine ⟨?_, fun h => settled_of_mem_serve hholds h requests⟩
  induction requests generalizing s s' with
  | nil => rfl
  | cons entry requests ih =>
    obtain ⟨β, request⟩ := entry
    obtain ⟨houtcome, hcalls⟩ := answer_on halike hholds hholds' hstep request
    have hstate := (service.orderly_answer request s).state
    have hstate' := ((service.on host').orderly_answer request s').state
    rw [← hcalls] at hstate'
    simp only [serve]
    rw [houtcome, hstate, hstate', ih (hholds.after _) (hholds'.after _) (hstep.after _), hcalls]
    rfl

/-- A directory that lists all groups of a user, and an account that is switched off. -/
def wholeRecords : Records where
  user? id :=
    if id.number = 7 then
      some { User.ofId id with
        department := some "Law", groups := Catalog.ofList [.ofNumber 1, .ofNumber 2] }
    else if id.number = 9 then some { User.ofId id with active := false }
    else none
  groupsOf _ := .empty

/-- A directory that lists one of the groups only, and a membership store that lists the other one. -/
def splitRecords : Records where
  user? id :=
    if id.number = 7 then
      some { User.ofId id with department := some "Law", groups := Catalog.ofList [.ofNumber 1] }
    else none
  groupsOf _ := Catalog.ofList [.ofNumber 2]

theorem alike_splitRecords : wholeRecords.Alike splitRecords := by
  intro id
  by_cases hid : id.number = 7
  · refine .inr ⟨_, _, ⟨if_pos hid, if_pos hid⟩, ⟨rfl, rfl⟩, fun field => ?_, fun group => ?_⟩
    · cases field <;> rfl
    · have hlisted : ∀ groups : List GroupId,
          group ∈ (Catalog.ofList groups : GroupSet).entries ↔ group ∈ groups := fun groups =>
        (GroupSet.contains_iff _ _).symm.trans (GroupSet.contains_ofList groups group)
      simp [wholeRecords, splitRecords, hlisted, Catalog.empty]
  · refine .inl ⟨fun user huser => ?_, fun user huser => ?_⟩
    · simp only [wholeRecords, if_neg hid] at huser
      split at huser
      · cases huser
        rfl
      · cases huser
    · simp only [splitRecords, if_neg hid] at huser
      cases huser

/-- A host that counts its questions and keeps each of them waiting. -/
def tardyHost (records : Records) : Host Nat where
  cancelled _ := false
  snapshot id asked := .later asked (.now (.ok (records.user? id)) (asked + 1))
  groups id asked := .later asked (.now (.ok (records.groupsOf id)) (asked + 1))

theorem holds_tardyHost (records : Records) (asked : Nat) : (tardyHost records).Holds records asked :=
  ⟨fun _ _ => rfl, fun _ _ => rfl⟩

/-- A rule that admits users who are not in the group. -/
def outsiderRule : Rule := .rules ⟨.and, [.single .group .notEquals (.ofNumber 2 : GroupId).text]⟩

/-- Requests of all kinds, one of them with a rule against the group that only the membership store of
the second host lists. -/
theorem serve_on_splitRecords :
    let service : Service Unit := ⟨.steady wholeRecords.user? wholeRecords.groupsOf,
      ⟨.failClosed, true, "visibility", ["items"]⟩⟩
    let requests : List ((β : Type) × Request β) :=
      [⟨Bool, .isVisible (.ofNumber 7) (some outsiderRule.text)⟩,
        ⟨List Nat, .filterVisible (.ofNumber 9) [0, 1] fun _ => none⟩,
        ⟨String, .filterWidgets (.ofNumber 9) "?"⟩,
        ⟨List UserId, .audienceMembers none [.ofNumber 9, .ofNumber 7, .ofNumber 8]⟩]
    (service.serve requests () = (service.on (tardyHost splitRecords)).serve requests 0 ∧
      ∀ result ∈ service.serve requests (), Settled result.2.1) ∧
    (service.audienceMembers none [.ofNumber 9, .ofNumber 7, .ofNumber 8] ()).outcome =
      .done [.ofNumber 7] := by
  intro service requests
  obtain ⟨hsame, hsettled⟩ := serve_on service (tardyHost splitRecords) alike_splitRecords
    (Host.holds_steady wholeRecords.user? wholeRecords.groupsOf) (holds_tardyHost splitRecords 0)
    (Host.inStep_of_uncancelled (fun _ => rfl) fun _ => rfl) requests
  exact ⟨⟨hsame, hsettled fun _ => rfl⟩, rfl⟩

end Service

end ContentVisibility
