import ContentVisibility.Proofs.Service.Cancellation
import ContentVisibility.Proofs.Service.Page
import ContentVisibility.Proofs.Service.Warnings

/-!
# What requests ask

A look-up asks for the record of a user, and for further groups if the record is there and active. A
request makes one look-up for each of its users, up to the first one that fails, and no other.

* `Host.Answering`: from a state on nothing is cancelled and every question is answered;
* `Host.finding`, `Host.outage?`, `Host.lookupCalls`: what comes of a look-up, and what it asks;
* `resolve_of_finding`: look-ups are made accordingly;
* `Host.visits`, `upToFirst`, `lookups_of_answering`: look-ups one after another;
* `answer_of_answering`, `warnings_membersAmong`: requests as look-ups, with their warnings;
* `filterWidgets_of_unasked`: content that is no page, and a page without widgets;
* `answer_accounts`: the questions, the failures and the warnings of every request.
-/

namespace ContentVisibility

open Json (Value)

variable {σ α β : Type}

/-! ## Answers to questions -/

namespace Host

variable (host : Host σ)

/-- From the state on no request is cancelled, and every question is answered. -/
structure Answering (s : σ) : Prop where
  uncancelled (calls : List Call) : host.cancelled (host.afterAll calls s) = false
  snapshot (calls : List Call) (id : UserId) :
    (host.snapshot id (host.afterAll calls s)).answer.isSome = true
  groups (calls : List Call) (id : UserId) :
    (host.groups id (host.afterAll calls s)).answer.isSome = true

variable {host} in
theorem Answering.after {s : σ} (h : host.Answering s) (calls : List Call) :
    host.Answering (host.afterAll calls s) := by
  constructor
  · intro more
    rw [← afterAll_append]
    exact h.uncancelled _
  · intro more id
    rw [← afterAll_append]
    exact h.snapshot _ id
  · intro more id
    rw [← afterAll_append]
    exact h.groups _ id

/-! ## One look-up -/

/-- What comes of a look-up of the user from the state, unless a question is not answered. -/
def finding (visit : UserId × σ) : Option (Except Outage (Option User)) :=
  match (host.snapshot visit.1 visit.2).answer with
  | none => none
  | some (.error outage) => some (.error outage)
  | some (.ok none) => some (.ok none)
  | some (.ok (some user)) =>
    if user.active then
      (host.groups visit.1 (host.after (.snapshot visit.1) visit.2)).answer.map fun answer =>
        answer.map fun groups => some (user.joiningAll groups)
    else some (.ok none)

/-- What a collaborator answers that fails during a look-up. -/
def outage? (visit : UserId × σ) : Option Outage :=
  match host.finding visit with
  | some (.error outage) => some outage
  | some (.ok _) | none => none

/-- Whether the question for the record of the user is answered by an active user. -/
def findsActive (visit : UserId × σ) : Bool :=
  match (host.snapshot visit.1 visit.2).answer with
  | some (.ok (some user)) => user.active
  | some (.ok none) | some (.error _) | none => false

/-- The questions of a look-up. -/
def lookupCalls (visit : UserId × σ) : List Call :=
  .snapshot visit.1 :: if host.findsActive visit then [.groups visit.1] else []

variable {host} in
theorem Answering.exists_finding {s : σ} (h : host.Answering s) (id : UserId) :
    ∃ found, host.finding (id, s) = some found := by
  obtain ⟨answer, hsnapshot⟩ := Option.isSome_iff_exists.1 (h.snapshot [] id)
  obtain ⟨groups, hgroups⟩ := Option.isSome_iff_exists.1 (h.groups [.snapshot id] id)
  have hsnapshot : (host.snapshot id s).answer = some answer := hsnapshot
  have hgroups : (host.groups id (host.after (.snapshot id) s)).answer = some groups := hgroups
  rw [finding, hsnapshot]
  rcases answer with outage | _ | user
  · exact ⟨_, rfl⟩
  · exact ⟨_, rfl⟩
  · simp only [hgroups]
    split
    · exact ⟨_, rfl⟩
    · exact ⟨_, rfl⟩

end Host

namespace Service

variable {service : Service σ} {s : σ}

theorem ask_of_timely (user : UserId) (call : Call) {question : σ → Reply σ α}
    {answer : Except Outage α} (h : (question s).answer = some answer)
    (htimely : (question s).pauses.any service.host.cancelled = false) :
    service.ask user call question s =
      ⟨.ofAnswer answer, [.call call], (question s).left service.host.cancelled⟩ := by
  rw [ask_eq, htimely, h]
  rfl

theorem ask_of_tooLate (user : UserId) (call : Call) {question : σ → Reply σ α}
    (hlate : (question s).pauses.any service.host.cancelled = true) :
    service.ask user call question s =
      ⟨.failed .cancelled, [.call call, .event (.resolutionCancelled user)],
        (question s).left service.host.cancelled⟩ := by
  rw [ask_eq, hlate]
  rfl

variable {id : UserId}

theorem resolve_of_cancelled (id : UserId) (hs : service.host.cancelled s = true) :
    (service.resolve id s).outcome = .failed .cancelled ∧ (service.resolve id s).calls = [] := by
  rw [resolve, if_pos hs]
  exact ⟨rfl, rfl⟩

theorem resolve_eq_lookup (hs : service.host.cancelled s = false) :
    service.resolve id s = service.lookup id s :=
  if_neg (by simp [hs])

theorem resolve_of_tooLate (hs : service.host.cancelled s = false)
    (hlate : service.host.tooLate (.snapshot id) s = true) :
    (service.resolve id s).outcome = .failed .cancelled ∧
      (service.resolve id s).calls = [.snapshot id] := by
  have hask : service.ask id (.snapshot id) (service.host.snapshot id) s = _ :=
    ask_of_tooLate _ _ hlate
  rw [resolve_eq_lookup hs, lookup, Run.bind_failed hask]
  exact ⟨rfl, rfl⟩

theorem resolve_of_tooLate_groups (hs : service.host.cancelled s = false)
    (hfirst : service.host.tooLate (.snapshot id) s = false)
    (hactive : service.host.findsActive (id, s) = true)
    (hlate : service.host.tooLate (.groups id) (service.host.after (.snapshot id) s) = true) :
    (service.resolve id s).outcome = .failed .cancelled ∧
      (service.resolve id s).calls = [.snapshot id, .groups id] := by
  rw [resolve_eq_lookup hs, lookup]
  unfold Host.findsActive at hactive
  split at hactive
  next user hanswer =>
    have hask := ask_of_timely id (.snapshot id) hanswer hfirst
    have hask' : service.ask id (.groups id) (service.host.groups id)
        (service.host.after (.snapshot id) s) = _ := ask_of_tooLate _ _ hlate
    simp only [Run.bind_done hask, hactive, if_true, Run.bind_pure]
    rw [show (service.host.snapshot id s).left service.host.cancelled =
      service.host.after (.snapshot id) s from rfl, hask']
    exact ⟨rfl, rfl⟩
  next => cases hactive
  next => cases hactive
  next => cases hactive

theorem resolve_of_finding {found : Except Outage (Option User)}
    (hs : service.host.cancelled s = false)
    (hfirst : service.host.tooLate (.snapshot id) s = false)
    (hsecond : service.host.findsActive (id, s) = true →
      service.host.tooLate (.groups id) (service.host.after (.snapshot id) s) = false)
    (h : service.host.finding (id, s) = some found) :
    (service.resolve id s).outcome = .ofAnswer found ∧
      (service.resolve id s).calls = service.host.lookupCalls (id, s) := by
  rw [resolve_eq_lookup hs, lookup, Host.lookupCalls]
  unfold Host.findsActive at hsecond ⊢
  unfold Host.finding at h
  split at h
  next => cases h
  next outage hanswer =>
    cases h
    have hask := ask_of_timely id (.snapshot id) hanswer hfirst
    simp only [Run.bind_failed hask, hanswer]
    exact ⟨rfl, rfl⟩
  next hanswer =>
    cases h
    have hask := ask_of_timely id (.snapshot id) hanswer hfirst
    simp only [Run.bind_done hask, hanswer]
    exact ⟨rfl, rfl⟩
  next user hanswer =>
    have hask := ask_of_timely id (.snapshot id) hanswer hfirst
    simp only [Run.bind_done hask, hanswer] at hsecond ⊢
    -- only about an active user is there a second question
    cases hactive : user.active with
    | false =>
      rw [hactive] at h
      cases h
      simp only [Bool.false_eq_true, if_false]
      exact ⟨rfl, rfl⟩
    | true =>
      rw [hactive, if_pos rfl] at h
      obtain ⟨groups, hgroups, rfl⟩ := Option.map_eq_some_iff.1 h
      have hask' := ask_of_timely id (.groups id) hgroups (hsecond hactive)
      simp only [if_true, Run.bind_pure]
      rw [show (service.host.snapshot id s).left service.host.cancelled =
        service.host.after (.snapshot id) s from rfl, hask']
      cases groups with
      | error outage => exact ⟨rfl, rfl⟩
      | ok groups => exact ⟨rfl, rfl⟩

/-- A look-up that nothing cancels ends as its questions are answered. -/
theorem resolve_of_uncancelled {found : Except Outage (Option User)}
    (huncancelled : ∀ calls, service.host.cancelled (service.host.afterAll calls s) = false)
    (h : service.host.finding (id, s) = some found) :
    (service.resolve id s).outcome = .ofAnswer found ∧
      (service.resolve id s).calls = service.host.lookupCalls (id, s) := by
  have hs : service.host.cancelled s = false := huncancelled []
  exact resolve_of_finding hs (Host.tooLate_of_uncancelled (huncancelled [.snapshot id]))
    (fun _ => Host.tooLate_of_uncancelled (huncancelled [.snapshot id, .groups id])) h

end Service

/-! ## Look-ups one after another -/

/-- The elements up to the first one that is such, and that one. -/
def upToFirst (p : α → Bool) : List α → List α
  | [] => []
  | a :: as => if p a then [a] else a :: upToFirst p as

/-- Users one after another, each with the state in which the user is looked up if all before are
answered. -/
def Host.visits (host : Host σ) : List UserId → σ → List (UserId × σ)
  | [], _ => []
  | id :: ids, s => (id, s) :: visits host ids (host.afterAll (host.lookupCalls (id, s)) s)

/-- The visits that are made, up to the first one during which a collaborator fails. -/
def Host.reached (host : Host σ) (ids : List UserId) (s : σ) : List (UserId × σ) :=
  upToFirst (fun visit => (host.outage? visit).isSome) (host.visits ids s)

theorem Host.map_fst_visits (host : Host σ) (ids : List UserId) (s : σ) :
    (host.visits ids s).map Prod.fst = ids := by
  induction ids generalizing s with
  | nil => rfl
  | cons id ids ih => rw [visits, List.map_cons, ih]

/-- The request fails with the outage, if there is one, and is answered otherwise. -/
def Ran.EndsAfter (outage : Option Outage) (ran : Ran σ α) : Prop :=
  match outage with
  | some outage => ran.outcome = .failed (.outage outage)
  | none => ∃ a, ran.outcome = .done a

namespace Service

variable {service : Service σ} {s : σ}

/-- What one look-up does, and the state in which the next one is made. -/
theorem resolve_cases (h : service.host.Answering s) (id : UserId) :
    (service.resolve id s).calls = service.host.lookupCalls (id, s) ∧
      (service.resolve id s).state = service.host.afterAll (service.host.lookupCalls (id, s)) s ∧
      ((∃ outage, service.host.outage? (id, s) = some outage ∧
          (service.resolve id s).outcome = .failed (.outage outage)) ∨
        (service.host.outage? (id, s) = none ∧
          (service.resolve id s).outcome = .done (service.known id s))) := by
  obtain ⟨found, hfound⟩ := h.exists_finding id
  obtain ⟨houtcome, hcalls⟩ := resolve_of_uncancelled h.uncancelled hfound
  refine ⟨hcalls, ?_, ?_⟩
  · rw [(service.orderly_resolve id s).state, hcalls]
  · rw [Host.outage?, hfound]
    cases found with
    | error outage => exact .inl ⟨outage, rfl, houtcome⟩
    | ok user => exact .inr ⟨rfl, houtcome.trans (congrArg _ (known_of_done houtcome).symm)⟩

/-- Look-ups are made one after another up to the first one that fails, whose failure is that of the
whole. -/
theorem lookups_of_answering (h : service.host.Answering s) (ids : List UserId) :
    (service.lookups ids s).calls = (service.host.reached ids s).flatMap service.host.lookupCalls ∧
      (service.lookups ids s).outcome =
        match (service.host.visits ids s).findSome? service.host.outage? with
        | some outage => .failed (.outage outage)
        | none => .done
          ((service.host.visits ids s).map fun visit => service.known visit.1 visit.2) := by
  induction ids generalizing s with
  | nil => exact ⟨rfl, rfl⟩
  | cons id ids ih =>
    obtain ⟨hcalls, hstate, hends⟩ := resolve_cases h id
    obtain ⟨hothersCalls, hothers⟩ := ih (h.after (service.host.lookupCalls (id, s)))
    rw [lookups_cons, Host.reached, Host.visits, upToFirst, List.findSome?_cons]
    rcases hres : service.resolve id s with ⟨outcome, trace, t⟩
    rw [hres] at hcalls hstate hends
    obtain rfl : t = _ := hstate
    rcases hends with ⟨outage, houtage, houtcome⟩ | ⟨houtage, houtcome⟩
    · obtain rfl : outcome = .failed (.outage outage) := houtcome
      simp only [Run.bind_failed hres, houtage, Option.isSome_some, if_true, List.flatMap_cons,
        List.flatMap_nil, List.append_nil]
      exact ⟨hcalls, trivial⟩
    · obtain rfl : outcome = .done (service.known id s) := houtcome
      simp only [Run.bind_done hres, Run.bind_pure, houtage, Option.isSome_none, Bool.false_eq_true,
        if_false, List.flatMap_cons, List.map_cons, Ran.calls_eq, callsIn_append]
      refine ⟨congr (congrArg _ hcalls) hothersCalls, ?_⟩
      rw [hothers]
      cases (service.host.visits ids _).findSome? service.host.outage? <;> rfl

theorem warnings_membersAmong (h : service.host.Answering s) (gate : Gate) (ids : List UserId) :
    (service.membersAmong gate ids s).warnings = (service.host.reached ids s).flatMap fun visit =>
      (service.known visit.1 visit.2).elim [] fun user => (gate.admits user).2 := by
  induction ids generalizing s with
  | nil => rfl
  | cons id ids ih =>
    obtain ⟨-, hstate, hends⟩ := resolve_cases h id
    rw [Host.reached, Host.visits, upToFirst]
    rcases hends with ⟨outage, houtage, houtcome⟩ | ⟨houtage, houtcome⟩
    · have hfailed : ∀ user, (service.resolve id s).outcome ≠ .done user := by simp [houtcome]
      simp [houtage, warnings_membersAmong_of_not_done gate ids hfailed, known_of_not_done hfailed]
    · rw [warnings_membersAmong_of_done gate ids houtcome, hstate,
        ih (h.after (service.host.lookupCalls (id, s)))]
      simp only [houtage, Option.isSome_none, Bool.false_eq_true, if_false, List.flatMap_cons]
      rfl

/-! ## Requests -/

/-- A request that refuses nothing makes its look-ups, and fails only as one of them does. -/
theorem answer_of_answering (h : service.host.Answering s) (request : Request β)
    (hreply : ∀ users, ∃ b, service.reply request users = .done b) :
    let ids := request.users service.options
    (service.answer request s).calls =
        (service.host.reached ids s).flatMap service.host.lookupCalls ∧
      (service.answer request s).EndsAfter
        ((service.host.visits ids s).findSome? service.host.outage?) := by
  intro ids
  obtain ⟨houtcome, hcalls, -⟩ := service.answer_amounts request s
  obtain ⟨hasked, hends⟩ := lookups_of_answering h ids
  refine ⟨hcalls.trans hasked, ?_⟩
  rw [show service.lookups (request.users service.options) s = service.lookups ids s from rfl,
    hends] at houtcome
  cases houtage : (service.host.visits ids s).findSome? service.host.outage? with
  | some outage =>
    rw [houtage] at houtcome
    exact houtcome
  | none =>
    rw [houtage] at houtcome
    obtain ⟨b, hb⟩ := hreply _
    exact ⟨b, houtcome.trans hb⟩

theorem answer_of_one (h : service.host.Answering s) (request : Request β) {id : UserId}
    (husers : request.users service.options = [id])
    (hreply : ∀ users, ∃ b, service.reply request users = .done b) :
    (service.answer request s).calls = service.host.lookupCalls (id, s) ∧
      (service.answer request s).EndsAfter (service.host.outage? (id, s)) := by
  obtain ⟨hcalls, hends⟩ := answer_of_answering h request hreply
  rw [husers, Host.visits, Host.visits, List.findSome?_singleton] at hends
  refine ⟨?_, hends⟩
  rw [hcalls, husers, Host.reached, Host.visits, Host.visits, upToFirst, upToFirst, ite_self]
  simp

theorem users_audienceMembers {options : Options} {rule : Option String}
    (h : (options.gateOfText rule).1 ≠ .nobody) (candidates : List UserId) :
    (Request.audienceMembers rule candidates).users options = candidates := by
  simp only [Request.users]
  split
  · exact absurd ‹_› h
  · rfl
  · rfl

/-! ## Content -/

/-- The request refuses no content. -/
def Accepts (x : Run σ α) : Prop := ∀ s fault, (x s).outcome ≠ .failed (.invalidContent fault)

theorem accepts_done {f : σ → Ran σ α} (h : ∀ s, ∃ a, (f s).outcome = .done a) : Accepts f := by
  intro s fault hfault
  obtain ⟨a, ha⟩ := h s
  rw [ha] at hfault
  cases hfault

theorem Accepts.bind {x : Run σ α} {f : α → Run σ β} (hx : Accepts x) (hf : ∀ a, Accepts (f a)) :
    Accepts (x >>= f) := by
  intro s fault
  have hfirst := hx s fault
  rcases h : x s with ⟨a | failure | _, trace, t⟩ <;> rw [h] at hfirst
  · rw [Run.bind_done h]
    exact hf a t fault
  · rw [Run.bind_failed h]
    rintro ⟨⟩
    exact hfirst rfl
  · rw [Run.bind_waiting h]
    rintro ⟨⟩

theorem accepts_ask (user : UserId) (call : Call) (question : σ → Reply σ α) :
    Accepts (service.ask user call question) := by
  intro s fault
  rw [ask_eq]
  split
  · rintro ⟨⟩
  · rcases (question s).answer with _ | _ | _ <;> rintro ⟨⟩

/-- A look-up fails only as its collaborators do, or because it is cancelled. -/
theorem accepts_resolve (id : UserId) : Accepts (service.resolve id) := by
  have hlookup : Accepts (service.lookup id) := by
    refine (accepts_ask id _ _).bind fun user => ?_
    cases user with
    | none => exact accepts_done fun s => ⟨none, rfl⟩
    | some user =>
      simp only
      split
      · exact (accepts_ask id _ _).bind fun groups => accepts_done fun s => ⟨_, rfl⟩
      · exact accepts_done fun s => ⟨none, rfl⟩
  intro s fault
  rw [resolve]
  split
  · rintro ⟨⟩
  · exact hlookup s fault

/-- Content is refused if and only if it is no list of widgets, and nothing is asked about content
without widgets. -/
theorem filterWidgets_of_unasked (service : Service σ) (id : UserId) (content : String) (s : σ) :
    let ran := service.filterWidgets id content s
    ((∃ fault, ran.outcome = .failed (.invalidContent fault)) ↔
      ∀ nodes, Value.parse content ≠ .ok (.array nodes)) ∧
    (Value.parse content = .ok (.array []) → ran.outcome = .done "[]") ∧
    ((∀ node nodes, Value.parse content ≠ .ok (.array (node :: nodes))) →
      ran.trace = [] ∧ ran.state = s) := by
  intro ran
  rcases hcontent : widgetsOf content with fault | nodes
  · have hno : ∀ nodes, Value.parse content ≠ .ok (.array nodes) := by
      intro nodes hparse
      rw [widgetsOf_eq hparse] at hcontent
      cases hcontent
    have hran : ran = ⟨.failed (.invalidContent fault), [], s⟩ := by
      simp only [ran, filterWidgets, hcontent]
      rfl
    exact ⟨iff_of_true ⟨fault, by rw [hran]⟩ hno, fun hparse => absurd hparse (hno []),
      fun _ => by rw [hran]; exact ⟨rfl, rfl⟩⟩
  · have hparse := parse_of_widgetsOf hcontent
    cases nodes with
    | nil =>
      have hran : ran = ⟨.done "[]", [], s⟩ := service.filterWidgets_nil hcontent id s
      refine ⟨iff_of_false ?_ fun hno => hno [] hparse, fun _ => by rw [hran],
        fun _ => by rw [hran]; exact ⟨rfl, rfl⟩⟩
      rintro ⟨fault, hfault⟩
      rw [hran] at hfault
      cases hfault
    | cons node nodes =>
      have haccepts : Accepts (service.filterWidgets id content) := by
        simp only [filterWidgets, hcontent]
        exact (accepts_resolve id).bind fun user => accepts_done fun s => ⟨_, rfl⟩
      refine ⟨iff_of_false ?_ fun hno => hno _ hparse, fun hnil => ?_,
        fun hno => absurd hparse (hno node nodes)⟩
      · rintro ⟨fault, hfault⟩
        exact haccepts s fault hfault
      · rw [hparse] at hnil
        cases hnil

/-! ## Accounts -/

/-- A request about one user gives no warnings unless the user is found. -/
theorem warnings_of_unknown {id : UserId}
    (h : ∀ user, (service.resolve id s).outcome ≠ .done (some user)) :
    (∀ rule, (service.isVisible id rule s).warnings = []) ∧
      (∀ (α : Type) (items : List α) ruleOf,
        (service.filterVisible id items ruleOf s).warnings = []) ∧
      ∀ content, (service.filterWidgets id content s).warnings = [] := by
  have hnone := known_eq_none_iff.2 h
  refine ⟨fun rule => ?_, fun α items ruleOf => ?_, fun content => ?_⟩
  · rw [warnings_isVisible, hnone]
    rfl
  · rw [warnings_filterVisible, hnone]
    rfl
  · by_cases hpage : ∃ nodes, widgetsOf content = .ok nodes ∧ nodes ≠ []
    · obtain ⟨nodes, hcontent, hne⟩ := hpage
      rw [service.warnings_filterWidgets id s hcontent hne, hnone]
      rfl
    · obtain ⟨-, -, hquiet⟩ := filterWidgets_of_unasked service id content s
      rw [Ran.warnings_eq, (hquiet fun node nodes hparse =>
        hpage ⟨_, widgetsOf_eq hparse, List.cons_ne_nil _ _⟩).1]
      rfl

theorem accounts_of_one (h : service.host.Answering s) (id : UserId) :
    let calls := service.host.lookupCalls (id, s)
    let outage := service.host.outage? (id, s)
    (∀ rule, (service.isVisible id rule s).calls = calls ∧
      (service.isVisible id rule s).EndsAfter outage) ∧
    (∀ (α : Type) (items : List α) ruleOf,
      (service.filterVisible id items ruleOf s).calls = calls ∧
      (service.filterVisible id items ruleOf s).EndsAfter outage) ∧
    ∀ content node nodes, Value.parse content = .ok (.array (node :: nodes)) →
      (service.filterWidgets id content s).calls = calls ∧
      (service.filterWidgets id content s).EndsAfter outage := by
  intro calls outage
  refine ⟨fun rule => answer_of_one h (.isVisible id rule) rfl fun users => ⟨_, rfl⟩,
    fun α items ruleOf =>
      answer_of_one h (.filterVisible id items ruleOf) rfl fun users => ⟨_, rfl⟩,
    fun content node nodes hparse => ?_⟩
  have hcontent := widgetsOf_eq hparse
  refine answer_of_one h (.filterWidgets id content) ?_ fun users => ?_
  · simp only [Request.users, hcontent]
  · simp only [reply, hcontent]
    exact ⟨_, rfl⟩

/-- A request about candidates looks them up in order, unless its rule admits nobody. -/
theorem accounts_of_candidates (h : service.host.Answering s) {rule : Option String}
    (hgate : (service.options.gateOfText rule).1 ≠ .nobody) (candidates : List UserId) :
    let ran := service.audienceMembers rule candidates s
    let visits := service.host.visits candidates s
    let reached := service.host.reached candidates s
    let (gate, events) := service.options.gateOfText rule
    visits.map Prod.fst = candidates ∧
    ran.calls = reached.flatMap service.host.lookupCalls ∧
    ran.EndsAfter (visits.findSome? service.host.outage?) ∧
    ran.warnings = events ++ reached.flatMap fun visit =>
      (service.known visit.1 visit.2).elim [] fun user => (gate.admits user).2 := by
  obtain ⟨hcalls, hends⟩ := answer_of_answering h (.audienceMembers rule candidates)
    fun users => ⟨_, rfl⟩
  have husers : (Request.audienceMembers rule candidates).users service.options = candidates :=
    users_audienceMembers hgate candidates
  rw [husers] at hcalls hends
  have hwarnings := warnings_membersAmong h (service.options.gateOfText rule).1 candidates
  exact ⟨service.host.map_fst_visits candidates s, hcalls, hends,
    (warnings_audienceMembers hgate candidates).trans (congrArg _ hwarnings)⟩

/-- **Every request accounts for its questions, its failures and its warnings.**

* Content is refused if and only if it is no list of widgets, and an empty list comes back as it is;
  nothing is asked for either, whatever the collaborators would do.
* A request about one user gives no warnings unless the user is found.
* If nothing is cancelled and every question is answered, a request about one user asks for the record
  of the user once, asks for further groups if the record is there and active, and fails only with
  what a collaborator answered.
* A request about candidates does so for one after another, up to and including the first one for
  whom a collaborator fails, and gives the warnings of the rule and of those who came up; but for a
  rule that cannot be read, under the policy that then admits nobody, it asks nothing. -/
theorem answer_accounts (service : Service σ) (s : σ) :
    (∀ id content,
      let ran := service.filterWidgets id content s
      ((∃ fault, ran.outcome = .failed (.invalidContent fault)) ↔
        ∀ nodes, Value.parse content ≠ .ok (.array nodes)) ∧
      (Value.parse content = .ok (.array []) → ran.outcome = .done "[]") ∧
      ((∀ node nodes, Value.parse content ≠ .ok (.array (node :: nodes))) →
        ran.trace = [] ∧ ran.state = s)) ∧
    (∀ id, (∀ user, (service.resolve id s).outcome ≠ .done (some user)) →
      (∀ rule, (service.isVisible id rule s).warnings = []) ∧
      (∀ (α : Type) (items : List α) ruleOf,
        (service.filterVisible id items ruleOf s).warnings = []) ∧
      ∀ content, (service.filterWidgets id content s).warnings = []) ∧
    (service.host.Answering s →
      (∀ id,
        let calls := service.host.lookupCalls (id, s)
        let outage := service.host.outage? (id, s)
        (∀ rule, (service.isVisible id rule s).calls = calls ∧
          (service.isVisible id rule s).EndsAfter outage) ∧
        (∀ (α : Type) (items : List α) ruleOf,
          (service.filterVisible id items ruleOf s).calls = calls ∧
          (service.filterVisible id items ruleOf s).EndsAfter outage) ∧
        ∀ content node nodes, Value.parse content = .ok (.array (node :: nodes)) →
          (service.filterWidgets id content s).calls = calls ∧
          (service.filterWidgets id content s).EndsAfter outage) ∧
      ∀ rule candidates, ¬ (Rule.Malformed rule ∧ service.options.malformedRules = .failClosed) →
        let ran := service.audienceMembers rule candidates s
        let visits := service.host.visits candidates s
        let reached := service.host.reached candidates s
        let (gate, events) := service.options.gateOfText rule
        visits.map Prod.fst = candidates ∧
        ran.calls = reached.flatMap service.host.lookupCalls ∧
        ran.EndsAfter (visits.findSome? service.host.outage?) ∧
        ran.warnings = events ++ reached.flatMap fun visit =>
          (service.known visit.1 visit.2).elim [] fun user => (gate.admits user).2) ∧
    ∀ rule candidates, Rule.Malformed rule ∧ service.options.malformedRules = .failClosed →
      (service.audienceMembers rule candidates s).outcome = .done [] ∧
      (service.audienceMembers rule candidates s).calls = [] := by
  simp only [← service.options.gateOfText_eq_nobody_iff]
  exact ⟨fun id content => filterWidgets_of_unasked service id content s,
    fun id => warnings_of_unknown,
    fun h => ⟨accounts_of_one h, fun rule candidates hgate => accounts_of_candidates h hgate candidates⟩,
    fun rule candidates hgate => audienceMembers_of_nobody hgate candidates⟩

/-- A service that counts its questions and whose directory is down after four of them. It knows of
one account that is switched off, and of one user nothing. -/
def wearyService : Service Nat where
  host := {
    cancelled := fun _ => false
    snapshot := fun id asked =>
      .later asked (.now (if asked < 4 then
          .ok (if id.number = 0 then none else some { User.ofId id with active := id.number ≠ 9 })
        else .error (.directory "down")) (asked + 1))
    groups := fun _ asked => .now (.ok .empty) (asked + 1) }
  options := ⟨.failClosed, true, "visibility", ["items"]⟩

theorem answering_wearyService (asked : Nat) : wearyService.host.Answering asked :=
  ⟨fun _ => rfl, fun _ _ => rfl, fun _ _ => rfl⟩

/-- A decision, pages without and with widgets, and candidates of whom the fourth one is too much. -/
theorem answer_accounts_wearyService :
    let ids : List UserId := [.ofNumber 9, .ofNumber 7, .ofNumber 0, .ofNumber 8, .ofNumber 7]
    let ran := wearyService.audienceMembers none ids 0
    let unread := wearyService.filterWidgets (.ofNumber 7) "?" 5
    (wearyService.isVisible (.ofNumber 7) (some "?") 0).calls =
        [.snapshot (.ofNumber 7), .groups (.ofNumber 7)] ∧
      (wearyService.isVisible (.ofNumber 7) (some "?") 4).outcome =
        .failed (.outage (.directory "down")) ∧
      (wearyService.isVisible (.ofNumber 9) (some "?") 0).warnings = [] ∧
      ((∃ fault, unread.outcome = .failed (.invalidContent fault)) ∧ unread.trace = []) ∧
      (wearyService.filterWidgets (.ofNumber 9) "[null]" 0).calls = [.snapshot (.ofNumber 9)] ∧
      ran.outcome = .failed (.outage (.directory "down")) ∧
      ran.calls = [.snapshot (.ofNumber 9), .snapshot (.ofNumber 7), .groups (.ofNumber 7),
        .snapshot (.ofNumber 0), .snapshot (.ofNumber 8)] ∧
      (wearyService.audienceMembers (some "?") ids 0).calls = [] := by
  intro ids ran unread
  obtain ⟨-, hunknown, hrested, hnobody⟩ := answer_accounts wearyService 0
  obtain ⟨hone, hmany⟩ := hrested (answering_wearyService 0)
  obtain ⟨-, -, htired, -⟩ := answer_accounts wearyService 4
  obtain ⟨hcontent, -⟩ := answer_accounts wearyService 5
  obtain ⟨-, hcalls, hends, -⟩ := hmany none ids (fun h => nomatch h.1)
  have hmalformed : Rule.Malformed (some "?") ∧ wearyService.options.malformedRules = .failClosed :=
    (wearyService.options.gateOfText_eq_nobody_iff _).1 rfl
  obtain ⟨hrefused, -, hquiet⟩ := hcontent (.ofNumber 7) "?"
  obtain ⟨fault, hfault⟩ : ∃ fault, Value.parse "?" = .error fault := ⟨_, rfl⟩
  have hbad : ∀ nodes, Value.parse "?" ≠ .ok (.array nodes) := by
    intro nodes h
    rw [hfault] at h
    cases h
  have hpage : Value.parse "[null]" = .ok (.array [.null]) := rfl
  exact ⟨((hone (.ofNumber 7)).1 (some "?")).1,
    (((htired (answering_wearyService 4)).1 (.ofNumber 7)).1 (some "?")).2,
    (hunknown (.ofNumber 9) fun user h => by cases h).1 (some "?"),
    ⟨hrefused.2 hbad, (hquiet fun node nodes => hbad _).1⟩,
    ((hone (.ofNumber 9)).2.2 "[null]" _ _ hpage).1, hends, hcalls,
    (hnobody (some "?") ids hmalformed).2⟩

/-- A rule that cannot be read is answered without a question under the policy that then admits nobody,
although a candidate is there to be looked up. -/
theorem unasked_wearyService :
    wearyService.host.Answering 0 ∧
      wearyService.host.lookupCalls (.ofNumber 7, 0) =
        [.snapshot (.ofNumber 7), .groups (.ofNumber 7)] ∧
      (wearyService.audienceMembers (some "?") [.ofNumber 7] 0).calls = [] ∧
      ¬ ∀ rule candidates, (wearyService.audienceMembers rule candidates 0).calls =
        (wearyService.host.reached candidates 0).flatMap wearyService.host.lookupCalls := by
  have hnone : (wearyService.audienceMembers (some "?") [.ofNumber 7] 0).calls = [] :=
    (audienceMembers_of_nobody rfl _).2
  refine ⟨answering_wearyService 0, rfl, hnone, fun h => ?_⟩
  rw [h] at hnone
  cases hnone

end Service

end ContentVisibility
