import ContentVisibility.Proofs.Service.Answers

/-!
# Requests as look-ups and a reply

Every request looks its users up, one after another, and makes its answer of their records without
asking anything more.

* `Request`, `Service.answer`: the four requests, and how a service answers them;
* `Request.users`: whom a request looks up;
* `Service.reply`: what a request makes of the records of its users;
* `answer_amounts`: a request asks what its look-ups ask, and answers its reply to them.
-/

namespace ContentVisibility

variable {σ α β : Type}

/-- A request to a service, with the type of its answer. -/
inductive Request : Type → Type 1 where
  | isVisible (id : UserId) (rule : Option String) : Request Bool
  | filterVisible {α : Type} (id : UserId) (items : List α) (ruleOf : α → Option String) :
    Request (List α)
  | filterWidgets (id : UserId) (content : String) : Request String
  | audienceMembers (rule : Option String) (candidates : List UserId) : Request (List UserId)

/-- The users that a request looks up, in order, unless a look-up fails. -/
def Request.users (options : Options) : Request β → List UserId
  | isVisible id _ => [id]
  | filterVisible id _ _ => [id]
  | filterWidgets id content =>
    match Service.widgetsOf content with
    | .ok (_ :: _) => [id]
    | .ok [] | .error _ => []
  | audienceMembers rule candidates =>
    match (options.gateOfText rule).1 with
    | .nobody => []
    | .everyone | .ruled _ => candidates

/-- What comes after an outcome that is an answer. -/
def Outcome.bind (f : α → Outcome β) : Outcome α → Outcome β
  | done a => f a
  | failed failure => failed failure
  | waiting => waiting

namespace Service

variable (service : Service σ)

def answer : Request β → Run σ β
  | .isVisible id rule => service.isVisible id rule
  | .filterVisible id items ruleOf => service.filterVisible id items ruleOf
  | .filterWidgets id content => service.filterWidgets id content
  | .audienceMembers rule candidates => service.audienceMembers rule candidates

/-- Look users up one after another. -/
def lookups (ids : List UserId) : Run σ (List (Option User)) := ids.mapM service.resolve

/-- What a request makes of the records of its users. -/
def reply : Request β → List (Option User) → Outcome β
  | .isVisible _ rule, users =>
    .done (users.head?.join.any fun user => (service.admitsText user rule).1)
  | .filterVisible _ items ruleOf, users =>
    .done (items.filter fun item =>
      users.head?.join.any fun user => (service.admitsText user (ruleOf item)).1)
  | .filterWidgets _ content, users =>
    match widgetsOf content with
    | .error fault => .failed (.invalidContent fault)
    | .ok nodes => .done (Json.Value.array (service.options.shape.prune
        (fun rule => (service.allows users.head?.join rule).1) nodes).result).text
  | .audienceMembers rule candidates, users =>
    .done (((candidates.zip users).filter fun entry =>
      entry.2.any fun user => (service.admitsText user rule).1).map Prod.fst)

end Service

/-! ## Requests that come to others -/

namespace Run

/-- The request ends in the outcome and asks nothing. -/
def Quiet (x : Run σ α) (outcome : Outcome α) : Prop :=
  ∀ s, (x s).outcome = outcome ∧ (x s).calls = [] ∧ (x s).state = s

/-- The request asks what the other one asks, and makes its own outcome of the answer. -/
def Amounts (x : Run σ β) (y : Run σ α) (f : α → Outcome β) : Prop :=
  ∀ s, (x s).outcome = (y s).outcome.bind f ∧ (x s).calls = (y s).calls ∧
    (x s).state = (y s).state

theorem quiet_pure (a : α) : (pure a : Run σ α).Quiet (.done a) := fun _ => ⟨rfl, rfl, rfl⟩

theorem quiet_fail (failure : Failure) : (fail failure : Run σ α).Quiet (.failed failure) :=
  fun _ => ⟨rfl, rfl, rfl⟩

variable {x x' : Run σ β} {y : Run σ α} {f : α → Outcome β}

theorem Quiet.note {outcome : Outcome β} (h : x.Quiet outcome) (events : List Event) :
    (Run.note events >>= fun _ => x).Quiet outcome := by
  intro s
  obtain ⟨houtcome, hcalls, hstate⟩ := note_unnoticed events (fun _ => x) s
  rw [houtcome, hcalls, hstate]
  exact h s

theorem Quiet.amounts {outcome : Outcome β} (h : x.Quiet outcome) (a : α) (hf : f a = outcome) :
    x.Amounts (pure a) f := by
  intro s
  obtain ⟨houtcome, hcalls, hstate⟩ := h s
  exact ⟨houtcome.trans hf.symm, hcalls, hstate⟩

theorem Amounts.note (h : x.Amounts y f) (events : List Event) :
    (Run.note events >>= fun _ => x).Amounts y f := by
  intro s
  obtain ⟨houtcome, hcalls, hstate⟩ := note_unnoticed events (fun _ => x) s
  rw [houtcome, hcalls, hstate]
  exact h s

theorem Amounts.bind {γ : Type} {z : Run σ γ} {g : γ → Run σ β} {g' : γ → Run σ α}
    (h : ∀ c, (g c).Amounts (g' c) f) : (z >>= g).Amounts (z >>= g') f := by
  intro s
  rcases hz : z s with ⟨c | failure | _, trace, t⟩
  · obtain ⟨houtcome, hcalls, hstate⟩ := h c t
    rw [bind_done hz, bind_done hz]
    refine ⟨houtcome, ?_, hstate⟩
    rw [Ran.calls_eq, Ran.calls_eq, callsIn_append, callsIn_append]
    exact congrArg _ hcalls
  · rw [bind_failed hz, bind_failed hz]
    exact ⟨rfl, rfl, rfl⟩
  · rw [bind_waiting hz, bind_waiting hz]
    exact ⟨rfl, rfl, rfl⟩

/-- What is made of an answer in the end. -/
theorem Amounts.finish {γ : Type} (h : x.Amounts y f) {g : β → Run σ γ} {k : β → Outcome γ}
    (hg : ∀ b, (g b).Quiet (k b)) : (x >>= g).Amounts y fun a => (f a).bind k := by
  intro s
  obtain ⟨houtcome, hcalls, hstate⟩ := h s
  have hassoc : (y s).outcome.bind (fun a => (f a).bind k) = (x s).outcome.bind k := by
    rw [houtcome]
    cases (y s).outcome <;> rfl
  rw [hassoc, ← hcalls, ← hstate]
  rcases hx : x s with ⟨b | failure | _, trace, t⟩
  · obtain ⟨hfirst, hnone, hsame⟩ := hg b t
    rw [bind_done hx]
    refine ⟨hfirst, ?_, hsame⟩
    rw [Ran.calls_eq, callsIn_append, ← Ran.calls_eq (g b t), hnone, List.append_nil]
    rfl
  · rw [bind_failed hx]
    exact ⟨rfl, rfl, rfl⟩
  · rw [bind_waiting hx]
    exact ⟨rfl, rfl, rfl⟩

/-- What is made of an answer may be made of another that it is made into. -/
theorem Amounts.of_map {γ : Type} {k : γ → Outcome β} (g : α → γ)
    (h : x.Amounts y fun a => k (g a)) : x.Amounts (y >>= fun a => pure (g a)) k := by
  intro s
  obtain ⟨houtcome, hcalls, hstate⟩ := h s
  rw [bind_pure]
  refine ⟨houtcome.trans ?_, hcalls, hstate⟩
  cases (y s).outcome <;> rfl

end Run

/-! ## Requests and their look-ups -/

namespace Service

open Run

variable (service : Service σ)

theorem lookups_nil : service.lookups [] = pure [] := List.mapM_nil

theorem lookups_cons (id : UserId) (ids : List UserId) :
    service.lookups (id :: ids) =
      service.resolve id >>= fun user => service.lookups ids >>= fun users =>
        pure (user :: users) :=
  List.mapM_cons

theorem lookups_singleton (id : UserId) :
    service.lookups [id] = service.resolve id >>= fun user => pure [user] := by
  rw [lookups_cons, lookups_nil]
  simp only [pure_bind]

theorem amounts_isVisible (id : UserId) (rule : Option String) :
    (service.isVisible id rule).Amounts (service.lookups [id])
      (service.reply (.isVisible id rule)) := by
  rw [lookups_singleton]
  refine Amounts.bind fun user => ?_
  cases user with
  | none => exact (quiet_pure false).amounts _ rfl
  | some user => exact (((quiet_pure _).note _).note _).amounts _ rfl

theorem amounts_filterVisible (id : UserId) (items : List α) (ruleOf : α → Option String) :
    (service.filterVisible id items ruleOf).Amounts (service.lookups [id])
      (service.reply (.filterVisible id items ruleOf)) := by
  rw [lookups_singleton]
  refine Amounts.bind fun user => ?_
  cases user with
  | none => exact (quiet_pure []).amounts _ (by simp [reply])
  | some user => exact (((quiet_pure _).note _).note _).amounts _ rfl

theorem amounts_filterWidgets (id : UserId) (content : String) :
    (service.filterWidgets id content).Amounts
      (service.lookups ((Request.filterWidgets id content).users service.options))
      (service.reply (.filterWidgets id content)) := by
  unfold filterWidgets
  rcases hcontent : widgetsOf content with fault | _ | ⟨node, nodes⟩
  · simp only [Request.users, hcontent, lookups_nil]
    exact (quiet_fail _).amounts _ (by simp only [reply, hcontent])
  · simp only [Request.users, hcontent, lookups_nil]
    exact (quiet_pure "[]").amounts _ (by simp only [reply, hcontent]; rfl)
  · simp only [Request.users, hcontent, lookups_singleton]
    refine Amounts.bind fun user => ?_
    refine Quiet.amounts (Quiet.note (Quiet.note (quiet_pure _) _) _) _ ?_
    simp only [reply, hcontent]
    rfl

theorem amounts_membersAmong (gate : Gate) (ids : List UserId) :
    (service.membersAmong gate ids).Amounts (service.lookups ids) fun users =>
      .done (((ids.zip users).filter fun entry =>
        entry.2.any fun user => (gate.admits user).1).map Prod.fst) := by
  induction ids with
  | nil =>
    rw [lookups_nil]
    exact (quiet_pure []).amounts _ rfl
  | cons id ids ih =>
    rw [lookups_cons]
    refine Amounts.bind fun user => Amounts.of_map _ ?_
    cases user with
    | none => simpa using ih
    | some user =>
      have hothers := ih.finish fun others =>
        quiet_pure (if (gate.admits user).1 then id :: others else others)
      have hreply : (fun users => Outcome.done (((((id :: ids).zip (some user :: users)).filter
            fun entry => entry.2.any fun user => (gate.admits user).1).map Prod.fst))) =
          fun users => (Outcome.done (((ids.zip users).filter fun entry =>
              entry.2.any fun user => (gate.admits user).1).map Prod.fst)).bind fun others =>
            .done (if (gate.admits user).1 then id :: others else others) := by
        funext users
        cases hadmits : (gate.admits user).1 <;> simp [Outcome.bind, hadmits]
      rw [hreply]
      exact hothers.note _

theorem amounts_audienceMembers (rule : Option String) (candidates : List UserId) :
    (service.audienceMembers rule candidates).Amounts
      (service.lookups ((Request.audienceMembers rule candidates).users service.options))
      (service.reply (.audienceMembers rule candidates)) := by
  have hselected : ∀ gate, (service.options.gateOfText rule).1 = gate →
      (service.membersAmong gate candidates >>= fun members =>
          Run.noteIf service.options.audit (.audienceSelected candidates.length members.length) >>=
            fun _ => pure members).Amounts
        (service.lookups candidates) (service.reply (.audienceMembers rule candidates)) := by
    rintro _ rfl
    exact (service.amounts_membersAmong _ candidates).finish fun members =>
      (quiet_pure members).note _
  unfold audienceMembers
  rcases hgate : service.options.gateOfText rule with ⟨gate, events⟩
  refine Amounts.note ?_ events
  rw [hgate] at hselected
  cases gate with
  | nobody =>
    simp only [Request.users, hgate, lookups_nil]
    exact (quiet_pure []).amounts _ (by simp [reply])
  | everyone =>
    simp only [Request.users, hgate]
    exact hselected _ rfl
  | ruled rule =>
    simp only [Request.users, hgate]
    exact hselected _ rfl

/-- **A request asks what its look-ups ask, and answers its reply to them.** -/
theorem answer_amounts (request : Request β) :
    (service.answer request).Amounts (service.lookups (request.users service.options))
      (service.reply request) := by
  cases request with
  | isVisible id rule => exact service.amounts_isVisible id rule
  | filterVisible id items ruleOf => exact service.amounts_filterVisible id items ruleOf
  | filterWidgets id content => exact service.amounts_filterWidgets id content
  | audienceMembers rule candidates => exact service.amounts_audienceMembers rule candidates

theorem exists_of_answer_done {request : Request β} {s : σ} {b : β}
    (h : (service.answer request s).outcome = .done b) :
    ∃ users, (service.lookups (request.users service.options) s).outcome = .done users ∧
      service.reply request users = .done b := by
  rw [(service.answer_amounts request s).1] at h
  cases hlookups : (service.lookups (request.users service.options) s).outcome with
  | done users =>
    rw [hlookups] at h
    exact ⟨users, rfl, h⟩
  | failed failure =>
    rw [hlookups] at h
    cases h
  | waiting =>
    rw [hlookups] at h
    cases h

end Service

end ContentVisibility
