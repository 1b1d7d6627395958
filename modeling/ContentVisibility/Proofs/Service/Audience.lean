import ContentVisibility.Proofs.Service.Answers

/-!
# Audiences

An audience is selected by deciding the rule for one candidate after another, all or nothing.

* `Rule.Malformed`: a rule given as text that restricts something but cannot be read;
* `Service.turns`: the candidates, each with the state of the host in which its turn comes;
* `audienceMembers_eq_turns`: the members are the candidates whose decision lets them through; the
  first decision that fails is the failure of the whole, and nothing is asked after it.
-/

namespace ContentVisibility

/-- The rule restricts something but cannot be read. -/
def Rule.Malformed (rule : Option String) : Prop :=
  ∃ text ∈ rule, Text.trim text ≠ "" ∧ Text.trim text ≠ "null" ∧
    ∃ fault, Rule.parse (Text.trim text) = .error fault

theorem Options.gateOfText_eq_nobody_iff (options : Options) (rule : Option String) :
    (options.gateOfText rule).1 = .nobody ↔
      Rule.Malformed rule ∧ options.malformedRules = .failClosed := by
  cases rule with
  | none => simp [gateOfText, Rule.Malformed]
  | some text =>
    by_cases hblank : Text.trim text = "" ∨ Text.trim text = "null"
    · have hread : ¬ Rule.Malformed (some text) := by
        rintro ⟨_, ⟨⟩, hempty, hnull, -⟩
        exact hblank.elim hempty hnull
      simp [gateOfText, hblank, hread]
    · have hmalformed : Rule.Malformed (some text) ↔
          ∃ fault, Rule.parse (Text.trim text) = .error fault := by
        rw [not_or] at hblank
        simp [Rule.Malformed, hblank]
      rw [hmalformed]
      rcases hread : Rule.parse (Text.trim text) with fault | rule
      · cases hpolicy : options.malformedRules <;>
          simp [gateOfText, hblank, hread, gate, hpolicy, Policy.admits]
      · simp [gateOfText, hblank, hread, gate]

namespace Service

variable {σ : Type} (service : Service σ)

/-- The candidates, each with the state of the host in which the rule is decided for it. -/
def turns (rule : Option String) : List UserId → σ → List (UserId × σ)
  | [], _ => []
  | id :: ids, s => (id, s) :: turns rule ids (service.isVisible id rule s).state

/-- The decision of the rule at a turn. -/
def decision (rule : Option String) (turn : UserId × σ) : Ran σ Bool :=
  service.isVisible turn.1 rule turn.2

theorem map_fst_turns (rule : Option String) (ids : List UserId) (s : σ) :
    (service.turns rule ids s).map Prod.fst = ids := by
  induction ids generalizing s with
  | nil => rfl
  | cons id ids ih => rw [turns, List.map_cons, ih]

variable {service} {rule : Option String} {id : UserId} {s : σ}

/-! ## One candidate -/

/-- A candidate whose decision fails is the last one that anything is asked about. -/
theorem membersAmong_cons_failed (gate : Gate) {failure : Failure} (ids : List UserId)
    (h : (service.isVisible id rule s).outcome = .failed failure) :
    (service.membersAmong gate (id :: ids) s).outcome = .failed failure ∧
      (service.membersAmong gate (id :: ids) s).calls = (service.isVisible id rule s).calls := by
  rw [isVisible_outcome] at h
  rw [isVisible_calls, membersAmong]
  rcases hres : service.resolve id s with ⟨user | failure' | _, trace, t⟩ <;> rw [hres] at h <;> cases h
  rw [Run.bind_failed hres]
  exact ⟨rfl, rfl⟩

/-- A candidate whose decision is answered is a member if it is let through; the others follow. -/
theorem membersAmong_cons_done {gate : Gate} {visible : Bool} (ids : List UserId)
    (hgate : gate = (service.options.gateOfText rule).1)
    (h : (service.isVisible id rule s).outcome = .done visible) :
    let others := service.membersAmong gate ids (service.isVisible id rule s).state
    (service.membersAmong gate (id :: ids) s).outcome =
        others.outcome.map (fun members => if visible then id :: members else members) ∧
      (service.membersAmong gate (id :: ids) s).calls =
        (service.isVisible id rule s).calls ++ others.calls := by
  rw [isVisible_outcome] at h
  rw [isVisible_calls, isVisible_state, membersAmong]
  rcases hres : service.resolve id s with ⟨user | failure | _, trace, t⟩ <;> rw [hres] at h <;> cases h
  rw [Run.bind_done hres]
  cases user with
  | none => exact ⟨by cases (service.membersAmong gate ids t).outcome <;> rfl, by simp [Ran.calls_eq]⟩
  | some user =>
    have hadmits : (gate.admits user).1 = (service.admitsText user rule).1 := by rw [hgate]; rfl
    simp only [Run.note_bind, Run.bind_pure, Ran.calls_eq, callsIn_append, callsIn_events,
      List.nil_append, hadmits]
    exact ⟨rfl, trivial⟩

/-! ## One candidate after another -/

theorem membersAmong_of_done {gate : Gate} (hgate : gate = (service.options.gateOfText rule).1)
    {ids : List UserId}
    (h : ∀ turn ∈ service.turns rule ids s, ∃ visible, (service.decision rule turn).outcome =
      .done visible) :
    (service.membersAmong gate ids s).outcome = .done (((service.turns rule ids s).filter
        fun turn => decide ((service.decision rule turn).outcome = .done true)).map Prod.fst) ∧
      (service.membersAmong gate ids s).calls =
        (service.turns rule ids s).flatMap fun turn => (service.decision rule turn).calls := by
  induction ids generalizing s with
  | nil => exact ⟨rfl, rfl⟩
  | cons id ids ih =>
    obtain ⟨visible, hvisible⟩ := h (id, s) (List.mem_cons_self ..)
    obtain ⟨houtcome, hcalls⟩ := membersAmong_cons_done ids hgate hvisible
    obtain ⟨hothers, hothersCalls⟩ := ih fun turn hm => h turn (List.mem_cons_of_mem _ hm)
    rw [houtcome, hcalls, hothers, hothersCalls, turns, List.flatMap_cons]
    rw [decision] at hvisible ⊢
    cases visible <;> simp [decision, Outcome.map, hvisible]

theorem membersAmong_of_failed {gate : Gate} (hgate : gate = (service.options.gateOfText rule).1)
    {ids : List UserId} {before after : List (UserId × σ)} {turn : UserId × σ} {failure : Failure}
    (hturns : service.turns rule ids s = before ++ turn :: after)
    (hbefore : ∀ earlier ∈ before, ∃ visible, (service.decision rule earlier).outcome = .done visible)
    (hturn : (service.decision rule turn).outcome = .failed failure) :
    (service.membersAmong gate ids s).outcome = .failed failure ∧
      (service.membersAmong gate ids s).calls =
        (before ++ [turn]).flatMap fun turn => (service.decision rule turn).calls := by
  induction ids generalizing s before with
  | nil => simp [turns] at hturns
  | cons id ids ih =>
    rw [turns] at hturns
    cases before with
    | nil =>
      obtain ⟨rfl, -⟩ := List.cons.inj hturns
      obtain ⟨houtcome, hcalls⟩ := membersAmong_cons_failed gate ids hturn
      exact ⟨houtcome, by rw [hcalls]; simp [decision]⟩
    | cons first before =>
      obtain ⟨rfl, hrest⟩ := List.cons.inj hturns
      obtain ⟨visible, hvisible⟩ := hbefore _ (List.mem_cons_self ..)
      obtain ⟨houtcome, hcalls⟩ := membersAmong_cons_done ids hgate hvisible
      obtain ⟨hothers, hothersCalls⟩ :=
        ih hrest fun earlier hm => hbefore earlier (List.mem_cons_of_mem _ hm)
      rw [houtcome, hcalls, hothers, hothersCalls]
      exact ⟨rfl, rfl⟩

/-! ## The audience -/

/-- A rule that admits nobody is answered at once. -/
theorem audienceMembers_of_nobody (h : (service.options.gateOfText rule).1 = .nobody)
    (candidates : List UserId) :
    (service.audienceMembers rule candidates s).outcome = .done [] ∧
      (service.audienceMembers rule candidates s).calls = [] := by
  simp only [audienceMembers, h, Run.note_bind, Run.pure_apply, Ran.calls_eq, List.append_nil,
    callsIn_events, and_self]

theorem audienceMembers_eq_membersAmong (h : (service.options.gateOfText rule).1 ≠ .nobody)
    (candidates : List UserId) :
    (service.audienceMembers rule candidates s).outcome =
        (service.membersAmong (service.options.gateOfText rule).1 candidates s).outcome ∧
      (service.audienceMembers rule candidates s).calls =
        (service.membersAmong (service.options.gateOfText rule).1 candidates s).calls := by
  have hnoted : ∀ x : Run σ (List UserId), ∀ event : List UserId → Event,
      let noted := (x >>= fun members => Run.noteIf service.options.audit (event members) >>=
        fun _ => pure members) s
      noted.outcome = (x s).outcome ∧ noted.calls = (x s).calls := by
    intro x event
    rcases hx : x s with ⟨members | failure | _, trace, t⟩
    · simp only [Run.bind_done hx, Run.noteIf_bind, Ran.calls_eq, callsIn_append, callsIn_events,
        Run.pure_apply, List.append_nil, and_self]
    · simp [Run.bind_failed hx]
    · simp [Run.bind_waiting hx]
  rcases hgate : service.options.gateOfText rule with ⟨gate, events⟩
  rw [hgate] at h
  simp only [audienceMembers, hgate, Run.note_bind]
  cases gate with
  | nobody => exact absurd rfl h
  | everyone => simpa [Ran.calls_eq] using hnoted (service.membersAmong .everyone candidates) _
  | ruled rule => simpa [Ran.calls_eq] using hnoted (service.membersAmong (.ruled rule) candidates) _

/-- **The members are the candidates whom the rule lets through, all or nothing.** A rule that cannot
be read, under the policy that then admits nobody, is answered at once. Any other rule is decided for
one candidate after another: the first decision that fails is the failure of the whole, and nothing is
asked after it; if all are answered, the members are the candidates that are let through. When a
candidate has its turn makes no difference to collaborators that always answer alike. -/
theorem audienceMembers_eq_turns (service : Service σ) (rule : Option String)
    (candidates : List UserId) (s : σ) :
    let ran := service.audienceMembers rule candidates s
    let turns := service.turns rule candidates s
    let callsOf := List.flatMap fun turn => (service.decision rule turn).calls
    turns.map Prod.fst = candidates ∧
    (service.host.Fixed → ∀ turn ∈ turns, ∀ s',
      (service.decision rule turn).outcome = (service.isVisible turn.1 rule s').outcome) ∧
    (Rule.Malformed rule ∧ service.options.malformedRules = .failClosed →
      ran.outcome = .done [] ∧ ran.calls = []) ∧
    (¬ (Rule.Malformed rule ∧ service.options.malformedRules = .failClosed) →
      (∀ before turn after failure, turns = before ++ turn :: after →
        (∀ earlier ∈ before, ∃ visible, (service.decision rule earlier).outcome = .done visible) →
        (service.decision rule turn).outcome = .failed failure →
        ran.outcome = .failed failure ∧ ran.calls = callsOf (before ++ [turn])) ∧
      ((∀ turn ∈ turns, ∃ visible, (service.decision rule turn).outcome = .done visible) →
        ran.outcome = .done ((turns.filter fun turn =>
          decide ((service.decision rule turn).outcome = .done true)).map Prod.fst) ∧
        ran.calls = callsOf turns)) := by
  intro ran turns callsOf
  rw [← service.options.gateOfText_eq_nobody_iff rule]
  refine ⟨service.map_fst_turns rule candidates s,
    fun hfixed turn _ s' => steady_isVisible hfixed turn.1 rule turn.2 s',
    fun h => audienceMembers_of_nobody h candidates, fun h => ?_⟩
  obtain ⟨houtcome, hcalls⟩ := audienceMembers_eq_membersAmong (s := s) h candidates
  constructor
  · intro before turn after failure hturns hbefore hturn
    obtain ⟨hfailed, hasked⟩ := membersAmong_of_failed rfl hturns hbefore hturn
    exact ⟨houtcome.trans hfailed, hcalls.trans hasked⟩
  · intro hturns
    obtain ⟨hdone, hasked⟩ := membersAmong_of_done rfl hturns
    exact ⟨houtcome.trans hdone, hcalls.trans hasked⟩

/-- What is wrong with a record that holds nothing. -/
def emptyRecord : Outage := .invalidData ⟨.grammar .endInValue, some ⟨1, 0⟩⟩

/-- A service over a directory that knows one user and cannot decode the record of another. -/
def outageService : Service Unit where
  host := {
    cancelled := fun _ => false
    snapshot := fun id s =>
      if id.number = 8 then .now (.error emptyRecord) s
      else .later s (.now (.ok (if id.number = 7 then some (.ofId id) else none)) s)
    groups := fun _ s => .now (.ok .empty) s }
  options := ⟨.failOpen, true, "visibility", ["items"]⟩

theorem audienceMembers_eq_turns_outageService :
    let ids : List UserId := [.ofNumber 7, .ofNumber 9, .ofNumber 8, .ofNumber 7]
    let ran := outageService.audienceMembers
      (some (Json.Value.object [("type", .string "all")]).text) ids ()
    ran.outcome = .failed (.outage emptyRecord) ∧
      ran.calls = [.snapshot (.ofNumber 7), .groups (.ofNumber 7), .snapshot (.ofNumber 9),
        .snapshot (.ofNumber 8)] := by
  intro ids ran
  have hread : ¬ (Rule.Malformed (some (Json.Value.object [("type", .string "all")]).text) ∧
      outageService.options.malformedRules = .failClosed) := by
    rintro ⟨-, ⟨⟩⟩
  refine ((audienceMembers_eq_turns outageService _ ids ()).2.2.2 hread).1
    [(.ofNumber 7, ()), (.ofNumber 9, ())] (.ofNumber 8, ()) [(.ofNumber 7, ())]
    (.outage emptyRecord) rfl ?_ rfl
  simp only [List.forall_mem_cons, List.not_mem_nil, false_imp_iff, implies_true, and_true]
  exact ⟨⟨true, rfl⟩, ⟨false, rfl⟩⟩

end Service

end ContentVisibility
