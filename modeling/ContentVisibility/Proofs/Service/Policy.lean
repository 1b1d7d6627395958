import ContentVisibility.Proofs.Rule.Cut
import ContentVisibility.Proofs.Service.Audience
import ContentVisibility.Proofs.Service.Page
import ContentVisibility.Proofs.Service.Request
import ContentVisibility.Proofs.Widget.Alike

/-!
# The two policies for malformed rules

What a service shows that hides content with malformed rules, and what it shows when such rules
restrict nothing.

* `Options.under`, `Service.under`: the same service under a given policy;
* `Rule.MalformedInPage`: a rule inside a page that restricts something but cannot be read;
* `Service.left`: the positions of a page that a user is left with;
* `isVisible_under`, `filterVisible_under`, `audienceMembers_under`, `filterWidgets_under`: what two
  requests that are answered, under the one and under the other policy, have to do with each other.
-/

namespace ContentVisibility

open Json (Value)

variable {σ α β : Type}

/-- The options with a policy for malformed rules. -/
def Options.under (options : Options) (policy : Policy) : Options :=
  { options with malformedRules := policy }

/-- The service with a policy for malformed rules. -/
def Service.under (service : Service σ) (policy : Policy) : Service σ :=
  { service with options := service.options.under policy }

/-- A rule inside a page that restricts something but cannot be read. -/
def Rule.MalformedInPage : Value → Prop
  | .null => False
  | .string text => Malformed (some text)
  | value => ∃ fault, ofValue value = .error fault

theorem Rule.not_malformedInPage {v : Value} (hshape : v.IsContainer)
    (h : (ofValue v).toOption.isSome = true) : ¬ MalformedInPage v := by
  cases v with
  | array _ | object _ =>
    rintro ⟨fault, herror⟩
    rw [herror] at h
    cases h
  | null | bool _ | number _ | string _ => exact hshape.elim

/-! ## Gates -/

namespace Options

variable (options : Options)

theorem admits_gate_under (user : User) (read : Except Json.Fault Rule)
    (h : (((options.under .failClosed).gate read).1.admits user).1 = true) :
    (((options.under .failOpen).gate read).1.admits user).1 = true := by
  rw [Service.admits_gate] at h ⊢
  rcases h with h | ⟨-, hpolicy⟩
  · exact .inl h
  · cases hpolicy

theorem admits_gateOfText_under (user : User) (rule : Option String)
    (h : (((options.under .failClosed).gateOfText rule).1.admits user).1 = true) :
    (((options.under .failOpen).gateOfText rule).1.admits user).1 = true := by
  unfold gateOfText at h ⊢
  split at h
  · exact h
  · split at h
    · next hblank => rwa [if_pos hblank]
    · next hblank =>
      rw [if_neg hblank]
      exact options.admits_gate_under user _ h

theorem admits_gateOfValue_under (user : User) (rule : Value)
    (h : (((options.under .failClosed).gateOfValue rule).1.admits user).1 = true) :
    (((options.under .failOpen).gateOfValue rule).1.admits user).1 = true := by
  cases rule with
  | null => exact h
  | string text => exact options.admits_gateOfText_under user (some text) h
  | bool _ | number _ | array _ | object _ => exact options.admits_gate_under user _ h

theorem gate_under_of_ok {read : Except Json.Fault Rule} (h : ¬ ∃ fault, read = .error fault)
    (policy : Policy) : (options.under policy).gate read = options.gate read := by
  cases read with
  | ok rule => rfl
  | error fault => exact absurd ⟨fault, rfl⟩ h

theorem gateOfText_under {rule : Option String} (h : ¬ Rule.Malformed rule) (policy : Policy) :
    (options.under policy).gateOfText rule = options.gateOfText rule := by
  cases rule with
  | none => rfl
  | some text =>
    simp only [gateOfText, Option.map_some]
    split
    · rfl
    · next hblank =>
      rw [not_or] at hblank
      exact options.gate_under_of_ok (fun herror => h ⟨text, rfl, hblank.1, hblank.2, herror⟩) policy

theorem gateOfValue_under {rule : Value} (h : ¬ Rule.MalformedInPage rule) (policy : Policy) :
    (options.under policy).gateOfValue rule = options.gateOfValue rule := by
  cases rule with
  | null => rfl
  | string text => exact options.gateOfText_under h policy
  | bool _ | number _ | array _ | object _ => exact options.gate_under_of_ok h policy

end Options

namespace Service

variable (service : Service σ)

/-! ## Rules -/

theorem admitsText_under (user : User) (rule : Option String)
    (h : ((service.under .failClosed).admitsText user rule).1 = true) :
    ((service.under .failOpen).admitsText user rule).1 = true :=
  service.options.admits_gateOfText_under user rule h

theorem admitsText_under_eq {rule : Option String} (h : ¬ Rule.Malformed rule) (policy : Policy)
    (user : User) : (service.under policy).admitsText user rule = service.admitsText user rule := by
  simp only [admitsText, under, service.options.gateOfText_under h]

theorem allows_none (rule : Value) : service.allows none rule = (false, []) := rfl

theorem allows_some (user : User) (rule : Value) :
    service.allows (some user) rule = service.admitsValue user rule := rfl

theorem allows_under (user : Option User) (rule : Value)
    (h : ((service.under .failClosed).allows user rule).1 = true) :
    ((service.under .failOpen).allows user rule).1 = true := by
  cases user with
  | none =>
    rw [allows_none] at h
    exact absurd h Bool.false_ne_true
  | some user =>
    rw [allows_some, admitsValue_fst] at h ⊢
    exact service.options.admits_gateOfValue_under user rule h

theorem allows_under_eq {rule : Value} (h : ¬ Rule.MalformedInPage rule) (policy : Policy)
    (user : Option User) : (service.under policy).allows user rule = service.allows user rule := by
  cases user with
  | none => rw [allows_none, allows_none]
  | some user =>
    simp only [allows_some, admitsValue, under, service.options.gateOfValue_under h]

theorem admits_under_eq {node : Value}
    (h : ∀ rule ∈ service.options.shape.ruleOf node, ¬ Rule.MalformedInPage rule)
    (user : Option User) :
    service.options.shape.admits (fun rule => ((service.under .failClosed).allows user rule).1) node =
      service.options.shape.admits (fun rule => ((service.under .failOpen).allows user rule).1) node := by
  rw [TreeShape.admits, TreeShape.admits]
  rcases hrule : service.options.shape.ruleOf node with _ | rule
  · rw [Option.all_none, Option.all_none]
  · simp only [Option.all_some, service.allows_under_eq (h rule hrule)]

/-! ## Rules that have lost something -/

/-- A list that stands where a rule does admits as the rule that it describes, or else by the policy. -/
theorem allows_array_iff (user : User) (items : List Value) :
    (service.allows (some user) (.array items)).1 = true ↔
      (∃ rule ∈ (Rule.ofValue (.array items)).toOption, (rule.decide user).holds = true) ∨
        ((Rule.ofValue (.array items)).toOption = none ∧ service.options.malformedRules = .failOpen) := by
  rw [allows_some, admitsValue_fst, ← admits_gate service.options user]
  rfl

/-- A list that admits when failing closed, before and after positions are gone from it, admits when
failing open if no more are gone. -/
theorem allows_cut_under {shape : TreeShape} (user : Option User) {items : List Value}
    (hwf : ∀ item ∈ items, item.WellFormed) {keep keep' : Nat → List Step → Bool}
    (hle : ∀ i steps, keep i steps = true → keep' i steps = true) (hspares : shape.Spares keep items)
    (hwhole : ((service.under .failClosed).allows user (.array items)).1 = true)
    (hcut : ((service.under .failClosed).allows user (.array (shape.cut keep items))).1 = true) :
    ((service.under .failOpen).allows user (.array (shape.cut keep' items))).1 = true := by
  cases user with
  | none =>
    rw [allows_none] at hwhole
    exact absurd hwhole Bool.false_ne_true
  | some user =>
    have hread : ∀ items, ((service.under .failClosed).allows (some user) (.array items)).1 = true →
        ∃ rule, (Rule.ofValue (.array items)).toOption = some rule ∧
          (rule.decide user).holds = true := by
      intro items h
      rcases (allows_array_iff _ user items).1 h with hread | ⟨-, hpolicy⟩
      · exact hread
      · cases hpolicy
    obtain ⟨rule₀, hrule₀, hmany⟩ := hread _ hwhole
    obtain ⟨rule, hrule, hfew⟩ := hread _ hcut
    rw [allows_array_iff]
    rcases hrule' : (Rule.ofValue (.array (shape.cut keep' items))).toOption with _ | rule'
    · exact .inr ⟨rfl, rfl⟩
    · have htrue : (Rule.ofValue (.array (shape.cut (fun _ _ => true) items))).toOption =
          some rule₀ := by rw [TreeShape.cut_true, hrule₀]
      have hleft := Rule.within_cut hle hwf hspares hrule₀ hrule hrule'
      have hwhole' := Rule.within_cut (fun _ _ _ => rfl) hwf (hspares.mono hle) hrule₀ hrule' htrue
      exact .inl ⟨rule', rfl, hleft.holds hwhole' hfew hmany⟩

/-- Where failing closed leaves a widget, before and after positions are gone from it, failing open
leaves the widget from which no more are gone. -/
theorem sturdier_under (user : Option User) :
    service.options.shape.Sturdier (fun rule => ((service.under .failClosed).allows user rule).1)
      fun rule => ((service.under .failOpen).allows user rule).1 := by
  intro node hwf keep keep' hle hspares hwhole hcut
  rw [TreeShape.admits, TreeShape.ruleOf_cutNode] at hcut ⊢
  rw [TreeShape.admits] at hwhole
  rcases hrule : service.options.shape.ruleOf node with _ | rule
  · rfl
  · simp only [hrule, Option.map_some, Option.all_some] at hwhole hcut ⊢
    obtain ⟨hmember, -⟩ := TreeShape.ruleOf_eq_some_iff.1 hrule
    -- only a rule that is itself a list under a child key can have lost something
    by_cases hlist : service.options.shape.visibilityKey ∈ service.options.shape.childKeys ∧
        ∃ items, rule = .array items
    · obtain ⟨hkey, items, rfl⟩ := hlist
      have hat : service.options.shape.childrenAt service.options.shape.visibilityKey node = items := by
        simp [TreeShape.childrenAt, hkey, hmember]
      have hinside := hspares service.options.shape.visibilityKey
      rw [hat] at hinside
      have hitems : ∀ item ∈ items, item.WellFormed :=
        hat ▸ TreeShape.childrenAt_wellFormed hwf service.options.shape.visibilityKey
      simp only [TreeShape.cutMember, hkey, if_true, TreeShape.cutChildren] at hcut ⊢
      exact service.allows_cut_under user hitems (fun i steps => hle _) hinside hwhole hcut
    · have hsame : ∀ keep,
          service.options.shape.cutMember keep service.options.shape.visibilityKey rule = rule := by
        intro keep
        unfold TreeShape.cutMember
        split
        · next hkey =>
          exact TreeShape.cutChildren_eq_self _ _ fun items he => hlist ⟨hkey, items, he⟩
        · rfl
      rw [hsame] at hcut ⊢
      exact service.allows_under user rule hcut

/-! ## Requests -/

/-- The positions of a page that a user is left with, who may be unknown. -/
def left (user : Option User) (nodes : List Value) : Nat → List Step → Bool :=
  service.options.shape.keepLevels (fun rule => (service.allows user rule).1) (Value.itemsDepth nodes)
    (fun _ _ => true) nodes

/-- The policy does not matter for the look-up of a user. -/
theorem ask_under (policy : Policy) (user : UserId) (call : Call) (question : σ → Reply σ α) :
    (service.under policy).ask user call question = service.ask user call question := by
  funext s
  rw [ask_eq, ask_eq]
  rfl

theorem resolve_under (policy : Policy) : (service.under policy).resolve = service.resolve := by
  funext id s
  rw [resolve, resolve, lookup, lookup, ask_under]
  simp only [ask_under]
  rfl

theorem lookups_under (policy : Policy) (ids : List UserId) :
    (service.under policy).lookups ids = service.lookups ids := by
  rw [lookups, lookups, resolve_under]

section Both

variable {service} {s : σ}

/-- Two requests that look the same users up are answered from the same records. -/
theorem exists_of_both_done (request : Request β) {b b' : β}
    (h : ((service.under .failClosed).answer request s).outcome = .done b)
    (h' : ((service.under .failOpen).answer request s).outcome = .done b')
    (husers : request.users (service.options.under .failClosed) =
      request.users (service.options.under .failOpen)) :
    ∃ users, (service.lookups (request.users (service.options.under .failOpen)) s).outcome =
        .done users ∧
      (service.under .failClosed).reply request users = .done b ∧
      (service.under .failOpen).reply request users = .done b' := by
  obtain ⟨users, hlookups, hreply⟩ := exists_of_answer_done _ h
  obtain ⟨users', hlookups', hreply'⟩ := exists_of_answer_done _ h'
  rw [lookups_under] at hlookups hlookups'
  obtain rfl : users = users' := by
    have hsame := hlookups.symm.trans ((congrArg (fun ids => (service.lookups ids s).outcome)
      husers).trans hlookups')
    exact Outcome.done.inj hsame
  exact ⟨users, hlookups', hreply, hreply'⟩

theorem isVisible_under {id : UserId} {rule : Option String} {v v' : Bool}
    (h : ((service.under .failClosed).isVisible id rule s).outcome = .done v)
    (h' : ((service.under .failOpen).isVisible id rule s).outcome = .done v') :
    (v = true → v' = true) ∧ (¬ Rule.Malformed rule → v = v') := by
  obtain ⟨users, -, hreply, hreply'⟩ := exists_of_both_done (.isVisible id rule) h h' rfl
  cases hreply
  cases hreply'
  refine ⟨fun hvisible => ?_, fun hread => by simp only [service.admitsText_under_eq hread]⟩
  rw [Option.any_eq_true] at hvisible ⊢
  obtain ⟨user, huser, hadmits⟩ := hvisible
  exact ⟨user, huser, service.admitsText_under user rule hadmits⟩

theorem filterVisible_under {id : UserId} {items : List α} {ruleOf : α → Option String}
    {xs ys : List α}
    (h : ((service.under .failClosed).filterVisible id items ruleOf s).outcome = .done xs)
    (h' : ((service.under .failOpen).filterVisible id items ruleOf s).outcome = .done ys) :
    xs.Sublist ys ∧ ((∀ item ∈ items, ¬ Rule.Malformed (ruleOf item)) → xs = ys) := by
  obtain ⟨users, -, hreply, hreply'⟩ :=
    exists_of_both_done (.filterVisible id items ruleOf) h h' rfl
  cases hreply
  cases hreply'
  constructor
  · refine List.monotone_filter_right items fun item hvisible => ?_
    rw [Option.any_eq_true] at hvisible ⊢
    obtain ⟨user, huser, hadmits⟩ := hvisible
    exact ⟨user, huser, service.admitsText_under user (ruleOf item) hadmits⟩
  · intro hread
    refine List.filter_congr fun item hitem => ?_
    simp only [service.admitsText_under_eq (hread item hitem)]

theorem users_audienceMembers_under {rule : Option String} (h : ¬ Rule.Malformed rule)
    (candidates : List UserId) (policy : Policy) :
    (Request.audienceMembers rule candidates).users (service.options.under policy) =
      (Request.audienceMembers rule candidates).users service.options := by
  simp only [Request.users, service.options.gateOfText_under h]

theorem audienceMembers_under {rule : Option String} {candidates xs ys : List UserId}
    (h : ((service.under .failClosed).audienceMembers rule candidates s).outcome = .done xs)
    (h' : ((service.under .failOpen).audienceMembers rule candidates s).outcome = .done ys) :
    xs.Sublist ys ∧ (¬ Rule.Malformed rule → xs = ys) := by
  by_cases hread : Rule.Malformed rule
  · -- nobody is admitted, and nobody is looked up
    have hnobody : ((service.under .failClosed).options.gateOfText rule).1 = .nobody :=
      (Options.gateOfText_eq_nobody_iff _ rule).2 ⟨hread, rfl⟩
    rw [(audienceMembers_of_nobody hnobody candidates).1] at h
    cases h
    exact ⟨List.nil_sublist ys, fun hne => absurd hread hne⟩
  · obtain ⟨users, -, hreply, hreply'⟩ :=
      exists_of_both_done (.audienceMembers rule candidates) h h'
        (by rw [users_audienceMembers_under hread, users_audienceMembers_under hread])
    cases hreply
    cases hreply'
    simp only [service.admitsText_under_eq hread]
    exact ⟨List.Sublist.refl _, fun _ => trivial⟩

theorem filterWidgets_under {id : UserId} {content text text' : String}
    (h : ((service.under .failClosed).filterWidgets id content s).outcome = .done text)
    (h' : ((service.under .failOpen).filterWidgets id content s).outcome = .done text') :
    ∃ nodes user, Value.parse content = .ok (.array nodes) ∧
      (nodes ≠ [] → (service.resolve id s).outcome = .done user) ∧
      text = (Value.array (service.options.shape.cut
        ((service.under .failClosed).left user nodes) nodes)).text ∧
      text' = (Value.array (service.options.shape.cut
        ((service.under .failOpen).left user nodes) nodes)).text ∧
      (∀ i steps, (service.under .failClosed).left user nodes i steps = true →
        (service.under .failOpen).left user nodes i steps = true) ∧
      (service.options.shape.Separate ∨ service.options.childKeys.Nodup →
        service.options.shape.Everywhere (fun node =>
          ∀ rule ∈ service.options.shape.ruleOf node, ¬ Rule.MalformedInPage rule) nodes →
        text = text') := by
  -- one look-up answers both requests, so that they differ by what the records are asked
  obtain ⟨users, hlookups, hreply, hreply'⟩ :=
    exists_of_both_done (.filterWidgets id content) h h' rfl
  rcases hcontent : widgetsOf content with fault | nodes
  · simp only [reply, hcontent] at hreply
    cases hreply
  · simp only [reply, hcontent, Outcome.done.injEq] at hreply hreply'
    have hfits := (fits_of_widgetsOf hcontent).items
    have hwf : ∀ node ∈ nodes, node.WellFormed := fun node hnode => (hfits node hnode).1
    subst hreply hreply'
    refine ⟨nodes, users.head?.join, parse_of_widgetsOf hcontent, fun hne => ?_, ?_, ?_, ?_, ?_⟩
    · obtain ⟨node, others, rfl⟩ := List.exists_cons_of_ne_nil hne
      simp only [Request.users, hcontent, lookups_singleton, Run.bind_pure] at hlookups
      cases hresolve : (service.resolve id s).outcome <;> rw [hresolve] at hlookups <;> cases hlookups
      rfl
    · rw [TreeShape.prune_eq_cut hwf]
      rfl
    · rw [TreeShape.prune_eq_cut hwf]
      rfl
    · exact TreeShape.keepLevels_le (service.sturdier_under users.head?.join) hwf _
    · intro hkeys hread
      have hsame := TreeShape.prune_congr hkeys hfits fun i steps node hnode =>
        service.admits_under_eq (hread i steps node hnode) users.head?.join
      exact congrArg (fun nodes => (Value.array nodes).text) hsame

end Both

end Service

end ContentVisibility
