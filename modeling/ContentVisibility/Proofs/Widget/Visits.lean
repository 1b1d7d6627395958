import ContentVisibility.Proofs.Widget.Alike
import Mathlib.Data.List.Count
import Mathlib.Tactic.Ring

/-!
# How often a rule is looked at

Pruning looks at the rule of a widget when it comes to the list in which the widget stands, and it
comes to a list once for each time its key is listed. So a widget that stays is looked at as often as
the keys on the way to it are listed, multiplied up, while one that is removed is gone when its list
comes again.

* `Visits`: rules that were looked at, with the places at which they stand;
* `TreeShape.decisions`: how often pruning looks at the rule at a position;
* `visits_foldlM`: going through the lists of a widget key by key, some of them done before;
* `visits_prune`: the rules that pruning looks at stand at the positions, each as often as that;
* `decisions_of_nodup`: once, where no key is listed twice.
-/

namespace ContentVisibility

open Json (Value Members.get?)

/-! ## Visits -/

/-- The rules were looked at one after another, each at a place where it stands, and so that every place
came up as many times as given. -/
def Visits {ι : Type} [BEq ι] (rule? : ι → Option Value) (times : ι → Nat)
    (rules : List Value) : Prop :=
  ∃ visits : List ι, visits.map rule? = rules.map some ∧ ∀ place, visits.count place = times place

namespace Visits

variable {ι κ : Type} [BEq ι] {rule? : ι → Option Value} {times times' : ι → Nat}
  {rules rules' : List Value}

theorem nil (h : ∀ place, times place = 0) : Visits rule? times [] :=
  ⟨[], rfl, fun place => (h place).symm⟩

theorem append (h : Visits rule? times rules) (h' : Visits rule? times' rules') :
    Visits rule? (fun place => times place + times' place) (rules ++ rules') := by
  obtain ⟨visits, hrules, htimes⟩ := h
  obtain ⟨visits', hrules', htimes'⟩ := h'
  refine ⟨visits ++ visits', by simp [hrules, hrules'], fun place => ?_⟩
  rw [List.count_append, htimes, htimes']

theorem congr (h : Visits rule? times rules) (heq : ∀ place, times place = times' place) :
    Visits rule? times' rules :=
  (funext heq : times = times') ▸ h

variable [LawfulBEq ι]

theorem one [DecidableEq ι] {place : ι} {rule : Value} (h : rule? place = some rule) :
    Visits rule? (fun other => if other = place then 1 else 0) [rule] := by
  refine ⟨[place], by simp [h], fun other => ?_⟩
  rw [List.count_singleton]
  by_cases he : other = place
  · simp [he]
  · simp [he, Ne.symm he]

variable [BEq κ] [LawfulBEq κ]

/-- The same visits, as visits of the places that are named after these. -/
theorem map {f : ι → κ} (hf : Function.Injective f) (rule?' : κ → Option Value) (times' : κ → Nat)
    (h : Visits rule? times rules) (hrule : ∀ place, rule?' (f place) = rule? place)
    (hnamed : ∀ place, times' (f place) = times place)
    (hother : ∀ other, (∀ place, f place ≠ other) → times' other = 0) :
    Visits rule?' times' rules := by
  obtain ⟨visits, hrules, htimes⟩ := h
  refine ⟨visits.map f, ?_, fun other => ?_⟩
  · rw [List.map_map, ← hrules]
    exact List.map_congr_left fun place _ => hrule place
  · by_cases hplace : ∃ place, f place = other
    · obtain ⟨place, rfl⟩ := hplace
      rw [List.count_map_of_injective visits f hf, htimes, hnamed]
    · have hnone : ∀ place, f place ≠ other := fun place he => hplace ⟨place, he⟩
      rw [hother other hnone, List.count_eq_zero]
      intro hm
      obtain ⟨place, -, he⟩ := List.mem_map.1 hm
      exact hnone place he

end Visits

namespace TreeShape

variable (shape : TreeShape)

/-! ## Rules at positions -/

/-- The rule of the widget at a position, an index of the page with the steps from there. -/
def ruleAt? (nodes : List Value) (place : Nat × List Step) : Option Value :=
  (shape.nodeAt? nodes place.1 place.2).bind shape.ruleOf

/-- The rule of a widget, or of one inside it. -/
def ruleWithin? (node : Value) : List Step → Option Value
  | [] => shape.ruleOf node
  | step :: steps => shape.ruleAt? (shape.childrenAt step.key node) (step.index, steps)

/-- All widgets above the position pass. -/
def Reached (passes : Value → Prop) (nodes : List Value) (i : Nat) (steps : List Step) : Prop :=
  ∀ k < steps.length, ∃ node ∈ shape.nodeAt? nodes i (steps.take k), passes node

instance (passes : Value → Prop) [DecidablePred passes] (nodes : List Value) (i : Nat)
    (steps : List Step) : Decidable (shape.Reached passes nodes i steps) :=
  inferInstanceAs (Decidable (∀ k < steps.length,
    ∃ node ∈ shape.nodeAt? nodes i (steps.take k), passes node))

/-- In how many ways the steps can be taken, by the entries of their keys among the child keys. -/
def ways (steps : List Step) : Nat := (steps.map fun step => shape.childKeys.count step.key).prod

section Decisions

variable (passes : Value → Prop) [DecidablePred passes]

/-- How often pruning looks at the rule at a position. -/
def decisions (nodes : List Value) (place : Nat × List Step) : Nat :=
  if (shape.ruleAt? nodes place).isSome ∧ shape.Reached passes nodes place.1 place.2 then
    if shape.Kept passes nodes place.1 place.2 then shape.ways place.2 else 1
  else 0

/-- How often it is looked at when a page is pruned again. -/
def decisionsAgain (nodes : List Value) (place : Nat × List Step) : Nat :=
  if (shape.ruleAt? nodes place).isSome ∧ shape.Kept passes nodes place.1 place.2 then
    shape.ways place.2
  else 0

/-- The looks at a position inside a widget: the first time that its list comes up all widgets in it
are there, and the further times those that are left. -/
def decisionsInside (node : Value) : List Step → Nat
  | [] => 0
  | step :: steps =>
    shape.decisions passes (shape.childrenAt step.key node) (step.index, steps) +
      (shape.childKeys.count step.key - 1) *
        shape.decisionsAgain passes (shape.childrenAt step.key node) (step.index, steps)

/-- The looks inside a widget that has been pruned. -/
def decisionsInsideAgain (node : Value) : List Step → Nat
  | [] => 0
  | step :: steps => shape.childKeys.count step.key *
      shape.decisionsAgain passes (shape.childrenAt step.key node) (step.index, steps)

end Decisions

variable {shape} {passes : Value → Prop}

theorem ruleAt?_eq (nodes : List Value) (place : Nat × List Step) :
    shape.ruleAt? nodes place =
      nodes[place.1]?.bind fun node => shape.ruleWithin? node place.2 := by
  obtain ⟨i, steps⟩ := place
  cases steps with
  | nil => rfl
  | cons step steps =>
    rw [ruleAt?, nodeAt?]
    cases nodes[i]? <;> rfl

theorem reached_nil (nodes : List Value) (i : Nat) : shape.Reached passes nodes i [] :=
  fun _ hk => absurd hk (Nat.not_lt_zero _)

theorem reached_cons {nodes : List Value} {i : Nat} {step : Step} {steps : List Step} :
    shape.Reached passes nodes i (step :: steps) ↔
      ∃ node ∈ nodes[i]?, passes node ∧
        shape.Reached passes (shape.childrenAt step.key node) step.index steps := by
  constructor
  · intro h
    obtain ⟨node, hnode, hpasses⟩ := h 0 (Nat.succ_pos _)
    refine ⟨node, hnode, hpasses, fun k hk => ?_⟩
    have hstep := h (k + 1) (Nat.succ_lt_succ hk)
    rwa [List.take_succ_cons, nodeAt?_cons hnode] at hstep
  · rintro ⟨node, hnode, hpasses, hbelow⟩ k hk
    cases k with
    | zero => exact ⟨node, hnode, hpasses⟩
    | succ k =>
      rw [List.take_succ_cons, nodeAt?_cons hnode]
      exact hbelow k (Nat.lt_of_succ_lt_succ hk)

theorem Kept.reached {nodes : List Value} {i : Nat} {steps : List Step}
    (h : shape.Kept passes nodes i steps) : shape.Reached passes nodes i steps :=
  fun k hk => h k (Nat.le_of_lt hk)

theorem childrenAt_of_notMem {key : String} (h : key ∉ shape.childKeys) (node : Value) :
    shape.childrenAt key node = [] :=
  if_neg h

variable (shape) in
/-- What is under a key is a list that an object holds, if there is anything. -/
theorem childrenAt_cases (key : String) (node : Value) : shape.childrenAt key node = [] ∨
    ∃ members, node = .object members ∧
      Members.get? key members = some (.array (shape.childrenAt key node)) := by
  by_cases hkey : key ∈ shape.childKeys
  · rw [childrenAt, if_pos hkey]
    split
    · next children hchildren =>
      cases node with
      | object members => exact .inr ⟨members, rfl, hchildren⟩
      | null | bool _ | number _ | string _ | array _ => cases hchildren
    · exact .inl rfl
  · exact .inl (childrenAt_of_notMem hkey node)

theorem childrenAt_of_no_list {key : String} {members : List (String × Value)}
    (h : ∀ children, Members.get? key members ≠ some (.array children)) :
    shape.childrenAt key (.object members) = [] := by
  refine (shape.childrenAt_cases key (.object members)).resolve_right ?_
  rintro ⟨_, ⟨⟩, hchildren⟩
  exact h _ hchildren

theorem childrenAt_of_scalar {node : Value} (h : ∀ members, node ≠ .object members) (key : String) :
    shape.childrenAt key node = [] :=
  (shape.childrenAt_cases key node).resolve_right fun ⟨members, hnode, _⟩ => h members hnode

theorem ruleAt?_nil (place : Nat × List Step) : shape.ruleAt? [] place = none := by
  rw [ruleAt?_eq]
  rfl

theorem mem_childKeys_of_ruleAt? {step : Step} {node : Value} {place : Nat × List Step}
    (h : (shape.ruleAt? (shape.childrenAt step.key node) place).isSome) :
    step.key ∈ shape.childKeys := by
  by_contra hkey
  rw [childrenAt_of_notMem hkey, ruleAt?_nil] at h
  cases h

/-! ## From a list to the widgets in it -/

section Recursion

variable {nodes : List Value} {i : Nat} {node : Value}

theorem ruleAt?_nil_steps (h : nodes[i]? = some node) :
    shape.ruleAt? nodes (i, []) = shape.ruleOf node := by
  rw [ruleAt?_eq, h]
  rfl

theorem ruleAt?_cons (h : nodes[i]? = some node) (step : Step) (steps : List Step) :
    shape.ruleAt? nodes (i, step :: steps) =
      shape.ruleAt? (shape.childrenAt step.key node) (step.index, steps) := by
  rw [ruleAt?_eq, h]
  rfl

theorem ruleAt?_of_none (h : nodes[i]? = none) (steps : List Step) :
    shape.ruleAt? nodes (i, steps) = none := by
  rw [ruleAt?_eq, h]
  rfl

theorem kept_of_node (h : nodes[i]? = some node) (step : Step) (steps : List Step) :
    shape.Kept passes nodes i (step :: steps) ↔
      passes node ∧ shape.Kept passes (shape.childrenAt step.key node) step.index steps := by
  rw [kept_cons, h]
  simp

theorem reached_of_node (h : nodes[i]? = some node) (step : Step) (steps : List Step) :
    shape.Reached passes nodes i (step :: steps) ↔
      passes node ∧ shape.Reached passes (shape.childrenAt step.key node) step.index steps := by
  rw [reached_cons, h]
  simp

variable [DecidablePred passes]

theorem decisions_congr {passes' : Value → Prop} [DecidablePred passes']
    (h : ∀ node, passes node ↔ passes' node) (nodes : List Value) :
    shape.decisions passes nodes = shape.decisions passes' nodes := by
  obtain rfl : passes = passes' := funext fun node => propext (h node)
  congr

theorem decisions_nil (h : nodes[i]? = some node) :
    shape.decisions passes nodes (i, []) = if (shape.ruleOf node).isSome then 1 else 0 := by
  simp [decisions, ruleAt?_nil_steps h, reached_nil, ways]

theorem decisionsAgain_nil (h : nodes[i]? = some node) :
    shape.decisionsAgain passes nodes (i, []) =
      if passes node ∧ (shape.ruleOf node).isSome then 1 else 0 := by
  simp [decisionsAgain, ruleAt?_nil_steps h, kept_nil, h, ways, and_comm]

theorem decisionsAgain_cons (h : nodes[i]? = some node) (step : Step) (steps : List Step) :
    shape.decisionsAgain passes nodes (i, step :: steps) =
      if passes node then shape.decisionsInsideAgain passes node (step :: steps) else 0 := by
  simp only [decisionsInsideAgain, decisionsAgain, ruleAt?_cons h, kept_of_node h, ways, List.map_cons, List.prod_cons]
  by_cases hpasses : passes node <;> simp [hpasses]

theorem decisions_cons (h : nodes[i]? = some node) (step : Step) (steps : List Step) :
    shape.decisions passes nodes (i, step :: steps) =
      if passes node then shape.decisionsInside passes node (step :: steps) else 0 := by
  simp only [decisionsInside, decisions, decisionsAgain, ruleAt?_cons h, kept_of_node h, reached_of_node h]
  by_cases hpasses : passes node
  · by_cases hsome : (shape.ruleAt? (shape.childrenAt step.key node) (step.index, steps)).isSome
    · obtain ⟨more, hmore⟩ := Nat.exists_eq_add_one.2
        (List.count_pos_iff.2 (mem_childKeys_of_ruleAt? hsome))
      by_cases hbelow : shape.Kept passes (shape.childrenAt step.key node) step.index steps
      · simp only [hpasses, hsome, hbelow, hbelow.reached, and_self, if_true, ways, List.map_cons,
          List.prod_cons, hmore, Nat.add_sub_cancel]
        ring
      · simp [hpasses, hsome, hbelow]
    · simp [hsome]
  · simp [hpasses]

theorem decisions_of_none (h : nodes[i]? = none) (steps : List Step) :
    shape.decisions passes nodes (i, steps) = 0 := by
  simp [decisions, ruleAt?_of_none h]

theorem decisionsAgain_of_none (h : nodes[i]? = none) (steps : List Step) :
    shape.decisionsAgain passes nodes (i, steps) = 0 := by
  simp [decisionsAgain, ruleAt?_of_none h]

theorem decisionsInside_of_scalar (h : ∀ members, node ≠ .object members) (steps : List Step) :
    shape.decisionsInside passes node steps = 0 := by
  cases steps with
  | nil => rfl
  | cons step steps =>
    rw [decisionsInside, childrenAt_of_scalar h, decisions_of_none rfl, decisionsAgain_of_none rfl,
      Nat.mul_zero]

theorem decisionsInsideAgain_of_scalar (h : ∀ members, node ≠ .object members) (steps : List Step) :
    shape.decisionsInsideAgain passes node steps = 0 := by
  cases steps with
  | nil => rfl
  | cons step steps =>
    rw [decisionsInsideAgain, childrenAt_of_scalar h, decisionsAgain_of_none rfl, Nat.mul_zero]

/-- **Where no key is listed twice**, a rule is looked at once if all widgets above it stay, and not at
all otherwise. -/
theorem decisions_of_nodup (hnodup : shape.childKeys.Nodup) (nodes : List Value) (i : Nat)
    (steps : List Step) :
    shape.decisions passes nodes (i, steps) =
      if (shape.ruleAt? nodes (i, steps)).isSome ∧ shape.Reached passes nodes i steps then 1
      else 0 := by
  induction steps generalizing nodes i with
  | nil =>
    cases hnode : nodes[i]? with
    | none => simp [decisions_of_none hnode, ruleAt?_of_none hnode]
    | some node => simp [decisions_nil hnode, ruleAt?_nil_steps hnode, reached_nil]
  | cons step steps ih =>
    cases hnode : nodes[i]? with
    | none => simp [decisions_of_none hnode, ruleAt?_of_none hnode]
    | some node =>
      have hcount : shape.childKeys.count step.key - 1 = 0 := by
        have := List.nodup_iff_count_le_one.1 hnodup step.key
        omega
      rw [decisions_cons hnode, decisionsInside, ih, hcount, ruleAt?_cons hnode]
      by_cases hpasses : passes node <;> simp [reached_of_node hnode, hpasses]

end Recursion

/-! ## Through the lists of a widget -/

section Keys

/-- How often a list comes up under the keys, counted by the first look and by each further one; a list
that has come up before has had its first look. -/
def looks (done keys : List String) (first further : Nat) (key : String) : Nat :=
  if key ∈ done then keys.count key * further
  else if key ∈ keys then first + (keys.count key - 1) * further
  else 0

theorem looks_cons (done keys : List String) (first further : Nat) (head key : String) :
    looks done (head :: keys) first further key =
      (if key = head then if head ∈ done then further else first else 0) +
        looks (head :: done) keys first further key := by
  by_cases hkey : key = head
  · subst hkey
    by_cases hdone : key ∈ done
    · simp only [looks, hdone, List.mem_cons, true_or, if_true, List.count_cons_self]
      ring
    · simp [looks, hdone]
  · simp [looks, hkey, Ne.symm hkey]

/-- What is known of the pruning of a list: which rules it looks at, the first time and when the list has
been thinned out, and what it leaves. -/
structure Pruned (shape : TreeShape) (p : Value → Bool) (prune : List Value → Tally (List Value))
    (nodes : List Value) : Prop where
  first : Visits (shape.ruleAt? nodes) (shape.decisions (fun v => p v = true) nodes)
    (prune nodes).consulted
  further : shape.Separate →
    Visits (shape.ruleAt? nodes) (shape.decisionsAgain (fun v => p v = true) nodes)
      (prune (shape.thin p nodes)).consulted
  result : shape.Separate → (prune nodes).result = shape.thin p nodes
  result_thin : shape.Separate → (prune (shape.thin p nodes)).result = shape.thin p nodes

theorem consulted_bind {α β : Type} (t : Tally α) (f : α → Tally β) :
    (t >>= f).consulted = t.consulted ++ (f t.result).consulted := rfl

theorem consulted_pure {α : Type} (a : α) : (pure a : Tally α).consulted = [] := rfl

theorem consulted_mapM {α β : Type} (f : α → Tally β) (as : List α) :
    (as.mapM f).consulted = as.flatMap fun a => (f a).consulted := by
  induction as with
  | nil => rfl
  | cons a as ih =>
    rw [List.mapM_cons, consulted_bind, consulted_bind, consulted_pure, ih, List.append_nil,
      List.flatMap_cons]

variable {p : Value → Bool} {prune : List Value → Tally (List Value)}

theorem consulted_pruneMember_of_list {members : List (String × Value)} {key : String}
    {children : List Value} (h : Members.get? key members = some (.array children)) :
    (pruneMember prune members key).consulted = (prune children).consulted := by
  have hbind : pruneMember prune members key = prune children >>= fun kept =>
      pure (Json.Members.put key (.array kept) members) := by
    simp only [pruneMember, h]
  rw [hbind, consulted_bind, consulted_pure, List.append_nil]

theorem consulted_pruneMember_of_no_list {members : List (String × Value)} {key : String}
    (h : ∀ children, Members.get? key members ≠ some (.array children)) :
    (pruneMember prune members key).consulted = [] := by
  unfold pruneMember
  split
  · next children hchildren => exact absurd hchildren (h children)
  · rfl

/-- What is given for the positions under each key of a widget, for the positions inside the widget. -/
def below (times : String → Nat × List Step → Nat) : List Step → Nat
  | [] => 0
  | step :: steps => times step.key (step.index, steps)

/-- Visits under one key of a widget are visits inside the widget. -/
theorem visits_under {node : Value} {key : String} {times : Nat × List Step → Nat}
    {rules : List Value} (h : Visits (shape.ruleAt? (shape.childrenAt key node)) times rules) :
    Visits (shape.ruleWithin? node) (below fun k place => if k = key then times place else 0)
      rules := by
  have hinjective : Function.Injective fun place : Nat × List Step =>
      (⟨key, place.1⟩ :: place.2 : List Step) := by
    rintro ⟨i, steps⟩ ⟨j, others⟩ he
    simpa using he
  refine h.map hinjective _ _ (fun place => rfl) (fun place => if_pos rfl) fun other hother => ?_
  cases other with
  | nil => rfl
  | cons step steps =>
    refine if_neg fun he => hother (step.index, steps) ?_
    rw [← he]

variable {members current : List (String × Value)} {key : String} {done : List String}

/-- What thinning out makes a list was one before. -/
theorem thinChildren_eq_array {v : Value} {children : List Value}
    (h : shape.thinChildren p v = .array children) : ∃ whole, v = .array whole := by
  cases v with
  | array whole => exact ⟨whole, rfl⟩
  | null | bool _ | number _ | string _ | object _ => simp [thinChildren] at h

/-- Where no list is under a key at first, there is none later. -/
theorem no_list_of_no_list
    (hcurrent : Members.get? key current = (Members.get? key members).map
      (if key ∈ done then shape.thinChildren p else id))
    (h : ∀ children, Members.get? key members ≠ some (.array children)) (children : List Value) :
    Members.get? key current ≠ some (.array children) := by
  rw [hcurrent, Ne, Option.map_eq_some_iff]
  rintro ⟨v, hv, hlist⟩
  split at hlist
  · obtain ⟨whole, rfl⟩ := thinChildren_eq_array hlist
    exact h whole hv
  · exact h children (hv.trans (congrArg some hlist))

theorem visits_pruneMember (hkey : key ∈ shape.childKeys)
    (hpruned : ∀ children, Members.get? key members = some (.array children) →
      shape.Pruned p prune children)
    (honce : shape.Separate ∨ key ∉ done)
    (hcurrent : Members.get? key current = (Members.get? key members).map
      (if key ∈ done then shape.thinChildren p else id)) :
    Visits (shape.ruleAt? (shape.childrenAt key (.object members)))
      (if key ∈ done
        then shape.decisionsAgain (fun v => p v = true) (shape.childrenAt key (.object members))
        else shape.decisions (fun v => p v = true) (shape.childrenAt key (.object members)))
      (pruneMember prune current key).consulted := by
  by_cases hlist : ∃ children, Members.get? key members = some (.array children)
  · obtain ⟨children, hchildren⟩ := hlist
    rw [hchildren, Option.map_some] at hcurrent
    rw [childrenAt_of_get? hkey hchildren]
    by_cases hdone : key ∈ done
    · rw [if_pos hdone, thinChildren] at hcurrent
      rw [if_pos hdone, consulted_pruneMember_of_list hcurrent]
      exact (hpruned children hchildren).further (honce.resolve_right fun hnot => hnot hdone)
    · rw [if_neg hdone, id] at hcurrent
      rw [if_neg hdone, consulted_pruneMember_of_list hcurrent]
      exact (hpruned children hchildren).first
  · have hnone := fun children hchildren => hlist ⟨children, hchildren⟩
    rw [consulted_pruneMember_of_no_list (no_list_of_no_list hcurrent hnone),
      childrenAt_of_no_list hnone]
    refine Visits.nil fun place => ?_
    split
    · exact decisionsAgain_of_none rfl place.2
    · exact decisions_of_none rfl place.2

/-- What is under the next key is thinned out afterwards. -/
theorem get?_pruneMember_self (hseparate : shape.Separate)
    (hpruned : ∀ children, Members.get? key members = some (.array children) →
      shape.Pruned p prune children)
    (hcurrent : Members.get? key current = (Members.get? key members).map
      (if key ∈ done then shape.thinChildren p else id)) :
    Members.get? key (pruneMember prune current key).result =
      (Members.get? key members).map (shape.thinChildren p) := by
  by_cases hlist : ∃ children, Members.get? key members = some (.array children)
  · obtain ⟨children, hchildren⟩ := hlist
    have hleft := hpruned children hchildren
    rw [hchildren, Option.map_some] at hcurrent ⊢
    by_cases hdone : key ∈ done
    · rw [if_pos hdone, thinChildren] at hcurrent
      rw [result_pruneMember_of_list hcurrent, Json.Members.get?_put_self, thinChildren,
        hleft.result_thin hseparate]
    · rw [if_neg hdone, id] at hcurrent
      rw [result_pruneMember_of_list hcurrent, Json.Members.get?_put_self, thinChildren,
        hleft.result hseparate]
  · have hnone := fun children hchildren => hlist ⟨children, hchildren⟩
    rw [result_pruneMember_of_no_list (no_list_of_no_list hcurrent hnone), hcurrent]
    refine Option.map_congr fun v hv => ?_
    have hsame : shape.thinChildren p v = v :=
      thinChildren_eq_self shape p fun children he => hnone children (he ▸ hv)
    split
    · rfl
    · exact hsame.symm

/-- **Through the lists of a widget, key by key.** What the keys hold that have come up before is
thinned out, and what the others hold is whole. -/
theorem visits_foldlM {keys : List String} (done : List String) (current : List (String × Value))
    (hkeys : ∀ key ∈ keys, key ∈ shape.childKeys)
    (hpruned : ∀ key ∈ keys, ∀ children, Members.get? key members = some (.array children) →
      shape.Pruned p prune children)
    (honce : shape.Separate ∨ keys.Nodup ∧ ∀ key ∈ keys, key ∉ done)
    (hcurrent : ∀ key ∈ keys, Members.get? key current = (Members.get? key members).map
      (if key ∈ done then shape.thinChildren p else id)) :
    Visits (shape.ruleWithin? (.object members)) (below fun key place => looks done keys
        (shape.decisions (fun v => p v = true) (shape.childrenAt key (.object members)) place)
        (shape.decisionsAgain (fun v => p v = true) (shape.childrenAt key (.object members)) place)
        key)
      (keys.foldlM (pruneMember prune) current).consulted := by
  induction keys generalizing done current with
  | nil =>
    refine Visits.nil fun place => ?_
    cases place <;> simp [below, looks]
  | cons key keys ih =>
    have hmem : key ∈ key :: keys := List.mem_cons_self ..
    have hfirst := visits_under (visits_pruneMember (hkeys key hmem) (hpruned key hmem)
      (honce.imp_right fun h => h.2 key hmem) (hcurrent key hmem))
    have hrest := ih (key :: done) (pruneMember prune current key).result
      (fun k hk => hkeys k (List.mem_cons_of_mem key hk))
      (fun k hk => hpruned k (List.mem_cons_of_mem key hk))
      (honce.imp_right fun h => ⟨(List.nodup_cons.1 h.1).2, fun k hk hdone => ?_⟩)
      fun k hk => ?_
    · rw [List.foldlM_cons, consulted_bind]
      refine (hfirst.append hrest).congr fun place => ?_
      cases place with
      | nil => rfl
      | cons step steps =>
        simp only [below, looks_cons done keys]
        by_cases hkey : step.key = key
        · subst hkey
          by_cases hdone : step.key ∈ done <;> simp only [hdone, if_true, if_false]
        · simp only [hkey, if_false]
    · rcases List.mem_cons.1 hdone with rfl | hdone
      · exact (List.nodup_cons.1 h.1).1 hk
      · exact h.2 k (List.mem_cons_of_mem key hk) hdone
    -- a key comes up again only if it is listed twice, and then it is not the key of rules
    · by_cases hkey : k = key
      · subst hkey
        have hseparate : shape.Separate :=
          honce.resolve_right fun h => (List.nodup_cons.1 h.1).1 hk
        rw [get?_pruneMember_self hseparate (hpruned k hmem) (hcurrent k hmem),
          if_pos (List.mem_cons_self ..)]
      · rw [get?_pruneMember_of_ne hkey, hcurrent k (List.mem_cons_of_mem key hk)]
        simp [hkey]

theorem looks_childKeys {first further : Nat} (h : key ∉ shape.childKeys → first = 0) :
    looks [] shape.childKeys first further key =
      first + (shape.childKeys.count key - 1) * further := by
  by_cases hkey : key ∈ shape.childKeys
  · simp [looks, hkey]
  · simp [looks, hkey, h hkey, List.count_eq_zero.2 hkey]

/-- How often a list comes up under all keys once it has come up before. -/
theorem looks_again {first further : Nat} :
    looks shape.childKeys shape.childKeys first further key = shape.childKeys.count key * further := by
  by_cases hkey : key ∈ shape.childKeys
  · simp [looks, hkey]
  · simp [looks, hkey, List.count_eq_zero.2 hkey]

/-- What is under a child key, taken as a list of widgets. -/
theorem pruned_of_get? {node : List (String × Value)}
    (hpruned : ∀ key, shape.Pruned p prune (shape.childrenAt key (.object node))) :
    ∀ key ∈ shape.childKeys, ∀ children, Members.get? key node = some (.array children) →
      shape.Pruned p prune children := by
  intro key hkey children hchildren
  exact childrenAt_of_get? hkey hchildren ▸ hpruned key

theorem consulted_pruneNode_object (members : List (String × Value)) :
    (shape.pruneNode prune (.object members)).consulted =
      (shape.childKeys.foldlM (pruneMember prune) members).consulted := by
  rw [pruneNode, consulted_bind, consulted_pure, List.append_nil]

theorem visits_pruneNode (hkeys : shape.Separate ∨ shape.childKeys.Nodup) {node : Value}
    (hpruned : ∀ key, shape.Pruned p prune (shape.childrenAt key node)) :
    Visits (shape.ruleWithin? node) (shape.decisionsInside (fun v => p v = true) node)
      (shape.pruneNode prune node).consulted := by
  cases node with
  | object members =>
    rw [consulted_pruneNode_object]
    refine (visits_foldlM [] members (fun _ hkey => hkey) (pruned_of_get? hpruned)
      (hkeys.imp_right fun h => ⟨h, fun _ _ => List.not_mem_nil⟩) fun key _ => ?_).congr fun place => ?_
    · simp
    · cases place with
      | nil => rfl
      | cons step steps =>
        refine looks_childKeys fun hkey => ?_
        rw [childrenAt_of_notMem hkey]
        exact decisions_of_none rfl _
  | null | bool _ | number _ | string _ | array _ =>
    exact Visits.nil (decisionsInside_of_scalar fun _ he => by cases he)

theorem visits_pruneNode_thinNode (hseparate : shape.Separate) {node : Value}
    (hpruned : ∀ key, shape.Pruned p prune (shape.childrenAt key node)) :
    Visits (shape.ruleWithin? node) (shape.decisionsInsideAgain (fun v => p v = true) node)
      (shape.pruneNode prune (shape.thinNode p node)).consulted := by
  cases node with
  | object members =>
    rw [thinNode_object, consulted_pruneNode_object]
    refine (visits_foldlM shape.childKeys _ (fun _ hkey => hkey) (pruned_of_get? hpruned)
      (.inl hseparate) fun key hkey => ?_).congr fun place => ?_
    · rw [get?_thinned, if_pos hkey]
      refine Option.map_congr fun v _ => if_pos hkey
    · cases place with
      | nil => rfl
      | cons step steps => exact looks_again
  | null | bool _ | number _ | string _ | array _ =>
    rw [thinNode]
    exact Visits.nil (decisionsInsideAgain_of_scalar fun _ he => by cases he)

end Keys

/-! ## Through a page -/

section Page

variable {p : Value → Bool} {look : Value → List Value} {nodes : List Value}

theorem visits_first {node : Value} {times : List Step → Nat} {rules : List Value}
    (h : Visits (shape.ruleWithin? node) times rules) : Visits (shape.ruleAt? (node :: nodes))
      (fun
        | (0, steps) => times steps
        | (_ + 1, _) => 0)
      rules := by
  have hinjective : Function.Injective fun steps : List Step => ((0, steps) : Nat × List Step) :=
    fun steps others he => by simpa using he
  refine h.map hinjective _ _ (fun steps => ?_) (fun steps => rfl) fun other hother => ?_
  · rw [ruleAt?_eq]
    rfl
  · obtain ⟨_ | i, steps⟩ := other
    · exact absurd rfl (hother steps)
    · rfl

theorem visits_later {node : Value} {times : Nat × List Step → Nat} {rules : List Value}
    (h : Visits (shape.ruleAt? nodes) times rules) : Visits (shape.ruleAt? (node :: nodes))
      (fun
        | (0, _) => 0
        | (i + 1, steps) => times (i, steps))
      rules := by
  have hinjective : Function.Injective fun place : Nat × List Step => (place.1 + 1, place.2) :=
    fun place other he => by simpa [Prod.ext_iff] using he
  refine h.map hinjective _ _ (fun place => ?_) (fun place => rfl) fun other hother => ?_
  · rw [ruleAt?_eq, ruleAt?_eq]
    rfl
  · obtain ⟨_ | i, steps⟩ := other
    · rfl
    · exact absurd rfl (hother (i, steps))

theorem visits_flatMap {times : Value → List Step → Nat}
    (h : ∀ node ∈ nodes, p node = true → Visits (shape.ruleWithin? node) (times node) (look node)) :
    Visits (shape.ruleAt? nodes)
      (fun place => nodes[place.1]?.elim 0 fun node => if p node then times node place.2 else 0)
      ((nodes.filter p).flatMap look) := by
  induction nodes with
  | nil => exact Visits.nil fun place => by simp
  | cons node nodes ih =>
    have hlater : Visits (shape.ruleAt? (node :: nodes)) _ ((nodes.filter p).flatMap look) :=
      visits_later (ih fun v hv => h v (List.mem_cons_of_mem node hv))
    by_cases hp : p node = true
    · rw [List.filter_cons_of_pos hp, List.flatMap_cons]
      refine ((visits_first (h node (List.mem_cons_self ..) hp)).append hlater).congr fun place => ?_
      obtain ⟨_ | i, steps⟩ := place <;> simp [hp]
    · rw [List.filter_cons_of_neg hp]
      refine hlater.congr fun place => ?_
      obtain ⟨_ | i, steps⟩ := place <;> simp [hp]

theorem visits_ruleOf (node : Value) :
    Visits (shape.ruleWithin? node)
      (fun steps => if steps = [] ∧ (shape.ruleOf node).isSome then 1 else 0)
      (shape.ruleOf node).toList := by
  cases hrule : shape.ruleOf node with
  | none => exact Visits.nil fun place => by simp
  | some rule =>
    have hhere : shape.ruleWithin? node [] = some rule := hrule
    exact (Visits.one hhere).congr fun place => by simp

/-- The looks at the rules of the widgets of one level, and the looks inside those that stay. -/
theorem visits_level
    (h : ∀ node ∈ nodes, p node = true → Visits (shape.ruleWithin? node)
      (shape.decisionsInside (fun v => p v = true) node) (look node)) :
    Visits (shape.ruleAt? nodes) (shape.decisions (fun v => p v = true) nodes)
      (nodes.filterMap shape.ruleOf ++ (nodes.filter p).flatMap look) := by
  have hrules : nodes.filterMap shape.ruleOf =
      (nodes.filter fun _ => true).flatMap fun node => (shape.ruleOf node).toList := by
    rw [List.filter_true, List.filterMap_eq_flatMap_toList]
  rw [hrules]
  refine ((visits_flatMap fun node _ _ => visits_ruleOf node).append (visits_flatMap h)).congr ?_
  rintro ⟨i, steps⟩
  cases hnode : nodes[i]? with
  | none => simp [decisions_of_none hnode]
  | some node =>
    cases steps with
    | nil => simp [decisions_nil hnode, decisionsInside]
    | cons step steps => simp [decisions_cons hnode]

/-- The same for a level that has been thinned out. -/
theorem visits_level_thin (hseparate : shape.Separate)
    (h : ∀ node ∈ nodes, p node = true → Visits (shape.ruleWithin? node)
      (shape.decisionsInsideAgain (fun v => p v = true) node) (look (shape.thinNode p node))) :
    Visits (shape.ruleAt? nodes) (shape.decisionsAgain (fun v => p v = true) nodes)
      ((shape.thin p nodes).filterMap shape.ruleOf ++ (shape.thin p nodes).flatMap look) := by
  have hrules : (shape.thin p nodes).filterMap shape.ruleOf =
      (nodes.filter p).flatMap fun node => (shape.ruleOf node).toList := by
    rw [thin_eq_map, List.filterMap_eq_flatMap_toList, List.flatMap_map]
    simp only [ruleOf_thinNode hseparate]
  rw [hrules, thin_eq_map, List.flatMap_map]
  refine ((visits_flatMap fun node _ _ => visits_ruleOf node).append (visits_flatMap h)).congr ?_
  rintro ⟨i, steps⟩
  cases hnode : nodes[i]? with
  | none => simp [decisionsAgain_of_none hnode]
  | some node =>
    cases steps with
    | nil => by_cases hp : p node <;> simp [decisionsAgain_nil hnode, decisionsInsideAgain, hp]
    | cons step steps => simp [decisionsAgain_cons hnode]

end Page

/-! ## All levels -/

variable {allows : Value → Bool}

theorem consulted_level (nodes : List Value) :
    (shape.level allows nodes).consulted = nodes.filterMap shape.ruleOf := rfl

theorem consulted_pruneLevels_succ (depth : Nat) (nodes : List Value) :
    (shape.pruneLevels allows (depth + 1) nodes).consulted = nodes.filterMap shape.ruleOf ++
      (nodes.filter (shape.admits allows)).flatMap fun node =>
        (shape.pruneNode (shape.pruneLevels allows depth) node).consulted := by
  rw [pruneLevels, consulted_bind, consulted_level, result_level, consulted_mapM]

theorem fits_childrenAt {node : Value} {depth : Nat} (h : node.Fits (depth + 1)) (key : String) :
    ∀ child ∈ shape.childrenAt key node, child.Fits depth := by
  rcases shape.childrenAt_cases key node with hnone | ⟨members, rfl, hchildren⟩
  · simp [hnone]
  · exact ((h.members).2 _ (Json.Members.mem_of_get?_eq_some hchildren)).items

/-- Nothing stands in a widget that holds no other value. -/
theorem ne_object_of_fits_zero {node : Value} (h : node.Fits 0) (members : List (String × Value)) :
    node ≠ .object members := by
  rintro rfl
  exact Nat.not_succ_le_zero _ h.2

theorem fits_thin {p : Value → Bool} {nodes : List Value} {depth : Nat}
    (h : ∀ node ∈ nodes, node.Fits depth) : ∀ node ∈ shape.thin p nodes, node.Fits depth := by
  intro v hv
  rw [thin_eq_map] at hv
  obtain ⟨node, hnode, rfl⟩ := List.mem_map.1 hv
  exact (fits_thinNode node depth (h node (List.mem_of_mem_filter hnode))).1

/-- All widgets that are left pass the test. -/
theorem filter_thin (h : shape.Separate) (nodes : List Value) :
    (shape.thin (shape.admits allows) nodes).filter (shape.admits allows) =
      shape.thin (shape.admits allows) nodes := by
  have hagain := thin_thin (admits_thinNode h allows) nodes
  exact List.filter_eq_self.2 fun node hnode => (thin_eq_self_iff.1 hagain node hnode).1

theorem consulted_pruneLevels_zero (nodes : List Value) :
    (shape.pruneLevels allows 0 nodes).consulted = nodes.filterMap shape.ruleOf ++
      (nodes.filter (shape.admits allows)).flatMap fun _ => [] := by
  simp [pruneLevels, consulted_level]

/-- What pruning does with a list of widgets, the first time and each further time. -/
theorem pruned_pruneLevels (hkeys : shape.Separate ∨ shape.childKeys.Nodup) (depth : Nat)
    {nodes : List Value} (hnodes : ∀ node ∈ nodes, node.Fits depth) :
    shape.Pruned (shape.admits allows) (shape.pruneLevels allows depth) nodes := by
  induction depth generalizing nodes with
  | zero =>
    have hscalar : ∀ node ∈ nodes, ∀ members, node ≠ .object members :=
      fun node hnode => ne_object_of_fits_zero (hnodes node hnode)
    refine ⟨?_, fun h => ?_, fun h => result_pruneLevels h 0 hnodes, fun h => ?_⟩
    · rw [consulted_pruneLevels_zero]
      exact visits_level fun node hnode _ => Visits.nil (decisionsInside_of_scalar (hscalar node hnode))
    · rw [consulted_pruneLevels_zero, filter_thin h]
      exact visits_level_thin h fun node hnode _ =>
        Visits.nil (decisionsInsideAgain_of_scalar (hscalar node hnode))
    · rw [result_pruneLevels h 0 (fits_thin hnodes), thin_thin (admits_thinNode h allows)]
  | succ depth ih =>
    have hinside : ∀ node ∈ nodes, ∀ key, shape.Pruned (shape.admits allows)
        (shape.pruneLevels allows depth) (shape.childrenAt key node) :=
      fun node hnode key => ih (fits_childrenAt (hnodes node hnode) key)
    refine ⟨?_, fun h => ?_, fun h => result_pruneLevels h _ hnodes, fun h => ?_⟩
    · rw [consulted_pruneLevels_succ]
      exact visits_level fun node hnode _ => visits_pruneNode hkeys (hinside node hnode)
    · rw [consulted_pruneLevels_succ, filter_thin h]
      exact visits_level_thin h fun node hnode _ =>
        visits_pruneNode_thinNode h (hinside node hnode)
    · rw [result_pruneLevels h _ (fits_thin hnodes), thin_thin (admits_thinNode h allows)]

/-- **The rules that pruning looks at** stand at positions of the page, and each position comes up as
often as its decisions say. -/
theorem visits_prune (hkeys : shape.Separate ∨ shape.childKeys.Nodup) {nodes : List Value}
    {depth : Nat} (hnodes : ∀ node ∈ nodes, node.Fits depth) :
    Visits (shape.ruleAt? nodes) (shape.decisions (fun v => shape.admits allows v = true) nodes)
      (shape.prune allows nodes).consulted :=
  (pruned_pruneLevels hkeys _ (Value.fits_itemsDepth hnodes)).first

end TreeShape

end ContentVisibility
