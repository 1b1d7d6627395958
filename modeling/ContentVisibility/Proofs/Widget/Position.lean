import ContentVisibility.Proofs.Widget.Thinned

/-!
# Positions in a page

A widget stands at a top-level index of the page, or is reached from such a widget by steps, each to
an index of the list under a child key. A page is cut down by saying which positions to keep.

* `Step`, `TreeShape.nodeAt?`: a step, and the widget at a position;
* `TreeShape.Kept`: the widget at a position and those above it pass a test;
* `TreeShape.cut`: a page without the positions that are not kept;
* `cut_kept`: thinning out a page cuts away exactly the positions that are not kept;
* `admits_iff`: the test that pruning makes, in terms of the member that holds the rule.
-/

namespace ContentVisibility

open Json (Value Members.get?)

/-- The value of a member, if it is an object that has it. -/
def Json.Value.member? (key : String) : Value → Option Value
  | .object members => Members.get? key members
  | _ => none

/-- A step from a widget to one of the widgets inside it. -/
structure Step where
  key : String
  index : Nat
  deriving DecidableEq, Repr

namespace TreeShape

variable (shape : TreeShape)

/-! ## Positions -/

/-- The widgets inside a widget under a key. -/
def childrenAt (key : String) (node : Value) : List Value :=
  if key ∈ shape.childKeys then
    match node.member? key with
    | some (.array children) => children
    | _ => []
  else []

/-- The widget at a position: an index of the page, and the steps from there. -/
def nodeAt? : List Value → Nat → List Step → Option Value
  | nodes, i, [] => nodes[i]?
  | nodes, i, step :: steps =>
    nodes[i]?.bind fun node => nodeAt? (shape.childrenAt step.key node) step.index steps

/-- The widget at the position, and the widget at each position above it, passes. -/
def Kept (passes : Value → Prop) (nodes : List Value) (i : Nat) (steps : List Step) : Prop :=
  ∀ k ≤ steps.length, ∃ node ∈ shape.nodeAt? nodes i (steps.take k), passes node

instance (passes : Value → Prop) [DecidablePred passes] (nodes : List Value) (i : Nat)
    (steps : List Step) : Decidable (shape.Kept passes nodes i steps) :=
  inferInstanceAs (Decidable (∀ k ≤ steps.length,
    ∃ node ∈ shape.nodeAt? nodes i (steps.take k), passes node))

mutual

/-- The page without the positions that are not kept; nothing else changes. -/
def cut (keep : Nat → List Step → Bool) : List Value → List Value
  | [] => []
  | node :: nodes =>
    if keep 0 [] then cutNode (keep 0) node :: cut (fun i => keep (i + 1)) nodes
    else cut (fun i => keep (i + 1)) nodes

/-- A widget without the positions inside it that are not kept. -/
def cutNode (keep : List Step → Bool) : Value → Value
  | .object members => .object (cutMembers keep members)
  | .null => .null
  | .bool b => .bool b
  | .number n => .number n
  | .string s => .string s
  | .array items => .array items

/-- The members of a widget without the positions that are not kept. -/
def cutMembers (keep : List Step → Bool) : List (String × Value) → List (String × Value)
  | [] => []
  | (key, value) :: members =>
    (key, if key ∈ shape.childKeys then cutChildren (fun i steps => keep (⟨key, i⟩ :: steps)) value
      else value) :: cutMembers keep members

/-- The value under a child key without the positions that are not kept. -/
def cutChildren (keep : Nat → List Step → Bool) : Value → Value
  | .array children => .array (cut keep children)
  | .null => .null
  | .bool b => .bool b
  | .number n => .number n
  | .string s => .string s
  | .object members => .object members

end

/-! ## From a position to the next -/

variable {shape} {passes : Value → Prop}

theorem kept_nil {nodes : List Value} {i : Nat} :
    shape.Kept passes nodes i [] ↔ ∃ node ∈ nodes[i]?, passes node := by
  simp [Kept, nodeAt?]

theorem kept_cons {nodes : List Value} {i : Nat} {step : Step} {steps : List Step} :
    shape.Kept passes nodes i (step :: steps) ↔
      ∃ node ∈ nodes[i]?, passes node ∧
        shape.Kept passes (shape.childrenAt step.key node) step.index steps := by
  constructor
  · intro h
    obtain ⟨node, hnode, hpasses⟩ := h 0 (Nat.zero_le _)
    refine ⟨node, hnode, hpasses, fun k hk => ?_⟩
    have hstep := h (k + 1) (Nat.succ_le_succ hk)
    rw [List.take_succ_cons, nodeAt?, show nodes[i]? = some node from hnode] at hstep
    exact hstep
  · rintro ⟨node, hnode, hpasses, hbelow⟩ k hk
    cases k with
    | zero => exact ⟨node, hnode, hpasses⟩
    | succ k =>
      rw [List.take_succ_cons, nodeAt?, show nodes[i]? = some node from hnode]
      exact hbelow k (Nat.le_of_succ_le_succ hk)

/-- Below a widget that passes, only the widgets inside it matter. -/
theorem kept_step {node : Value} (h : passes node) {nodes : List Value} {i : Nat} {step : Step}
    {steps : List Step} (hnode : nodes[i]? = some node) :
    shape.Kept passes nodes i (step :: steps) ↔
      shape.Kept passes (shape.childrenAt step.key node) step.index steps := by
  rw [kept_cons, hnode]
  simp [h]

theorem kept_succ {node : Value} {nodes : List Value} {i : Nat} {steps : List Step} :
    shape.Kept passes (node :: nodes) (i + 1) steps ↔ shape.Kept passes nodes i steps := by
  cases steps with
  | nil => simp [kept_nil]
  | cons step steps => simp [kept_cons]

theorem childrenAt_of_get? {members : List (String × Value)} {key : String} {children : List Value}
    (hkey : key ∈ shape.childKeys) (h : Members.get? key members = some (.array children)) :
    shape.childrenAt key (.object members) = children := by
  simp [childrenAt, hkey, Value.member?, h]

theorem childrenAt_of_mem {members : List (String × Value)} {key : String} {children : List Value}
    (hnodup : (members.map Prod.fst).Nodup) (hm : (key, .array children) ∈ members)
    (hkey : key ∈ shape.childKeys) : shape.childrenAt key (.object members) = children :=
  childrenAt_of_get? hkey (Json.Members.get?_eq_some_of_mem hnodup hm)

/-! ## Cutting away what is not kept -/

variable [DecidablePred passes]

theorem cut_eq_thin {nodes : List Value}
    (h : ∀ node ∈ nodes, ∀ keep : List Step → Bool,
      (∀ step steps, keep (step :: steps) =
        decide (shape.Kept passes (shape.childrenAt step.key node) step.index steps)) →
      shape.cutNode keep node = shape.thinNode (fun v => decide (passes v)) node) :
    shape.cut (fun i steps => decide (shape.Kept passes nodes i steps)) nodes =
      shape.thin (fun v => decide (passes v)) nodes := by
  induction nodes with
  | nil => simp [cut, thin]
  | cons node nodes ih =>
    have hrest := ih fun v hv => h v (List.mem_cons_of_mem node hv)
    have htail : (fun i steps => decide (shape.Kept passes (node :: nodes) (i + 1) steps)) =
        fun i steps => decide (shape.Kept passes nodes i steps) := by
      funext i steps
      rw [decide_eq_decide]
      exact kept_succ
    have hhead : shape.Kept passes (node :: nodes) 0 [] ↔ passes node := by
      simp [kept_nil]
    rw [cut, thin, htail, hrest]
    by_cases hp : passes node
    · have hnode := h node (List.mem_cons_self ..)
        (fun steps => decide (shape.Kept passes (node :: nodes) 0 steps)) fun step steps => by
          rw [decide_eq_decide]
          exact kept_step hp rfl
      simp only [hhead, hp, decide_true, if_true, hnode]
    · simp only [hhead, hp, decide_false, Bool.false_eq_true, if_false]

/-- Inside a widget that is kept, cutting and thinning out are the same. -/
theorem cutNode_eq_thinNode (v : Value) : v.WellFormed →
    (∀ keep : List Step → Bool, (∀ step steps, keep (step :: steps) =
        decide (shape.Kept passes (shape.childrenAt step.key v) step.index steps)) →
      shape.cutNode keep v = shape.thinNode (fun v => decide (passes v)) v) ∧
    (∀ children, v = .array children →
      shape.cut (fun i steps => decide (shape.Kept passes children i steps)) children =
        shape.thin (fun v => decide (passes v)) children) := by
  induction v using Value.ind with
  | null | bool _ | number _ | string _ => simp [cutNode, thinNode]
  | array items ih =>
    intro hwf
    rw [Value.WellFormed, Value.wellFormedItems_iff] at hwf
    refine ⟨fun keep _ => by rw [cutNode, thinNode], ?_⟩
    rintro children ⟨⟩
    exact cut_eq_thin fun node hm => (ih node hm (hwf node hm)).1
  | object members ih =>
    rintro ⟨hnodup, -, hwf⟩
    rw [Value.wellFormedMembers_iff] at hwf
    refine ⟨fun keep hkeep => ?_, by simp⟩
    rw [cutNode, thinNode]
    congr 1
    -- the members are cut one by one, each a member of the whole object
    suffices hsub : ∀ some ⊆ members, shape.cutMembers keep some =
        shape.thinMembers (fun v => decide (passes v)) some from hsub members fun _ hm => hm
    intro some hsome
    induction some with
    | nil => simp [cutMembers, thinMembers]
    | cons m some ihs =>
      obtain ⟨key, value⟩ := m
      have hm := hsome (List.mem_cons_self ..)
      rw [cutMembers, thinMembers, ihs fun n hn => hsome (List.mem_cons_of_mem _ hn)]
      congr 2
      by_cases hkey : key ∈ shape.childKeys
      · rw [if_pos hkey, if_pos hkey]
        cases value with
        | array children =>
          have hchildren := (ih (key, .array children) hm (hwf _ hm)).2 children rfl
          have hkept : (fun i steps => keep (⟨key, i⟩ :: steps)) =
              fun i steps => decide (shape.Kept passes children i steps) := by
            funext i steps
            rw [hkeep, childrenAt_of_mem hnodup hm hkey]
          rw [cutChildren, thinChildren, hkept, hchildren]
        | null | bool _ | number _ | string _ | object _ => simp [cutChildren, thinChildren]
      · rw [if_neg hkey, if_neg hkey]

/-- **Thinning out a page cuts away exactly the positions that are not kept.** -/
theorem cut_kept {nodes : List Value} (h : ∀ node ∈ nodes, node.WellFormed) :
    shape.cut (fun i steps => decide (shape.Kept passes nodes i steps)) nodes =
      shape.thin (fun v => decide (passes v)) nodes :=
  cut_eq_thin fun node hm => (cutNode_eq_thinNode node (h node hm)).1

/-! ## The rule of a widget -/

theorem ruleOf_eq_some_iff {node rule : Value} :
    shape.ruleOf node = some rule ↔ node.member? shape.visibilityKey = some rule ∧ rule ≠ .null := by
  cases node with
  | null | bool _ | number _ | string _ | array _ => simp [ruleOf, Value.member?]
  | object members =>
    rw [ruleOf, Value.member?]
    rcases Members.get? shape.visibilityKey members with _ | value
    · simp
    · cases value with
      | null =>
        constructor
        · intro h
          cases h
        · rintro ⟨h, hnull⟩
          exact absurd (Option.some.inj h).symm hnull
      | bool _ | number _ | string _ | array _ | object _ =>
        constructor
        · intro h
          exact ⟨h, by cases h; simp⟩
        · exact fun h => h.1

theorem admits_iff {allows : Value → Bool} {node : Value} :
    shape.admits allows node = true ↔
      ∀ rule ∈ node.member? shape.visibilityKey, rule = .null ∨ allows rule = true := by
  rw [admits, Option.all_eq_true]
  constructor
  · intro h rule hrule
    by_cases hnull : rule = .null
    · exact .inl hnull
    · exact .inr (h rule (ruleOf_eq_some_iff.2 ⟨hrule, hnull⟩))
  · intro h rule hrule
    obtain ⟨hmember, hnull⟩ := ruleOf_eq_some_iff.1 hrule
    exact (h rule hmember).resolve_left hnull

end TreeShape

end ContentVisibility
