import ContentVisibility.Proofs.Widget.Position

/-!
# Pruning as passes over positions

A child key that is listed twice makes pruning go through the same list twice, and the list may hold a
rule if the rule stands under a child key. So a widget may be tested again when its rule has lost
something. Here pruning is described by the positions that are left, for tree shapes of any kind.

* `TreeShape.keepLevels`: the positions that are left by pruning a page of which some are left;
* `prune_eq_cut`: pruning cuts away the other positions;
* `Sturdier`: a test that stays passed where a stricter one is;
* `keepLevels_le`: what a stricter test leaves the sturdier one leaves as well.
-/

namespace ContentVisibility.TreeShape

open Json (Value Members.get? Members.put)

variable (shape : TreeShape)

/-! ## The positions that are left -/

/-- Test the widgets of one level, as far as they are left. -/
def keepLevel (allows : Value → Bool) (keep : Nat → List Step → Bool) (nodes : List Value) :
    Nat → List Step → Bool
  | i, [] => keep i [] && nodes[i]?.all fun node => shape.admits allows (shape.cutNode (keep i) node)
  | i, step :: steps => keep i (step :: steps)

/-- Go through the widgets under a key. -/
def keepUnder (pass : (Nat → List Step → Bool) → List Value → Nat → List Step → Bool) (node : Value)
    (keep : List Step → Bool) (key : String) : List Step → Bool
  | [] => keep []
  | step :: steps =>
    if step.key = key then
      pass (fun i more => keep (⟨key, i⟩ :: more)) (shape.childrenAt key node) step.index steps
    else keep (step :: steps)

/-- Go through the widgets inside a widget, key by key. -/
def keepNode (pass : (Nat → List Step → Bool) → List Value → Nat → List Step → Bool) (node : Value)
    (keep : List Step → Bool) : List Step → Bool :=
  shape.childKeys.foldl (shape.keepUnder pass node) keep

/-- Go through the first `depth + 1` levels. -/
def keepLevels (allows : Value → Bool) :
    Nat → (Nat → List Step → Bool) → List Value → Nat → List Step → Bool
  | 0, keep, nodes => shape.keepLevel allows keep nodes
  | depth + 1, keep, nodes => fun i =>
    match nodes[i]? with
    | some node =>
      shape.keepNode (keepLevels allows depth) node (shape.keepLevel allows keep nodes i)
    | none => shape.keepLevel allows keep nodes i

/-! ## Cutting by what is left -/

/-- The value of a member without the positions inside it that are not kept. -/
def cutMember (keep : List Step → Bool) (key : String) (value : Value) : Value :=
  if key ∈ shape.childKeys then shape.cutChildren (fun i steps => keep (⟨key, i⟩ :: steps)) value
  else value

theorem cutMembers_eq_map (keep : List Step → Bool) (members : List (String × Value)) :
    shape.cutMembers keep members = members.map fun m => (m.1, shape.cutMember keep m.1 m.2) := by
  induction members with
  | nil => simp [cutMembers]
  | cons m members ih => simp [cutMembers, cutMember, ih]

theorem cutChildren_eq_self (keep : Nat → List Step → Bool) {v : Value}
    (h : ∀ children, v ≠ .array children) : shape.cutChildren keep v = v := by
  cases v with
  | array children => exact absurd rfl (h children)
  | null | bool _ | number _ | string _ | object _ => simp [cutChildren]

theorem cutNode_eq_self (keep : List Step → Bool) {v : Value} (h : ∀ members, v ≠ .object members) :
    shape.cutNode keep v = v := by
  cases v with
  | object members => exact absurd rfl (h members)
  | null | bool _ | number _ | string _ | array _ => simp [cutNode]

theorem ruleOf_cutNode (keep : List Step → Bool) (node : Value) :
    shape.ruleOf (shape.cutNode keep node) =
      (shape.ruleOf node).map (shape.cutMember keep shape.visibilityKey) := by
  cases node with
  | null | bool _ | number _ | string _ | array _ => simp [cutNode, ruleOf]
  | object members =>
    have hget := Json.Members.get?_map shape.visibilityKey (shape.cutMember keep) members
    rw [cutNode, cutMembers_eq_map, ruleOf, hget, ruleOf]
    rcases Members.get? shape.visibilityKey members with _ | rule
    · rfl
    · by_cases hkey : shape.visibilityKey ∈ shape.childKeys <;>
        cases rule <;> simp [cutMember, hkey, cutChildren]

variable {shape}

/-- Only the positions inside a widget matter for it. -/
theorem cutNode_congr {keep keep' : List Step → Bool}
    (h : ∀ step steps, keep (step :: steps) = keep' (step :: steps)) (v : Value) :
    shape.cutNode keep v = shape.cutNode keep' v := by
  have hmember : shape.cutMember keep = shape.cutMember keep' := by
    funext key value
    simp only [cutMember, h]
  cases v with
  | object members => rw [cutNode, cutNode, cutMembers_eq_map, cutMembers_eq_map, hmember]
  | null | bool _ | number _ | string _ | array _ => simp [cutNode]

theorem cutNode_true (v : Value) :
    shape.cutNode (fun _ => true) v = v ∧ shape.cutChildren (fun _ _ => true) v = v := by
  induction v using Value.ind with
  | null | bool _ | number _ | string _ => simp [cutNode, cutChildren]
  | array items ih =>
    refine ⟨by simp [cutNode], ?_⟩
    rw [cutChildren]
    congr 1
    induction items with
    | nil => simp [cut]
    | cons item items ihitems =>
      have hrest := ihitems fun v hv => ih v (List.mem_cons_of_mem item hv)
      rw [cut, if_pos rfl, (ih item (List.mem_cons_self ..)).1, hrest]
  | object members ih =>
    refine ⟨?_, by simp [cutChildren]⟩
    have hmember : ∀ m ∈ members, (m.1, shape.cutMember (fun _ => true) m.1 m.2) = m := by
      intro m hm
      unfold cutMember
      split
      · rw [(ih m hm).2]
      · rfl
    rw [cutNode, cutMembers_eq_map, List.map_congr_left hmember, List.map_id']

theorem cut_true (nodes : List Value) : shape.cut (fun _ _ => true) nodes = nodes := by
  have h : shape.cutChildren (fun _ _ => true) (.array nodes) = .array nodes :=
    (cutNode_true (.array nodes)).2
  rw [cutChildren] at h
  exact Value.array.inj h

theorem mem_cut {keep : Nat → List Step → Bool} {nodes : List Value} {v : Value} :
    v ∈ shape.cut keep nodes ↔
      ∃ i node, nodes[i]? = some node ∧ keep i [] = true ∧ v = shape.cutNode (keep i) node := by
  induction nodes generalizing keep with
  | nil => simp [cut]
  | cons first nodes ih =>
    have hsplit : (∃ i node, (first :: nodes)[i]? = some node ∧ keep i [] = true ∧
          v = shape.cutNode (keep i) node) ↔
        (keep 0 [] = true ∧ v = shape.cutNode (keep 0) first) ∨
          v ∈ shape.cut (fun i => keep (i + 1)) nodes := by
      rw [ih]
      constructor
      · rintro ⟨_ | i, node, hnode, hkeep, hv⟩
        · cases hnode
          exact .inl ⟨hkeep, hv⟩
        · exact .inr ⟨i, node, hnode, hkeep, hv⟩
      · rintro (⟨hkeep, hv⟩ | ⟨i, node, hnode, hkeep, hv⟩)
        · exact ⟨0, first, rfl, hkeep, hv⟩
        · exact ⟨i + 1, node, hnode, hkeep, hv⟩
    rw [hsplit, cut]
    cases hkeep : keep 0 [] <;> simp

theorem eq_cutNode_of_cut_singleton {keep : Nat → List Step → Bool} {v w : Value}
    (h : shape.cut keep [v] = [w]) : w = shape.cutNode (keep 0) v := by
  rw [cut, cut] at h
  split at h
  · exact (List.cons.inj h).1.symm
  · cases h

variable {allows : Value → Bool}

theorem filter_cut (keep : Nat → List Step → Bool) (nodes : List Value) :
    (shape.cut keep nodes).filter (shape.admits allows) =
      shape.cut (shape.keepLevel allows keep nodes) nodes := by
  induction nodes generalizing keep with
  | nil => simp [cut]
  | cons node nodes ih =>
    have htail : (fun i => shape.keepLevel allows keep (node :: nodes) (i + 1)) =
        shape.keepLevel allows (fun i => keep (i + 1)) nodes := by
      funext i steps
      cases steps <;> simp [keepLevel]
    have hnode : shape.cutNode (shape.keepLevel allows keep (node :: nodes) 0) node =
        shape.cutNode (keep 0) node := by
      refine cutNode_congr (fun step steps => ?_) node
      rfl
    have hhead : shape.keepLevel allows keep (node :: nodes) 0 [] =
        (keep 0 [] && shape.admits allows (shape.cutNode (keep 0) node)) := by
      simp [keepLevel]
    rw [cut, cut, htail, hnode, hhead, ← ih]
    cases hkeep : keep 0 [] with
    | false => simp
    | true =>
      cases hadmits : shape.admits allows (shape.cutNode (keep 0) node) with
      | false => simp [hadmits]
      | true => simp [hadmits]

section Node

variable {prune : List Value → Tally (List Value)}
  {pass : (Nat → List Step → Bool) → List Value → Nat → List Step → Bool}

theorem result_pruneMember_of_list {members : List (String × Value)} {key : String}
    {children : List Value} (h : Members.get? key members = some (.array children)) :
    (pruneMember prune members key).result =
      Members.put key (.array (prune children).result) members := by
  simp only [pruneMember, h]
  rfl

theorem result_pruneMember_of_no_list {members : List (String × Value)} {key : String}
    (h : ∀ children, Members.get? key members ≠ some (.array children)) :
    (pruneMember prune members key).result = members := by
  unfold pruneMember
  split
  · next children hchildren => exact absurd hchildren (h children)
  · rfl

/-- Going through the positions under one key changes nothing under another. -/
theorem cutMember_keepUnder_of_ne (node : Value) (keep : List Step → Bool) {key other : String}
    (h : other ≠ key) (value : Value) :
    shape.cutMember (shape.keepUnder pass node keep key) other value =
      shape.cutMember keep other value := by
  simp only [cutMember, keepUnder, h, if_false]

/-- Pruning under one key leaves what going through the positions under the key leaves. -/
theorem result_pruneMember_cutMembers {members : List (String × Value)}
    (hnodup : (members.map Prod.fst).Nodup)
    (h : ∀ keep key children, (key, Value.array children) ∈ members →
      (prune (shape.cut keep children)).result = shape.cut (pass keep children) children)
    {key : String} (hkey : key ∈ shape.childKeys) (keep : List Step → Bool) :
    (pruneMember prune (shape.cutMembers keep members) key).result =
      shape.cutMembers (shape.keepUnder pass (.object members) keep key) members := by
  have hget := Json.Members.get?_map key (shape.cutMember keep) members
  rw [cutMembers_eq_map, cutMembers_eq_map]
  by_cases hlist : ∃ children, Members.get? key members = some (.array children)
  · obtain ⟨children, hchildren⟩ := hlist
    have hm := Json.Members.mem_of_get?_eq_some hchildren
    have hat : shape.childrenAt key (.object members) = children :=
      childrenAt_of_mem hnodup hm hkey
    have hcut : Members.get? key (members.map fun m => (m.1, shape.cutMember keep m.1 m.2)) =
        some (.array (shape.cut (fun i steps => keep (⟨key, i⟩ :: steps)) children)) := by
      rw [hget, hchildren, Option.map_some, cutMember, if_pos hkey, cutChildren]
    rw [result_pruneMember_of_list hcut, h _ key children hm,
      Json.Members.put_eq_map (by rw [List.map_map]; exact hnodup) hcut, List.map_map]
    refine List.map_congr_left fun m hmem => ?_
    by_cases hk : m.1 = key
    · have hvalue : m.2 = .array children := by
        have := Json.Members.get?_eq_some_of_mem hnodup hmem
        rw [hk, hchildren] at this
        exact (Option.some.inj this).symm
      simp only [Function.comp_apply, hk, if_true, hvalue, cutMember, if_pos hkey, cutChildren,
        keepUnder, hat]
    · simp only [Function.comp_apply, hk, if_false, cutMember_keepUnder_of_ne _ _ hk]
  · -- what is no list of widgets stays as it is
    have hvalue : ∀ value, Members.get? key members = some value →
        ∀ children, value ≠ .array children :=
      fun value hvalue children hv => hlist ⟨children, hv ▸ hvalue⟩
    have hnone : ∀ children, Members.get? key
        (members.map fun m => (m.1, shape.cutMember keep m.1 m.2)) ≠ some (.array children) := by
      intro children hchildren
      rw [hget, Option.map_eq_some_iff] at hchildren
      obtain ⟨value, hfound, hcut⟩ := hchildren
      rw [cutMember, if_pos hkey, cutChildren_eq_self shape _ (hvalue value hfound)] at hcut
      exact hvalue value hfound children hcut
    rw [result_pruneMember_of_no_list hnone]
    refine List.map_congr_left fun m hmem => ?_
    by_cases hk : m.1 = key
    · have hscalar := hvalue m.2 (hk ▸ Json.Members.get?_eq_some_of_mem hnodup hmem)
      simp only [cutMember, cutChildren_eq_self shape _ hscalar]
    · rw [cutMember_keepUnder_of_ne _ _ hk]

/-- Pruning inside a widget leaves what going through the positions inside it leaves. -/
theorem result_pruneNode_cutNode {node : Value} (hwf : node.WellFormed)
    (h : ∀ keep children, (∀ child ∈ children, child.WellFormed) →
      (prune (shape.cut keep children)).result = shape.cut (pass keep children) children)
    (keep : List Step → Bool) :
    (shape.pruneNode prune (shape.cutNode keep node)).result =
      shape.cutNode (shape.keepNode pass node keep) node := by
  cases node with
  | object members =>
    obtain ⟨hnodup, -, hmembers⟩ := hwf
    rw [Value.wellFormedMembers_iff] at hmembers
    have hlists : ∀ keep key children, (key, Value.array children) ∈ members →
        (prune (shape.cut keep children)).result = shape.cut (pass keep children) children := by
      intro keep key children hm
      have hchildren := hmembers _ hm
      rw [Value.WellFormed, Value.wellFormedItems_iff] at hchildren
      exact h keep children hchildren
    -- key by key; what is kept changes with each key, so that it has to vary in the induction
    have hfold : ∀ keys ⊆ shape.childKeys, ∀ keep,
        (keys.foldlM (pruneMember prune) (shape.cutMembers keep members)).result =
          shape.cutMembers (keys.foldl (shape.keepUnder pass (.object members)) keep) members := by
      intro keys
      induction keys with
      | nil => exact fun _ _ => rfl
      | cons key keys ih =>
        intro hkeys keep
        rw [List.foldlM_cons, result_bind,
          result_pruneMember_cutMembers hnodup hlists (hkeys (List.mem_cons_self ..)) keep,
          ih fun k hk => hkeys (List.mem_cons_of_mem key hk)]
        rfl
    rw [cutNode, cutNode, pruneNode, result_bind, hfold shape.childKeys (fun _ hk => hk) keep]
    rfl
  | null | bool _ | number _ | string _ | array _ =>
    rw [cutNode, cutNode]
    rfl

end Node

theorem keepNode_nil (pass : (Nat → List Step → Bool) → List Value → Nat → List Step → Bool)
    (node : Value) (keep : List Step → Bool) : shape.keepNode pass node keep [] = keep [] := by
  have hfold : ∀ (keys : List String) keep,
      (keys.foldl (shape.keepUnder pass node) keep) [] = keep [] := by
    intro keys
    induction keys with
    | nil => exact fun _ => rfl
    | cons key keys ih => exact fun keep => ih _
  exact hfold shape.childKeys keep

theorem keepLevels_succ {depth : Nat} {keep : Nat → List Step → Bool} {nodes : List Value} {i : Nat}
    {node : Value} (h : nodes[i]? = some node) :
    shape.keepLevels allows (depth + 1) keep nodes i =
      shape.keepNode (shape.keepLevels allows depth) node (shape.keepLevel allows keep nodes i) := by
  simp only [keepLevels, h]

theorem keepLevels_of_none {depth : Nat} {keep : Nat → List Step → Bool} {nodes : List Value}
    {i : Nat} (h : nodes[i]? = none) :
    shape.keepLevels allows depth keep nodes i = shape.keepLevel allows keep nodes i := by
  cases depth with
  | zero => rfl
  | succ depth => simp only [keepLevels, h]

theorem map_cut {f : Value → Value} {keep keep' : Nat → List Step → Bool} {nodes : List Value}
    (hnil : ∀ i, keep' i [] = keep i [])
    (h : ∀ i node, nodes[i]? = some node →
      f (shape.cutNode (keep i) node) = shape.cutNode (keep' i) node) :
    (shape.cut keep nodes).map f = shape.cut keep' nodes := by
  induction nodes generalizing keep keep' with
  | nil => simp [cut]
  | cons node nodes ih =>
    have hrest := ih (fun i => hnil (i + 1)) fun i v hv => h (i + 1) v (by simpa using hv)
    rw [cut, cut, hnil 0]
    split
    · rw [List.map_cons, hrest, h 0 node (by simp)]
    · exact hrest

theorem keepLevels_nil (depth : Nat) (keep : Nat → List Step → Bool) (nodes : List Value) (i : Nat) :
    shape.keepLevels allows depth keep nodes i [] = shape.keepLevel allows keep nodes i [] := by
  cases depth with
  | zero => rfl
  | succ depth =>
    cases hnode : nodes[i]? with
    | none => rw [keepLevels_of_none hnode]
    | some node => rw [keepLevels_succ hnode, keepNode_nil]

/-- Pruning what is left leaves what going through its positions leaves. -/
theorem result_pruneLevels_cut (depth : Nat) (keep : Nat → List Step → Bool) {nodes : List Value}
    (hnodes : ∀ node ∈ nodes, node.WellFormed) :
    (shape.pruneLevels allows depth (shape.cut keep nodes)).result =
      shape.cut (shape.keepLevels allows depth keep nodes) nodes := by
  induction depth generalizing keep nodes with
  | zero =>
    rw [pruneLevels, result_level, filter_cut]
    rfl
  | succ depth ih =>
    rw [pruneLevels, result_bind, result_level, filter_cut, result_mapM]
    refine map_cut (fun i => keepLevels_nil (depth + 1) keep nodes i) fun i node hnode => ?_
    rw [keepLevels_succ hnode]
    exact result_pruneNode_cutNode (hnodes node (List.mem_of_getElem? hnode))
      (fun keep children hchildren => ih keep hchildren) _

/-- **Pruning a page cuts away the positions that are not left.** -/
theorem prune_eq_cut {nodes : List Value} (hnodes : ∀ node ∈ nodes, node.WellFormed) :
    (shape.prune allows nodes).result =
      shape.cut (shape.keepLevels allows (Value.itemsDepth nodes) (fun _ _ => true) nodes) nodes := by
  rw [← result_pruneLevels_cut _ _ hnodes, cut_true]
  rfl

/-! ## Two tests -/

/-- No widget is gone that is no object, and so has no rule. -/
def Spares (shape : TreeShape) (keep : Nat → List Step → Bool) (nodes : List Value) : Prop :=
  ∀ i steps v, shape.nodeAt? nodes i steps = some v → (∀ members, v ≠ .object members) →
    keep i steps = true

/-- No such widget is gone inside this one. -/
def SparesInside (shape : TreeShape) (keep : List Step → Bool) (node : Value) : Prop :=
  ∀ key, shape.Spares (fun i steps => keep (⟨key, i⟩ :: steps)) (shape.childrenAt key node)

theorem nodeAt?_cons {nodes : List Value} {i : Nat} {node : Value} (h : nodes[i]? = some node)
    (step : Step) (steps : List Step) :
    shape.nodeAt? nodes i (step :: steps) =
      shape.nodeAt? (shape.childrenAt step.key node) step.index steps := by
  rw [nodeAt?, h]
  rfl

theorem Spares.inside {keep : Nat → List Step → Bool} {nodes : List Value}
    (h : shape.Spares keep nodes) {i : Nat} {node : Value} (hnode : nodes[i]? = some node) :
    shape.SparesInside (keep i) node :=
  fun key j steps v hv => h i _ v ((nodeAt?_cons hnode ⟨key, j⟩ steps).trans hv)

theorem Spares.mono {keep keep' : Nat → List Step → Bool} {nodes : List Value}
    (h : shape.Spares keep nodes) (hle : ∀ i steps, keep i steps = true → keep' i steps = true) :
    shape.Spares keep' nodes :=
  fun i steps v hv hscalar => hle i steps (h i steps v hv hscalar)

theorem Spares.tail {keep : Nat → List Step → Bool} {node : Value} {nodes : List Value}
    (h : shape.Spares keep (node :: nodes)) : shape.Spares (fun i => keep (i + 1)) nodes := by
  intro i steps v hv
  refine h (i + 1) steps v (.trans ?_ hv)
  cases steps <;> rfl

/-- A widget that passes the strict test, also when it has lost some positions, passes the other one
when it has lost no more than these. -/
def Sturdier (shape : TreeShape) (strict allows : Value → Bool) : Prop :=
  ∀ node : Value, node.WellFormed → ∀ keep keep' : List Step → Bool,
    (∀ steps, keep steps = true → keep' steps = true) → shape.SparesInside keep node →
    shape.admits strict node = true → shape.admits strict (shape.cutNode keep node) = true →
    shape.admits allows (shape.cutNode keep' node) = true

/-- The positions that two runs have left of a list, one under a strict test. The strict run has left
no others; of a widget that it has left, either nothing is gone in both runs or it passed the strict
test before anything was gone; and no widget without a rule is gone. -/
structure Nested (shape : TreeShape) (strict : Value → Bool) (keep keep' : Nat → List Step → Bool)
    (nodes : List Value) : Prop where
  le : ∀ i steps, keep i steps = true → keep' i steps = true
  tested : ∀ i steps v, shape.nodeAt? nodes i steps = some v →
    (∀ more, keep i (steps ++ more) = true) ∨
      (keep i steps = true → shape.admits strict v = true)
  spares : shape.Spares keep nodes

section Nested

variable {strict : Value → Bool} {keep keep' : Nat → List Step → Bool} {nodes : List Value}

theorem nested_true (nodes : List Value) :
    shape.Nested strict (fun _ _ => true) (fun _ _ => true) nodes :=
  ⟨fun _ _ _ => rfl, fun _ _ _ _ => .inl fun _ => rfl, fun _ _ _ _ _ => rfl⟩

theorem Nested.inside (h : shape.Nested strict keep keep' nodes) {i : Nat} {node : Value}
    (hnode : nodes[i]? = some node) (key : String) :
    shape.Nested strict (fun j steps => keep i (⟨key, j⟩ :: steps))
      (fun j steps => keep' i (⟨key, j⟩ :: steps)) (shape.childrenAt key node) := by
  refine ⟨fun j steps => h.le i _, fun j steps v hv => ?_, h.spares.inside hnode key⟩
  exact h.tested i (⟨key, j⟩ :: steps) v ((nodeAt?_cons hnode ⟨key, j⟩ steps).trans hv)

/-- From what is left of each widget to what is left of the list. -/
theorem nested_of_inside (hle : ∀ i steps, keep i steps = true → keep' i steps = true)
    (h : ∀ i node, nodes[i]? = some node →
      (keep i [] = true → shape.admits strict node = true) ∧
      ((∀ members, node ≠ .object members) → keep i [] = true) ∧
      ∀ key, shape.Nested strict (fun j steps => keep i (⟨key, j⟩ :: steps))
        (fun j steps => keep' i (⟨key, j⟩ :: steps)) (shape.childrenAt key node)) :
    shape.Nested strict keep keep' nodes := by
  refine ⟨hle, fun i steps v hv => ?_, fun i steps v hv hscalar => ?_⟩
  · cases steps with
    | nil => exact .inr (h i v hv).1
    | cons step steps =>
      obtain ⟨node, hnode, hv⟩ := Option.bind_eq_some_iff.1 hv
      exact ((h i node hnode).2.2 step.key).tested step.index steps v hv
  · cases steps with
    | nil => exact (h i v hv).2.1 hscalar
    | cons step steps =>
      obtain ⟨node, hnode, hv⟩ := Option.bind_eq_some_iff.1 hv
      exact ((h i node hnode).2.2 step.key).spares step.index steps v hv hscalar

/-- A widget without a rule passes any test. -/
theorem admits_of_scalar {v : Value} (h : ∀ members, v ≠ .object members) :
    shape.admits allows v = true := by
  cases v with
  | object members => exact absurd rfl (h members)
  | null | bool _ | number _ | string _ | array _ => rfl

theorem Nested.admits_of_keepLevel (h : shape.Nested strict keep keep' nodes) {i : Nat} {node : Value}
    (hnode : nodes[i]? = some node) (hleft : shape.keepLevel strict keep nodes i [] = true) :
    shape.admits strict node = true ∧ shape.admits strict (shape.cutNode (keep i) node) = true := by
  simp only [keepLevel, hnode, Option.all_some, Bool.and_eq_true] at hleft
  refine ⟨?_, hleft.2⟩
  rcases h.tested i [] node hnode with hfresh | htested
  · have hwhole : shape.cutNode (keep i) node = node :=
      (cutNode_congr (fun step steps => hfresh (step :: steps)) node).trans (cutNode_true node).1
    rw [← hwhole]
    exact hleft.2
  · exact htested hleft.1

theorem Nested.keepLevel (hsturdier : shape.Sturdier strict allows)
    (hwf : ∀ node ∈ nodes, node.WellFormed) (h : shape.Nested strict keep keep' nodes) :
    shape.Nested strict (shape.keepLevel strict keep nodes) (shape.keepLevel allows keep' nodes)
      nodes := by
  refine nested_of_inside (fun i steps => ?_) fun i node hnode => ⟨?_, ?_, fun key => ?_⟩
  · cases steps with
    | nil =>
      intro hleft
      cases hnode : nodes[i]? with
      | none =>
        simp only [TreeShape.keepLevel, hnode, Option.all_none, Bool.and_true] at hleft ⊢
        exact h.le i [] hleft
      | some node =>
        obtain ⟨hbefore, hnow⟩ := h.admits_of_keepLevel hnode hleft
        simp only [TreeShape.keepLevel, hnode, Option.all_some, Bool.and_eq_true] at hleft ⊢
        refine ⟨h.le i [] hleft.1, ?_⟩
        refine hsturdier node (hwf node (List.mem_of_getElem? hnode)) (keep i) (keep' i)
          (h.le i) ?_ hbefore hnow
        exact fun key => (h.inside hnode key).spares
    | cons step steps => exact h.le i (step :: steps)
  · exact fun hleft => (h.admits_of_keepLevel hnode hleft).1
  · intro hscalar
    simp only [TreeShape.keepLevel, hnode, Option.all_some, Bool.and_eq_true]
    refine ⟨h.spares i [] node hnode hscalar, ?_⟩
    rw [cutNode_eq_self shape _ hscalar]
    exact admits_of_scalar hscalar
  · exact h.inside hnode key

/-- Going through the widgets inside a widget, key by key. -/
theorem nested_keepNode
    {pass pass' : (Nat → List Step → Bool) → List Value → Nat → List Step → Bool} {node : Value}
    (hpass : ∀ key keep keep', shape.Nested strict keep keep' (shape.childrenAt key node) →
      shape.Nested strict (pass keep (shape.childrenAt key node))
        (pass' keep' (shape.childrenAt key node)) (shape.childrenAt key node))
    {keep keep' : List Step → Bool}
    (h : ∀ key, shape.Nested strict (fun j steps => keep (⟨key, j⟩ :: steps))
      (fun j steps => keep' (⟨key, j⟩ :: steps)) (shape.childrenAt key node)) (key : String) :
    shape.Nested strict (fun j steps => shape.keepNode pass node keep (⟨key, j⟩ :: steps))
      (fun j steps => shape.keepNode pass' node keep' (⟨key, j⟩ :: steps))
      (shape.childrenAt key node) := by
  suffices hfold : ∀ (keys : List String) (keep keep' : List Step → Bool),
      (∀ key, shape.Nested strict (fun j steps => keep (⟨key, j⟩ :: steps))
        (fun j steps => keep' (⟨key, j⟩ :: steps)) (shape.childrenAt key node)) →
      ∀ key, shape.Nested strict
        (fun j steps => keys.foldl (shape.keepUnder pass node) keep (⟨key, j⟩ :: steps))
        (fun j steps => keys.foldl (shape.keepUnder pass' node) keep' (⟨key, j⟩ :: steps))
        (shape.childrenAt key node) from hfold shape.childKeys keep keep' h key
  intro keys
  induction keys with
  | nil => exact fun keep keep' h => h
  | cons first keys ih =>
    intro keep keep' h
    refine ih _ _ fun key => ?_
    by_cases hkey : key = first
    · subst hkey
      simpa only [keepUnder, if_true] using hpass key _ _ (h key)
    · simpa only [keepUnder, hkey, if_false] using h key

theorem childrenAt_wellFormed {node : Value} (h : node.WellFormed) (key : String) :
    ∀ child ∈ shape.childrenAt key node, child.WellFormed := by
  unfold childrenAt
  split
  · split
    · next children hchildren =>
      cases node with
      | object members =>
        obtain ⟨-, -, hmembers⟩ := h
        rw [Value.wellFormedMembers_iff] at hmembers
        have hlist := hmembers _ (Json.Members.mem_of_get?_eq_some hchildren)
        rwa [Value.WellFormed, Value.wellFormedItems_iff] at hlist
      | null | bool _ | number _ | string _ | array _ => cases hchildren
    · simp
  · simp

theorem Nested.keepLevels (hsturdier : shape.Sturdier strict allows) (depth : Nat)
    (hwf : ∀ node ∈ nodes, node.WellFormed) (h : shape.Nested strict keep keep' nodes) :
    shape.Nested strict (shape.keepLevels strict depth keep nodes)
      (shape.keepLevels allows depth keep' nodes) nodes := by
  induction depth generalizing keep keep' nodes with
  | zero => exact h.keepLevel hsturdier hwf
  | succ depth ih =>
    have hlevel := h.keepLevel hsturdier hwf
    have hinside : ∀ i node, nodes[i]? = some node → ∀ key, shape.Nested strict
        (fun j steps => shape.keepLevels strict (depth + 1) keep nodes i (⟨key, j⟩ :: steps))
        (fun j steps => shape.keepLevels allows (depth + 1) keep' nodes i (⟨key, j⟩ :: steps))
        (shape.childrenAt key node) := by
      intro i node hnode key
      rw [keepLevels_succ hnode, keepLevels_succ hnode]
      exact nested_keepNode (fun key keep keep' hchildren =>
        ih (childrenAt_wellFormed (hwf node (List.mem_of_getElem? hnode)) key) hchildren)
        (hlevel.inside hnode) key
    refine nested_of_inside (fun i steps => ?_) fun i node hnode => ?_
    · cases steps with
      | nil =>
        rw [keepLevels_nil, keepLevels_nil]
        exact hlevel.le i []
      | cons step steps =>
        cases hnode : nodes[i]? with
        | none =>
          rw [keepLevels_of_none hnode, keepLevels_of_none hnode]
          exact hlevel.le i _
        | some node => exact (hinside i node hnode step.key).le step.index steps
    · rw [keepLevels_nil]
      exact ⟨fun hleft => (h.admits_of_keepLevel hnode hleft).1,
        fun hscalar => hlevel.spares i [] node hnode hscalar, hinside i node hnode⟩

/-- **What the strict test leaves of a page the sturdier one leaves as well.** -/
theorem keepLevels_le (hsturdier : shape.Sturdier strict allows)
    (hwf : ∀ node ∈ nodes, node.WellFormed) (depth : Nat) (i : Nat) (steps : List Step)
    (h : shape.keepLevels strict depth (fun _ _ => true) nodes i steps = true) :
    shape.keepLevels allows depth (fun _ _ => true) nodes i steps = true :=
  ((nested_true nodes).keepLevels hsturdier depth hwf).le i steps h

end Nested

end ContentVisibility.TreeShape
