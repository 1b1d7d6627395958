import ContentVisibility.Proofs.Widget.Passes

/-!
# Pages on which two tests agree

Two tests that agree on every widget of a page leave the same of it, as long as no widget is tested
again after its rule has changed. A rule changes only if its key is a child key, and a widget is tested
again only if it stands under a key that is listed twice.

* `TreeShape.Everywhere`: something is so of every widget of a page;
* `prune_congr`: pruning with tests that agree leaves the same.
-/

namespace ContentVisibility

open Json (Value Members.get?)

namespace TreeShape

variable {shape : TreeShape} {P : Value → Prop}

/-! ## Every widget of a page -/

/-- It is so of the widget at every position. -/
def Everywhere (shape : TreeShape) (P : Value → Prop) (nodes : List Value) : Prop :=
  ∀ i steps v, shape.nodeAt? nodes i steps = some v → P v

theorem everywhere_nil : shape.Everywhere P [] := by
  intro i steps v hv
  cases steps <;> simp [nodeAt?] at hv

theorem everywhere_cons {node : Value} {nodes : List Value} :
    shape.Everywhere P (node :: nodes) ↔ P node ∧
      (∀ key ∈ shape.childKeys, shape.Everywhere P (shape.childrenAt key node)) ∧
        shape.Everywhere P nodes := by
  constructor
  · intro h
    refine ⟨h 0 [] node rfl, fun key _ i steps v hv => ?_, fun i steps v hv => ?_⟩
    · exact h 0 (⟨key, i⟩ :: steps) v hv
    · refine h (i + 1) steps v (.trans ?_ hv)
      cases steps <;> rfl
  · rintro ⟨hnode, hinside, hnodes⟩ (_ | i) (_ | ⟨step, steps⟩) v hv
    · cases hv
      exact hnode
    · have hv : shape.nodeAt? (shape.childrenAt step.key node) step.index steps = some v := hv
      by_cases hkey : step.key ∈ shape.childKeys
      · exact hinside step.key hkey step.index steps v hv
      · rw [childrenAt, if_neg hkey] at hv
        exact everywhere_nil step.index steps v hv
    · exact hnodes i [] v hv
    · exact hnodes i (step :: steps) v hv

theorem Everywhere.of_mem {nodes : List Value} (h : shape.Everywhere P nodes) {node : Value}
    (hnode : node ∈ nodes) : P node ∧ ∀ key, shape.Everywhere P (shape.childrenAt key node) := by
  obtain ⟨i, hi⟩ := List.mem_iff_getElem?.1 hnode
  exact ⟨h i [] node hi, fun key j steps v hv => h i (⟨key, j⟩ :: steps) v
    ((nodeAt?_cons hi ⟨key, j⟩ steps).trans hv)⟩

/-! ## Rules that do not change -/

theorem thin_congr {p q : Value → Bool} {nodes : List Value} (hwf : ∀ node ∈ nodes, node.WellFormed)
    (h : shape.Everywhere (fun v => p v = q v) nodes) : shape.thin p nodes = shape.thin q nodes := by
  have hcut : ∀ r : Value → Bool,
      shape.cut (fun i steps => decide (shape.Kept (fun v => r v = true) nodes i steps)) nodes =
        shape.thin r nodes := by
    intro r
    rw [cut_kept hwf]
    simp only [Bool.decide_eq_true]
  have hkept : (fun i steps => decide (shape.Kept (fun v => p v = true) nodes i steps)) =
      fun i steps => decide (shape.Kept (fun v => q v = true) nodes i steps) := by
    funext i steps
    rw [decide_eq_decide]
    refine forall₂_congr fun k _ => exists_congr fun v => and_congr_right fun hv => ?_
    show p v = true ↔ q v = true
    rw [h i (steps.take k) v hv]
  rw [← hcut p, ← hcut q, hkept]

/-! ## Widgets that are tested once -/

section Once

variable {prune prune' : List Value → Tally (List Value)}

theorem get?_pruneMember_of_ne {key other : String} (h : other ≠ key)
    (members : List (String × Value)) :
    Members.get? other (pruneMember prune members key).result = Members.get? other members := by
  by_cases hlist : ∃ children, Members.get? key members = some (.array children)
  · obtain ⟨children, hchildren⟩ := hlist
    rw [result_pruneMember_of_list hchildren, Json.Members.get?_put_of_ne h]
  · rw [result_pruneMember_of_no_list fun children hchildren => hlist ⟨children, hchildren⟩]

/-- Each list inside a widget is still whole when its key comes. -/
theorem result_foldlM_pruneMember_congr {members : List (String × Value)} {keys : List String}
    (hnodup : keys.Nodup)
    (h : ∀ key ∈ keys, ∀ children, Members.get? key members = some (.array children) →
      (prune children).result = (prune' children).result) :
    (keys.foldlM (pruneMember prune) members).result =
      (keys.foldlM (pruneMember prune') members).result := by
  induction keys generalizing members with
  | nil => rfl
  | cons key keys ih =>
    rw [List.nodup_cons] at hnodup
    have hfirst : (pruneMember prune members key).result = (pruneMember prune' members key).result := by
      by_cases hlist : ∃ children, Members.get? key members = some (.array children)
      · obtain ⟨children, hchildren⟩ := hlist
        rw [result_pruneMember_of_list hchildren, result_pruneMember_of_list hchildren,
          h key (List.mem_cons_self ..) children hchildren]
      · have hnone := fun children hchildren => hlist ⟨children, hchildren⟩
        rw [result_pruneMember_of_no_list hnone, result_pruneMember_of_no_list hnone]
    rw [List.foldlM_cons, List.foldlM_cons, result_bind, result_bind, hfirst]
    refine ih hnodup.2 fun other hother children hchildren => ?_
    have hne : other ≠ key := fun he => hnodup.1 (he ▸ hother)
    rw [get?_pruneMember_of_ne hne] at hchildren
    exact h other (List.mem_cons_of_mem key hother) children hchildren

theorem result_pruneLevels_congr (hkeys : shape.childKeys.Nodup) {allows allows' : Value → Bool}
    (depth : Nat) {nodes : List Value}
    (h : shape.Everywhere (fun v => shape.admits allows v = shape.admits allows' v) nodes) :
    (shape.pruneLevels allows depth nodes).result = (shape.pruneLevels allows' depth nodes).result := by
  have hlevel : ∀ {nodes : List Value},
      shape.Everywhere (fun v => shape.admits allows v = shape.admits allows' v) nodes →
      nodes.filter (shape.admits allows) = nodes.filter (shape.admits allows') :=
    fun h => List.filter_congr fun node hnode => (h.of_mem hnode).1
  induction depth generalizing nodes with
  | zero => rw [pruneLevels, pruneLevels, result_level, result_level, hlevel h]
  | succ depth ih =>
    rw [pruneLevels, pruneLevels, result_bind, result_bind, result_level, result_level, hlevel h,
      result_mapM, result_mapM]
    refine List.map_congr_left fun node hnode => ?_
    have hinside := (h.of_mem (List.mem_of_mem_filter hnode)).2
    cases node with
    | object members =>
      have hlists : ∀ key ∈ shape.childKeys, ∀ children,
          Members.get? key members = some (.array children) →
          (shape.pruneLevels allows depth children).result =
            (shape.pruneLevels allows' depth children).result := by
        intro key hkey children hchildren
        have hat := childrenAt_of_get? hkey hchildren
        exact ih (hat ▸ hinside key)
      rw [pruneNode, pruneNode, result_bind, result_bind,
        result_foldlM_pruneMember_congr hkeys hlists]
    | null | bool _ | number _ | string _ | array _ => rfl

end Once

/-- **Pruning a page with tests that agree on every widget leaves the same**, if no widget is tested
again with another rule. -/
theorem prune_congr (hkeys : shape.Separate ∨ shape.childKeys.Nodup) {allows allows' : Value → Bool}
    {depth : Nat} {nodes : List Value} (hnodes : ∀ node ∈ nodes, node.Fits depth)
    (h : shape.Everywhere (fun v => shape.admits allows v = shape.admits allows' v) nodes) :
    (shape.prune allows nodes).result = (shape.prune allows' nodes).result := by
  rcases hkeys with hseparate | hnodup
  · rw [prune_result hseparate hnodes, prune_result hseparate hnodes,
      thin_congr (fun node hnode => (hnodes node hnode).1) h]
  · exact result_pruneLevels_congr hnodup _ h

end TreeShape

end ContentVisibility
