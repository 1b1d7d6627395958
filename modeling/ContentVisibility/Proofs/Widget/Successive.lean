import ContentVisibility.Proofs.Widget.Passes

/-!
# Pruning with one test after another

A page that is pruned with one test and then with another is left as pruning with both tests at once
leaves it, whatever its objects hold: where a key is repeated in an object, both look at its first member.

* `Members.change`: a value changed where its key stands first, which is what pruning under a key does;
* `pruneLevels_pruneLevels`: one test after another, to the same level;
* `prune_eq_pruneLevels`: levels below the last one make no difference;
* `prune_prune`: one test after another, at all levels.
-/

namespace ContentVisibility

open Json (Value Members.get? Members.put)

/-! ## Values changed under a key -/

namespace Json.Members

variable {α : Type}

/-- The members with the value changed where the key stands first. -/
def change (f : α → α) (key : String) : List (String × α) → List (String × α)
  | [] => []
  | (k, v) :: members => if k = key then (k, f v) :: members else (k, v) :: change f key members

theorem change_eq_put {f : α → α} {key : String} {value : α} {ms : List (String × α)}
    (h : get? key ms = some value) : change f key ms = put key (f value) ms := by
  induction ms with
  | nil => cases h
  | cons m ms ih =>
    obtain ⟨k, v⟩ := m
    rw [get?_cons] at h
    by_cases hk : k = key
    · rw [if_pos hk] at h
      obtain rfl : v = value := Option.some.inj h
      rw [change, put, if_pos hk, if_pos hk, hk]
    · rw [if_neg hk] at h
      rw [change, put, if_neg hk, if_neg hk, ih h]

theorem change_eq_self {f : α → α} {key : String} {ms : List (String × α)}
    (h : ∀ value, get? key ms = some value → f value = value) : change f key ms = ms := by
  induction ms with
  | nil => rfl
  | cons m ms ih =>
    obtain ⟨k, v⟩ := m
    simp only [get?_cons] at h
    by_cases hk : k = key
    · simp only [hk, if_true] at h
      rw [change, if_pos hk, h v rfl]
    · simp only [hk, if_false] at h
      rw [change, if_neg hk, ih h]

theorem change_congr {f g : α → α} {key : String} {ms : List (String × α)}
    (h : ∀ m ∈ ms, f m.2 = g m.2) : change f key ms = change g key ms := by
  induction ms with
  | nil => rfl
  | cons m ms ih =>
    rw [change, change, h m (List.mem_cons_self ..), ih fun n hn => h n (List.mem_cons_of_mem m hn)]

theorem change_change (f g : α → α) (key : String) (ms : List (String × α)) :
    change g key (change f key ms) = change (fun value => g (f value)) key ms := by
  induction ms with
  | nil => rfl
  | cons m ms ih => by_cases hk : m.1 = key <;> simp [change, hk, ih]

theorem change_comm_of_ne (f g : α → α) {key other : String} (h : key ≠ other)
    (ms : List (String × α)) :
    change g other (change f key ms) = change f key (change g other ms) := by
  induction ms with
  | nil => rfl
  | cons m ms ih =>
    obtain ⟨k, v⟩ := m
    by_cases hk : k = key
    · simp [change, hk, h]
    · by_cases ho : k = other
      · simp [change, ho, h.symm]
      · simp [change, hk, ho, ih]

theorem get?_change_of_ne (f : α → α) {key other : String} (h : other ≠ key)
    (ms : List (String × α)) : get? other (change f key ms) = get? other ms := by
  induction ms with
  | nil => rfl
  | cons m ms ih =>
    obtain ⟨k, v⟩ := m
    by_cases hk : k = key
    · simp [change, get?_cons, hk, h.symm]
    · simp [change, get?_cons, hk, ih]

theorem forall_mem_change {f : α → α} {P : α → Prop} (hf : ∀ value, P value → P (f value))
    {key : String} {ms : List (String × α)} (h : ∀ m ∈ ms, P m.2) :
    ∀ m ∈ change f key ms, P m.2 := by
  induction ms with
  | nil => exact h
  | cons m ms ih =>
    obtain ⟨hm, hms⟩ := List.forall_mem_cons.1 h
    rw [change]
    split
    · exact List.forall_mem_cons.2 ⟨hf m.2 hm, hms⟩
    · exact List.forall_mem_cons.2 ⟨hm, ih hms⟩

end Json.Members

namespace TreeShape

open Json.Members (change)

variable {shape : TreeShape}

/-! ## Lists of widgets under keys -/

/-- What becomes of the value under a child key when lists of widgets become others. -/
def onList (f : List Value → List Value) : Value → Value
  | .array children => .array (f children)
  | value => value

theorem onList_onList (f g : List Value → List Value) (value : Value) :
    onList g (onList f value) = onList (fun nodes => g (f nodes)) value := by
  cases value <;> rfl

/-- The members with the lists of widgets changed under one key after another. -/
def onLists (f : List Value → List Value) (keys : List String) (members : List (String × Value)) :
    List (String × Value) :=
  keys.foldl (fun members key => change (onList f) key members) members

variable {prune : List Value → Tally (List Value)}

theorem result_pruneMember_eq_change (members : List (String × Value)) (key : String) :
    (pruneMember prune members key).result =
      change (onList fun nodes => (prune nodes).result) key members := by
  by_cases hlist : ∃ children, Members.get? key members = some (.array children)
  · obtain ⟨children, hchildren⟩ := hlist
    rw [result_pruneMember_of_list hchildren, Json.Members.change_eq_put hchildren, onList]
  · rw [result_pruneMember_of_no_list fun children hchildren => hlist ⟨children, hchildren⟩]
    refine (Json.Members.change_eq_self fun value hvalue => ?_).symm
    unfold onList
    split
    · next children => exact absurd ⟨children, hvalue⟩ hlist
    · rfl

theorem result_foldlM_eq_onLists (keys : List String) (members : List (String × Value)) :
    (keys.foldlM (pruneMember prune) members).result =
      onLists (fun nodes => (prune nodes).result) keys members := by
  induction keys generalizing members with
  | nil => rfl
  | cons key keys ih =>
    rw [List.foldlM_cons, result_bind, ih, result_pruneMember_eq_change]
    rfl

/-- Two changes of lists that may be made in either order. -/
theorem change_onList_comm {f g : List Value → List Value} (h : ∀ nodes, g (f nodes) = f (g nodes))
    (key other : String) (members : List (String × Value)) :
    change (onList g) other (change (onList f) key members) =
      change (onList f) key (change (onList g) other members) := by
  by_cases hkey : key = other
  · subst hkey
    rw [Json.Members.change_change, Json.Members.change_change]
    simp only [onList_onList, h]
  · exact Json.Members.change_comm_of_ne _ _ hkey members

theorem onLists_change_comm {f g : List Value → List Value} (h : ∀ nodes, g (f nodes) = f (g nodes))
    (key : String) (keys : List String) (members : List (String × Value)) :
    change (onList g) key (onLists f keys members) =
      onLists f keys (change (onList g) key members) := by
  induction keys generalizing members with
  | nil => rfl
  | cons other keys ih =>
    show change (onList g) key (onLists f keys (change (onList f) other members)) =
      onLists f keys (change (onList f) other (change (onList g) key members))
    rw [ih, change_onList_comm h]

/-- Lists changed under all keys and then once more under all keys, if both changes may be made in
either order, are changed twice under all keys. -/
theorem onLists_onLists {f g : List Value → List Value} (h : ∀ nodes, g (f nodes) = f (g nodes))
    (keys : List String) (members : List (String × Value)) :
    onLists g keys (onLists f keys members) = onLists (fun nodes => g (f nodes)) keys members := by
  induction keys generalizing members with
  | nil => rfl
  | cons key keys ih =>
    show onLists g keys (change (onList g) key (onLists f keys (change (onList f) key members))) =
      onLists _ keys (change (onList fun nodes => g (f nodes)) key members)
    rw [onLists_change_comm h, ih, Json.Members.change_change]
    simp only [onList_onList]

/-! ## Widgets -/

/-- The widget with the lists of widgets changed under all child keys. -/
def onNode (shape : TreeShape) (f : List Value → List Value) : Value → Value
  | .object members => .object (onLists f shape.childKeys members)
  | node => node

theorem result_pruneNode_eq_onNode (node : Value) :
    (shape.pruneNode prune node).result = shape.onNode (fun nodes => (prune nodes).result) node := by
  cases node with
  | object members => rw [pruneNode, result_bind, result_foldlM_eq_onLists, onNode, result_pure]
  | null | bool _ | number _ | string _ | array _ => rfl

theorem onNode_onNode {f g : List Value → List Value} (h : ∀ nodes, g (f nodes) = f (g nodes))
    (node : Value) :
    shape.onNode g (shape.onNode f node) = shape.onNode (fun nodes => g (f nodes)) node := by
  cases node with
  | object members => rw [onNode, onNode, onNode, onLists_onLists h]
  | null | bool _ | number _ | string _ | array _ => rfl

theorem get?_onLists_of_notMem (f : List Value → List Value) {key : String} {keys : List String}
    (h : key ∉ keys) (members : List (String × Value)) :
    Members.get? key (onLists f keys members) = Members.get? key members := by
  induction keys generalizing members with
  | nil => rfl
  | cons other keys ih =>
    rw [List.mem_cons, not_or] at h
    exact (ih h.2 _).trans (Json.Members.get?_change_of_ne _ h.1 members)

theorem admits_onNode (h : shape.Separate) (allows : Value → Bool) (f : List Value → List Value)
    (node : Value) : shape.admits allows (shape.onNode f node) = shape.admits allows node := by
  cases node with
  | object members =>
    rw [admits, admits, onNode, ruleOf, ruleOf, get?_onLists_of_notMem f h]
  | null | bool _ | number _ | string _ | array _ => rfl

/-! ## One test after another, to the same level -/

theorem result_pruneLevels_succ (allows : Value → Bool) (depth : Nat) (nodes : List Value) :
    (shape.pruneLevels allows (depth + 1) nodes).result =
      (nodes.filter (shape.admits allows)).map
        (shape.onNode fun nodes => (shape.pruneLevels allows depth nodes).result) := by
  rw [pruneLevels, result_bind, result_level, result_mapM]
  exact List.map_congr_left fun node _ => result_pruneNode_eq_onNode node

theorem admits_and (p q : Value → Bool) (node : Value) :
    shape.admits (fun rule => p rule && q rule) node = (shape.admits p node && shape.admits q node) := by
  rw [admits, admits, admits]
  cases shape.ruleOf node <;> rfl

theorem filter_admits_and (p q : Value → Bool) (nodes : List Value) :
    (nodes.filter (shape.admits p)).filter (shape.admits q) =
      nodes.filter (shape.admits fun rule => p rule && q rule) := by
  rw [List.filter_filter]
  exact List.filter_congr fun node _ => by rw [admits_and, Bool.and_comm]

/-- Pruning a number of levels with one test and then as many with another is pruning them with both. -/
theorem pruneLevels_pruneLevels (h : shape.Separate) (depth : Nat) (p q : Value → Bool)
    (nodes : List Value) :
    (shape.pruneLevels q depth (shape.pruneLevels p depth nodes).result).result =
      (shape.pruneLevels (fun rule => p rule && q rule) depth nodes).result := by
  induction depth generalizing p q nodes with
  | zero => exact filter_admits_and p q nodes
  | succ depth ih =>
    -- inside a widget the two tests may come in either order
    have hcomm : ∀ nodes, (shape.pruneLevels q depth (shape.pruneLevels p depth nodes).result).result =
        (shape.pruneLevels p depth (shape.pruneLevels q depth nodes).result).result := by
      intro nodes
      rw [ih p q, ih q p]
      simp only [Bool.and_comm]
    have hpasses : shape.admits q ∘ shape.onNode (fun nodes => (shape.pruneLevels p depth nodes).result) =
        shape.admits q := funext (admits_onNode h q _)
    rw [result_pruneLevels_succ, result_pruneLevels_succ, result_pruneLevels_succ, List.filter_map,
      hpasses, filter_admits_and, List.map_map]
    refine List.map_congr_left fun node _ => ?_
    rw [Function.comp_apply, onNode_onNode hcomm]
    simp only [ih p q]

/-! ## Levels that a page does not have -/

/-- The change makes no list of widgets deeper. -/
def Flattens (f : List Value → List Value) : Prop :=
  ∀ nodes, Value.itemsDepth (f nodes) ≤ Value.itemsDepth nodes

variable {f g : List Value → List Value}

theorem Flattens.depth_onList (h : Flattens f) (value : Value) :
    (onList f value).depth ≤ value.depth := by
  cases value with
  | array children => exact Nat.succ_le_succ (h children)
  | null | bool _ | number _ | string _ | object _ => exact Nat.le_refl _

theorem Flattens.forall_mem_change (h : Flattens f) {depth : Nat} (key : String)
    {members : List (String × Value)} (hdepth : ∀ m ∈ members, m.2.depth ≤ depth) :
    ∀ m ∈ change (onList f) key members, m.2.depth ≤ depth :=
  Json.Members.forall_mem_change (fun value => (h.depth_onList value).trans) hdepth

theorem Flattens.forall_mem_onLists (h : Flattens f) {depth : Nat} {keys : List String}
    {members : List (String × Value)} (hdepth : ∀ m ∈ members, m.2.depth ≤ depth) :
    ∀ m ∈ onLists f keys members, m.2.depth ≤ depth := by
  induction keys generalizing members with
  | nil => exact hdepth
  | cons key keys ih => exact ih (h.forall_mem_change key hdepth)

theorem Flattens.depth_onNode (h : Flattens f) (node : Value) :
    (shape.onNode f node).depth ≤ node.depth := by
  cases node with
  | object members =>
    refine Nat.succ_le_succ ((Value.membersDepth_le_iff _ _).2 (h.forall_mem_onLists ?_))
    exact (Value.membersDepth_le_iff members _).1 (Nat.le_refl _)
  | null | bool _ | number _ | string _ | array _ => exact Nat.le_refl _

theorem flattens_pruneLevels (allows : Value → Bool) (depth : Nat) :
    Flattens fun nodes => (shape.pruneLevels allows depth nodes).result := by
  have hall : ∀ nodes : List Value, ∀ node ∈ nodes, node.depth ≤ Value.itemsDepth nodes :=
    fun nodes => (Value.itemsDepth_le_iff nodes _).1 (Nat.le_refl _)
  induction depth with
  | zero =>
    intro nodes
    refine (Value.itemsDepth_le_iff _ _).2 fun node hm => ?_
    exact hall nodes node (List.mem_of_mem_filter hm)
  | succ depth ih =>
    intro nodes
    simp only [result_pruneLevels_succ]
    refine (Value.itemsDepth_le_iff _ _).2 fun v hv => ?_
    obtain ⟨node, hm, rfl⟩ := List.mem_map.1 hv
    exact (ih.depth_onNode node).trans (hall nodes node (List.mem_of_mem_filter hm))

theorem onList_congr {depth : Nat}
    (h : ∀ nodes, Value.itemsDepth nodes < depth → f nodes = g nodes) {value : Value}
    (hdepth : value.depth ≤ depth) : onList f value = onList g value := by
  cases value with
  | array children => rw [onList, onList, h children hdepth]
  | null | bool _ | number _ | string _ | object _ => rfl

theorem onLists_congr (hf : Flattens f) {depth : Nat}
    (h : ∀ nodes, Value.itemsDepth nodes < depth → f nodes = g nodes) {keys : List String}
    {members : List (String × Value)} (hdepth : ∀ m ∈ members, m.2.depth ≤ depth) :
    onLists f keys members = onLists g keys members := by
  induction keys generalizing members with
  | nil => rfl
  | cons key keys ih =>
    show onLists f keys (change (onList f) key members) = onLists g keys (change (onList g) key members)
    rw [← Json.Members.change_congr fun m hm => onList_congr h (hdepth m hm),
      ih (hf.forall_mem_change key hdepth)]

/-- Pruning one level more than a page has changes nothing. -/
theorem result_pruneLevels_eq_succ (allows : Value → Bool) {depth : Nat} {nodes : List Value}
    (h : Value.itemsDepth nodes ≤ depth) :
    (shape.pruneLevels allows depth nodes).result =
      (shape.pruneLevels allows (depth + 1) nodes).result := by
  induction depth generalizing nodes with
  | zero =>
    rw [result_pruneLevels_succ, pruneLevels, result_level]
    refine ((List.map_congr_left fun node hm => ?_).trans (List.map_id _)).symm
    have hdepth := (Value.itemsDepth_le_iff nodes 0).1 h node (List.mem_of_mem_filter hm)
    cases node with
    | object members => cases hdepth
    | null | bool _ | number _ | string _ | array _ => rfl
  | succ depth ih =>
    rw [result_pruneLevels_succ, result_pruneLevels_succ]
    refine List.map_congr_left fun node hm => ?_
    have hdepth := (Value.itemsDepth_le_iff nodes _).1 h node (List.mem_of_mem_filter hm)
    cases node with
    | object members =>
      rw [Value.depth, Nat.add_le_add_iff_right, Value.membersDepth_le_iff] at hdepth
      rw [onNode, onNode, onLists_congr (flattens_pruneLevels allows depth) (fun nodes hnodes => ?_)
        hdepth]
      exact ih (Nat.le_of_lt hnodes)
    | null | bool _ | number _ | string _ | array _ => rfl

theorem prune_eq_pruneLevels (allows : Value → Bool) {depth : Nat} {nodes : List Value}
    (h : Value.itemsDepth nodes ≤ depth) :
    (shape.prune allows nodes).result = (shape.pruneLevels allows depth nodes).result := by
  induction depth, h using Nat.le_induction with
  | base => rfl
  | succ depth h ih => rw [ih, result_pruneLevels_eq_succ allows h]

/-- **Pruning a page with one test and then with another is pruning it with both**, whatever the page
and however often a child key is listed. -/
theorem prune_prune (h : shape.Separate) (p q : Value → Bool) (nodes : List Value) :
    (shape.prune q (shape.prune p nodes).result).result =
      (shape.prune (fun rule => p rule && q rule) nodes).result := by
  have hdepth : Value.itemsDepth (shape.prune p nodes).result ≤ Value.itemsDepth nodes :=
    flattens_pruneLevels p _ nodes
  rw [prune_eq_pruneLevels q hdepth, prune, pruneLevels_pruneLevels h, prune]

end TreeShape

end ContentVisibility
