import ContentVisibility.Proofs.Json.Written

/-!
# Pages thinned out

The widgets of a page that pass a test, level by level, as one recursion over the page. On pages that
a text can hold, pruning with the keys of a tree is this recursion.

* `TreeShape.thin`, `thinNode`: a page, and a widget, without the widgets inside that fail the test;
* `thin_thin`: thinning out twice is thinning out once;
* `fits_thinNode`: what can be held by a text still can when it is thinned out;
* `prune_result`: what pruning leaves;
* `prune_removed`: pruning again removes nothing.
-/

namespace ContentVisibility.TreeShape

open Json (Value Members.get? Members.put)

variable (shape : TreeShape) (p : Value → Bool)

/-! ## Thinning out -/

mutual

/-- The widgets that pass the test, each thinned out inside. -/
def thin : List Value → List Value
  | [] => []
  | node :: nodes => if p node then thinNode node :: thin nodes else thin nodes

/-- The widget with the lists of widgets inside it thinned out. -/
def thinNode : Value → Value
  | .object members => .object (thinMembers members)
  | .null => .null
  | .bool b => .bool b
  | .number n => .number n
  | .string s => .string s
  | .array items => .array items

/-- The members of a widget, those under child keys thinned out. -/
def thinMembers : List (String × Value) → List (String × Value)
  | [] => []
  | (key, value) :: members =>
    (key, if key ∈ shape.childKeys then thinChildren value else value) :: thinMembers members

/-- The value under a child key, thinned out if it is a list. -/
def thinChildren : Value → Value
  | .array children => .array (thin children)
  | .null => .null
  | .bool b => .bool b
  | .number n => .number n
  | .string s => .string s
  | .object members => .object members

end

/-- The value of a member, thinned out under a child key. -/
def thinMember (key : String) (value : Value) : Value :=
  if key ∈ shape.childKeys then shape.thinChildren p value else value

theorem thin_eq_map (nodes : List Value) :
    shape.thin p nodes = (nodes.filter p).map (shape.thinNode p) := by
  induction nodes with
  | nil => simp [thin]
  | cons node nodes ih => by_cases h : p node <;> simp [thin, h, ih]

theorem thinMembers_eq_map (members : List (String × Value)) :
    shape.thinMembers p members = members.map fun m => (m.1, shape.thinMember p m.1 m.2) := by
  induction members with
  | nil => simp [thinMembers]
  | cons m members ih => simp [thinMembers, thinMember, ih]

theorem thinNode_object (members : List (String × Value)) :
    shape.thinNode p (.object members) =
      .object (members.map fun m => (m.1, shape.thinMember p m.1 m.2)) := by
  rw [thinNode, thinMembers_eq_map]

theorem thinNode_eq_self {v : Value} (h : ∀ members, v ≠ .object members) :
    shape.thinNode p v = v := by
  cases v with
  | object members => exact absurd rfl (h members)
  | null | bool _ | number _ | string _ | array _ => simp [thinNode]

theorem thinChildren_eq_self {v : Value} (h : ∀ children, v ≠ .array children) :
    shape.thinChildren p v = v := by
  cases v with
  | array children => exact absurd rfl (h children)
  | null | bool _ | number _ | string _ | object _ => simp [thinChildren]

/-! ## Twice and once -/

variable {shape p}

theorem thin_thin_of (hp : ∀ node, p (shape.thinNode p node) = p node) {nodes : List Value}
    (h : ∀ node ∈ nodes, shape.thinNode p (shape.thinNode p node) = shape.thinNode p node) :
    shape.thin p (shape.thin p nodes) = shape.thin p nodes := by
  have hfilter : p ∘ shape.thinNode p = p := funext hp
  rw [thin_eq_map, thin_eq_map, List.filter_map, hfilter, List.filter_filter, List.map_map]
  simp only [Bool.and_self]
  exact List.map_congr_left fun node hm => h node (List.mem_of_mem_filter hm)

theorem thinMember_thinMember {key : String} {value : Value}
    (h : shape.thinChildren p (shape.thinChildren p value) = shape.thinChildren p value) :
    shape.thinMember p key (shape.thinMember p key value) = shape.thinMember p key value := by
  by_cases hk : key ∈ shape.childKeys
  · simp only [thinMember, hk, if_true, h]
  · simp only [thinMember, hk, if_false]

/-- Where the test does not look at what is thinned out, thinning out twice is thinning out once. -/
theorem thinNode_idem (hp : ∀ node, p (shape.thinNode p node) = p node) (v : Value) :
    shape.thinNode p (shape.thinNode p v) = shape.thinNode p v ∧
      shape.thinChildren p (shape.thinChildren p v) = shape.thinChildren p v := by
  induction v using Value.ind with
  | null | bool _ | number _ | string _ => simp [thinNode, thinChildren]
  | array items ih =>
    refine ⟨by simp [thinNode], ?_⟩
    rw [thinChildren, thinChildren, thin_thin_of hp fun node hm => (ih node hm).1]
  | object members ih =>
    refine ⟨?_, by simp [thinChildren]⟩
    rw [thinNode_object, thinNode_object, List.map_map]
    congr 1
    exact List.map_congr_left fun m hm => by simp [thinMember_thinMember (ih m hm).2]

theorem thin_thin (hp : ∀ node, p (shape.thinNode p node) = p node) (nodes : List Value) :
    shape.thin p (shape.thin p nodes) = shape.thin p nodes :=
  thin_thin_of hp fun node _ => (thinNode_idem hp node).1

/-! ## Values that a text can hold -/

theorem depth_thin_le {nodes : List Value} {depth : Nat}
    (h : ∀ node ∈ nodes, (shape.thinNode p node).depth ≤ depth) :
    Value.itemsDepth (shape.thin p nodes) ≤ depth := by
  rw [thin_eq_map, Value.itemsDepth_le_iff]
  intro v hv
  obtain ⟨node, hm, rfl⟩ := List.mem_map.1 hv
  exact h node (List.mem_of_mem_filter hm)

theorem wellFormed_thin {nodes : List Value}
    (h : ∀ node ∈ nodes, (shape.thinNode p node).WellFormed) :
    Value.WellFormedItems (shape.thin p nodes) := by
  rw [thin_eq_map, Value.wellFormedItems_iff]
  intro v hv
  obtain ⟨node, hm, rfl⟩ := List.mem_map.1 hv
  exact h node (List.mem_of_mem_filter hm)

/-- A value that a text can hold is left one when it is thinned out, as a widget or as a list of
children. -/
theorem fits_thinNode (v : Value) : ∀ depth, v.Fits depth →
    (shape.thinNode p v).Fits depth ∧ (shape.thinChildren p v).Fits depth := by
  -- both at once: a list stays as it is as a widget, and an object as a list of children
  induction v using Value.ind with
  | null | bool _ | number _ | string _ =>
    intro depth h
    simp only [thinNode, thinChildren]
    exact ⟨h, h⟩
  | array items ih =>
    rintro depth ⟨hwf, hdepth⟩
    rw [Value.WellFormed, Value.wellFormedItems_iff] at hwf
    refine ⟨by rw [thinNode]; exact ⟨(Value.wellFormedItems_iff items).2 hwf, hdepth⟩, ?_⟩
    obtain ⟨depth, rfl⟩ := Nat.exists_eq_add_one.2 (Nat.lt_of_lt_of_le (Nat.succ_pos _) hdepth)
    rw [Value.depth, Nat.add_le_add_iff_right, Value.itemsDepth_le_iff] at hdepth
    have hall := fun node hm => (ih node hm depth ⟨hwf node hm, hdepth node hm⟩).1
    rw [thinChildren]
    exact ⟨wellFormed_thin fun node hm => (hall node hm).1,
      Nat.succ_le_succ (depth_thin_le fun node hm => (hall node hm).2)⟩
  | object members ih =>
    rintro depth ⟨⟨hnodup, hkey, hwf⟩, hdepth⟩
    refine ⟨?_, by rw [thinChildren]; exact ⟨⟨hnodup, hkey, hwf⟩, hdepth⟩⟩
    obtain ⟨depth, rfl⟩ := Nat.exists_eq_add_one.2 (Nat.lt_of_lt_of_le (Nat.succ_pos _) hdepth)
    rw [Value.depth, Nat.add_le_add_iff_right, Value.membersDepth_le_iff] at hdepth
    rw [Value.wellFormedMembers_iff] at hwf
    have hall : ∀ m ∈ members, (shape.thinMember p m.1 m.2).Fits depth := by
      intro m hm
      unfold thinMember
      split
      · exact (ih m hm depth ⟨hwf m hm, hdepth m hm⟩).2
      · exact ⟨hwf m hm, hdepth m hm⟩
    have hkeys : (members.map fun m => (m.1, shape.thinMember p m.1 m.2)).map Prod.fst =
        members.map Prod.fst := by simp
    rw [thinNode_object]
    refine ⟨⟨hkeys ▸ hnodup, hkeys ▸ hkey, ?_⟩, Nat.succ_le_succ ?_⟩
    · rw [Value.wellFormedMembers_iff]
      intro n hn
      obtain ⟨m, hm, rfl⟩ := List.mem_map.1 hn
      exact (hall m hm).1
    · rw [Value.membersDepth_le_iff]
      intro n hn
      obtain ⟨m, hm, rfl⟩ := List.mem_map.1 hn
      exact (hall m hm).2

/-! ## What pruning leaves -/

section Tally

variable {α β : Type}

theorem result_pure (a : α) : (pure a : Tally α).result = a := rfl

theorem removed_pure (a : α) : (pure a : Tally α).removed = 0 := rfl

theorem result_bind (t : Tally α) (f : α → Tally β) :
    (t >>= f).result = (f t.result).result := rfl

theorem removed_bind (t : Tally α) (f : α → Tally β) :
    (t >>= f).removed = t.removed + (f t.result).removed := rfl

theorem result_mapM (f : α → Tally β) (as : List α) :
    (as.mapM f).result = as.map fun a => (f a).result := by
  induction as with
  | nil => rfl
  | cons a as ih => rw [List.mapM_cons, result_bind, result_bind, result_pure, ih, List.map_cons]

theorem removed_mapM {f : α → Tally β} {as : List α} (h : ∀ a ∈ as, (f a).removed = 0) :
    (as.mapM f).removed = 0 := by
  induction as with
  | nil => rfl
  | cons a as ih =>
    have hothers := ih fun b hb => h b (List.mem_cons_of_mem a hb)
    rw [List.mapM_cons, removed_bind, removed_bind, removed_pure, h a (List.mem_cons_self ..), hothers]

end Tally

/-- The test that pruning makes of a widget. -/
def admits (shape : TreeShape) (allows : Value → Bool) (node : Value) : Bool :=
  (shape.ruleOf node).all allows

theorem result_level (shape : TreeShape) (allows : Value → Bool) (nodes : List Value) :
    (shape.level allows nodes).result = nodes.filter (shape.admits allows) := rfl

theorem removed_level (shape : TreeShape) (allows : Value → Bool) (nodes : List Value) :
    (shape.level allows nodes).removed =
      nodes.length - (nodes.filter (shape.admits allows)).length := rfl

/-- The rule of a widget stands under none of the child keys. -/
def Separate (shape : TreeShape) : Prop := shape.visibilityKey ∉ shape.childKeys

instance (shape : TreeShape) : Decidable shape.Separate :=
  inferInstanceAs (Decidable (shape.visibilityKey ∉ shape.childKeys))

theorem get?_thinned (key : String) (members : List (String × Value)) :
    Members.get? key (members.map fun m => (m.1, shape.thinMember p m.1 m.2)) =
      (Members.get? key members).map (shape.thinMember p key) :=
  Json.Members.get?_map key (shape.thinMember p) members

theorem ruleOf_thinNode (h : shape.Separate) (node : Value) :
    shape.ruleOf (shape.thinNode p node) = shape.ruleOf node := by
  cases node with
  | object members =>
    have hkey : shape.thinMember p shape.visibilityKey = id := by
      funext value
      exact if_neg h
    rw [thinNode_object, ruleOf, ruleOf, get?_thinned, hkey, Option.map_id]
    rfl
  | null | bool _ | number _ | string _ | array _ => simp [thinNode]

theorem admits_thinNode (h : shape.Separate) (allows : Value → Bool) (node : Value) :
    shape.admits allows (shape.thinNode p node) = shape.admits allows node := by
  rw [admits, admits, ruleOf_thinNode h]

section Member

variable {prune : List Value → Tally (List Value)}

/-- The members of a widget, those under some keys thinned out. -/
def thinUnder (shape : TreeShape) (p : Value → Bool) (keys : List String)
    (members : List (String × Value)) : List (String × Value) :=
  members.map fun m => (m.1, if m.1 ∈ keys then shape.thinChildren p m.2 else m.2)

theorem map_fst_thinUnder (keys : List String) (members : List (String × Value)) :
    (shape.thinUnder p keys members).map Prod.fst = members.map Prod.fst := by
  simp [thinUnder]

theorem result_pruneMember {members : List (String × Value)} (hnodup : (members.map Prod.fst).Nodup)
    (h : ∀ key children, (key, Value.array children) ∈ members →
      (prune children).result = shape.thin p children) (key : String) :
    (pruneMember prune members key).result = shape.thinUnder p [key] members := by
  have hother : ∀ m ∈ members, m.1 ≠ key →
      (m.1, if m.1 ∈ [key] then shape.thinChildren p m.2 else m.2) = m := by
    intro m _ hk
    simp [hk]
  cases hget : Members.get? key members with
  | none =>
    have hid : shape.thinUnder p [key] members = members.map id :=
      List.map_congr_left fun m hm => hother m hm (Json.Members.get?_eq_none_iff.1 hget m hm)
    simp only [pruneMember, hget, hid, List.map_id]
    rfl
  | some value =>
    have hvalue : ∀ m ∈ members, m.1 = key → m.2 = value := by
      rintro m hm rfl
      rw [Json.Members.get?_eq_some_of_mem hnodup hm] at hget
      exact Option.some.inj hget
    by_cases hlist : ∃ children, value = .array children
    · obtain ⟨children, rfl⟩ := hlist
      have hkept := h key children (Json.Members.mem_of_get?_eq_some hget)
      have hput := Json.Members.put_eq_map hnodup hget (.array (prune children).result)
      have hresult : (pruneMember prune members key).result =
          Members.put key (.array (prune children).result) members := by
        simp only [pruneMember, hget]
        rfl
      rw [hresult, hput, hkept]
      refine List.map_congr_left fun m hm => ?_
      by_cases hk : m.1 = key
      · simp [hk, hvalue m hm hk, thinChildren]
      · rw [if_neg hk, hother m hm hk]
    -- what is no list is left as it is by both
    · have hid : shape.thinUnder p [key] members = members.map id := by
        refine List.map_congr_left fun m hm => ?_
        by_cases hk : m.1 = key
        · have hsame : shape.thinChildren p m.2 = m.2 :=
            thinChildren_eq_self shape p fun children he => hlist ⟨children, hvalue m hm hk ▸ he⟩
          simp [hsame]
        · exact hother m hm hk
      have hresult : (pruneMember prune members key).result = members := by
        simp only [pruneMember, hget]
        split
        · next children he => exact absurd ⟨children, Option.some.inj he⟩ hlist
        · rfl
      rw [hresult, hid, List.map_id]

theorem thinUnder_thinUnder (hp : ∀ node, p (shape.thinNode p node) = p node) (key : String)
    (keys : List String) (members : List (String × Value)) :
    shape.thinUnder p keys (shape.thinUnder p [key] members) =
      shape.thinUnder p (key :: keys) members := by
  rw [thinUnder, thinUnder, List.map_map]
  refine List.map_congr_left fun m _ => ?_
  have hidem := (thinNode_idem hp m.2).2
  by_cases hkey : m.1 = key <;> by_cases hkeys : m.1 ∈ keys <;> simp_all

/-- What can be held inside `depth` containers still can when it is thinned out under some keys. -/
theorem fits_thinUnder {depth : Nat} {members : List (String × Value)} (keys : List String)
    (h : ∀ m ∈ members, m.2.Fits depth) : ∀ m ∈ shape.thinUnder p keys members, m.2.Fits depth := by
  intro n hn
  obtain ⟨m, hm, rfl⟩ := List.mem_map.1 hn
  by_cases hk : m.1 ∈ keys
  · simpa only [hk, if_true] using (fits_thinNode m.2 depth (h m hm)).2
  · simpa only [hk, if_false] using h m hm

/-- Pruning under one key after another thins out under all of them, also where a key is repeated. -/
theorem result_foldlM_pruneMember {depth : Nat} (hp : ∀ node, p (shape.thinNode p node) = p node)
    (hprune : ∀ children, (Value.array children).Fits depth →
      (prune children).result = shape.thin p children)
    (keys : List String) {members : List (String × Value)} (hnodup : (members.map Prod.fst).Nodup)
    (h : ∀ m ∈ members, m.2.Fits depth) :
    (keys.foldlM (pruneMember prune) members).result = shape.thinUnder p keys members := by
  induction keys generalizing members with
  | nil =>
    have hid : shape.thinUnder p [] members = members.map id :=
      List.map_congr_left fun m _ => by simp
    rw [hid, List.map_id]
    rfl
  | cons key keys ih =>
    have hfirst : (pruneMember prune members key).result = shape.thinUnder p [key] members :=
      result_pruneMember hnodup (fun k children hm => hprune children (h _ hm)) key
    have hnodup' : ((shape.thinUnder p [key] members).map Prod.fst).Nodup := by
      rwa [map_fst_thinUnder]
    have hrest := ih hnodup' (fits_thinUnder [key] h)
    rw [List.foldlM_cons, result_bind, hfirst, hrest, thinUnder_thinUnder hp]

end Member

section Prune

variable {allows : Value → Bool}

theorem result_pruneNode (h : shape.Separate) {prune : List Value → Tally (List Value)} {depth : Nat}
    (hprune : ∀ children, (Value.array children).Fits depth →
      (prune children).result = shape.thin (shape.admits allows) children)
    {node : Value} (hnode : node.Fits (depth + 1)) :
    (shape.pruneNode prune node).result = shape.thinNode (shape.admits allows) node := by
  cases node with
  | object members =>
    obtain ⟨hnodup, hmembers⟩ := hnode.members
    have hfold := result_foldlM_pruneMember (admits_thinNode h allows) hprune shape.childKeys hnodup
      hmembers
    rw [thinNode_object, pruneNode, result_bind, hfold]
    rfl
  | null | bool _ | number _ | string _ | array _ =>
    rw [thinNode]
    rfl

theorem result_pruneLevels (h : shape.Separate) (depth : Nat) {nodes : List Value}
    (hnodes : ∀ node ∈ nodes, node.Fits depth) :
    (shape.pruneLevels allows depth nodes).result = shape.thin (shape.admits allows) nodes := by
  induction depth generalizing nodes with
  | zero =>
    have hself : ∀ node ∈ nodes.filter (shape.admits allows),
        shape.thinNode (shape.admits allows) node = node := by
      intro node hm
      refine thinNode_eq_self shape _ fun members he => ?_
      have hdepth := (hnodes node (List.mem_of_mem_filter hm)).2
      simp [he, Value.depth] at hdepth
    rw [thin_eq_map, List.map_congr_left hself, List.map_id']
    rfl
  | succ depth ih =>
    have hprune : ∀ children, (Value.array children).Fits depth →
        (shape.pruneLevels allows depth children).result =
          shape.thin (shape.admits allows) children :=
      fun children hfits => ih (hfits.items)
    rw [pruneLevels, result_bind, result_level, result_mapM, thin_eq_map]
    exact List.map_congr_left fun node hm =>
      result_pruneNode h hprune (hnodes node (List.mem_of_mem_filter hm))

/-! ## Pruning what has been pruned -/

/-- A list is what thinning out makes of it when all its widgets pass the test and are thinned out. -/
theorem thin_eq_self_iff {nodes : List Value} :
    shape.thin p nodes = nodes ↔
      ∀ node ∈ nodes, p node = true ∧ shape.thinNode p node = node := by
  constructor
  · intro h
    rw [thin_eq_map] at h
    have hlen : (nodes.filter p).length = nodes.length := by
      simpa using congrArg List.length h
    have hfilter : nodes.filter p = nodes :=
      (List.filter_sublist).eq_of_length hlen
    rw [hfilter] at h
    intro node hm
    exact ⟨List.filter_eq_self.1 hfilter node hm,
      List.map_inj_left.1 (h.trans (List.map_id nodes).symm) node hm⟩
  · intro h
    rw [thin_eq_map, List.filter_eq_self.2 fun node hm => (h node hm).1,
      List.map_congr_left fun node hm => (h node hm).2, List.map_id']

theorem removed_pruneMember {prune : List Value → Tally (List Value)} {depth : Nat}
    (hprune : ∀ children, (Value.array children).Fits depth → shape.thin p children = children →
      (prune children).removed = 0)
    {members : List (String × Value)} (hmembers : ∀ m ∈ members, m.2.Fits depth)
    {key : String} (hkey : key ∈ shape.childKeys)
    (hself : ∀ m ∈ members, shape.thinMember p m.1 m.2 = m.2) :
    (pruneMember prune members key).removed = 0 := by
  unfold pruneMember
  split
  · next children hget =>
    have hm := Json.Members.mem_of_get?_eq_some hget
    have hchildren : shape.thin p children = children := by
      have hmember := hself _ hm
      rw [thinMember, if_pos hkey, thinChildren] at hmember
      exact Value.array.inj hmember
    exact hprune children (hmembers _ hm) hchildren
  · rfl

theorem removed_foldlM_pruneMember {prune : List Value → Tally (List Value)} {depth : Nat}
    (hresult : ∀ children, (Value.array children).Fits depth →
      (prune children).result = shape.thin p children)
    (hprune : ∀ children, (Value.array children).Fits depth → shape.thin p children = children →
      (prune children).removed = 0)
    {members : List (String × Value)} (hnodup : (members.map Prod.fst).Nodup)
    (hmembers : ∀ m ∈ members, m.2.Fits depth)
    (hself : ∀ m ∈ members, shape.thinMember p m.1 m.2 = m.2)
    {keys : List String} (hkeys : ∀ key ∈ keys, key ∈ shape.childKeys) :
    (keys.foldlM (pruneMember prune) members).removed = 0 := by
  induction keys with
  | nil => rfl
  | cons key keys ih =>
    have hfirst := removed_pruneMember hprune hmembers (hkeys key (List.mem_cons_self ..)) hself
    have hid : shape.thinUnder p [key] members = members.map id := by
      refine List.map_congr_left fun m hm => Prod.ext rfl ?_
      by_cases hk : m.1 = key
      · have hmember := hself m hm
        rw [thinMember, if_pos (hk ▸ hkeys key (List.mem_cons_self ..))] at hmember
        simpa [hk] using hmember
      · simp [hk]
    have hsame : (pruneMember prune members key).result = members := by
      rw [result_pruneMember hnodup (fun k children hm => hresult children (hmembers _ hm)) key, hid,
        List.map_id]
    rw [List.foldlM_cons, removed_bind, hfirst, hsame,
      ih fun k hk => hkeys k (List.mem_cons_of_mem key hk)]

theorem removed_pruneNode {prune : List Value → Tally (List Value)} {depth : Nat}
    (hresult : ∀ children, (Value.array children).Fits depth →
      (prune children).result = shape.thin p children)
    (hprune : ∀ children, (Value.array children).Fits depth → shape.thin p children = children →
      (prune children).removed = 0)
    {node : Value} (hnode : node.Fits (depth + 1)) (hself : shape.thinNode p node = node) :
    (shape.pruneNode prune node).removed = 0 := by
  cases node with
  | object members =>
    obtain ⟨hnodup, hmembers⟩ := hnode.members
    rw [thinNode_object] at hself
    have hmap := (Value.object.inj hself).trans (List.map_id members).symm
    have hmember : ∀ m ∈ members, shape.thinMember p m.1 m.2 = m.2 :=
      fun m hm => congrArg Prod.snd (List.map_inj_left.1 hmap m hm)
    rw [pruneNode, removed_bind,
      removed_foldlM_pruneMember hresult hprune hnodup hmembers hmember fun _ hk => hk, removed_pure]
  | null | bool _ | number _ | string _ | array _ => rfl

/-- Pruning a page that is thinned out already removes nothing. -/
theorem removed_pruneLevels (h : shape.Separate) (depth : Nat) {nodes : List Value}
    (hnodes : ∀ node ∈ nodes, node.Fits depth)
    (hself : shape.thin (shape.admits allows) nodes = nodes) :
    (shape.pruneLevels allows depth nodes).removed = 0 := by
  induction depth generalizing nodes with
  | zero =>
    have hfilter : nodes.filter (shape.admits allows) = nodes :=
      List.filter_eq_self.2 fun node hm => (thin_eq_self_iff.1 hself node hm).1
    rw [pruneLevels, removed_level, hfilter, Nat.sub_self]
  | succ depth ih =>
    have hall := thin_eq_self_iff.1 hself
    have hfilter : nodes.filter (shape.admits allows) = nodes :=
      List.filter_eq_self.2 fun node hm => (hall node hm).1
    rw [pruneLevels, removed_bind, removed_level, result_level, hfilter, Nat.sub_self, Nat.zero_add]
    refine removed_mapM fun node hm => ?_
    exact removed_pruneNode (fun children hfits => result_pruneLevels h depth (hfits.items))
      (fun children hfits hthin => ih (hfits.items) hthin) (hnodes node hm) (hall node hm).2

/-! ## All levels -/

/-- **Pruning a page thins it out.** -/
theorem prune_result (h : shape.Separate) {nodes : List Value} {depth : Nat}
    (hnodes : ∀ node ∈ nodes, node.Fits depth) :
    (shape.prune allows nodes).result = shape.thin (shape.admits allows) nodes :=
  result_pruneLevels h _ (Value.fits_itemsDepth hnodes)

/-- **Pruning a pruned page removes nothing.** -/
theorem prune_removed (h : shape.Separate) {nodes : List Value} {depth : Nat}
    (hnodes : ∀ node ∈ nodes, node.Fits depth)
    (hself : shape.thin (shape.admits allows) nodes = nodes) :
    (shape.prune allows nodes).removed = 0 :=
  removed_pruneLevels h _ (Value.fits_itemsDepth hnodes) hself

end Prune

end ContentVisibility.TreeShape
