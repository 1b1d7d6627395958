import ContentVisibility.Proofs.Json.Fields
import ContentVisibility.Proofs.Rule.Embedding
import ContentVisibility.Proofs.Rule.Tests
import ContentVisibility.Proofs.Widget.Passes

/-!
# Rules from which positions are gone

The key of the rules may be a child key as well. Then a rule given as a list is a list of widgets, and
pruning takes widgets away from it. The rule that the list describes afterwards has lost conditions and
is otherwise as before, if it is a rule at all.

* `Decoder.Flat`: what a decoder reads holds no object in a list, so that nothing is gone from it;
* `RuleSet.Within`, `Rule.Within`: fewer conditions;
* `Rule.within_cut`: the rule of which less is left has fewer conditions;
* `Rule.Within.holds`: a rule holds that stands between two that hold.
-/

namespace ContentVisibility

open Json (Value Held)

/-! ## Lists without objects -/

/-- The value is no list with an object in it. -/
def Json.Value.Flat (v : Value) : Prop :=
  ∀ items, v = .array items → ∀ item ∈ items, ∀ members, item ≠ .object members

namespace TreeShape

variable {shape : TreeShape} {keep : Nat → List Step → Bool}

/-- Nothing is gone from a list of widgets that are no objects. -/
theorem cut_eq_self {nodes : List Value} (h : shape.Spares keep nodes)
    (hflat : ∀ node ∈ nodes, ∀ members, node ≠ .object members) : shape.cut keep nodes = nodes := by
  induction nodes generalizing keep with
  | nil => simp [cut]
  | cons node nodes ih =>
    have hnode := hflat node (List.mem_cons_self ..)
    have hrest := ih h.tail fun v hv => hflat v (List.mem_cons_of_mem node hv)
    rw [cut, h 0 [] node rfl hnode, if_pos rfl, cutNode_eq_self shape _ hnode, hrest]

theorem cutMember_eq_self {keep : List Step → Bool} {members : List (String × Value)}
    (hnodup : (members.map Prod.fst).Nodup) (h : shape.SparesInside keep (.object members))
    {m : String × Value} (hm : m ∈ members) (hflat : m.2.Flat) :
    shape.cutMember keep m.1 m.2 = m.2 := by
  unfold cutMember
  split
  · next hkey =>
    obtain ⟨key, value⟩ := m
    cases value with
    | array items =>
      have hspares := h key
      rw [childrenAt_of_mem hnodup hm hkey] at hspares
      rw [cutChildren, cut_eq_self hspares (hflat items rfl)]
    | null | bool _ | number _ | string _ | object _ => simp [cutChildren]
  · rfl

end TreeShape

/-! ## Decoders that read no objects in lists -/

namespace Json

variable {α β : Type}

/-- What is read from a value. -/
def Decoder.reads? (d : Decoder α) (v : Value) : Option α := (d.held (Held.presenter.ofValue v)).toOption

/-- The decoder reads no list with an object in it. -/
def Decoder.Flat (d : Decoder α) : Prop := ∀ v a, d.reads? v = some a → v.Flat

theorem Decoder.reads?_array (d : Decoder α) (items : List Value) :
    d.reads? (.array items) = (d.held (.sequence (items.map Held.presenter.ofValue))).toOption := by
  rw [reads?, Builder.ofValue, Builder.ofItems_eq_map]
  rfl

theorem Decoder.reads?_object (d : Decoder α) (members : List (String × Value)) :
    d.reads? (.object members) =
      (d.held (.map (members.map fun m => (m.1, Held.presenter.ofValue m.2)))).toOption := by
  rw [reads?, Builder.ofValue, Builder.ofMembers_eq_map]
  rfl

theorem Decoder.flat_of_array {d : Decoder α} (h : ∀ items, d.reads? (.array items) = none) :
    d.Flat := by
  rintro v a hread items rfl
  rw [h items] at hread
  cases hread

theorem Decoder.flat_word (vocabulary : Vocabulary α) : (word vocabulary).Flat :=
  flat_of_array fun items => by rw [reads?_array]; rfl

theorem Decoder.flat_string : string.Flat := flat_of_array fun items => by rw [reads?_array]; rfl

theorem Decoder.flat_optional {d : Decoder α} (h : d.Flat) : (optional d).Flat := by
  intro v a hread
  cases v with
  | array items =>
    rw [reads?_array] at hread
    have hsome : (some <$> d.held (.sequence (items.map Held.presenter.ofValue))).toOption = some a :=
      hread
    rw [toOption_map, Option.map_eq_some_iff] at hsome
    obtain ⟨a, hread, -⟩ := hsome
    exact h _ a ((reads?_array d items).trans hread)
  | null | bool _ | number _ | string _ | object _ => nofun

theorem Decoder.list_reads?_array (d : Decoder α) (items : List Value) :
    (list d).reads? (.array items) = items.mapM d.reads? := by
  rw [reads?_array]
  show ((items.map Held.presenter.ofValue).mapM d.held).toOption = _
  rw [toOption_mapM, List.mapM_map]
  rfl

theorem Decoder.exists_of_list_reads? {d : Decoder α} {v : Value} {as : List α}
    (h : (list d).reads? v = some as) : ∃ items, v = .array items := by
  cases v with
  | array items => exact ⟨items, rfl⟩
  | number n =>
    have hheld : Held.presenter.ofValue (.number n) = Held.ofForm n := by rw [Builder.ofValue]; rfl
    rw [reads?, hheld, Held.ofForm] at h
    cases hform : n.form <;> rw [hform] at h <;> cases h
  | null | bool _ | string _ | object _ => cases h

theorem exists_of_mapM {f : α → Option β} {as : List α} {bs : List β} (h : as.mapM f = some bs) :
    (∀ a ∈ as, ∃ b ∈ bs, f a = some b) ∧ ∀ b ∈ bs, ∃ a ∈ as, f a = some b := by
  induction as generalizing bs with
  | nil =>
    cases h
    exact ⟨nofun, nofun⟩
  | cons a as ih =>
    rw [List.mapM_cons] at h
    obtain ⟨b, hb, h⟩ := Option.bind_eq_some_iff.1 h
    obtain ⟨bs, hbs, h⟩ := Option.bind_eq_some_iff.1 h
    cases h
    obtain ⟨hto, hfrom⟩ := ih hbs
    constructor
    · intro a' ha'
      rcases List.mem_cons.1 ha' with rfl | ha'
      · exact ⟨b, List.mem_cons_self .., hb⟩
      · obtain ⟨b', hb', hread⟩ := hto a' ha'
        exact ⟨b', List.mem_cons_of_mem b hb', hread⟩
    · intro b' hb'
      rcases List.mem_cons.1 hb' with rfl | hb'
      · exact ⟨a, List.mem_cons_self .., hb⟩
      · obtain ⟨a', ha', hread⟩ := hfrom b' hb'
        exact ⟨a', List.mem_cons_of_mem a ha', hread⟩

theorem Decoder.flat_list {d : Decoder α} (h : ∀ members, d.reads? (.object members) = none) :
    (list d).Flat := by
  rintro v as hread items rfl item hitem members rfl
  rw [list_reads?_array] at hread
  obtain ⟨a, -, hitem⟩ := (exists_of_mapM hread).1 _ hitem
  rw [h members] at hitem
  cases hitem

/-- No field reads a list with an object in it. -/
def Fields.Flat : Fields τ → Prop
  | .done => True
  | .field spec others => spec.decoder.Flat ∧ others.Flat

section Members

variable {members : List (String × Value)} {g : String × Value → Value}

theorem FieldSpec.own_map (spec : FieldSpec α) (f : String × Value → Held) :
    spec.own (members.map fun m => (m.1, f m)) =
      (members.filter fun m => spec.answersTo m.1).map fun m => (m.1, f m) := by
  rw [own, List.filter_map]
  rfl

theorem FieldSpec.others_map (spec : FieldSpec α) (f : String × Value → Held) :
    spec.others (members.map fun m => (m.1, f m)) =
      (members.filter fun m => !spec.answersTo m.1).map fun m => (m.1, f m) := by
  rw [others, List.filter_map]
  rfl

theorem FieldSpec.pick_map_eq_some {spec : FieldSpec α} {a : α} :
    spec.pick (members.map fun m => (m.1, Held.presenter.ofValue (g m))) = some a ↔
      ((members.filter fun m => spec.answersTo m.1) = [] ∧ spec.absent = some a) ∨
        ∃ m, (members.filter fun m => spec.answersTo m.1) = [m] ∧
          spec.decoder.reads? (g m) = some a := by
  rw [pick, own_map]
  generalize members.filter (fun m => spec.answersTo m.1) = own
  rcases own with _ | ⟨m, _ | ⟨n, ms⟩⟩ <;> simp [Decoder.reads?]

/-- A field is picked alike from members of which only those are changed that no field reads. -/
theorem FieldSpec.pick_map {spec : FieldSpec α} (hspec : spec.decoder.Flat)
    (hg : ∀ m ∈ members, m.2.Flat → g m = m.2) {a : α}
    (h : spec.pick (members.map fun m => (m.1, Held.presenter.ofValue m.2)) = some a) :
    spec.pick (members.map fun m => (m.1, Held.presenter.ofValue (g m))) = some a := by
  rw [pick_map_eq_some] at h ⊢
  rcases h with habsent | ⟨m, hown, hread⟩
  · exact .inl habsent
  · have hm : m ∈ members := List.mem_of_mem_filter (hown ▸ List.mem_singleton_self m)
    exact .inr ⟨m, hown, by rw [hg m hm (hspec m.2 a hread), hread]⟩

theorem Fields.pick_map {fields : Fields τ} (hfields : fields.Flat)
    (hg : ∀ m ∈ members, m.2.Flat → g m = m.2) {t : τ}
    (h : fields.pick (members.map fun m => (m.1, Held.presenter.ofValue m.2)) = some t) :
    fields.pick (members.map fun m => (m.1, Held.presenter.ofValue (g m))) = some t := by
  induction fields generalizing members with
  | done => exact h
  | field spec others ih =>
    rw [pick, Option.bind_eq_some_iff] at h ⊢
    obtain ⟨a, ha, h⟩ := h
    refine ⟨a, spec.pick_map hfields.1 hg ha, ?_⟩
    rw [Option.map_eq_some_iff] at h ⊢
    obtain ⟨rest, hrest, rfl⟩ := h
    rw [spec.others_map] at hrest ⊢
    exact ⟨rest, ih hfields.2 (fun m hm => hg m (List.mem_of_mem_filter hm)) hrest, rfl⟩

end Members

/-- A record of one field held back as a list. -/
theorem Decoder.held_record_single {title : String} {spec : FieldSpec α} {build : α × Unit → β}
    (items : List Held) {b : β}
    (h : ((record title (.field spec .done) build).held (.sequence items)).toOption = some b) :
    (items = [] ∧ spec.absent.isSome) ∨ ∃ item a, items = [item] ∧
      (spec.decoder.held item).toOption = some a ∧ build (a, ()) = b := by
  rw [held_record_sequence] at h
  rcases items with _ | ⟨item, _ | ⟨extra, items⟩⟩
  · refine .inl ⟨rfl, ?_⟩
    cases habsent : spec.absent with
    | some a => rfl
    | none =>
      simp only [Fields.positionalHeld, habsent] at h
      cases h
  · refine .inr ⟨item, ?_⟩
    cases hitem : spec.decoder.held item with
    | ok a =>
      simp only [Fields.positionalHeld, hitem] at h
      exact ⟨a, rfl, rfl, Option.some.inj h⟩
    | error problem =>
      simp only [Fields.positionalHeld, hitem] at h
      cases h
  · simp only [Fields.positionalHeld] at h
    cases hitem : spec.decoder.held item <;> simp [hitem, bind, Except.bind, pure, Except.pure,
      Except.toOption] at h

end Json

/-! ## Conditions -/

open Json Json.Decoder

variable {shape : TreeShape}

theorem Condition.decoder_reads?_cutNode {v : Value} (hwf : v.WellFormed) {keep : List Step → Bool}
    (h : shape.SparesInside keep v) {c : Condition} (hread : decoder.reads? v = some c) :
    decoder.reads? (shape.cutNode keep v) = some c := by
  cases v with
  | object members =>
    rw [TreeShape.cutNode, TreeShape.cutMembers_eq_map]
    rw [reads?_object] at hread ⊢
    rw [List.map_map]
    rw [decoder, held_record_map, Option.map_eq_some_iff] at hread ⊢
    obtain ⟨t, hpick, rfl⟩ := hread
    refine ⟨t, Fields.pick_map (g := fun m => shape.cutMember keep m.1 m.2) ?_ ?_ hpick, rfl⟩
    · exact ⟨flat_word _, flat_word _, flat_optional flat_string,
        flat_optional (flat_list fun members => rfl), trivial⟩
    · exact fun m hm => TreeShape.cutMember_eq_self hwf.1 h hm
  | null | bool _ | number _ | string _ | array _ => simpa [TreeShape.cutNode] using hread

/-- Of a list of conditions that has lost some, fewer are read. -/
theorem Condition.decoder_reads?_cut {items : List Value} (hwf : ∀ item ∈ items, item.WellFormed)
    {keep keep' : Nat → List Step → Bool} (hle : ∀ i steps, keep i steps = true → keep' i steps = true)
    (hspares : shape.Spares keep items) {cs₀ cs cs' : List Condition}
    (h₀ : (list decoder).reads? (.array items) = some cs₀)
    (h : (list decoder).reads? (.array (shape.cut keep items)) = some cs)
    (h' : (list decoder).reads? (.array (shape.cut keep' items)) = some cs') : cs ⊆ cs' := by
  rw [list_reads?_array] at h₀ h h'
  intro c hc
  obtain ⟨_, hitem, hread⟩ := (exists_of_mapM h).2 c hc
  obtain ⟨i, item, hat, hkeep, rfl⟩ := TreeShape.mem_cut.1 hitem
  have hmem : item ∈ items := List.mem_of_getElem? hat
  obtain ⟨c₀, -, hwhole⟩ := (exists_of_mapM h₀).1 item hmem
  have hspares' := hspares.mono hle
  -- what is left of the condition reads as the whole condition, in both lists
  have hleft := decoder_reads?_cutNode (hwf item hmem) (hspares.inside hat) hwhole
  have hleft' := decoder_reads?_cutNode (hwf item hmem) (hspares'.inside hat) hwhole
  obtain rfl : c₀ = c := Option.some.inj (hleft.symm.trans hread)
  obtain ⟨c', hc', hread'⟩ := (exists_of_mapM h').1 _
    (TreeShape.mem_cut.2 ⟨i, item, hat, hle i [] hkeep, rfl⟩)
  obtain rfl : c₀ = c' := Option.some.inj (hleft'.symm.trans hread')
  exact hc'

theorem Condition.decoder_reads?_cutMember {members : List (String × Value)}
    (hwf : (Value.object members).WellFormed) {keep keep' : List Step → Bool}
    (hle : ∀ steps, keep steps = true → keep' steps = true)
    (hspares : shape.SparesInside keep (.object members)) {m : String × Value} (hm : m ∈ members)
    {cs₀ cs cs' : List Condition} (h₀ : (list decoder).reads? m.2 = some cs₀)
    (h : (list decoder).reads? (shape.cutMember keep m.1 m.2) = some cs)
    (h' : (list decoder).reads? (shape.cutMember keep' m.1 m.2) = some cs') : cs ⊆ cs' := by
  obtain ⟨hnodup, -, hmembers⟩ := hwf
  rw [Value.wellFormedMembers_iff] at hmembers
  by_cases hkey : m.1 ∈ shape.childKeys
  · simp only [TreeShape.cutMember, hkey, if_true] at h h'
    obtain ⟨key, value⟩ := m
    obtain ⟨items, rfl⟩ := exists_of_list_reads? h₀
    have hitems := hmembers _ hm
    rw [Value.WellFormed, Value.wellFormedItems_iff] at hitems
    have hlist := hspares key
    rw [TreeShape.childrenAt_of_mem hnodup hm hkey] at hlist
    rw [TreeShape.cutChildren] at h h'
    exact decoder_reads?_cut hitems (fun i steps => hle _) hlist h₀ h h'
  · simp only [TreeShape.cutMember, hkey, if_false] at h h'
    obtain rfl : cs = cs' := Option.some.inj (h.symm.trans h')
    exact List.Subset.refl cs

/-! ## Sets of conditions -/

namespace RuleSet

/-- The set has no other conditions, and as many of its conditions must hold. -/
structure Within (set set' : RuleSet) : Prop where
  logic : set.logic = set'.logic
  conditions : set.conditions ⊆ set'.conditions

theorem within_refl (set : RuleSet) : set.Within set := ⟨rfl, List.Subset.refl _⟩

def logicField : FieldSpec Logic := .defaulted "logic" (word Logic.vocabulary) .and

def conditionsField : FieldSpec (List Condition) :=
  .defaulted "conditions" (list Condition.decoder) []

theorem decoder_reads?_object {members : List (String × Value)} {g : String × Value → Value}
    {set : RuleSet}
    (h : decoder.reads? (.object (members.map fun m => (m.1, g m))) = some set) :
    logicField.pick (members.map fun m => (m.1, Held.presenter.ofValue (g m))) = some set.logic ∧
      conditionsField.pick ((members.filter fun m => !logicField.answersTo m.1).map fun m =>
        (m.1, Held.presenter.ofValue (g m))) = some set.conditions := by
  rw [reads?_object, List.map_map, decoder, held_record_map, Option.map_eq_some_iff] at h
  obtain ⟨⟨logic, conditions, ⟨⟩⟩, hpick, rfl⟩ := h
  rw [Fields.pick, Option.bind_eq_some_iff] at hpick
  obtain ⟨_, hlogic, hpick⟩ := hpick
  rw [Option.map_eq_some_iff] at hpick
  obtain ⟨_, hpick, heq⟩ := hpick
  cases heq
  rw [Fields.pick, Option.bind_eq_some_iff] at hpick
  obtain ⟨_, hconditions, hpick⟩ := hpick
  cases hpick
  refine ⟨hlogic, ?_⟩
  rw [← FieldSpec.others_map]
  exact hconditions

/-- Of a set that has lost some conditions fewer are read, and it is otherwise the same set. -/
theorem within_cutNode {v : Value} (hwf : v.WellFormed) {keep keep' : List Step → Bool}
    (hle : ∀ steps, keep steps = true → keep' steps = true) (hspares : shape.SparesInside keep v)
    {set₀ set set' : RuleSet} (h₀ : decoder.reads? v = some set₀)
    (h : decoder.reads? (shape.cutNode keep v) = some set)
    (h' : decoder.reads? (shape.cutNode keep' v) = some set') : set.Within set' := by
  cases v with
  | null | bool _ | number _ | string _ | array _ =>
    simp only [TreeShape.cutNode] at h h'
    obtain rfl : set = set' := Option.some.inj (h.symm.trans h')
    exact set.within_refl
  | object members =>
    have hspares' : shape.SparesInside keep' (.object members) :=
      fun key => (hspares key).mono fun i steps => hle _
    rw [TreeShape.cutNode, TreeShape.cutMembers_eq_map] at h h'
    rw [← List.map_id members] at h₀
    obtain ⟨hlogic₀, hconditions₀⟩ := decoder_reads?_object (g := Prod.snd) h₀
    obtain ⟨hlogic, hconditions⟩ := decoder_reads?_object h
    obtain ⟨hlogic', hconditions'⟩ := decoder_reads?_object h'
    -- the logic is a word, from which nothing can be gone; the conditions are a list
    constructor
    · have hleft := FieldSpec.pick_map (flat_word _)
        (fun m hm => TreeShape.cutMember_eq_self hwf.1 hspares hm) hlogic₀
      have hleft' := FieldSpec.pick_map (flat_word _)
        (fun m hm => TreeShape.cutMember_eq_self hwf.1 hspares' hm) hlogic₀
      exact Option.some.inj <|
        (hlogic.symm.trans hleft).trans (hleft'.symm.trans hlogic')
    · rw [FieldSpec.pick_map_eq_some] at hconditions₀ hconditions hconditions'
      rcases hconditions with ⟨hown, habsent⟩ | ⟨m, hown, hread⟩
      · rw [← Option.some.inj habsent]
        exact List.nil_subset _
      · have hm : m ∈ members :=
          List.mem_of_mem_filter (List.mem_of_mem_filter (hown ▸ List.mem_singleton_self m))
        simp only [hown, List.cons_ne_nil, false_and, List.cons.injEq, and_true, exists_eq_left',
          false_or] at hconditions₀ hconditions'
        exact Condition.decoder_reads?_cutMember hwf hle hspares hm hconditions₀ hread hconditions'

end RuleSet

/-! ## Rules -/

namespace Rule

/-- The rule has no other conditions, and is otherwise the same rule. -/
inductive Within : Rule → Rule → Prop
  | refl (rule : Rule) : Within rule rule
  | rules {set set' : RuleSet} (h : set.Within set') : Within (.rules set) (.rules set')

/-- A list that describes a rule names the kind first. -/
theorem exists_of_ofValue_array {items : List Value} {rule : Rule}
    (h : (ofValue (.array items)).toOption = some rule) :
    ∃ first others kind, items = first :: others ∧ kinds.kind? first = some kind ∧
      (ofHeld kind (.sequence (others.map Held.presenter.ofValue))).toOption = some rule := by
  have hkinds := kinds.ofValue_array items
  rw [ofValue] at h
  rcases hread : kinds.ofValue (.array items) with problem | ⟨kind, rest⟩
  · rw [hread] at h
    cases h
  · rw [hread] at h hkinds
    have hrule : (ofHeld kind rest).toOption = some rule := by
      rw [← h]
      cases hheld : ofHeld kind rest <;> simp only [hheld] <;> rfl
    split at hkinds
    · obtain ⟨named, hnamed, heq⟩ := Option.map_eq_some_iff.1 hkinds.symm
      cases heq
      cases items with
      | nil => cases hnamed
      | cons first others =>
        refine ⟨first, others, kind, rfl, hnamed, ?_⟩
        rwa [Kinds.remainder, List.tail_cons, Builder.ofValue, Builder.ofItems_eq_map] at hrule
    · cases hkinds

theorem ne_object_of_kind? {v : Value} {kind : RuleKind} (h : kinds.kind? v = some kind)
    (members : List (String × Value)) : v ≠ .object members := by
  rintro rfl
  cases h

theorem eq_all_of_all {rest : Held} {rule : Rule} (h : (ofHeld .all rest).toOption = some rule) :
    rule = .all := by
  rw [ofHeld] at h
  cases hrest : rest.noFields <;> rw [hrest] at h <;> cases h
  rfl

theorem flat_of_groups {others : List Value} {rule : Rule}
    (h : (ofHeld .groups (.sequence (others.map Held.presenter.ofValue))).toOption = some rule) :
    ∀ v ∈ others, ∀ members, v ≠ .object members := by
  rcases held_record_single _ h with ⟨hnil, -⟩ | ⟨item, groups, hitem, hread, -⟩
  · obtain rfl := List.map_eq_nil_iff.1 hnil
    nofun
  · obtain ⟨v, rfl, rfl⟩ := List.map_eq_singleton_iff.1 hitem
    have hids : (Catalog.ofList <$> (list .id).held (Held.presenter.ofValue v)).toOption =
        some groups := hread
    rw [toOption_map, Option.map_eq_some_iff] at hids
    obtain ⟨ids, hids, -⟩ := hids
    obtain ⟨items, rfl⟩ := exists_of_list_reads? hids
    simp

theorem exists_of_rules {others : List Value} {rule : Rule}
    (h : (ofHeld .rules (.sequence (others.map Held.presenter.ofValue))).toOption = some rule) :
    ∃ v set, others = [v] ∧ RuleSet.decoder.reads? v = some set ∧ rule = .rules set := by
  rcases held_record_single _ h with ⟨-, habsent⟩ | ⟨item, set, hitem, hread, rfl⟩
  · cases habsent
  · obtain ⟨v, rfl, rfl⟩ := List.map_eq_singleton_iff.1 hitem
    exact ⟨v, set, rfl, hread, rfl⟩

section Cut

variable {keep keep' : Nat → List Step → Bool} {rule₀ rule rule' : Rule}

theorem within_cut_rest (hle : ∀ i steps, keep i steps = true → keep' i steps = true) {kind : RuleKind}
    {others : List Value} (hwf : ∀ v ∈ others, v.WellFormed) (hspares : shape.Spares keep others)
    (h₀ : (ofHeld kind (.sequence (others.map Held.presenter.ofValue))).toOption = some rule₀)
    (h : (ofHeld kind (.sequence ((shape.cut keep others).map Held.presenter.ofValue))).toOption =
      some rule)
    (h' : (ofHeld kind (.sequence ((shape.cut keep' others).map Held.presenter.ofValue))).toOption =
      some rule') : rule.Within rule' := by
  have hspares' := hspares.mono hle
  cases kind with
  | all =>
    obtain rfl := eq_all_of_all h
    obtain rfl := eq_all_of_all h'
    exact .refl .all
  | groups =>
    have hflat := flat_of_groups h₀
    rw [TreeShape.cut_eq_self hspares hflat] at h
    rw [TreeShape.cut_eq_self hspares' hflat] at h'
    obtain rfl := Option.some.inj (h.symm.trans h')
    exact .refl rule
  | rules =>
    obtain ⟨v, set₀, rfl, hread₀, -⟩ := exists_of_rules h₀
    obtain ⟨w, set, hw, hread, rfl⟩ := exists_of_rules h
    obtain ⟨w', set', hw', hread', rfl⟩ := exists_of_rules h'
    -- the set itself is left in both, as each reads as a rule
    obtain rfl := TreeShape.eq_cutNode_of_cut_singleton hw
    obtain rfl := TreeShape.eq_cutNode_of_cut_singleton hw'
    exact .rules <| RuleSet.within_cutNode (hwf v (List.mem_singleton_self v)) (hle 0)
      (hspares.inside rfl) hread₀ hread hread'

/-- **The rule of which less is left has fewer conditions**, if all are rules. -/
theorem within_cut (hle : ∀ i steps, keep i steps = true → keep' i steps = true) {items : List Value}
    (hwf : ∀ item ∈ items, item.WellFormed) (hspares : shape.Spares keep items)
    (h₀ : (ofValue (.array items)).toOption = some rule₀)
    (h : (ofValue (.array (shape.cut keep items))).toOption = some rule)
    (h' : (ofValue (.array (shape.cut keep' items))).toOption = some rule') : rule.Within rule' := by
  obtain ⟨first, others, kind, rfl, hkind, h₀⟩ := exists_of_ofValue_array h₀
  have hword := ne_object_of_kind? hkind
  have hcut : ∀ k : Nat → List Step → Bool, shape.Spares k (first :: others) →
      shape.cut k (first :: others) = first :: shape.cut (fun i => k (i + 1)) others := by
    intro k hk
    rw [TreeShape.cut, hk 0 [] first rfl hword, if_pos rfl, TreeShape.cutNode_eq_self shape _ hword]
  rw [hcut keep hspares] at h
  rw [hcut keep' (hspares.mono hle)] at h'
  obtain ⟨_, _, _, heq, hkind₁, h⟩ := exists_of_ofValue_array h
  cases heq
  obtain rfl := Option.some.inj (hkind.symm.trans hkind₁)
  obtain ⟨_, _, _, heq, hkind₂, h'⟩ := exists_of_ofValue_array h'
  cases heq
  obtain rfl := Option.some.inj (hkind.symm.trans hkind₂)
  exact within_cut_rest (fun i => hle (i + 1)) (fun v hv => hwf v (List.mem_cons_of_mem first hv))
    hspares.tail h₀ h h'

end Cut

end Rule

/-! ## Decisions -/

/-- A set holds that stands between two that hold. -/
theorem RuleSet.Within.holds {set set' set'' : RuleSet} (h : set.Within set') (h' : set'.Within set'')
    {user : User} (hfew : (set.decide user).holds = true) (hmany : (set''.decide user).holds = true) :
    (set'.decide user).holds = true := by
  rw [decide] at hfew hmany ⊢
  rw [h.logic] at hfew
  rw [← h'.logic] at hmany
  cases hlogic : set'.logic with
  | or =>
    simp only [hlogic] at hfew ⊢
    rw [Condition.holds_decideUntil] at hfew ⊢
    obtain ⟨c, hc, hholds⟩ := hfew
    exact ⟨c, h.conditions hc, hholds⟩
  | and =>
    simp only [hlogic] at hmany ⊢
    rw [← Bool.not_eq_false, Condition.holds_decideUntil] at hmany ⊢
    rintro ⟨c, hc, hfails⟩
    exact hmany ⟨c, h'.conditions hc, hfails⟩

/-- **A rule holds that stands between two that hold.** -/
theorem Rule.Within.holds {rule rule' rule'' : Rule} (h : rule.Within rule') (h' : rule'.Within rule'')
    {user : User} (hfew : (rule.decide user).holds = true)
    (hmany : (rule''.decide user).holds = true) : (rule'.decide user).holds = true := by
  cases h with
  | refl => exact hfew
  | rules h =>
    cases h' with
    | refl => exact hmany
    | rules h' => exact h.holds h' hfew hmany

end ContentVisibility
