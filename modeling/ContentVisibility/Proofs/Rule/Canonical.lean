import ContentVisibility.Proofs.Identifier.Order
import ContentVisibility.Proofs.Rule.Listed

/-!
# The written form of a rule that lists groups

A rule that lists groups keeps a set of them. How the list was written, in which order and with which
repetitions, is forgotten: the rule is written with each group once, in ascending order.

* `GroupSet.ofList_eq_iff`: lists make the same set if they have the same members;
* `Rule.parse_listValue_eq_ok_iff`, `Rule.spelled_iff_of_mapM`: what is read from a list of texts;
* `Rule.listed_canonical`: the one written form, and that it and the decisions depend on the set only.
-/

namespace ContentVisibility

/-! ## Sets of groups -/

namespace GroupSet

/-- A set is known by its members. -/
theorem ext_mem {groups others : GroupSet} (h : ∀ group, group ∈ groups.entries ↔ group ∈ others.entries) :
    groups = others := by
  have hnodup : ∀ set : GroupSet, set.entries.Nodup := by
    intro set
    refine List.Pairwise.imp ?_ set.ascending
    rintro a b hless rfl
    exact Nat.lt_irrefl _ hless
  have hperm : groups.entries.Perm others.entries :=
    (List.perm_ext_iff_of_nodup (hnodup groups) (hnodup others)).2 h
  refine Catalog.ext (hperm.eq_of_pairwise ?_ groups.ascending others.ascending)
  intro a b _ _ hab hba
  exact absurd hab (Nat.lt_asymm hba)

theorem mem_entries_ofList (groups : List GroupId) (group : GroupId) :
    group ∈ (Catalog.ofList groups : GroupSet).entries ↔ group ∈ groups := by
  rw [← contains_iff, contains_ofList]

theorem ofList_eq_iff {groups others : List GroupId} :
    (Catalog.ofList groups : GroupSet) = Catalog.ofList others ↔
      ∀ group, group ∈ groups ↔ group ∈ others := by
  constructor
  · intro h group
    rw [← mem_entries_ofList groups, h, mem_entries_ofList]
  · intro h
    refine ext_mem fun group => ?_
    rw [mem_entries_ofList, mem_entries_ofList, h group]

end GroupSet

namespace Rule

/-! ## Lists of texts -/

/-- One of the texts spells the group. -/
def Spelled (texts : List String) (group : GroupId) : Prop :=
  ∃ s ∈ texts, Identifier.spelled? s.toList = some group

theorem spelled_iff_of_mapM {texts : List String} {groups : List GroupId}
    (h : (texts.mapM fun s => (Identifier.spelled? s.toList : Option GroupId)) = some groups)
    (group : GroupId) : Spelled texts group ↔ group ∈ groups := by
  induction texts generalizing groups with
  | nil =>
    obtain rfl : [] = groups := Option.some.inj h
    simp [Spelled]
  | cons s texts ih =>
    rw [List.mapM_cons] at h
    obtain ⟨first, hfirst, h⟩ := Option.bind_eq_some_iff.1 h
    obtain ⟨others, hothers, h⟩ := Option.bind_eq_some_iff.1 h
    obtain rfl : first :: others = groups := Option.some.inj h
    have hrest := ih hothers
    rw [Spelled] at hrest ⊢
    rw [List.mem_cons, ← hrest, List.exists_mem_cons_iff, hfirst, Option.some.injEq, @eq_comm _ first]

theorem exists_mapM_spelled?_iff (texts : List String) :
    (∃ groups, (texts.mapM fun s => (Identifier.spelled? s.toList : Option GroupId)) = some groups) ↔
      ∀ s ∈ texts, ∃ group : GroupId, Identifier.spelled? s.toList = some group := by
  induction texts with
  | nil => exact ⟨nofun, fun _ => ⟨[], rfl⟩⟩
  | cons s texts ih =>
    rw [List.forall_mem_cons, ← ih, List.mapM_cons]
    constructor
    · rintro ⟨groups, h⟩
      obtain ⟨first, hfirst, h⟩ := Option.bind_eq_some_iff.1 h
      obtain ⟨others, hothers, -⟩ := Option.bind_eq_some_iff.1 h
      exact ⟨⟨first, hfirst⟩, others, hothers⟩
    · rintro ⟨⟨first, hfirst⟩, others, hothers⟩
      exact ⟨first :: others, by rw [hfirst, hothers]; rfl⟩

theorem parse_listValue_eq_ok_iff {texts : List String} {rule : Rule} :
    parse (listValue texts).text = .ok rule ↔ ∃ groups : List GroupId,
      (texts.mapM fun s => (Identifier.spelled? s.toList : Option GroupId)) = some groups ∧
        .groups (Catalog.ofList groups) = rule := by
  rw [← Option.map_eq_some_iff, ← parse_listValue]
  cases parse (listValue texts).text <;> simp [Except.toOption]

theorem text_groups (set : GroupSet) :
    (groups set).text = (listValue (set.entries.map Identifier.text)).text := by
  rw [text, json, listValue, GroupSet.json, List.map_map]
  rfl

/-- **A rule that lists groups is a set of groups with one written form.** A list of texts is accepted if
each of them spells a group. Each group that is spelled is written once, with lower-case digits and
hyphens, in ascending order of the numbers, which is the order of the written texts, too. Lists that
spell the same groups make rules that are written alike and decide alike. -/
theorem listed_canonical (texts : List String) :
    ((∃ rule, parse (listValue texts).text = .ok rule) ↔
      ∀ s ∈ texts, ∃ id : GroupId, Identifier.spelled? s.toList = some id) ∧
    ∀ rule, parse (listValue texts).text = .ok rule →
      (∃ ids : List GroupId,
        rule.text = (listValue (ids.map Identifier.text)).text ∧
        (∀ id, id ∈ ids ↔ Spelled texts id) ∧
        (∀ id ∈ ids, Identifier.Hyphenated id.text) ∧
        ids.Pairwise (fun id id' => id.number < id'.number) ∧
        (ids.map Identifier.text).Pairwise (· < ·)) ∧
      ∀ texts' rule', parse (listValue texts').text = .ok rule' →
        (∀ id, Spelled texts id ↔ Spelled texts' id) →
        rule'.text = rule.text ∧ ∀ user, rule'.decide user = rule.decide user := by
  constructor
  · rw [← exists_mapM_spelled?_iff]
    constructor
    · rintro ⟨rule, h⟩
      obtain ⟨groups, hgroups, -⟩ := parse_listValue_eq_ok_iff.1 h
      exact ⟨groups, hgroups⟩
    · rintro ⟨groups, hgroups⟩
      exact ⟨_, parse_listValue_eq_ok_iff.2 ⟨groups, hgroups, rfl⟩⟩
  intro rule h
  obtain ⟨groups, hgroups, rfl⟩ := parse_listValue_eq_ok_iff.1 h
  have hspelled := spelled_iff_of_mapM hgroups
  constructor
  · have hascending := (Catalog.ofList groups : GroupSet).ascending
    refine ⟨(Catalog.ofList groups : GroupSet).entries, text_groups _, fun id => ?_,
      fun id _ => id.hyphenated_text, hascending, ?_⟩
    · rw [GroupSet.mem_entries_ofList, hspelled]
    · exact List.pairwise_map.2 (hascending.imp fun hless => (Identifier.text_lt_iff _ _).2 hless)
  · intro texts' rule' h' hsame
    obtain ⟨groups', hgroups', rfl⟩ := parse_listValue_eq_ok_iff.1 h'
    have hspelled' := spelled_iff_of_mapM hgroups'
    have hset : (Catalog.ofList groups' : GroupSet) = Catalog.ofList groups :=
      GroupSet.ofList_eq_iff.2 fun group => by rw [← hspelled', ← hspelled, hsame]
    rw [hset]
    exact ⟨rfl, fun _ => rfl⟩

/-- Two groups, one of them twice, in several spellings. -/
def respelledTexts : List String :=
  ["{FFFFFFFF-0000-0000-0000-00000000000A}", "0000000000000000000000000000000b",
    "urn:uuid:ffffffff-0000-0000-0000-00000000000a"]

/-- The same groups in their written forms. -/
def writtenTexts : List String :=
  ["00000000-0000-0000-0000-00000000000b", "ffffffff-0000-0000-0000-00000000000a"]

theorem listed_canonical_respelledTexts : ∃ rule rule' : Rule,
    parse (listValue respelledTexts).text = .ok rule ∧
    parse (listValue writtenTexts).text = .ok rule' ∧
    rule.text = (listValue writtenTexts).text ∧ rule'.text = rule.text := by
  let low : GroupId := .ofNumber 0xb
  let high : GroupId := .ofNumber 0xffffffff00000000000000000000000a
  have hrespelled : (respelledTexts.mapM fun s => (Identifier.spelled? s.toList : Option GroupId)) =
      some [high, low, high] := by decide +kernel
  have hwritten : (writtenTexts.mapM fun s => (Identifier.spelled? s.toList : Option GroupId)) =
      some [low, high] := by decide +kernel
  have hrule : parse (listValue respelledTexts).text = .ok (.groups (Catalog.ofList [high, low, high])) :=
    parse_listValue_eq_ok_iff.2 ⟨_, hrespelled, rfl⟩
  have hrule' : parse (listValue writtenTexts).text = .ok (.groups (Catalog.ofList [low, high])) :=
    parse_listValue_eq_ok_iff.2 ⟨_, hwritten, rfl⟩
  have hsame : ∀ id, Spelled respelledTexts id ↔ Spelled writtenTexts id := by
    intro id
    rw [spelled_iff_of_mapM hrespelled, spelled_iff_of_mapM hwritten]
    simp only [List.mem_cons, List.not_mem_nil, or_false]
    constructor
    · rintro (h | h | h)
      exacts [.inr h, .inl h, .inr h]
    · exact .inr
  have htext : (groups (Catalog.ofList [high, low, high])).text = (listValue writtenTexts).text := by
    rw [text_groups]
    exact congrArg (fun texts => (listValue texts).text) (by decide +kernel)
  exact ⟨_, _, hrule, hrule', htext,
    (((listed_canonical respelledTexts).2 _ hrule).2 _ _ hrule' hsame).1⟩

end Rule

end ContentVisibility
