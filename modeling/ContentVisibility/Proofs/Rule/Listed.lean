import ContentVisibility.Proofs.Rule.Tests
import ContentVisibility.Proofs.Rule.Written
import ContentVisibility.Proofs.User.Groups

/-!
# Groups listed by a rule and by its conditions

The members of some groups are admitted by a rule that lists the groups, and by a rule with a condition
of membership for each of which one must hold. The list takes the texts of the groups as they stand, the
conditions take them without the blank characters around them.

* `Rule.parse_listValue`: how a list of texts is read;
* `mapM_spelled?`: a list of texts that name groups is read if none has blank characters around it;
* `Rule.decide_ofList_iff`, `Rule.decide_anyOf_iff`: either rule admits the members of the groups.
-/

namespace ContentVisibility

open Json (Value Held Decoder)

/-- The user belongs to one of the groups that the texts name. -/
def User.BelongsTo (user : User) (texts : List String) : Prop :=
  ∃ s ∈ texts, ∃ group : GroupId, Identifier.parse s = .ok group ∧ user.isMemberOf group = true

theorem User.belongsTo_iff {user : User} {texts : List String} : user.BelongsTo texts ↔
    ∃ group ∈ Condition.groupsAmong texts, user.isMemberOf group = true := by
  simp only [BelongsTo, Condition.groupsAmong, List.mem_filterMap, Identifier.parse_eq_ok_iff]
  constructor
  · rintro ⟨s, hs, group, hread, hmember⟩
    exact ⟨group, ⟨s, hs, hread⟩, hmember⟩
  · rintro ⟨group, ⟨s, hs, hread⟩, hmember⟩
    exact ⟨s, hs, group, hread, hmember⟩

/-! ## Lists of texts -/

/-- Texts that all name groups are read as a list if none has blank characters around it. -/
theorem mapM_spelled? {texts : List String}
    (h : ∀ s ∈ texts, ∃ group : GroupId, Identifier.parse s = .ok group) :
    (texts.mapM fun s => (Identifier.spelled? s.toList : Option GroupId)) =
      if ∀ s ∈ texts, Text.trim s = s then some (Condition.groupsAmong texts) else none := by
  induction texts with
  | nil => rfl
  | cons s texts ih =>
    have hothers := ih fun t ht => h t (List.mem_cons_of_mem s ht)
    obtain ⟨group, hgroup⟩ := h s (List.mem_cons_self ..)
    rw [Identifier.parse_eq_ok_iff] at hgroup
    have hamong : Condition.groupsAmong (s :: texts) = group :: Condition.groupsAmong texts := by
      rw [Condition.groupsAmong, List.filterMap_cons, hgroup]
      rfl
    rw [List.mapM_cons, hothers, Identifier.spelled?_eq, hgroup, hamong]
    simp only [List.forall_mem_cons]
    by_cases hs : Text.trim s = s
    · simp only [hs, if_true, true_and]
      split <;> rfl
    · simp [hs]

namespace Rule

/-- The object for a rule that lists groups, the groups being given as texts. -/
def listValue (texts : List String) : Value :=
  .object [("type", .string "groups"), ("groupIds", .array (texts.map .string))]

/-- The rule with a condition of membership for each of the texts, of which one must hold. -/
def anyOf (texts : List String) : Rule :=
  .rules ⟨.or, texts.map (Condition.single .group .memberOf)⟩

theorem fits_listValue (texts : List String) : (listValue texts).Fits Json.Reader.nestingLimit := by
  have hlist : ∀ depth, (Value.array (texts.map .string)).Fits (depth + 1) := by
    intro depth
    apply Value.Fits.array
    intro v hv
    obtain ⟨s, -, rfl⟩ := List.mem_map.1 hv
    exact Value.fits_string s depth
  apply Value.Fits.object
  · simp
  · simp [Json.numberKey]
  · simpa using ⟨Value.fits_string _ _, hlist _⟩

/-- A list of texts is read as a rule if each of them spells a group as it stands. -/
theorem parse_listValue (texts : List String) :
    (parse (listValue texts).text).toOption =
      (texts.mapM fun s => (Identifier.spelled? s.toList : Option GroupId)).map fun groups =>
        .groups (Catalog.ofList groups) := by
  have hids : (GroupSet.decoder.held
      (Held.builder.ofValue (.array (texts.map .string)))).toOption =
        (texts.mapM fun s => (Identifier.spelled? s.toList : Option GroupId)).map Catalog.ofList := by
    rw [Json.Builder.ofValue, Json.Builder.ofItems_eq_map, List.map_map]
    show (Catalog.ofList <$> (List.map _ texts).mapM Decoder.id.held).toOption = _
    rw [Json.toOption_map, Json.toOption_mapM, List.mapM_map]
    simp only [Function.comp_def, Decoder.held_id_string]
  have hnamed : kinds.named (listValue texts) = some .groups := rfl
  have hrest : kinds.remainder (listValue texts) =
      .object [("groupIds", .array (texts.map .string))] := by
    simp [listValue, Json.Kinds.remainder, Json.Kinds.rest, kinds]
  rw [parse_text_toOption (fits_listValue texts) trivial, hnamed, Option.bind_some, hrest,
    Json.Builder.ofValue, Json.Builder.ofMembers_eq_map]
  show (groupsDecoder.held (.map _)).toOption = _
  rw [groupsDecoder, Decoder.held_record_map]
  simp [Json.Fields.pick, Json.FieldSpec.pick, Json.FieldSpec.own, Json.FieldSpec.answersTo,
    Json.FieldSpec.defaulted, Json.FieldSpec.orAs, hids]
  cases texts.mapM fun s => (Identifier.spelled? s.toList : Option GroupId) <;> rfl

/-! ## Decisions -/

theorem decide_ofList_iff (groups : List GroupId) (user : User) :
    ((Rule.groups (Catalog.ofList groups)).decide user).holds = true ↔
      ∃ group ∈ groups, user.isMemberOf group = true := by
  rw [decide, GroupSet.meets, List.any_eq_true]
  simp only [← GroupSet.contains_iff, GroupSet.contains_ofList]
  rfl

theorem decide_memberOf_iff (s : String) (user : User) :
    ((Condition.single .group .memberOf s).decide user).holds = true ↔
      ∃ group : GroupId, Identifier.parse s = .ok group ∧ user.isMemberOf group = true := by
  have htest : (Condition.single .group .memberOf s).test.result = Condition.membersTest? true [s] :=
    (Condition.single .group .memberOf s).result_groupTest_eq true
  rw [Condition.decide_holds_iff, htest, Condition.membersTest?, Condition.groupsAmong]
  simp only [Identifier.parse_eq_ok_iff]
  cases hread : (Identifier.parse? s : Option GroupId) <;> simp [hread, Test.holds]

theorem decide_anyOf_iff (texts : List String) (user : User) :
    ((anyOf texts).decide user).holds = true ↔ user.BelongsTo texts := by
  show (Condition.decideUntil true user _).holds = true ↔ _
  rw [Condition.holds_decideUntil]
  simp only [List.mem_map, exists_exists_and_eq_and, decide_memberOf_iff]
  rfl

end Rule

end ContentVisibility
