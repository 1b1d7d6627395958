import ContentVisibility.Proofs.Json.Edited

/-!
# Rules of newer authoring tools

A newer tool may write words for fields and operators that are not known here, and members that
nothing here asks for. A condition with such a word is read as one that never holds, and such a member
is passed over, unless its value holds an integer that cannot be held back.

* `Rule.Part`: the objects that make up a rule with conditions;
* `Condition.decoder_reads?_object_iff`, `RuleSet.decoder_reads?_object_iff`,
  `Rule.ofValue_object_eq_rules_iff`: what is read from each of them, field by field;
* `Rule.ofValue_onCondition`: a rule of which one condition was edited;
* `Rule.ofValue_put`: a rule with one more member in one of its objects;
* `Rule.ofValue_of_newer`: both.
-/

namespace ContentVisibility

open Json (Value Held FieldSpec Fields)
open Json.Members (get? put change get?_change_of_ne)
open Json.Decoder (word string optional list)

/-! ## Words -/

theorem Json.Vocabulary.find_toOption {α : Type} (v : Json.Vocabulary α) (s : String) :
    (v.find s).toOption = v.find? s := by
  rw [Json.Vocabulary.find]
  cases v.find? s <;> rfl

theorem Json.Decoder.word_reads?_string {α : Type} (v : Json.Vocabulary α) (s : String) :
    (word v).reads? (.string s) = v.find? s := v.find_toOption s

/-- The word is listed in the vocabulary. -/
def Json.Vocabulary.Lists {α : Type} (v : Json.Vocabulary α) (s : String) : Prop :=
  s ∈ v.words.map Prod.fst

instance {α : Type} (v : Json.Vocabulary α) (s : String) : Decidable (v.Lists s) :=
  inferInstanceAs (Decidable (_ ∈ _))

theorem Json.Vocabulary.find?_of_not_lists {α : Type} {v : Json.Vocabulary α} {s : String}
    (h : ¬ v.Lists s) : v.find? s = v.unknown := by
  have hnone : (v.words.find? fun entry => entry.1 == s) = none := by
    rw [List.find?_eq_none]
    intro entry hentry hword
    exact h (List.mem_map.2 ⟨entry, hentry, by simpa using hword⟩)
  rw [find?, hnone]
  rfl

/-- The field that a word stands for. -/
def Field.ofWord (s : String) : Field := (Field.vocabulary.find? s).getD .unknown

/-- The operator that a word stands for. -/
def Operator.ofWord (s : String) : Operator := (Operator.vocabulary.find? s).getD .unknown

theorem Field.find?_eq (s : String) : Field.vocabulary.find? s = some (ofWord s) := by
  rw [ofWord, Json.Vocabulary.find?]
  cases (Field.vocabulary.words.find? fun entry => entry.1 == s) <;> rfl

theorem Operator.find?_eq (s : String) : Operator.vocabulary.find? s = some (ofWord s) := by
  rw [ofWord, Json.Vocabulary.find?]
  cases (Operator.vocabulary.words.find? fun entry => entry.1 == s) <;> rfl

/-! ## Conditions -/

namespace Condition

def fieldMember : FieldSpec Field := .required "field" (word Field.vocabulary)

def operatorMember : FieldSpec Operator := .required "operator" (word Operator.vocabulary)

def valueMember : FieldSpec (Option String) := .defaulted "value" (optional string) none

def valuesMember : FieldSpec (Option (List String)) :=
  .defaulted "values" (optional (list string)) none

theorem decoder_reads?_object_iff {ms : List (String × Value)} {c : Condition} :
    decoder.reads? (.object ms) = some c ↔
      fieldMember.reads? ms = some c.field ∧ operatorMember.reads? ms = some c.operator ∧
        valueMember.reads? ms = some c.value ∧ valuesMember.reads? ms = some c.values := by
  have hfields : ∀ field operator value values,
      (Fields.field fieldMember <| .field operatorMember <| .field valueMember <|
        .field valuesMember .done).reads? ms = some (field, operator, value, values, ()) ↔
      fieldMember.reads? ms = some field ∧ operatorMember.reads? ms = some operator ∧
        valueMember.reads? ms = some value ∧ valuesMember.reads? ms = some values := by
    intro field operator value values
    rw [Fields.reads?_field_eq_some_iff, Fields.reads?_field_eq_some_iff,
      Fields.reads?_field_eq_some_iff, Fields.reads?_field_eq_some_iff, Fields.reads?_done]
    · simp only [and_true]
    all_goals decide
  rw [decoder, Json.Decoder.record_reads?_object, Option.map_eq_some_iff]
  constructor
  · rintro ⟨⟨field, operator, value, values, ⟨⟩⟩, hread, rfl⟩
    exact (hfields ..).1 hread
  · exact fun h => ⟨_, (hfields ..).2 h, rfl⟩

/-- The condition with other words for its field and its operator. -/
def reworded (f o : String) (c : Condition) : Condition :=
  { c with field := Field.ofWord f, operator := Operator.ofWord o }

/-- The members of a condition with other words in place of those for its field and its operator. -/
def rewordedMembers (f o : String) (ms : List (String × Value)) : List (String × Value) :=
  change (fun _ => .string o) "operator" (change (fun _ => .string f) "field" ms)

section Edits

variable {ms : List (String × Value)} {c : Condition}

theorem exists_get?_of_reads? (h : decoder.reads? (.object ms) = some c) :
    (∃ value, get? "field" ms = some value) ∧
      ∀ f, ∃ value, get? "operator" (change f "field" ms) = some value := by
  obtain ⟨hfield, hoperator, -⟩ := decoder_reads?_object_iff.1 h
  obtain ⟨key, hkey, value, hget⟩ := FieldSpec.exists_get? rfl hfield
  obtain ⟨key', hkey', value', hget'⟩ := FieldSpec.exists_get? rfl hoperator
  obtain rfl : key = "field" := List.mem_singleton.1 hkey
  obtain rfl : key' = "operator" := List.mem_singleton.1 hkey'
  exact ⟨⟨value, hget⟩, fun f => ⟨value', (get?_change_of_ne f (by decide) ms).trans hget'⟩⟩

/-- Other words change the field and the operator, and nothing else. -/
theorem decoder_reads?_reworded (h : decoder.reads? (.object ms) = some c) (f o : String) :
    decoder.reads? (.object (rewordedMembers f o ms)) = some (c.reworded f o) := by
  obtain ⟨⟨_, hf⟩, hoperators⟩ := exists_get?_of_reads? h
  obtain ⟨_, ho⟩ := hoperators fun _ => .string f
  obtain ⟨hfield, hoperator, hvalue, hvalues⟩ := decoder_reads?_object_iff.1 h
  have hoperator' : operatorMember.reads? (change (fun _ => .string f) "field" ms) = some c.operator :=
    (FieldSpec.reads?_change_of_not (by decide) _).trans hoperator
  rw [decoder_reads?_object_iff, rewordedMembers]
  refine ⟨?_, ?_, ?_, ?_⟩
  · rw [FieldSpec.reads?_change_of_not (by decide), FieldSpec.reads?_change (by decide) hfield hf]
    exact (Json.Decoder.word_reads?_string _ f).trans (Field.find?_eq f)
  · rw [FieldSpec.reads?_change (by decide) hoperator' ho]
    exact (Json.Decoder.word_reads?_string _ o).trans (Operator.find?_eq o)
  · rw [FieldSpec.reads?_change_of_not (by decide), FieldSpec.reads?_change_of_not (by decide)]
    exact hvalue
  · rw [FieldSpec.reads?_change_of_not (by decide), FieldSpec.reads?_change_of_not (by decide)]
    exact hvalues

theorem narrow_rewordedMembers (h : decoder.reads? (.object ms) = some c)
    (hnarrow : (Value.object ms).narrow = true) (f o : String) :
    (Value.object (rewordedMembers f o ms)).narrow = true := by
  obtain ⟨⟨_, hf⟩, hoperators⟩ := exists_get?_of_reads? h
  obtain ⟨_, ho⟩ := hoperators fun _ => .string f
  have hfirst := Value.narrow_change hnarrow hf fun _ => .string f
  exact Value.narrow_change hfirst ho fun _ => .string o

/-- A condition with a word that is not listed never holds. -/
theorem holds_reworded {f o : String}
    (h : ¬ Field.vocabulary.Lists f ∨ ¬ Operator.vocabulary.Lists o) (c : Condition) (user : User) :
    ((c.reworded f o).decide user).holds = false := by
  refine holds_of_not_makesSense (fun hsense => ?_) user
  rcases h with hf | ho
  · refine hsense.field ?_
    rw [reworded, Field.ofWord, Json.Vocabulary.find?_of_not_lists hf]
    rfl
  · refine hsense.operator ?_
    rw [reworded, Operator.ofWord, Json.Vocabulary.find?_of_not_lists ho]
    rfl

/-- The keys that the object of a condition is asked for. -/
def keys : List String := ["field", "operator", "value", "values"]

theorem decoder_reads?_put {key : String} (hkey : key ∉ keys) (value : Value)
    (h : decoder.reads? (.object ms) = some c) :
    decoder.reads? (.object (put key value ms)) = some c := by
  rw [decoder_reads?_object_iff] at h ⊢
  have hother : ∀ {α : Type} {spec : FieldSpec α}, spec.keys ⊆ keys →
      spec.reads? (put key value ms) = spec.reads? ms := fun hsub =>
    FieldSpec.reads?_put_of_not (fun hmem => hkey (hsub hmem)) value
  rw [hother (by decide), hother (by decide), hother (by decide), hother (by decide)]
  exact h

end Edits

end Condition

/-! ## Sets of conditions -/

namespace RuleSet

theorem decoder_reads?_object_iff {ms : List (String × Value)} {set : RuleSet} :
    decoder.reads? (.object ms) = some set ↔
      logicField.reads? ms = some set.logic ∧ conditionsField.reads? ms = some set.conditions := by
  have hfields : ∀ logic conditions,
      (Fields.field logicField <| .field conditionsField .done).reads? ms =
        some (logic, conditions, ()) ↔
      logicField.reads? ms = some logic ∧ conditionsField.reads? ms = some conditions := by
    intro logic conditions
    rw [Fields.reads?_field_eq_some_iff, Fields.reads?_field_eq_some_iff, Fields.reads?_done]
    · simp only [and_true]
    all_goals decide
  rw [decoder, Json.Decoder.record_reads?_object, Option.map_eq_some_iff]
  constructor
  · rintro ⟨⟨logic, conditions, ⟨⟩⟩, hread, rfl⟩
    exact (hfields ..).1 hread
  · exact fun h => ⟨_, (hfields ..).2 h, rfl⟩

variable {ms : List (String × Value)} {set : RuleSet}

/-- The keys that the object of a set is asked for. -/
def keys : List String := ["logic", "conditions"]

theorem decoder_reads?_put {key : String} (hkey : key ∉ keys) (value : Value)
    (h : decoder.reads? (.object ms) = some set) :
    decoder.reads? (.object (put key value ms)) = some set := by
  rw [decoder_reads?_object_iff] at h ⊢
  have hother : ∀ {α : Type} {spec : FieldSpec α}, spec.keys ⊆ keys →
      spec.reads? (put key value ms) = spec.reads? ms := fun hsub =>
    FieldSpec.reads?_put_of_not (fun hmem => hkey (hsub hmem)) value
  rw [hother (by decide), hother (by decide)]
  exact h

/-- The set with another condition in place of one of its own. -/
def replacing (set : RuleSet) (i : Nat) (c : Condition) : RuleSet :=
  { set with conditions := set.conditions.set i c }

/-- A set of which one condition was edited has the edited condition, and is otherwise the same. -/
theorem decoder_reads?_onCondition (h : decoder.reads? (.object ms) = some set)
    {conditions item : Value} (hget : get? "conditions" ms = some conditions) {i : Nat}
    (hitem : conditions.item? i = some item) :
    (∃ c, set.conditions[i]? = some c ∧ Condition.decoder.reads? item = some c) ∧
      ∀ f c, Condition.decoder.reads? (f item) = some c →
        decoder.reads? (.object (change (Value.onItem i f) "conditions" ms)) =
          some (set.replacing i c) := by
  obtain ⟨hlogic, hconditions⟩ := decoder_reads?_object_iff.1 h
  obtain ⟨-, hlist⟩ := FieldSpec.filter_eq_singleton (by decide) hconditions hget
  obtain ⟨items, rfl⟩ := Json.Decoder.exists_of_list_reads? hlist
  have hmapM := (Json.Decoder.list_reads?_array _ items).symm.trans hlist
  obtain ⟨hat, -⟩ := Json.mapM_modify hmapM hitem id
  refine ⟨hat, fun f c hread => ?_⟩
  rw [decoder_reads?_object_iff]
  refine ⟨(FieldSpec.reads?_change_of_not (by decide) _).trans hlogic, ?_⟩
  rw [FieldSpec.reads?_change (by decide) hconditions hget]
  refine (Json.Decoder.list_reads?_array _ _).trans ?_
  rw [(Json.mapM_modify hmapM hitem f).2, hread]
  rfl

end RuleSet

/-! ## Rules -/

namespace Rule

def setMember : FieldSpec RuleSet := (FieldSpec.required "ruleSet" RuleSet.decoder).orAs "rule_set"

theorem setMember_reads?_rest (ms : List (String × Value)) :
    setMember.reads? (kinds.rest ms) = setMember.reads? ms := by
  refine FieldSpec.reads?_congr ?_
  rw [Json.Kinds.rest, List.filter_filter]
  refine List.filter_congr fun m _ => ?_
  cases hm : setMember.answersTo m.1 with
  | false => rfl
  | true =>
    have hne : m.1 ≠ kinds.key := fun he => absurd (FieldSpec.answersTo_iff.1 hm) (he ▸ by decide)
    simpa using hne

variable {ms : List (String × Value)} {set : RuleSet}

theorem ofValue_object_of_not_narrow (hnodup : (ms.map Prod.fst).Nodup)
    (h : (Value.object ms).narrow = false) : (ofValue (.object ms)).toOption = none := by
  rw [ofValue_toOption_eq_bind, kinds.ofValue_object hnodup, h]
  rfl

theorem rulesDecoder_reads?_rest (ms : List (String × Value)) :
    rulesDecoder.reads? (.object (kinds.rest ms)) = (setMember.reads? ms).map .rules := by
  have hfields : ∀ set, (Fields.field setMember .done).reads? (kinds.rest ms) = some (set, ()) ↔
      setMember.reads? ms = some set := by
    intro set
    rw [Fields.reads?_field_eq_some_iff (by decide), setMember_reads?_rest, Fields.reads?_done]
    exact and_iff_left rfl
  refine Option.ext fun rule => ?_
  rw [rulesDecoder, Json.Decoder.record_reads?_object, Option.map_eq_some_iff, Option.map_eq_some_iff]
  constructor
  · rintro ⟨⟨set, ⟨⟩⟩, hread, hbuild⟩
    exact ⟨set, (hfields set).1 hread, hbuild⟩
  · rintro ⟨set, hread, hbuild⟩
    exact ⟨(set, ()), (hfields set).2 hread, hbuild⟩

/-- Which objects describe a rule with conditions, and which one. -/
theorem ofValue_object_eq_rules_iff (hnodup : (ms.map Prod.fst).Nodup) :
    (ofValue (.object ms)).toOption = some (.rules set) ↔
      (Value.object ms).narrow = true ∧
        (get? kinds.key ms).bind kinds.kind? = some .rules ∧ setMember.reads? ms = some set := by
  cases hnarrow : (Value.object ms).narrow with
  | false =>
    rw [ofValue_object_of_not_narrow hnodup hnarrow]
    simp
  | true =>
    rw [ofValue_toOption_eq_bind, kinds.ofValue_object hnodup, hnarrow, if_pos rfl, Json.Kinds.split,
      Option.bind_map, Option.bind_eq_some_iff]
    -- only for the third kind does the rest make a rule with conditions
    have hheld : ∀ kind, (ofHeld kind (Held.presenter.ofValue (.object (kinds.rest ms)))).toOption =
        some (.rules set) ↔ kind = .rules ∧ setMember.reads? ms = some set := by
      intro kind
      cases kind with
      | all => exact ⟨fun h => Rule.noConfusion (Option.some.inj h), fun h => RuleKind.noConfusion h.1⟩
      | groups =>
        have hgroups : groupsDecoder.reads? (.object (kinds.rest ms)) ≠ some (.rules set) := by
          rw [groupsDecoder, Json.Decoder.record_reads?_object, Ne, Option.map_eq_some_iff]
          rintro ⟨ids, -, hbuild⟩
          cases hbuild
        exact ⟨fun h => absurd h hgroups, fun h => RuleKind.noConfusion h.1⟩
      | rules =>
        have hrules := rulesDecoder_reads?_rest ms
        rw [Json.Decoder.reads?] at hrules
        rw [ofHeld, hrules, Option.map_eq_some_iff]
        constructor
        · rintro ⟨read, hread, hset⟩
          exact ⟨rfl, hread.trans (congrArg some (Rule.rules.inj hset))⟩
        · exact fun h => ⟨set, h.2, rfl⟩
    constructor
    · rintro ⟨kind, hnamed, hread⟩
      obtain ⟨rfl, hset⟩ := (hheld kind).1 hread
      exact ⟨rfl, hnamed, hset⟩
    · rintro ⟨-, hnamed, hset⟩
      exact ⟨.rules, hnamed, (hheld .rules).2 ⟨rfl, hset⟩⟩

/-- The keys that the object of a rule with conditions is asked for. -/
def keys : List String := ["type", "ruleSet", "rule_set"]

/-- What a rule with conditions is read as once its members were edited, if the edit leaves the kind. -/
theorem ofValue_edited (hnodup : (ms.map Prod.fst).Nodup)
    (hread : (ofValue (.object ms)).toOption = some (.rules set)) {ms' : List (String × Value)}
    (hnodup' : (ms'.map Prod.fst).Nodup) (hkind : get? kinds.key ms' = get? kinds.key ms)
    {set' : RuleSet} (hset : setMember.reads? ms' = some set') :
    (ofValue (.object ms')).toOption =
      if (Value.object ms').narrow then some (.rules set') else none := by
  obtain ⟨-, hnamed, -⟩ := (ofValue_object_eq_rules_iff hnodup).1 hread
  split
  · next hnarrow =>
    exact (ofValue_object_eq_rules_iff hnodup').2 ⟨hnarrow, hkind ▸ hnamed, hset⟩
  · next hnarrow => exact ofValue_object_of_not_narrow hnodup' (Bool.eq_false_iff.2 hnarrow)

/-! ## Objects inside a rule -/

/-- The value that stands for the set of conditions. -/
def setValue? (v : Value) : Option Value := (v.member? "ruleSet").or (v.member? "rule_set")

/-- The rule with its set edited. -/
def onSet (f : Value → Value) (v : Value) : Value :=
  (v.onMember "ruleSet" f).onMember "rule_set" f

/-- An object that a rule with conditions is made of. -/
inductive Part where
  /-- The rule itself. -/
  | rule
  /-- Its set of conditions. -/
  | set
  /-- The condition at an index. -/
  | condition (i : Nat)

namespace Part

/-- The keys that the object is asked for. -/
def keys : Part → List String
  | .rule => Rule.keys
  | .set => RuleSet.keys
  | .condition _ => Condition.keys

/-- The object in a rule. -/
def value? : Part → Value → Option Value
  | .rule, v => some v
  | .set, v => setValue? v
  | .condition i, v => ((setValue? v).bind (Value.member? "conditions")).bind (Value.item? i)

/-- The rule with the object edited. -/
def onValue (f : Value → Value) : Part → Value → Value
  | .rule => f
  | .set => onSet f
  | .condition i => onSet (Value.onMember "conditions" (Value.onItem i f))

end Part

/-- The set stands under one of its keys, and to edit it is to change what stands there. -/
theorem exists_setKey (hread : setMember.reads? ms = some set) {v : Value}
    (hv : setValue? (.object ms) = some v) :
    ∃ key ∈ setMember.keys, get? key ms = some v ∧
      ∀ f, onSet f (.object ms) = .object (change f key ms) := by
  rw [setValue?, Value.member?, Value.member?] at hv
  have hedit : ∀ f, onSet f (.object ms) = .object (change f "rule_set" (change f "ruleSet" ms)) :=
    fun f => rfl
  cases hfirst : get? "ruleSet" ms with
  | none =>
    rw [hfirst, Option.none_or] at hv
    refine ⟨"rule_set", by decide, hv, fun f => ?_⟩
    have hsame : change f "ruleSet" ms = ms :=
      Json.Members.change_eq_self fun value hvalue => by
        rw [hfirst] at hvalue
        cases hvalue
    rw [hedit, hsame]
  | some w =>
    obtain rfl : w = v := by
      rw [hfirst, Option.some_or] at hv
      exact Option.some.inj hv
    obtain ⟨hone, -⟩ := FieldSpec.filter_eq_singleton (by decide) hread hfirst
    refine ⟨"ruleSet", by decide, hfirst, fun f => ?_⟩
    -- a set under the other key as well would be a second member for the same field
    have hsame : change f "rule_set" (change f "ruleSet" ms) = change f "ruleSet" ms := by
      refine Json.Members.change_eq_self fun value hvalue => ?_
      rw [get?_change_of_ne f (by decide)] at hvalue
      obtain ⟨hother, -⟩ := FieldSpec.filter_eq_singleton (by decide) hread hvalue
      rw [hone] at hother
      simp at hother
    rw [hedit, hsame]

theorem ofValue_onSet (hnodup : (ms.map Prod.fst).Nodup)
    (hread : (ofValue (.object ms)).toOption = some (.rules set)) {v : Value}
    (hv : setValue? (.object ms) = some v) :
    RuleSet.decoder.reads? v = some set ∧ v.narrow = true ∧
      ∀ f set', RuleSet.decoder.reads? (f v) = some set' →
        (ofValue (onSet f (.object ms))).toOption =
          if (f v).narrow then some (.rules set') else none := by
  obtain ⟨hnarrow, -, hset⟩ := (ofValue_object_eq_rules_iff hnodup).1 hread
  obtain ⟨key, hkey, hget, hedit⟩ := exists_setKey hset hv
  have hkind : kinds.key ≠ key := fun he => absurd (he ▸ hkey) (by decide)
  refine ⟨(FieldSpec.filter_eq_singleton hkey hset hget).2, Value.narrow_of_get? hnarrow hget, ?_⟩
  intro f set' hset'
  have hnodup' : ((change f key ms).map Prod.fst).Nodup := by
    rw [Json.Members.map_fst_change]
    exact hnodup
  rw [hedit f, ← Value.narrow_change hnarrow hget f]
  refine ofValue_edited hnodup hread hnodup' (get?_change_of_ne f hkind ms) ?_
  exact (FieldSpec.reads?_change hkey hset hget f).trans hset'

theorem ofValue_onCondition (hnodup : (ms.map Prod.fst).Nodup)
    (hread : (ofValue (.object ms)).toOption = some (.rules set)) {i : Nat} {item : Value}
    (hitem : (Part.condition i).value? (.object ms) = some item) :
    ∃ c, set.conditions[i]? = some c ∧ Condition.decoder.reads? item = some c ∧ item.narrow = true ∧
      ∀ f c', Condition.decoder.reads? (f item) = some c' →
        (ofValue ((Part.condition i).onValue f (.object ms))).toOption =
          if (f item).narrow then some (.rules (set.replacing i c')) else none := by
  rw [Part.value?, Option.bind_eq_some_iff] at hitem
  obtain ⟨conditions, hconditions, hitem⟩ := hitem
  obtain ⟨v, hv, hconditions⟩ := Option.bind_eq_some_iff.1 hconditions
  obtain ⟨hset, hnarrow, hedited⟩ := ofValue_onSet hnodup hread hv
  cases v with
  | object members =>
    obtain ⟨⟨c, hat, hc⟩, hreplaced⟩ := RuleSet.decoder_reads?_onCondition hset hconditions hitem
    have hlist := Value.narrow_of_get? hnarrow hconditions
    cases conditions with
    | array items =>
      refine ⟨c, hat, hc, Value.narrow_of_getElem? hlist hitem, fun f c' hc' => ?_⟩
      have hitems : (Value.onItem i f (.array items)).narrow = (f item).narrow :=
        Value.narrow_modify hlist hitem f
      rw [← hitems, ← Value.narrow_change hnarrow hconditions (Value.onItem i f)]
      exact hedited _ _ (hreplaced f c' hc')
    | null | bool _ | number _ | string _ | object _ => cases hitem
  | null | bool _ | number _ | string _ | array _ => cases hconditions

/-- With a member that it is not asked for in one of its objects, a rule is read as before, if the
value of the member can be held back. -/
theorem ofValue_put (hnodup : (ms.map Prod.fst).Nodup)
    (hread : (ofValue (.object ms)).toOption = some (.rules set)) {part : Part}
    {members : List (String × Value)} (hpart : part.value? (.object ms) = some (.object members))
    {key : String} (hkey : key ∉ part.keys) (value : Value) :
    (ofValue (part.onValue (Value.onMembers (put key value)) (.object ms))).toOption =
      if value.narrow then some (.rules set) else none := by
  cases part with
  | rule =>
    obtain ⟨hnarrow, -, hset⟩ := (ofValue_object_eq_rules_iff hnodup).1 hread
    have hkeys : kinds.key ≠ key := fun he => hkey (he ▸ by decide)
    have hother : key ∉ setMember.keys := fun hmem => hkey (List.mem_cons_of_mem _ hmem)
    rw [← Value.narrow_put hnarrow key value]
    refine ofValue_edited hnodup hread (Json.Members.nodup_put hnodup) ?_ ?_
    · exact Json.Members.get?_put_of_ne hkeys value ms
    · exact (FieldSpec.reads?_put_of_not hother value).trans hset
  | set =>
    obtain ⟨hset, hnarrow, hedited⟩ := ofValue_onSet hnodup hread hpart
    rw [← Value.narrow_put hnarrow key value]
    exact hedited _ _ (RuleSet.decoder_reads?_put hkey value hset)
  | condition i =>
    obtain ⟨c, hat, hc, hnarrow, hedited⟩ := ofValue_onCondition hnodup hread hpart
    have hsame : set.replacing i c = set := by
      obtain ⟨hi, rfl⟩ := List.getElem?_eq_some_iff.1 hat
      rw [RuleSet.replacing, List.set_getElem_self]
    have hput := hedited (Value.onMembers (put key value)) c (Condition.decoder_reads?_put hkey value hc)
    rw [hsame, Value.onMembers, Value.narrow_put hnarrow] at hput
    exact hput

/-- **Rules of newer authoring tools are still read, and only the condition with an unknown word is
lost.** A member that an object is not asked for makes no difference; only where its value cannot be
held back the rule is refused. -/
theorem ofValue_of_newer (hnodup : (ms.map Prod.fst).Nodup)
    (hread : (ofValue (.object ms)).toOption = some (.rules set)) :
    (∀ (i : Nat) (members : List (String × Value)),
      (Part.condition i).value? (.object ms) = some (.object members) → ∀ f o : String,
      ∃ c, set.conditions[i]? = some c ∧
        (ofValue ((Part.condition i).onValue (Value.onMembers (Condition.rewordedMembers f o))
          (.object ms))).toOption = some (.rules (set.replacing i (c.reworded f o))) ∧
        (¬ Field.vocabulary.Lists f ∨ ¬ Operator.vocabulary.Lists o → ∀ user,
          ((set.replacing i (c.reworded f o)).conditions.map fun c => (c.decide user).holds) =
            (set.conditions.map fun c => (c.decide user).holds).set i false)) ∧
    ∀ (part : Part) (members : List (String × Value)),
      part.value? (.object ms) = some (.object members) → ∀ key ∉ part.keys, ∀ value : Value,
      (ofValue (part.onValue (Value.onMembers (put key value)) (.object ms))).toOption =
        if value.narrow then some (.rules set) else none := by
  refine ⟨fun i members hitem f o => ?_, fun part members hpart key hkey value =>
    ofValue_put hnodup hread hpart hkey value⟩
  obtain ⟨c, hat, hc, hnarrow, hedited⟩ := ofValue_onCondition hnodup hread hitem
  have hreworded := hedited (Value.onMembers (Condition.rewordedMembers f o)) _
    (Condition.decoder_reads?_reworded hc f o)
  rw [Value.onMembers, Condition.narrow_rewordedMembers hc hnarrow f o, if_pos rfl] at hreworded
  refine ⟨c, hat, hreworded, fun hunlisted user => ?_⟩
  rw [RuleSet.replacing, List.map_set, Condition.holds_reworded hunlisted]

/-- The members of a rule with two conditions. -/
def officeMembers : List (String × Value) :=
  [("type", .string "rules"),
    ("ruleSet", .object [
      ("logic", .string "OR"),
      ("conditions", .array [
        .object [("field", .string "location"), ("operator", .string "equals"), ("value", .string "Bern")],
        .object [("operator", .string "in"), ("values", .array [.string "IT"]),
          ("field", .string "department")]])])]

def officeSet : RuleSet :=
  ⟨.or, [.single .location .equals "Bern", .multiple .department .isIn ["IT"]]⟩

theorem ofValue_of_newer_office :
    (officeMembers.map Prod.fst).Nodup ∧
      (ofValue (.object officeMembers)).toOption = some (.rules officeSet) ∧
      (ofValue ((Part.condition 1).onValue (Value.onMembers (Condition.rewordedMembers "floor" "in"))
        (.object officeMembers))).toOption =
          some (.rules (officeSet.replacing 1 (.multiple .unknown .isIn ["IT"]))) ∧
      (ofValue ((Part.condition 1).onValue (Value.onMembers (put "note" (.array [.null])))
        (.object officeMembers))).toOption = some (.rules officeSet) := by
  have hnodup : (officeMembers.map Prod.fst).Nodup := by decide
  have hread : (ofValue (.object officeMembers)).toOption = some (.rules officeSet) := rfl
  obtain ⟨hwords, hmembers⟩ := ofValue_of_newer hnodup hread
  obtain ⟨c, hat, hreworded, -⟩ := hwords 1 _ rfl "floor" "in"
  obtain rfl := Option.some.inj hat
  exact ⟨hnodup, hread, hreworded, hmembers (.condition 1) _ rfl "note" (by decide) (.array [.null])⟩

/-- An integer that cannot be held back stands in the way, even where nothing asks for it. -/
theorem ofValue_put_outsized_office :
    (ofValue (.object officeMembers)).toOption = some (.rules officeSet) ∧ "note" ∉ Part.rule.keys ∧
      (ofValue (Part.rule.onValue (Value.onMembers (put "note" (.number ⟨false, 2 ^ 64, [], none⟩)))
        (.object officeMembers))).toOption = none :=
  ⟨rfl, by decide, rfl⟩

end Rule

end ContentVisibility
