import ContentVisibility.Proofs.Identifier.Written
import ContentVisibility.Proofs.Json.Fields
import ContentVisibility.Proofs.Rule.Embedding

/-!
# Written rules are read back

* `Catalog.ofList_entries`: the entries of a catalog make up that catalog;
* `Decoder.Restores`: a decoder reads what is written for each value of its type;
* `Rule.parse_text`: the text of a rule, and the value in that text, are read as the rule.
-/

namespace ContentVisibility

open Json (Value Held Decoder)

/-! ## Catalogs -/

namespace Catalog

variable {α : Type} {key : α → Nat}

/-- What comes behind all entries is put behind them. -/
theorem putEntry_eq_append {a : α} {entries : List α} (h : Ascending key (entries ++ [a])) :
    putEntry key a entries = entries ++ [a] := by
  induction entries with
  | nil => rfl
  | cons b entries ih =>
    obtain ⟨hb, hrest⟩ := List.pairwise_cons.1 h
    have hless : key b < key a := hb a (by simp)
    rw [putEntry, if_neg (by omega), if_neg (by omega), ih hrest]
    rfl

theorem entries_putAll {entries : List α} (c : Catalog α key)
    (h : Ascending key (c.entries ++ entries)) : (c.putAll entries).entries = c.entries ++ entries := by
  induction entries generalizing c with
  | nil => exact (List.append_nil _).symm
  | cons a entries ih =>
    have hput : (c.put a).entries = c.entries ++ [a] := by
      refine putEntry_eq_append (List.Pairwise.sublist ?_ h)
      exact List.Sublist.append_left (List.singleton_sublist.2 (List.mem_cons_self ..)) _
    have hall := ih (c.put a) (by rw [hput]; simpa using h)
    rw [hput, List.append_assoc] at hall
    exact hall

/-- The entries of a catalog, put in one after another, make up that catalog. -/
theorem ofList_entries (c : Catalog α key) : ofList c.entries = c :=
  Catalog.ext (entries_putAll empty c.ascending)

end Catalog

/-! ## Values without numbers that texts can hold -/

theorem Json.Value.Fits.array {items : List Value} {depth : Nat} (h : ∀ v ∈ items, v.Fits depth) :
    (Value.array items).Fits (depth + 1) :=
  ⟨(Value.wellFormedItems_iff items).2 fun v hv => (h v hv).1,
    Nat.succ_le_succ ((Value.itemsDepth_le_iff items depth).2 fun v hv => (h v hv).2)⟩

theorem Json.Value.Fits.object {members : List (String × Value)} {depth : Nat}
    (hnodup : (members.map Prod.fst).Nodup)
    (hfirst : (members.map Prod.fst).head? ≠ some Json.numberKey)
    (h : ∀ m ∈ members, m.2.Fits depth) : (Value.object members).Fits (depth + 1) :=
  ⟨⟨hnodup, hfirst, (Value.wellFormedMembers_iff members).2 fun m hm => (h m hm).1⟩,
    Nat.succ_le_succ ((Value.membersDepth_le_iff members depth).2 fun m hm => (h m hm).2)⟩

theorem Json.Value.fits_string (s : String) (depth : Nat) : (Value.string s).Fits depth :=
  ⟨trivial, Nat.zero_le _⟩

/-! ## Words -/

theorem Field.find_word (field : Field) : Field.vocabulary.find field.word = .ok field := by
  cases field <;> rfl

theorem Operator.find_word (operator : Operator) :
    Operator.vocabulary.find operator.word = .ok operator := by
  cases operator <;> rfl

theorem Logic.find_word (logic : Logic) : Logic.vocabulary.find logic.word = .ok logic := by
  cases logic <;> rfl

/-! ## Decoders -/

/-- The decoder reads every value of its type from what is written for it. -/
def Json.Decoder.Restores {α : Type} (d : Decoder α) (json : α → Value) : Prop :=
  ∀ a, (d.held (Held.builder.ofValue (json a))).toOption = some a

namespace Json.Decoder

variable {α : Type} {d : Decoder α} {json : α → Value}

theorem restores_word {v : Vocabulary α} {word : α → String} (h : ∀ a, v.find (word a) = .ok a) :
    (Decoder.word v).Restores fun a => .string (word a) := by
  intro a
  show (v.find (word a)).toOption = some a
  rw [h a]
  rfl

theorem restores_string : string.Restores .string := fun _ => rfl

theorem held_id_string {kind : IdKind} (s : String) :
    ((id : Decoder (Identifier kind)).held (Held.builder.ofValue (.string s))).toOption =
      Identifier.spelled? s.toList := by
  simp only [Builder.ofValue, Held.builder, Decoder.id, checkedString, heldString]
  rw [toOption_bind]
  simp only [Except.toOption, Option.bind_some]
  cases (Identifier.spelled? s.toList : Option (Identifier kind)) <;> rfl

theorem restores_id {kind : IdKind} :
    (id : Decoder (Identifier kind)).Restores fun i => .string i.text := by
  intro i
  rw [held_id_string, Identifier.spelled?_text]

theorem restores_list (h : d.Restores json) : (list d).Restores fun as => .array (as.map json) := by
  intro as
  rw [Builder.ofValue, Builder.ofItems_eq_map]
  show (((as.map json).map Held.builder.ofValue).mapM d.held).toOption = some as
  rw [toOption_mapM]
  induction as with
  | nil => rfl
  | cons a as ih =>
    rw [List.map_cons, List.map_cons, List.mapM_cons, h a, ih]
    rfl

end Json.Decoder

theorem GroupSet.restores_decoder : GroupSet.decoder.Restores GroupSet.json := by
  intro groups
  have hid : (Decoder.id : Decoder GroupId).Restores fun group => .string group.text :=
    Decoder.restores_id
  have hlist := Decoder.restores_list hid groups.entries
  show (Catalog.ofList <$> (Decoder.list Decoder.id).held _).toOption = _
  rw [Json.toOption_map, GroupSet.json, hlist, Option.map_some, Catalog.ofList_entries]

/-! ## Conditions -/

/-- What is written for a value is not null, so it is not taken for none. -/
theorem Json.Decoder.optional_restores {α : Type} {d : Decoder α} {json : α → Value}
    (h : d.Restores json) {a : α} (hnull : Held.builder.ofValue (json a) ≠ .null) :
    ((Decoder.optional d).held (Held.builder.ofValue (json a))).toOption = some (some a) := by
  have hread := h a
  rcases hheld : Held.builder.ofValue (json a) with _ | _ | _ | _ | _ | _ | _ <;>
    rw [hheld] at hread hnull
  · exact absurd rfl hnull
  all_goals exact (Json.toOption_map some _).trans (congrArg (Option.map some) hread)

section Records

open Json.Fields (pick)
open Json.FieldSpec (own others answersTo required defaulted orAs)

theorem Condition.restores_decoder : Condition.decoder.Restores Condition.json := by
  intro c
  obtain ⟨field, operator, value, values⟩ := c
  have hfield := Decoder.restores_word Field.find_word field
  have hoperator := Decoder.restores_word Operator.find_word operator
  have hvalue : ∀ value : String, _ :=
    fun value => Decoder.optional_restores Decoder.restores_string (a := value) nofun
  have hvalues : ∀ values : List String, _ := fun values =>
    Decoder.optional_restores (Decoder.restores_list Decoder.restores_string) (a := values) nofun
  rw [Condition.json, Json.Builder.ofValue, Json.Builder.ofMembers_eq_map]
  show (Condition.decoder.held (.map _)).toOption = _
  rw [Condition.decoder, Decoder.held_record_map]
  cases value <;> cases values <;>
    simp [pick, Json.FieldSpec.pick, own, others, answersTo, required, defaulted, optionalMember,
      hfield, hoperator, hvalue, hvalues]

theorem RuleSet.restores_decoder : RuleSet.decoder.Restores RuleSet.json := by
  intro set
  have hlogic := Decoder.restores_word Logic.find_word set.logic
  have hconditions := Decoder.restores_list Condition.restores_decoder set.conditions
  rw [RuleSet.json, Json.Builder.ofValue, Json.Builder.ofMembers_eq_map]
  show (RuleSet.decoder.held (.map _)).toOption = _
  rw [RuleSet.decoder, Decoder.held_record_map]
  simp [pick, Json.FieldSpec.pick, own, others, answersTo, defaulted, hlogic, hconditions]

end Records

/-! ## Rules -/

theorem GroupSet.fits_json (groups : GroupSet) (depth : Nat) : groups.json.Fits (depth + 1) :=
  Value.Fits.array fun v hv => by
    obtain ⟨group, -, rfl⟩ := List.mem_map.1 hv
    exact Value.fits_string _ _

theorem Condition.fits_json (c : Condition) (depth : Nat) : c.json.Fits (depth + 2) := by
  obtain ⟨field, operator, value, values⟩ := c
  have hvalues : ∀ values : List String, (Value.array (values.map .string)).Fits (depth + 1) :=
    fun values => Value.Fits.array fun v hv => by
      obtain ⟨s, -, rfl⟩ := List.mem_map.1 hv
      exact Value.fits_string s depth
  refine Value.Fits.object ?_ ?_ ?_
  all_goals cases value <;> cases values <;>
    simp [optionalMember, Json.numberKey, Value.fits_string, hvalues]

theorem RuleSet.fits_json (set : RuleSet) (depth : Nat) : set.json.Fits (depth + 4) := by
  have hconditions : (Value.array (set.conditions.map Condition.json)).Fits (depth + 3) :=
    Value.Fits.array fun v hv => by
      obtain ⟨c, -, rfl⟩ := List.mem_map.1 hv
      exact c.fits_json depth
  refine Value.Fits.object (by simp) (by simp [Json.numberKey]) ?_
  simpa using ⟨Value.fits_string _ _, hconditions⟩

theorem GroupSet.narrow_json (groups : GroupSet) : groups.json.narrow = true := by
  rw [GroupSet.json, Value.narrow, Value.narrowItems_eq_all, List.all_map]
  exact List.all_eq_true.2 fun _ _ => rfl

theorem Condition.narrow_json (c : Condition) : c.json.narrow = true := by
  obtain ⟨field, operator, value, values⟩ := c
  rw [Condition.json, Value.narrow, Value.narrowMembers_eq_all]
  cases value <;> cases values <;>
    simp [optionalMember, Value.narrow, Value.narrowItems_eq_all, Function.comp_def]

theorem RuleSet.narrow_json (set : RuleSet) : set.json.narrow = true := by
  simp [RuleSet.json, Value.narrow, Value.narrowMembers, Value.narrowItems_eq_all,
    Condition.narrow_json]

namespace Rule

theorem fits_json (rule : Rule) : rule.json.Fits Json.Reader.nestingLimit := by
  cases rule with
  | all =>
    exact Value.Fits.object (by simp) (by simp [kinds, Json.numberKey])
      (by simp [Value.fits_string])
  | groups ids =>
    refine Value.Fits.object (by simp [kinds]) (by simp [kinds, Json.numberKey]) ?_
    simpa using ⟨Value.fits_string _ _, ids.fits_json _⟩
  | rules set =>
    refine Value.Fits.object (by simp [kinds]) (by simp [kinds, Json.numberKey]) ?_
    simpa using ⟨Value.fits_string _ _, set.fits_json _⟩

theorem named_json (rule : Rule) : kinds.named rule.json = some rule.kind := by
  cases rule <;> rfl

theorem remainder_json (rule : Rule) : kinds.remainder rule.json = .object (match rule with
    | all => []
    | groups ids => [("groupIds", ids.json)]
    | rules set => [("ruleSet", set.json)]) := by
  cases rule <;> simp [json, Json.Kinds.remainder, Json.Kinds.rest, kinds]

theorem portable_json (rule : Rule) : Portable rule.json := by
  refine ⟨?_, fun h => ?_⟩
  · cases rule with
    | all => rfl
    | groups ids => simp [json, Value.narrow, Value.narrowMembers, ids.narrow_json]
    | rules set => simp [json, Value.narrow, Value.narrowMembers, set.narrow_json]
  · obtain ⟨hkind, hbare⟩ := h
    rw [named_json, Option.some.injEq] at hkind
    rw [remainder_json] at hbare
    cases rule with
    | all | groups _ => cases hkind
    | rules set => simp [bareSet, Value.isBare, RuleSet.json] at hbare

theorem ofHeld_json (rule : Rule) :
    (ofHeld rule.kind (Held.builder.ofValue (kinds.remainder rule.json))).toOption = some rule := by
  rw [remainder_json, Json.Builder.ofValue, Json.Builder.ofMembers_eq_map]
  cases rule with
  | all => rfl
  | groups ids =>
    have hids := GroupSet.restores_decoder ids
    show (groupsDecoder.held (.map _)).toOption = _
    rw [groupsDecoder, Decoder.held_record_map]
    simp [Json.Fields.pick, Json.FieldSpec.pick, Json.FieldSpec.own, Json.FieldSpec.answersTo,
      Json.FieldSpec.defaulted, Json.FieldSpec.orAs, hids]
  | rules set =>
    have hset := RuleSet.restores_decoder set
    show (rulesDecoder.held (.map _)).toOption = _
    rw [rulesDecoder, Decoder.held_record_map]
    simp [Json.Fields.pick, Json.FieldSpec.pick, Json.FieldSpec.own, Json.FieldSpec.answersTo,
      Json.FieldSpec.required, Json.FieldSpec.orAs, hset]

theorem parse_text_toOption_self (rule : Rule) : (parse rule.text).toOption = some rule := by
  rw [text, parse_text_toOption rule.fits_json trivial, named_json, Option.bind_some, ofHeld_json]

theorem ofValue_json_toOption (rule : Rule) : (ofValue rule.json).toOption = some rule := by
  rw [ofValue_eq_parse_text rule.fits_json trivial, if_pos rule.portable_json]
  exact rule.parse_text_toOption_self

/-- **A rule is read back from what is written for it**, from its text and from the value that its text
holds. So rules are equal if their texts are, and a rule that has been read from any text is read
from its own text alike. -/
theorem read_back (rule : Rule) :
    parse rule.text = .ok rule ∧
      (∃ value, Value.parse rule.text = .ok value ∧ ofValue value = .ok rule) ∧
      (∀ other : Rule, rule = other ↔ rule.text = other.text) ∧
      ∀ s, parse s = .ok rule → parse rule.text = parse s := by
  have hok : ∀ {x : Except Json.Fault Rule}, x.toOption = some rule → x = .ok rule := by
    intro x hx
    cases x <;> cases hx
    rfl
  have hparse : parse rule.text = .ok rule := hok rule.parse_text_toOption_self
  refine ⟨hparse, ⟨rule.json, Value.parse_text rule.fits_json, hok rule.ofValue_json_toOption⟩,
    fun other => ⟨fun h => h ▸ rfl, fun h => ?_⟩, fun s hs => hparse.trans hs.symm⟩
  have hother := other.parse_text_toOption_self
  rw [← h, hparse] at hother
  exact Option.some.inj hother

/-- A rule with words that are not known here, and with characters that are written as escapes. -/
def sampleRule : Rule :=
  .rules ⟨.or, [⟨.unknown, .isIn, some "a\"\x08Σ", some []⟩, .multiple .jobTitle .unknown ["", "\n"]]⟩

/-- The kind of a rule says all about it if everyone is admitted. -/
theorem parse_eq_all {s : String} (h : (parse s).toOption.map kind = some .all) :
    parse s = .ok .all := by
  cases hread : parse s with
  | error fault => simp [hread, Except.toOption] at h
  | ok rule =>
    cases rule with
    | all => rfl
    | groups _ | rules _ => simp [hread, Except.toOption, kind] at h

theorem read_back_sampleRule :
    parse sampleRule.text = .ok sampleRule ∧ parse Rule.all.text = parse " [ \"All\" ]" :=
  ⟨(read_back sampleRule).1,
    (read_back .all).2.2.2 " [ \"All\" ]" (parse_eq_all (by decide +kernel))⟩

end Rule

end ContentVisibility
