import ContentVisibility.Proofs.Json.Kinds
import ContentVisibility.Rule.Persisted

/-!
# Rules inside pages, as objects and as text

A rule stands in a page as an object or as the text of one. Both are read alike, but for two kinds of
numbers: an integer beyond 64 bits that 128 bits hold cannot be held back from a value, and a number
in place of a set of conditions may pass for an object in a text.

* `Rule.Portable`: the values in which there is no such number;
* `Rule.ofValue_toOption`: reading a value is reading its text, if the value is portable.
-/

namespace ContentVisibility

open Json (Value Held Decoder)

/-! ## Decoders of rules -/

theorem Condition.agrees_decoder : Condition.decoder.Agrees :=
  Decoder.agrees_record
    ⟨Decoder.agrees_word _, Decoder.agrees_word _, Decoder.agrees_optional Decoder.agrees_string,
      Decoder.agrees_optional (Decoder.agrees_list Decoder.agrees_string), trivial⟩
    fun _ => rfl

theorem GroupSet.agrees_decoder : GroupSet.decoder.Agrees :=
  Decoder.agrees_map (Decoder.agrees_list Decoder.agrees_id) _

/-- The value is a number that is held differently from a value and from its text. -/
def Json.Value.isBare : Value → Bool
  | .number n => n.bare
  | .null | .bool _ | .string _ | .array _ | .object _ => false

/-- A set of conditions is read alike unless a number stands in its place. -/
theorem RuleSet.agreesOn_decoder {v : Value} (h : v.isBare = false) :
    RuleSet.decoder.AgreesOn v := by
  cases v with
  | null | bool _ | string _ => rfl
  | number n => exact Decoder.agreesOn_number n fun hn => absurd (h.symm.trans hn) Bool.false_ne_true
  | array items =>
    refine Decoder.agreesOn_record_array (Json.Fields.Agrees.agreesInOrder ?_ items)
    exact ⟨Decoder.agrees_word _, Decoder.agrees_list Condition.agrees_decoder, trivial⟩
  | object members =>
    refine Decoder.agreesOn_record_object fun m _ => Json.Fields.Agrees.agreesAt ?_ m.1 m.2
    exact ⟨Decoder.agrees_word _, Decoder.agrees_list Condition.agrees_decoder, trivial⟩

/-- A number in place of a set of conditions is refused when it is held back from a value. -/
theorem RuleSet.held_of_isBare {v : Value} (h : v.isBare = true) :
    (RuleSet.decoder.held (Held.presenter.ofValue v)).toOption = none := by
  cases v with
  | number n =>
    show (RuleSet.decoder.held (Held.ofForm n)).toOption = none
    obtain ⟨-, ⟨i, hform⟩ | ⟨shown, hform⟩⟩ := Held.of_bare h
    · rw [hform]
      rfl
    · rw [hform]
      rfl
  | null | bool _ | string _ | array _ | object _ => cases h

/-- A fold that refuses one of the elements whatever came before refuses the list. -/
theorem Json.foldlM_eq_none {α β : Type} {f : β → α → Option β} {as : List α} {a : α} (ha : a ∈ as)
    (h : ∀ b, f b a = none) (b : β) : as.foldlM f b = none := by
  induction as generalizing b with
  | nil => cases ha
  | cons first as ih =>
    rw [List.foldlM_cons]
    rcases List.mem_cons.1 ha with rfl | ha
    · rw [h b]
      rfl
    · cases f b first with
      | none => rfl
      | some b' => exact ih ha b'

namespace Rule

/-! ## The rest of a rule -/

theorem answersTo_ruleSet (key : String) :
    ((Json.FieldSpec.required "ruleSet" RuleSet.decoder).orAs "rule_set").answersTo key =
      (key == "ruleSet" || key == "rule_set") := by
  rw [Bool.eq_iff_iff]
  simp [Json.FieldSpec.answersTo, Json.FieldSpec.orAs, Json.FieldSpec.required]

/-- A number stands in place of the set of conditions. -/
def bareSet : Value → Bool
  | .object members => members.any fun m => (m.1 == "ruleSet" || m.1 == "rule_set") && m.2.isBare
  | .array (set :: _) => set.isBare
  | .array [] | .null | .bool _ | .number _ | .string _ => false

theorem agreesOn_groupsDecoder {v : Value} (h : v.IsContainer) : groupsDecoder.AgreesOn v := by
  cases v with
  | null | bool _ | number _ | string _ => exact h.elim
  | array items =>
    refine Decoder.agreesOn_record_array (Json.Fields.Agrees.agreesInOrder ?_ items)
    exact ⟨GroupSet.agrees_decoder, trivial⟩
  | object members =>
    refine Decoder.agreesOn_record_object fun m _ => Json.Fields.Agrees.agreesAt ?_ m.1 m.2
    exact ⟨GroupSet.agrees_decoder, trivial⟩

theorem agreesOn_rulesDecoder {v : Value} (h : v.IsContainer) (hset : bareSet v = false) :
    rulesDecoder.AgreesOn v := by
  cases v with
  | null | bool _ | number _ | string _ => exact h.elim
  | array items =>
    refine Decoder.agreesOn_record_array ?_
    cases items with
    | nil => trivial
    | cons set items => exact ⟨RuleSet.agreesOn_decoder hset, trivial⟩
  | object members =>
    refine Decoder.agreesOn_record_object fun m hm => ⟨fun hkey => ?_, trivial⟩
    rw [answersTo_ruleSet] at hkey
    refine RuleSet.agreesOn_decoder ?_
    have hm := List.any_eq_false.1 hset m hm
    rw [hkey, Bool.true_and] at hm
    exact Bool.eq_false_iff.2 hm

/-- A rule whose set of conditions is such a number is refused when it is held back from a value. -/
theorem rulesDecoder_of_bareSet {v : Value} (hset : bareSet v = true) :
    (rulesDecoder.held (Held.presenter.ofValue v)).toOption = none := by
  cases v with
  | null | bool _ | number _ | string _ => cases hset
  | array items =>
    cases items with
    | nil => cases hset
    | cons set items =>
      have hheld := RuleSet.held_of_isBare hset
      rw [Json.Builder.ofValue, Json.Builder.ofItems_eq_map]
      show (rulesDecoder.held (.sequence (Held.presenter.ofValue set :: _))).toOption = none
      rw [rulesDecoder, Decoder.held_record_sequence, Json.Fields.positionalHeld, Json.toOption_bind]
      show (((RuleSet.decoder.held _).toOption.bind _).map _).bind _ = none
      rw [hheld]
      rfl
  | object members =>
    obtain ⟨m, hm, hbare⟩ := List.any_eq_true.1 hset
    rw [Bool.and_eq_true] at hbare
    obtain ⟨hkey, hbare⟩ := hbare
    have hheld := RuleSet.held_of_isBare hbare
    rw [Json.Builder.ofValue, Json.Builder.ofMembers_eq_map]
    show (List.foldlM (Json.Fields.takeHeld _) _ (members.map _) >>= _).toOption = none
    rw [Json.toOption_bind, Json.toOption_foldlM,
      Json.foldlM_eq_none (List.mem_map_of_mem hm) fun slots => ?_, Option.bind_none]
    obtain ⟨slot, slots⟩ := slots
    simp only [Json.Fields.takeHeld, answersTo_ruleSet, hkey, if_true]
    split
    · rfl
    · rw [Json.toOption_bind]
      show (RuleSet.decoder.held _).toOption.bind _ = none
      rw [hheld]
      rfl

/-- The rest of a rule is read alike, unless a number stands in place of the set of conditions. -/
theorem ofHeld_toOption (kind : RuleKind) {v : Value} (h : v.IsContainer) :
    (ofHeld kind (Held.presenter.ofValue v)).toOption =
      if kind = .rules ∧ bareSet v = true then none
      else (ofHeld kind (Held.builder.ofValue v)).toOption := by
  cases kind with
  | all =>
    rw [if_neg (by simp)]
    cases v with
    | null | bool _ | number _ | string _ => exact h.elim
    | array items => cases items <;> rfl
    | object members => rfl
  | groups =>
    rw [if_neg (by simp)]
    exact agreesOn_groupsDecoder h
  | rules =>
    cases hset : bareSet v with
    | true =>
      rw [if_pos ⟨rfl, rfl⟩]
      exact rulesDecoder_of_bareSet hset
    | false =>
      rw [if_neg (by simp)]
      exact agreesOn_rulesDecoder h hset

theorem isContainer_remainder {v : Value} (h : v.IsContainer) :
    (kinds.remainder v).IsContainer := by
  cases v with
  | null | bool _ | number _ | string _ => exact h.elim
  | array _ | object _ => trivial

/-! ## Values and their texts -/

/-- The value holds no number that would keep it from being read as its text is. -/
def Portable (v : Value) : Prop :=
  v.narrow = true ∧ ¬ (kinds.named v = some .rules ∧ bareSet (kinds.remainder v) = true)

instance (v : Value) : Decidable (Portable v) := inferInstanceAs (Decidable (_ ∧ _))

theorem ofValue_toOption_eq_bind (v : Value) :
    (ofValue v).toOption = (kinds.ofValue v).toOption.bind fun p => (ofHeld p.1 p.2).toOption := by
  rw [ofValue]
  rcases kinds.ofValue v with problem | ⟨kind, rest⟩
  · rfl
  · cases h : ofHeld kind rest <;> simp [h, Except.toOption]

theorem ofValue_toOption {v : Value} (hv : v.WellFormed) (hshape : v.IsContainer) :
    (ofValue v).toOption = if v.narrow then (kinds.named v).bind fun kind =>
      (ofHeld kind (Held.presenter.ofValue (kinds.remainder v))).toOption else none := by
  rw [ofValue_toOption_eq_bind, kinds.ofValue_toOption hv hshape]
  split
  · rw [Json.Kinds.split, Option.bind_map]
    rfl
  · rfl

theorem parse_text_toOption {v : Value} (hv : v.Fits Json.Reader.nestingLimit)
    (hshape : v.IsContainer) :
    (parse v.text).toOption = (kinds.named v).bind fun kind =>
      (ofHeld kind (Held.builder.ofValue (kinds.remainder v))).toOption := by
  refine Json.Reader.Reads.readText ?_
  have hkind := kinds.reads_text hv hshape []
  rw [List.append_nil, Json.Kinds.split] at hkind
  rw [Value.text, String.toList_ofList]
  cases hnamed : kinds.named v with
  | none =>
    rw [hnamed] at hkind
    exact hkind.bind_none
  | some kind =>
    rw [hnamed] at hkind
    refine hkind.bind ?_
    rw [Option.bind_some]
    cases hrest : ofHeld kind (Held.builder.ofValue (kinds.remainder v)) with
    | error problem =>
      simp only [hrest]
      exact fun _ _ => ⟨_, rfl⟩
    | ok rule =>
      simp only [hrest]
      exact Json.Reader.reads_pure rule []

/-- **Reading a value as a rule is reading its text, if the value is portable**; if it is not, it is
refused. -/
theorem ofValue_eq_parse_text {v : Value} (hv : v.Fits Json.Reader.nestingLimit)
    (hshape : v.IsContainer) :
    (ofValue v).toOption = if Portable v then (parse v.text).toOption else none := by
  rw [ofValue_toOption hv.1 hshape, parse_text_toOption hv hshape]
  cases hnamed : kinds.named v with
  | none => simp
  | some kind =>
    have hportable : Portable v ↔
        v.narrow = true ∧ ¬ (kind = .rules ∧ bareSet (kinds.remainder v) = true) := by
      rw [Portable, hnamed, Option.some.injEq]
    rw [Option.bind_some, Option.bind_some, ofHeld_toOption kind (isContainer_remainder hshape)]
    by_cases hnarrow : v.narrow = true
    · by_cases hset : kind = .rules ∧ bareSet (kinds.remainder v) = true
      · rw [if_pos hnarrow, if_pos hset, if_neg fun h => (hportable.1 h).2 hset]
      · rw [if_pos hnarrow, if_neg hset, if_pos (hportable.2 ⟨hnarrow, hset⟩)]
    · rw [if_neg hnarrow, if_neg fun h => hnarrow (hportable.1 h).1]

end Rule

end ContentVisibility
