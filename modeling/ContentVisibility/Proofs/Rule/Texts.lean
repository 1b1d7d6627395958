import ContentVisibility.Proofs.Rule.Operators

/-!
# Texts that conditions do not tell apart

An attribute is compared with texts in lower case, and a text that is to name a group counts for the group
that it names. So texts that are the same in lower case, or that name the same group, can stand for each
other in a condition.

* `Text.SameFold`, `Condition.SameGroup`: such texts;
* `Condition.Related`: conditions whose texts can stand for each other;
* `Condition.related_decide`: such conditions come to the same.
-/

namespace ContentVisibility

/-! ## Texts -/

/-- The texts are the same in lower case. -/
def Text.SameFold (s t : String) : Prop := lower s = lower t

instance : DecidableRel Text.SameFold := fun s t => decEq (Text.lower s) (Text.lower t)

/-- Texts that are equal as they stand need not be folded to be the same. -/
theorem Text.foldsTo_iff {s t : String} : foldsTo s t = true ↔ SameFold s t := by
  rw [foldsTo, Bool.or_eq_true, beq_iff_eq, beq_iff_eq, or_iff_right_of_imp (congrArg lower)]
  rfl

/-- The texts name the same group, or both name none. -/
def Condition.SameGroup (s t : String) : Prop :=
  ∀ group : GroupId, Identifier.parse s = .ok group ↔ Identifier.parse t = .ok group

theorem Condition.sameGroup_iff {s t : String} :
    SameGroup s t ↔ (Identifier.parse? s : Option GroupId) = Identifier.parse? t := by
  simp only [SameGroup, Identifier.parse_eq_ok_iff]
  exact Option.ext_iff.symm

/-! ## Tests of an attribute -/

/-- Tests of one attribute against texts that are the same in lower case. -/
inductive Test.SameFold (field : Field) : Test → Test → Prop where
  | among {values values' : List String} {wanted : Bool}
      (h : List.Forall₂ Text.SameFold values values') :
      SameFold field (.among field values wanted) (.among field values' wanted)
  | contains {value value' : String} (h : Text.SameFold value value') :
      SameFold field (.contains field value) (.contains field value')
  | startsWith {value value' : String} (h : Text.SameFold value value') :
      SameFold field (.startsWith field value) (.startsWith field value')

/-- Texts that are the same in lower case are found alike. -/
theorem Text.any_foldsTo_congr {a a' : String} {values values' : List String} (ha : SameFold a a')
    (h : List.Forall₂ SameFold values values') :
    values.any (foldsTo a) = values'.any (foldsTo a') := by
  induction h with
  | nil => rfl
  | @cons value value' values values' hvalue _ ih =>
    have hfolds : foldsTo a value = foldsTo a' value' := by
      rw [Bool.eq_iff_iff, foldsTo_iff, foldsTo_iff, SameFold, SameFold, ha, hvalue]
    rw [List.any_cons, List.any_cons, hfolds, ih]

/-- Related options meet conditions alike that related values meet alike. -/
theorem any_eq_of_rel {α β : Type} {r : α → β → Prop} {x : Option α} {y : Option β}
    (h : Option.Rel r x y) {p : α → Bool} {q : β → Bool} (hpq : ∀ a b, r a b → p a = q b) :
    x.any p = y.any q := by
  cases h with
  | none => rfl
  | some h => exact hpq _ _ h

/-- Such tests hold alike of users whose attributes are the same in lower case. -/
theorem Test.SameFold.holds_eq {field : Field} {t t' : Test} (h : SameFold field t t')
    {user user' : User}
    (ha : Option.Rel Text.SameFold (user.attribute field) (user'.attribute field)) :
    t.holds user = t'.holds user' := by
  cases h with
  | among hvalues =>
    rw [holds, holds, any_eq_of_rel ha fun a a' ha => Text.any_foldsTo_congr ha hvalues]
  | contains hvalue =>
    refine any_eq_of_rel ha fun a a' ha => ?_
    rw [show Text.lower a = Text.lower a' from ha, show Text.lower _ = Text.lower _ from hvalue]
  | startsWith hvalue =>
    refine any_eq_of_rel ha fun a a' ha => ?_
    rw [show Text.lower a = Text.lower a' from ha, show Text.lower _ = Text.lower _ from hvalue]

/-! ## Conditions -/

namespace Condition

variable {c c' : Condition} {r : String → String → Prop} {values values' : List String}

/-- The conditions have the same field and operator, and each text that one compares with is related to
the text of the other in its place. -/
structure Related (r : String → String → Prop) (c c' : Condition) : Prop where
  field : c.field = c'.field
  operator : c.operator = c'.operator
  comparands : Option.Rel (List.Forall₂ r) c.comparands c'.comparands

theorem Related.namesGroups (h : Related r c c') : c.namesGroups = c'.namesGroups := by
  rw [Condition.namesGroups, Condition.namesGroups, h.field, h.operator]

theorem MakesSense.congr (h : c.MakesSense) (hfield : c'.field = c.field)
    (hop : c'.operator = c.operator) : c'.MakesSense :=
  ⟨hfield ▸ h.field, hop ▸ h.operator, by
    rw [hfield, hop]
    exact h.comparison⟩

theorem Related.makesSense_iff (h : Related r c c') : c.MakesSense ↔ c'.MakesSense :=
  ⟨fun hsense => hsense.congr h.field.symm h.operator.symm,
    fun hsense => hsense.congr h.field h.operator⟩

/-- Related conditions come to the same if their tests against related texts do. -/
theorem Related.holds_eq (h : Related r c c') {user user' : User}
    (htests : ∀ values values', List.Forall₂ r values values' →
      (c.testOf? values).any (Test.holds user) = (c'.testOf? values').any (Test.holds user')) :
    (c.decide user).holds = (c'.decide user').holds := by
  by_cases hsense : c.MakesSense
  · rw [hsense.holds_decide, (h.makesSense_iff.1 hsense).holds_decide]
    exact any_eq_of_rel h.comparands htests
  · rw [holds_of_not_makesSense hsense, holds_of_not_makesSense (mt h.makesSense_iff.2 hsense)]

theorem Related.attributeTest (h : Related r c c')
    (hvalues : List.Forall₂ Text.SameFold values values') :
    Test.SameFold c.field (c.attributeTest values) (c'.attributeTest values') := by
  unfold Condition.attributeTest
  rw [h.field, h.operator]
  -- Only a single value is looked for as a part or as the start.
  cases hvalues with
  | nil => cases c'.operator <;> exact .among .nil
  | cons hvalue hothers =>
    cases hothers with
    | nil =>
      cases c'.operator with
      | contains => exact .contains hvalue
      | startsWith => exact .startsWith hvalue
      | _ => exact .among (.cons hvalue .nil)
    | cons hother hothers =>
      cases c'.operator <;> exact .among (.cons hvalue (.cons hother hothers))

theorem groupsAmong_congr (h : List.Forall₂ SameGroup values values') :
    groupsAmong values = groupsAmong values' := by
  induction h with
  | nil => rfl
  | cons hvalue _ ih =>
    rw [groupsAmong, groupsAmong, List.filterMap_cons, List.filterMap_cons, sameGroup_iff.1 hvalue]
    rw [groupsAmong, groupsAmong] at ih
    rw [ih]

theorem testOf?_congr (h : Related SameGroup c c') (hnames : c.namesGroups = true)
    (hvalues : List.Forall₂ SameGroup values values') : c.testOf? values = c'.testOf? values' := by
  rw [testOf?, testOf?, if_pos hnames, if_pos (h.namesGroups ▸ hnames), membersTest?, membersTest?,
    groupsAmong_congr hvalues, h.operator]

/-! ## Equality, start and part -/

theorem MakesSense.holds_attribute (h : c.MakesSense) (hnames : c.namesGroups = false) (user : User) :
    (c.decide user).holds = c.comparands.any fun values => (c.attributeTest values).holds user := by
  rw [h.holds_decide]
  simp [testOf?, hnames]

end Condition

namespace Test

variable {user : User} {field : Field} {value : String}

theorem startsWith_of_among (h : (among field [value] true).holds user = true) :
    (startsWith field value).holds user = true := by
  rw [holds, beq_true, Option.any_eq_true] at h
  obtain ⟨a, ha, hfolds⟩ := h
  rw [List.any_cons, List.any_nil, Bool.or_false, Text.foldsTo_iff] at hfolds
  refine Option.any_eq_true _ _ |>.2 ⟨a, ha, ?_⟩
  rw [show Text.lower a = Text.lower value from hfolds]
  exact List.isPrefixOf_iff_prefix.2 List.prefix_rfl

theorem contains_of_startsWith (h : (startsWith field value).holds user = true) :
    (contains field value).holds user = true := by
  rw [holds, Option.any_eq_true] at h
  obtain ⟨a, ha, hprefix⟩ := h
  refine Option.any_eq_true _ _ |>.2 ⟨a, ha, ?_⟩
  exact Text.occursIn_iff.2 (List.isPrefixOf_iff_prefix.1 hprefix).isInfix

end Test

namespace Condition

variable {c : Condition}

/-- The condition with another operator. -/
def withOperator (c : Condition) (operator : Operator) : Condition := { c with operator := operator }

theorem holds_withOperator (hfield : c.field.IsAttribute) {operator : Operator}
    (hop : operator = .equals ∨ operator = .startsWith ∨ operator = .contains) (user : User) :
    ((c.withOperator operator).decide user).holds =
      c.value.any fun v => ((c.withOperator operator).attributeTest [v]).holds user := by
  have hnames : (c.withOperator operator).namesGroups = false :=
    namesGroups_of_isAttribute hfield (by rcases hop with rfl | rfl | rfl <;> simp [withOperator])
  have hsense : (c.withOperator operator).MakesSense :=
    ⟨hfield.2, by rcases hop with rfl | rfl | rfl <;> simp [withOperator], fun h => hfield.1 h.1⟩
  have hcomparands : (c.withOperator operator).comparands = c.value.map fun v => [v] := by
    rcases hop with rfl | rfl | rfl <;> rfl
  rw [hsense.holds_attribute hnames, hcomparands, Option.any_map]

/-- Whoever meets a condition for equality meets the one for the start. -/
theorem holds_startsWith_of_equals (hfield : c.field.IsAttribute) {user : User}
    (h : ((c.withOperator .equals).decide user).holds = true) :
    ((c.withOperator .startsWith).decide user).holds = true := by
  rw [holds_withOperator hfield (.inl rfl), Option.any_eq_true] at h
  obtain ⟨v, hv, hequal⟩ := h
  rw [holds_withOperator hfield (.inr (.inl rfl)), Option.any_eq_true]
  exact ⟨v, hv, Test.startsWith_of_among hequal⟩

theorem holds_contains_of_startsWith (hfield : c.field.IsAttribute) {user : User}
    (h : ((c.withOperator .startsWith).decide user).holds = true) :
    ((c.withOperator .contains).decide user).holds = true := by
  rw [holds_withOperator hfield (.inr (.inl rfl)), Option.any_eq_true] at h
  obtain ⟨v, hv, hstarts⟩ := h
  rw [holds_withOperator hfield (.inr (.inr rfl)), Option.any_eq_true]
  exact ⟨v, hv, Test.contains_of_startsWith hstarts⟩

/-- **Texts that are the same in lower case, or that name the same group, can stand for each other.**
A condition on an attribute comes to the same when its texts, and the attribute of the user, are replaced
by others that are the same in lower case; that equal texts are not folded makes no difference. An
attribute that is equal to a text starts with it, and one that starts with it contains it. A condition on
groups comes to the same when its texts are replaced by others that name the same groups. -/
theorem related_decide (c c' : Condition) (user user' : User) :
    (∀ s t, Text.foldsTo s t = true ↔ Text.SameFold s t) ∧
      (c.Related Text.SameFold c' → c.namesGroups = false →
        Option.Rel Text.SameFold (user.attribute c.field) (user'.attribute c.field) →
        (c.decide user).holds = (c'.decide user').holds) ∧
      (c.field.IsAttribute →
        (((c.withOperator .equals).decide user).holds = true →
          ((c.withOperator .startsWith).decide user).holds = true) ∧
        (((c.withOperator .startsWith).decide user).holds = true →
          ((c.withOperator .contains).decide user).holds = true)) ∧
      (c.Related SameGroup c' → c.namesGroups = true →
        (c.decide user).holds = (c'.decide user).holds) := by
  refine ⟨fun s t => Text.foldsTo_iff, fun h hnames ha => ?_, fun hfield =>
    ⟨holds_startsWith_of_equals hfield, holds_contains_of_startsWith hfield⟩, fun h hnames => ?_⟩
  · refine h.holds_eq fun among among' hamong => ?_
    have hnames' : c'.namesGroups = false := h.namesGroups ▸ hnames
    simp only [testOf?, hnames, hnames', Bool.false_eq_true, if_false, Option.any_some]
    exact (h.attributeTest hamong).holds_eq ha
  · refine h.holds_eq fun among among' hamong => ?_
    rw [testOf?_congr h hnames hamong]

/-- A user in a place. -/
def userIn (location : String) : User := { User.ofId (.ofNumber 7) with location := some location }

/-- For users in none of the places. -/
def outside (places : List String) : Condition := .multiple .location .notIn places

/-- For members of one of the groups. -/
def inside (groups : List String) : Condition := .multiple .group .isIn groups

def capitalPlaces : List String := ["ΟΔΟΣ", "Oslo"]

def smallPlaces : List String := ["οδος", "oslo"]

def markedGroups : List String := ["x", "urn:uuid:00000000-0000-0000-0000-00000000000A"]

def plainGroups : List String := ["y", "  0000000000000000000000000000000a"]

def located : Condition := .single .location .equals "δος"

theorem related_decide_respelled :
    (outside capitalPlaces).Related Text.SameFold (outside smallPlaces) ∧
      Text.SameFold "ΟδΟΣ" "Οδος" ∧
      ((outside smallPlaces).decide (userIn "Οδος")).holds = false ∧
      ((located.withOperator .equals).decide (userIn "ΔΟΣ")).holds = true ∧
      ((located.withOperator .contains).decide (userIn "ΔΟΣ")).holds = true ∧
      (inside markedGroups).Related SameGroup (inside plainGroups) ∧
      ((inside plainGroups).decide (User.grouped (.ofNumber 10))).holds = true := by
  have hfolded : (outside capitalPlaces).Related Text.SameFold (outside smallPlaces) :=
    ⟨rfl, rfl, .some (.cons (by decide +kernel) (.cons (by decide +kernel) .nil))⟩
  have hplace : Text.SameFold "ΟδΟΣ" "Οδος" := by decide +kernel
  have hnamed : (inside markedGroups).Related SameGroup (inside plainGroups) :=
    ⟨rfl, rfl, .some (.cons (sameGroup_iff.2 (by decide +kernel))
      (.cons (sameGroup_iff.2 (by decide +kernel)) .nil))⟩
  obtain ⟨-, hattribute, -, -⟩ := related_decide (outside capitalPlaces) (outside smallPlaces)
    (userIn "ΟδΟΣ") (userIn "Οδος")
  have hequal : ((located.withOperator .equals).decide (userIn "ΔΟΣ")).holds = true := by
    decide +kernel
  obtain ⟨-, -, hchain, -⟩ := related_decide located located (userIn "ΔΟΣ") (userIn "ΔΟΣ")
  obtain ⟨hstarts, hcontains⟩ := hchain ⟨by decide, by decide⟩
  obtain ⟨-, -, -, hgroups⟩ := related_decide (inside markedGroups) (inside plainGroups)
    (User.grouped (.ofNumber 10)) (User.grouped (.ofNumber 10))
  exact ⟨hfolded, hplace, (hattribute hfolded rfl (.some hplace)).symm.trans (by decide +kernel),
    hequal, hcontains (hstarts hequal), hnamed,
    (hgroups hnamed rfl).symm.trans (by decide +kernel)⟩

end Condition

end ContentVisibility
