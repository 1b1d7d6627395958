import ContentVisibility.Proofs.Json.HeldBack

/-!
# Fields of a record by their keys

What a record makes of the members of an object, field by field: a field takes the one member that
answers to it, is absent without one, and refuses several.

* `FieldSpec.pick`, `Fields.pick`: the value of a field, and of all fields, among given members;
* `Decoder.held_record_map`: a record held back as an object is what its fields pick.
-/

namespace ContentVisibility.Json

variable {α β : Type}

/-! ## One field -/

/-- The members that answer to a field. -/
def FieldSpec.own (spec : FieldSpec α) (ms : List (String × Held)) : List (String × Held) :=
  ms.filter fun m => spec.answersTo m.1

/-- The members that do not answer to a field. -/
def FieldSpec.others (spec : FieldSpec α) (ms : List (String × Held)) : List (String × Held) :=
  ms.filter fun m => !spec.answersTo m.1

/-- Take a member for a field, which has to be free. -/
def FieldSpec.fill (spec : FieldSpec α) (slot : Option α) (m : String × Held) : Option (Option α) :=
  if slot.isSome then none else (spec.decoder.held m.2).toOption.map some

/-- The value of a field among members. -/
def FieldSpec.pick (spec : FieldSpec α) (ms : List (String × Held)) : Option α :=
  match spec.own ms with
  | [] => spec.absent
  | [m] => (spec.decoder.held m.2).toOption
  | _ :: _ :: _ => none

theorem FieldSpec.foldlM_fill (spec : FieldSpec α) (ms : List (String × Held)) :
    (ms.foldlM spec.fill none).bind (fun slot => slot.or spec.absent) = match ms with
      | [] => spec.absent
      | [m] => (spec.decoder.held m.2).toOption
      | _ :: _ :: _ => none := by
  match ms with
  | [] => rfl
  | [m] => cases h : (spec.decoder.held m.2).toOption <;> simp [fill, h]
  | m :: n :: ms => cases h : (spec.decoder.held m.2).toOption <;> simp [fill, h]

/-! ## All fields -/

/-- The values of all fields among members. -/
def Fields.pick : Fields τ → List (String × Held) → Option τ
  | .done, _ => some ()
  | .field spec others, ms =>
    (spec.pick ms).bind fun a => (others.pick (spec.others ms)).map fun rest => (a, rest)

theorem Fields.takeHeld_field (spec : FieldSpec α) (others : Fields β) (slot : Option α)
    (slots : others.Slots) (m : String × Held) :
    ((field spec others).takeHeld (slot, slots) m).toOption = if spec.answersTo m.1 then
      (spec.fill slot m).map fun slot => (slot, slots)
    else (others.takeHeld slots m).toOption.map fun slots => (slot, slots) := by
  obtain ⟨key, content⟩ := m
  cases hkey : spec.answersTo key with
  | true =>
    cases hslot : slot.isSome with
    | true => simp [takeHeld, FieldSpec.fill, hkey, hslot, Except.toOption]
    | false =>
      simp only [takeHeld, FieldSpec.fill, hkey, hslot, if_true, Bool.false_eq_true, if_false,
        toOption_bind]
      cases spec.decoder.held content <;> rfl
  | false =>
    simp only [takeHeld, hkey, Bool.false_eq_true, if_false, toOption_bind]
    cases others.takeHeld slots (key, content) <;> rfl

/-- The members of one field and those of the others do not meet. -/
theorem Fields.foldlM_takeHeld_field (spec : FieldSpec α) (others : Fields β) (slot : Option α)
    (slots : others.Slots) (ms : List (String × Held)) :
    (ms.foldlM (field spec others).takeHeld (slot, slots)).toOption =
      ((spec.own ms).foldlM spec.fill slot).bind fun slot =>
        ((spec.others ms).foldlM others.takeHeld slots).toOption.map fun slots => (slot, slots) := by
  induction ms generalizing slot slots with
  | nil => rfl
  | cons m ms ih =>
    rw [List.foldlM_cons, toOption_bind, takeHeld_field]
    cases hkey : spec.answersTo m.1 with
    | true =>
      have hown : spec.own (m :: ms) = m :: spec.own ms := List.filter_cons_of_pos hkey
      have hothers : spec.others (m :: ms) = spec.others ms :=
        List.filter_cons_of_neg (by simp [hkey])
      rw [if_pos rfl, hown, hothers, List.foldlM_cons]
      cases spec.fill slot m with
      | none => rfl
      | some slot => exact ih slot slots
    | false =>
      have hown : spec.own (m :: ms) = spec.own ms := List.filter_cons_of_neg (by simp [hkey])
      have hothers : spec.others (m :: ms) = m :: spec.others ms :=
        List.filter_cons_of_pos (by simp [hkey])
      rw [if_neg Bool.false_ne_true, hown, hothers, List.foldlM_cons, toOption_bind]
      cases others.takeHeld slots m with
      | error problem => cases (spec.own ms).foldlM spec.fill slot <;> rfl
      | ok slots => exact ih slot slots

/-- Members taken one by one fill the fields with what these pick. -/
theorem Fields.pick_eq (fields : Fields τ) (ms : List (String × Held)) :
    ((ms.foldlM fields.takeHeld fields.empty).toOption.bind fun slots =>
      (fields.complete slots).toOption) = fields.pick ms := by
  induction fields generalizing ms with
  | done =>
    have htaken : (ms.foldlM Fields.done.takeHeld ()).toOption = some () := by
      induction ms with
      | nil => rfl
      | cons m ms ih => exact ih
    show (ms.foldlM Fields.done.takeHeld ()).toOption.bind _ = _
    rw [htaken]
    rfl
  | @field α β spec others ih =>
    show ((ms.foldlM (field spec others).takeHeld (none, others.empty)).toOption.bind _) = _
    rw [foldlM_takeHeld_field, pick, ← ih, FieldSpec.pick, ← FieldSpec.foldlM_fill]
    cases (spec.own ms).foldlM spec.fill none with
    | none => rfl
    | some slot =>
      cases ((spec.others ms).foldlM others.takeHeld others.empty) with
      | error problem => cases hslot : slot.or spec.absent <;> simp [hslot, Except.toOption]
      | ok slots =>
        cases hslot : slot.or spec.absent with
        | none => simp [complete, hslot, Except.toOption, throw, throwThe, MonadExceptOf.throw]
        | some a =>
          simp only [Option.bind_some, Except.toOption, Option.map_some, complete, hslot]
          cases others.complete slots <;> rfl

/-- **A record held back as an object is what its fields pick.** -/
theorem Decoder.held_record_map {title : String} {fields : Fields τ} {build : τ → α}
    (ms : List (String × Held)) :
    ((record title fields build).held (.map ms)).toOption = (fields.pick ms).map build := by
  show (List.foldlM fields.takeHeld fields.empty ms >>= _).toOption = _
  rw [toOption_bind, ← Fields.pick_eq]
  cases List.foldlM fields.takeHeld fields.empty ms with
  | error problem => rfl
  | ok slots =>
    simp only [Except.toOption, Option.bind_some]
    cases fields.complete slots <;> rfl

end ContentVisibility.Json
