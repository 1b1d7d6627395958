import ContentVisibility.Json.Record
import ContentVisibility.Proofs.Json.Written

/-!
# Content held back from values and from texts

A value is held back as its text is, but for its numbers. A decoder that reads both the same way need
not know where the content comes from.

* `Value.narrow`, `Value.held_toOption`: which values can be held back, and as what;
* `Number.bare`: the numbers that are held differently from a value and from its text;
* `Decoder.AgreesOn`: a decoder reads a value held back and its text held back the same way;
* `agreesOn_record`: a record does if the decoders of its fields do.
-/

namespace ContentVisibility.Json

/-! ## Answers without reasons -/

section ToOption

variable {ε α β : Type}

theorem toOption_bind (x : Except ε α) (f : α → Except ε β) :
    (x >>= f).toOption = x.toOption.bind fun a => (f a).toOption := by
  cases x <;> rfl

theorem toOption_map (f : α → β) (x : Except ε α) : (f <$> x).toOption = x.toOption.map f := by
  cases x <;> rfl

theorem toOption_mapM (f : α → Except ε β) (as : List α) :
    (as.mapM f).toOption = as.mapM fun a => (f a).toOption := by
  induction as with
  | nil => rfl
  | cons a as ih =>
    rw [List.mapM_cons, List.mapM_cons, toOption_bind]
    simp only [toOption_bind, ih]
    rfl

theorem toOption_foldlM (f : β → α → Except ε β) (as : List α) (b : β) :
    (as.foldlM f b).toOption = as.foldlM (fun b a => (f b a).toOption) b := by
  induction as generalizing b with
  | nil => rfl
  | cons a as ih =>
    rw [List.foldlM_cons, List.foldlM_cons, toOption_bind]
    simp only [ih]
    rfl

end ToOption

/-! ## What values are held as -/

/-- The number is an integer beyond 64 bits that 128 bits hold. -/
def Number.isWide (n : Number) : Bool :=
  match n.form with
  | .wide _ => true
  | .word _ | .float _ | .marked => false

/-- How a number of a value is held. -/
def Held.ofForm (n : Number) : Held :=
  match n.form with
  | .word i => .integer i
  | .float shown => .float shown
  | .wide _ | .marked => .markedNumber n

/-- Values as content that is held back. -/
def Held.presenter : Builder Held := { Held.builder with number := .ofForm }

namespace Value

mutual

/-- No number in the value is an integer beyond 64 bits that 128 bits hold. -/
def narrow : Value → Bool
  | .number n => !n.isWide
  | .array items => narrowItems items
  | .object members => narrowMembers members
  | .null | .bool _ | .string _ => true

/-- All items are narrow. -/
def narrowItems : List Value → Bool
  | [] => true
  | item :: items => item.narrow && narrowItems items

/-- The values of all members are narrow. -/
def narrowMembers : List (String × Value) → Bool
  | [] => true
  | (_, value) :: members => value.narrow && narrowMembers members

end

theorem narrowItems_eq_all (vs : List Value) : narrowItems vs = vs.all narrow := by
  induction vs with
  | nil => rfl
  | cons v vs ih => rw [narrowItems, List.all_cons, ih]

theorem narrowMembers_eq_all (ms : List (String × Value)) :
    narrowMembers ms = ms.all fun m => m.2.narrow := by
  induction ms with
  | nil => rfl
  | cons m ms ih =>
    obtain ⟨key, value⟩ := m
    rw [narrowMembers, List.all_cons, ih]

theorem heldItems_toOption {vs : List Value}
    (h : ∀ v ∈ vs, v.held.toOption = if v.narrow then some (Held.presenter.ofValue v) else none) :
    (heldItems vs).toOption =
      if vs.all narrow then some (vs.map Held.presenter.ofValue) else none := by
  induction vs with
  | nil => rfl
  | cons v vs ih =>
    have hv := h v (List.mem_cons_self ..)
    have hvs := ih fun u hu => h u (List.mem_cons_of_mem v hu)
    rw [heldItems, toOption_bind, hv]
    simp only [toOption_bind, hvs, List.all_cons]
    by_cases hfirst : v.narrow = true <;> by_cases hothers : vs.all narrow = true <;>
      simp [hfirst, hothers, Except.toOption, pure, Except.pure]

theorem heldMembers_toOption {ms : List (String × Value)}
    (h : ∀ m ∈ ms, m.2.held.toOption =
      if m.2.narrow then some (Held.presenter.ofValue m.2) else none) :
    (heldMembers ms).toOption = if ms.all (fun m => m.2.narrow) then
      some (ms.map fun m => (m.1, Held.presenter.ofValue m.2)) else none := by
  induction ms with
  | nil => rfl
  | cons m ms ih =>
    obtain ⟨key, value⟩ := m
    have hm := h (key, value) (List.mem_cons_self ..)
    have hms := ih fun n hn => h n (List.mem_cons_of_mem _ hn)
    rw [heldMembers, toOption_bind, hm]
    simp only [toOption_bind, hms, List.all_cons]
    by_cases hfirst : value.narrow = true <;>
      by_cases hothers : (ms.all fun m => m.2.narrow) = true <;>
      simp [hfirst, hothers, Except.toOption, pure, Except.pure]

theorem held_toOption (v : Value) :
    v.held.toOption = if v.narrow then some (Held.presenter.ofValue v) else none := by
  induction v using Value.ind with
  | null | bool _ | string _ => rfl
  | number n =>
    rw [held, narrow, Number.isWide]
    cases h : n.form <;> simp [Except.toOption, Builder.ofValue, Held.presenter, Held.ofForm, h]
  | array items ih =>
    rw [held, narrow, narrowItems_eq_all, Builder.ofValue, Builder.ofItems_eq_map]
    show (Held.sequence <$> heldItems items).toOption = _
    rw [toOption_map, heldItems_toOption ih]
    split <;> rfl
  | object members ih =>
    rw [held, narrow, narrowMembers_eq_all, Builder.ofValue, Builder.ofMembers_eq_map]
    show (Held.map <$> heldMembers members).toOption = _
    rw [toOption_map, heldMembers_toOption ih]
    split <;> rfl

end Value

/-! ## Numbers -/

/-- The number presents itself as a number when it is held back from a value, and as an object of one
member when it is held back from a text. -/
def Number.bare (n : Number) : Bool :=
  n.word?.isNone && match n.form with
    | .word _ | .float _ => true
    | .wide _ | .marked => false

theorem Number.form_of_word? {n : Number} {i : Int} (h : n.word? = some i) : n.form = .word i := by
  rw [word?, Option.filter_eq_some_iff] at h
  obtain ⟨hinteger, hfits⟩ := h
  cases hnegative : n.negative with
  | true =>
    simp only [hnegative, if_true, Bool.and_eq_true] at hfits
    simp only [form, hinteger, hnegative, if_true, hfits.1]
  | false =>
    simp only [hnegative, Bool.false_eq_true, if_false] at hfits
    simp only [form, hinteger, hnegative, Bool.false_eq_true, if_false, hfits, if_true]

theorem Held.ofForm_eq_ofNumber {n : Number} (h : n.bare = false) : ofForm n = ofNumber n := by
  rcases hword : n.word? with _ | i
  · rw [Number.bare, hword] at h
    rw [ofNumber, hword, ofForm]
    cases hform : n.form <;> simp [hform] at h ⊢
  · rw [ofForm, Number.form_of_word? hword, ofNumber, hword]

theorem Held.of_bare {n : Number} (h : n.bare = true) :
    ofNumber n = markedNumber n ∧ ((∃ i, ofForm n = .integer i) ∨ ∃ shown, ofForm n = .float shown) := by
  rw [Number.bare, Bool.and_eq_true, Option.isNone_iff_eq_none] at h
  obtain ⟨hword, hform⟩ := h
  refine ⟨by rw [ofNumber, hword], ?_⟩
  rw [ofForm]
  cases hn : n.form <;> simp [hn] at hform ⊢

/-! ## Decoders that read both alike -/

namespace Decoder

variable {α β : Type}

/-- The decoder reads the value held back and its text held back the same way. -/
def AgreesOn (d : Decoder α) (v : Value) : Prop :=
  (d.held (Held.presenter.ofValue v)).toOption = (d.held (Held.builder.ofValue v)).toOption

/-- The decoder reads every value held back as it reads its text held back. -/
def Agrees (d : Decoder α) : Prop := ∀ v, d.AgreesOn v

theorem agrees_map {d : Decoder α} (h : d.Agrees) (f : α → β) : (d.map f).Agrees := by
  intro v
  show (f <$> d.held _).toOption = (f <$> d.held _).toOption
  rw [toOption_map, toOption_map, h v]

/-- On a number a decoder that takes neither numbers nor objects refuses both. -/
theorem agreesOn_number {d : Decoder α} (n : Number)
    (h : n.bare = true → (∀ i, (d.held (.integer i)).toOption = none) ∧
      (∀ shown, (d.held (.float shown)).toOption = none) ∧
      (d.held (.markedNumber n)).toOption = none) : d.AgreesOn (.number n) := by
  show (d.held (Held.ofForm n)).toOption = (d.held (Held.ofNumber n)).toOption
  cases hn : n.bare with
  | false => rw [Held.ofForm_eq_ofNumber hn]
  | true =>
    obtain ⟨hinteger, hfloat, hmarked⟩ := h hn
    obtain ⟨htext, ⟨i, hform⟩ | ⟨shown, hform⟩⟩ := Held.of_bare hn
    · rw [htext, hform, hmarked, hinteger]
    · rw [htext, hform, hmarked, hfloat]

theorem agrees_checkedString (expected : String) (check : String → Except Problem α) :
    (checkedString expected check).Agrees := by
  intro v
  cases v with
  | null | bool _ | string _ | array _ | object _ => rfl
  | number n => exact agreesOn_number n fun _ => ⟨fun _ => rfl, fun _ => rfl, rfl⟩

theorem agrees_string : string.Agrees := agrees_checkedString _ _

theorem agrees_id {kind : IdKind} : (id : Decoder (Identifier kind)).Agrees :=
  agrees_checkedString _ _

theorem agrees_optional {d : Decoder α} (h : d.Agrees) : (optional d).Agrees := by
  have hsome : ∀ content : Held, content ≠ .null →
      ((optional d).held content).toOption = (d.held content).toOption.map some := by
    intro content hnull
    cases content with
    | null => exact absurd rfl hnull
    | bool _ | integer _ | float _ | string _ | sequence _ | map _ => exact toOption_map some _
  have hnumber : ∀ n, Held.ofForm n ≠ .null ∧ Held.ofNumber n ≠ .null := by
    intro n
    constructor
    · unfold Held.ofForm
      split <;> simp [Held.markedNumber]
    · unfold Held.ofNumber
      split <;> simp [Held.markedNumber]
  intro v
  cases v with
  | null => rfl
  | number n =>
    have hpresented := hsome _ (hnumber n).1
    have hread := hsome _ (hnumber n).2
    exact hpresented.trans ((congrArg (Option.map some) (h (.number n))).trans hread.symm)
  | bool _ | string _ | array _ | object _ =>
    rw [AgreesOn, hsome, hsome, h] <;> simp [Builder.ofValue, Held.presenter, Held.builder]

theorem agrees_list {d : Decoder α} (h : d.Agrees) : (list d).Agrees := by
  intro v
  cases v with
  | null | bool _ | string _ | object _ => rfl
  | number n => exact agreesOn_number n fun _ => ⟨fun _ => rfl, fun _ => rfl, rfl⟩
  | array items =>
    have hitems : (fun v => (d.held (Held.presenter.ofValue v)).toOption) =
        fun v => (d.held (Held.builder.ofValue v)).toOption := funext h
    rw [AgreesOn, Builder.ofValue, Builder.ofValue, Builder.ofItems_eq_map, Builder.ofItems_eq_map]
    show ((items.map _).mapM d.held).toOption = ((items.map _).mapM d.held).toOption
    rw [toOption_mapM, toOption_mapM, List.mapM_map, List.mapM_map]
    exact congrArg (fun f => items.mapM f) hitems

theorem held_word_single (v : Vocabulary α) (key : String) (carried : Held) :
    ((word v).held (.map [(key, carried)])).toOption = (v.find key).toOption.bind fun a =>
      match carried with
      | .null | .map [] => some a
      | _ => none := by
  show (v.find key >>= _).toOption = _
  rw [toOption_bind]
  congr 1
  funext a
  rcases carried with _ | _ | _ | _ | _ | _ | (_ | _) <;> rfl

theorem agrees_word (v : Vocabulary α) : (word v).Agrees := by
  intro value
  cases value with
  | null | bool _ | string _ | array _ => rfl
  | number n =>
    refine agreesOn_number n fun _ => ⟨fun _ => rfl, fun _ => rfl, ?_⟩
    rw [Held.markedNumber, held_word_single]
    simp
  | object members =>
    match members with
    | [] | _ :: _ :: _ => rfl
    | [(key, carried)] =>
      show ((word v).held (.map [(key, _)])).toOption = ((word v).held (.map [(key, _)])).toOption
      rw [held_word_single, held_word_single]
      congr 1
      funext a
      cases carried with
      | null | bool _ | string _ | array _ => rfl
      | object members => cases members <;> rfl
      | number n =>
        show (match Held.ofForm n with | .null | .map [] => some a | _ => none) =
          (match Held.ofNumber n with | .null | .map [] => some a | _ => none)
        cases hn : n.bare with
        | false => rw [Held.ofForm_eq_ofNumber hn]
        | true =>
          obtain ⟨htext, ⟨i, hform⟩ | ⟨shown, hform⟩⟩ := Held.of_bare hn <;> rw [htext, hform] <;> rfl

end Decoder

/-! ## Records -/

namespace Fields

/-- The fields under the key read the value held back and its text held back the same way. -/
def AgreesAt (key : String) (v : Value) : Fields τ → Prop
  | done => True
  | field spec others => (spec.answersTo key = true → spec.decoder.AgreesOn v) ∧ others.AgreesAt key v

/-- Each field reads its item the same way, held back as a value and as text. -/
def AgreesInOrder : Fields τ → List Value → Prop
  | done, _ | field .., [] => True
  | field spec others, item :: items => spec.decoder.AgreesOn item ∧ others.AgreesInOrder items

/-- All decoders of the fields agree. -/
def Agrees : Fields τ → Prop
  | done => True
  | field spec others => spec.decoder.Agrees ∧ others.Agrees

theorem Agrees.agreesAt {fields : Fields τ} (h : fields.Agrees) (key : String) (v : Value) :
    fields.AgreesAt key v := by
  induction fields with
  | done => trivial
  | field spec others ih => exact ⟨fun _ => h.1 v, ih h.2⟩

theorem Agrees.agreesInOrder {fields : Fields τ} (h : fields.Agrees) (items : List Value) :
    fields.AgreesInOrder items := by
  induction fields generalizing items with
  | done => trivial
  | field spec others ih =>
    cases items with
    | nil => trivial
    | cons item items => exact ⟨h.1 item, ih h.2 items⟩

theorem takeHeld_agrees {fields : Fields τ} {key : String} {v : Value} (h : fields.AgreesAt key v)
    (slots : fields.Slots) :
    (fields.takeHeld slots (key, Held.presenter.ofValue v)).toOption =
      (fields.takeHeld slots (key, Held.builder.ofValue v)).toOption := by
  induction fields with
  | done => rfl
  | field spec others ih =>
    obtain ⟨slot, slots⟩ := slots
    obtain ⟨hspec, hothers⟩ := h
    cases hkey : spec.answersTo key with
    | true =>
      cases hslot : slot.isSome with
      | true => simp only [takeHeld, hkey, hslot, if_true]
      | false =>
        simp only [takeHeld, hkey, hslot, if_true, Bool.false_eq_true, if_false, toOption_bind]
        rw [hspec hkey]
    | false =>
      simp only [takeHeld, hkey, Bool.false_eq_true, if_false, toOption_bind]
      rw [ih hothers slots]

theorem positionalHeld_agrees {fields : Fields τ} {items : List Value}
    (h : fields.AgreesInOrder items) (expected : String) (index : Nat) :
    (fields.positionalHeld expected index (items.map Held.presenter.ofValue)).toOption.map
        (fun p => (p.1, p.2.isEmpty)) =
      (fields.positionalHeld expected index (items.map Held.builder.ofValue)).toOption.map
        fun p => (p.1, p.2.isEmpty) := by
  induction fields generalizing items index with
  | done => cases items <;> rfl
  | @field α β spec others ih =>
    cases items with
    | nil => rfl
    | cons item items =>
      obtain ⟨hitem, hothers⟩ := h
      -- what is left over of the items is what the other fields leave over
      have hstep : ∀ (a : α) (x : Except Problem (β × List Held)),
          (x.toOption.bind fun p => (pure ((a, p.1), p.2) : Except Problem _).toOption).map
            (fun p => (p.1, p.2.isEmpty)) =
          (x.toOption.map fun p => (p.1, p.2.isEmpty)).map fun q => ((a, q.1), q.2) := by
        intro a x
        cases x <;> rfl
      simp only [List.map_cons, positionalHeld, toOption_bind]
      rw [hitem]
      cases (spec.decoder.held (Held.builder.ofValue item)).toOption with
      | none => rfl
      | some a => exact (hstep a _).trans ((congrArg _ (ih hothers (index + 1))).trans (hstep a _).symm)

end Fields

namespace Decoder

variable {α τ : Type} {title : String} {fields : Fields τ} {build : τ → α}

theorem agreesOn_record_object {members : List (String × Value)}
    (h : ∀ m ∈ members, fields.AgreesAt m.1 m.2) :
    (record title fields build).AgreesOn (.object members) := by
  have hfold : ∀ slots : fields.Slots,
      ((members.map fun m => (m.1, Held.presenter.ofValue m.2)).foldlM fields.takeHeld slots).toOption =
        ((members.map fun m => (m.1, Held.builder.ofValue m.2)).foldlM fields.takeHeld
          slots).toOption := by
    induction members with
    | nil => exact fun _ => rfl
    | cons m members ih =>
      intro slots
      have hm := Fields.takeHeld_agrees (h m (List.mem_cons_self ..)) slots
      simp only [List.map_cons, List.foldlM_cons, toOption_bind, hm]
      congr 1
      exact funext (ih fun n hn => h n (List.mem_cons_of_mem m hn))
  rw [AgreesOn, Builder.ofValue, Builder.ofValue, Builder.ofMembers_eq_map, Builder.ofMembers_eq_map]
  show (List.foldlM fields.takeHeld fields.empty _ >>= _).toOption =
    (List.foldlM fields.takeHeld fields.empty _ >>= _).toOption
  rw [toOption_bind, toOption_bind, hfold]

theorem held_record_sequence (items : List Held) :
    ((record title fields build).held (.sequence items)).toOption =
      ((fields.positionalHeld s!"{title} with {elements fields.count}" 0 items).toOption.map
        fun p => (p.1, p.2.isEmpty)).bind fun q => if q.2 then some (build q.1) else none := by
  show (fields.positionalHeld _ 0 items >>= _).toOption = _
  rw [toOption_bind, Option.bind_map]
  congr 1
  funext ⟨values, extra⟩
  cases extra <;> rfl

theorem agreesOn_record_array {items : List Value} (h : fields.AgreesInOrder items) :
    (record title fields build).AgreesOn (.array items) := by
  rw [AgreesOn, Builder.ofValue, Builder.ofValue, Builder.ofItems_eq_map, Builder.ofItems_eq_map]
  show ((record title fields build).held (.sequence _)).toOption =
    ((record title fields build).held (.sequence _)).toOption
  rw [held_record_sequence, held_record_sequence, Fields.positionalHeld_agrees h]

/-- A record whose fields all agree agrees, if it refuses numbers however they are held. -/
theorem agrees_record (h : fields.Agrees)
    (hnumber : ∀ n, ((record title fields build).held (.markedNumber n)).toOption = none) :
    (record title fields build).Agrees := by
  intro v
  cases v with
  | null | bool _ | string _ => rfl
  | number n => exact agreesOn_number n fun _ => ⟨fun _ => rfl, fun _ => rfl, hnumber n⟩
  | array items => exact agreesOn_record_array (h.agreesInOrder items)
  | object members => exact agreesOn_record_object fun m _ => h.agreesAt m.1 m.2

end Decoder

end ContentVisibility.Json
