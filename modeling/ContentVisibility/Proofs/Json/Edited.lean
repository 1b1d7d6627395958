import ContentVisibility.Proofs.Rule.Cut
import ContentVisibility.Proofs.Widget.Successive

/-!
# Values edited in one place

What a record is read as after one member of its object was changed, or one more was put in: a field
only looks at the members that answer to it.

* `Value.onMembers`, `Value.onMember`, `Value.onItem`: a value edited in one place;
* `Fields.reads?_field_eq_some_iff`: fields whose keys are apart are read one by one from all members;
* `FieldSpec.reads?_change`, `FieldSpec.reads?_put_of_not`: a field after its own member was changed,
  and after a member of no concern to it was put in;
* `Value.narrow_put`, `Value.narrow_modify`: whether an edited value can be held back.
-/

namespace ContentVisibility.Json

variable {α β : Type}

/-! ## Edits -/

namespace Value

/-- The item of a list at an index. -/
def item? (i : Nat) : Value → Option Value
  | .array items => items[i]?
  | .null | .bool _ | .number _ | .string _ | .object _ => none

/-- An object with its members edited. -/
def onMembers (f : List (String × Value) → List (String × Value)) : Value → Value
  | .object members => .object (f members)
  | value => value

/-- An object with the value under a key edited. -/
def onMember (key : String) (f : Value → Value) : Value → Value :=
  onMembers (Members.change f key)

/-- A list with the item at an index edited. -/
def onItem (i : Nat) (f : Value → Value) : Value → Value
  | .array items => .array (items.modify i f)
  | value => value

end Value

/-! ## Members that pass a test of their keys -/

namespace Members

theorem filter_change {key : String} {p : String → Bool} (h : p key = true) (f : α → α)
    (ms : List (String × α)) :
    ((change f key ms).filter fun m => p m.1) = change f key (ms.filter fun m => p m.1) := by
  induction ms with
  | nil => rfl
  | cons m ms ih =>
    obtain ⟨k, v⟩ := m
    by_cases hk : k = key
    · simp [change, hk, h]
    · by_cases hp : p k = true
      · simp [change, hk, hp, ih]
      · simp [change, hk, hp, ih]

theorem filter_change_of_not {key : String} {p : String → Bool} (h : p key = false) (f : α → α)
    (ms : List (String × α)) :
    ((change f key ms).filter fun m => p m.1) = ms.filter fun m => p m.1 := by
  induction ms with
  | nil => rfl
  | cons m ms ih =>
    obtain ⟨k, v⟩ := m
    by_cases hk : k = key
    · simp [change, hk, h]
    · simp [change, hk, List.filter_cons, ih]

theorem filter_put_of_not {key : String} {p : String → Bool} (h : p key = false) (value : α)
    (ms : List (String × α)) :
    ((put key value ms).filter fun m => p m.1) = ms.filter fun m => p m.1 := by
  induction ms with
  | nil => simp [put, h]
  | cons m ms ih =>
    obtain ⟨k, v⟩ := m
    by_cases hk : k = key
    · simp [put, hk, h]
    · simp [put, hk, List.filter_cons, ih]

theorem map_fst_change (f : α → α) (key : String) (ms : List (String × α)) :
    (change f key ms).map Prod.fst = ms.map Prod.fst := by
  induction ms with
  | nil => rfl
  | cons m ms ih =>
    rw [change]
    split <;> simp [ih]

end Members

/-! ## Fields -/

/-- The value of a field among the members of an object. -/
def FieldSpec.reads? (spec : FieldSpec α) (ms : List (String × Value)) : Option α :=
  spec.pick (ms.map fun m => (m.1, Held.presenter.ofValue m.2))

/-- The values of all fields among the members of an object. -/
def Fields.reads? (fields : Fields τ) (ms : List (String × Value)) : Option τ :=
  fields.pick (ms.map fun m => (m.1, Held.presenter.ofValue m.2))

theorem Decoder.record_reads?_object {title : String} {fields : Fields τ} {build : τ → α}
    (ms : List (String × Value)) :
    (record title fields build).reads? (.object ms) = (fields.reads? ms).map build := by
  rw [reads?_object, held_record_map, Fields.reads?]

namespace FieldSpec

/-- The keys that a field answers to. -/
def keys (spec : FieldSpec α) : List String := spec.name :: spec.aliases

theorem answersTo_iff {spec : FieldSpec α} {key : String} :
    spec.answersTo key = true ↔ key ∈ spec.keys := by
  simp [answersTo, keys]

variable {spec : FieldSpec α} {ms : List (String × Value)} {a : α}

/-- A field is read from the members that answer to it. -/
theorem reads?_congr {ms' : List (String × Value)}
    (h : (ms.filter fun m => spec.answersTo m.1) = ms'.filter fun m => spec.answersTo m.1) :
    spec.reads? ms = spec.reads? ms' := by
  rw [reads?, reads?, pick, pick, own_map, own_map, h]

theorem answersTo_eq_false {key : String} (h : key ∉ spec.keys) : spec.answersTo key = false :=
  Bool.eq_false_iff.2 fun hkey => h (answersTo_iff.1 hkey)

theorem reads?_put_of_not {key : String} (h : key ∉ spec.keys) (value : Value) :
    spec.reads? (Members.put key value ms) = spec.reads? ms :=
  reads?_congr (Members.filter_put_of_not (answersTo_eq_false h) value ms)

theorem reads?_change_of_not {key : String} (h : key ∉ spec.keys) (f : Value → Value) :
    spec.reads? (Members.change f key ms) = spec.reads? ms :=
  reads?_congr (Members.filter_change_of_not (answersTo_eq_false h) f ms)

theorem reads?_eq_some_iff :
    spec.reads? ms = some a ↔
      ((ms.filter fun m => spec.answersTo m.1) = [] ∧ spec.absent = some a) ∨
        ∃ m, (ms.filter fun m => spec.answersTo m.1) = [m] ∧ spec.decoder.reads? m.2 = some a :=
  pick_map_eq_some

theorem filter_eq_singleton {key : String} (hkey : key ∈ spec.keys) (h : spec.reads? ms = some a)
    {value : Value} (hget : Members.get? key ms = some value) :
    (ms.filter fun m => spec.answersTo m.1) = [(key, value)] ∧ spec.decoder.reads? value = some a := by
  have hown : (key, value) ∈ ms.filter fun m => spec.answersTo m.1 :=
    List.mem_filter.2 ⟨Members.mem_of_get?_eq_some hget, answersTo_iff.2 hkey⟩
  rcases reads?_eq_some_iff.1 h with ⟨hnil, -⟩ | ⟨m, hone, hread⟩
  · rw [hnil] at hown
    cases hown
  · rw [hone] at hown
    obtain rfl := List.mem_singleton.1 hown
    exact ⟨hone, hread⟩

theorem reads?_change {key : String} (hkey : key ∈ spec.keys) (h : spec.reads? ms = some a)
    {value : Value} (hget : Members.get? key ms = some value) (f : Value → Value) :
    spec.reads? (Members.change f key ms) = spec.decoder.reads? (f value) := by
  obtain ⟨hone, -⟩ := filter_eq_singleton hkey h hget
  rw [reads?, pick, own_map, Members.filter_change (answersTo_iff.2 hkey), hone, Members.change, if_pos rfl]
  rfl

theorem exists_get? (habsent : spec.absent = none) (h : spec.reads? ms = some a) :
    ∃ key ∈ spec.keys, ∃ value, Members.get? key ms = some value := by
  rcases reads?_eq_some_iff.1 h with ⟨-, hsome⟩ | ⟨m, hone, -⟩
  · rw [habsent] at hsome
    cases hsome
  · obtain ⟨hm, hkey⟩ := List.mem_filter.1 (hone ▸ List.mem_singleton_self m)
    cases hget : Members.get? m.1 ms with
    | none => exact absurd rfl (Members.get?_eq_none_iff.1 hget m hm)
    | some value => exact ⟨m.1, answersTo_iff.1 hkey, value, hget⟩

end FieldSpec

namespace Fields

/-- The keys that some field answers to. -/
def keys : Fields τ → List String
  | done => []
  | field spec others => spec.keys ++ others.keys

/-- Fields only look at the members that answer to them. -/
theorem pick_filter {fields : Fields τ} {p : String → Bool} (h : ∀ key ∈ fields.keys, p key = true)
    (ms : List (String × Held)) : fields.pick (ms.filter fun m => p m.1) = fields.pick ms := by
  induction fields generalizing ms with
  | done => rfl
  | field spec others ih =>
    obtain ⟨hspec, hothers⟩ := List.forall_mem_append.1 h
    have hown : spec.own (ms.filter fun m => p m.1) = spec.own ms := by
      rw [FieldSpec.own, List.filter_filter]
      refine List.filter_congr fun m _ => ?_
      cases hm : spec.answersTo m.1 with
      | false => rfl
      | true => rw [hspec m.1 (FieldSpec.answersTo_iff.1 hm), Bool.and_true]
    have hrest : spec.others (ms.filter fun m => p m.1) = (spec.others ms).filter fun m => p m.1 := by
      rw [FieldSpec.others, FieldSpec.others, List.filter_filter, List.filter_filter]
      exact List.filter_congr fun m _ => Bool.and_comm ..
    rw [pick, pick, FieldSpec.pick, FieldSpec.pick, hown, hrest, ih hothers]

/-- Fields whose keys are apart are read one by one, each from all members. -/
theorem reads?_field_eq_some_iff {spec : FieldSpec α} {others : Fields β}
    (h : ∀ key ∈ others.keys, spec.answersTo key = false) {ms : List (String × Value)} {a : α}
    {rest : β} :
    (field spec others).reads? ms = some (a, rest) ↔
      spec.reads? ms = some a ∧ others.reads? ms = some rest := by
  have hrest : ∀ held, others.pick (spec.others held) = others.pick held := fun held =>
    pick_filter (p := fun key => !spec.answersTo key) (fun key hkey => by rw [h key hkey]; rfl) held
  rw [reads?, pick, hrest, Option.bind_eq_some_iff]
  constructor
  · rintro ⟨a', ha, hothers⟩
    obtain ⟨rest', hothers, heq⟩ := Option.map_eq_some_iff.1 hothers
    cases heq
    exact ⟨ha, hothers⟩
  · rintro ⟨ha, hothers⟩
    exact ⟨a, ha, Option.map_eq_some_iff.2 ⟨rest, hothers, rfl⟩⟩

theorem reads?_done (ms : List (String × Value)) : done.reads? ms = some () := rfl

end Fields

/-! ## Lists -/

/-- A list read item by item is read anew where one item was changed. -/
theorem mapM_modify {g : α → Option β} {as : List α} {bs : List β} (h : as.mapM g = some bs) {i : Nat}
    {a : α} (ha : as[i]? = some a) (f : α → α) :
    (∃ b, bs[i]? = some b ∧ g a = some b) ∧
      (as.modify i f).mapM g = (g (f a)).map fun b => bs.set i b := by
  induction as generalizing bs i with
  | nil => cases ha
  | cons first as ih =>
    rw [List.mapM_cons] at h
    obtain ⟨b, hb, h⟩ := Option.bind_eq_some_iff.1 h
    obtain ⟨rest, hrest, h⟩ := Option.bind_eq_some_iff.1 h
    cases h
    cases i with
    | zero =>
      obtain rfl : first = a := Option.some.inj ha
      refine ⟨⟨b, rfl, hb⟩, ?_⟩
      rw [List.modify_zero_cons, List.mapM_cons, hrest]
      cases g (f first) <;> rfl
    | succ i =>
      obtain ⟨hat, hedited⟩ := ih hrest ha
      refine ⟨hat, ?_⟩
      rw [List.modify_succ_cons, List.mapM_cons, hb, hedited]
      cases g (f a) <;> rfl

/-! ## Values that can be held back -/

namespace Value

theorem narrow_object (ms : List (String × Value)) :
    (Value.object ms).narrow = ms.all fun m => m.2.narrow := by
  rw [narrow, narrowMembers_eq_all]

theorem narrow_array (items : List Value) : (Value.array items).narrow = items.all narrow := by
  rw [narrow, narrowItems_eq_all]

theorem narrow_put {ms : List (String × Value)} (h : (Value.object ms).narrow = true) (key : String)
    (value : Value) : (Value.object (Members.put key value ms)).narrow = value.narrow := by
  rw [narrow_object] at h ⊢
  induction ms with
  | nil => simp [Members.put]
  | cons m ms ih =>
    rw [List.all_cons, Bool.and_eq_true] at h
    rw [Members.put]
    split
    · rw [List.all_cons, h.2, Bool.and_true]
    · rw [List.all_cons, h.1, Bool.true_and, ih h.2]

theorem narrow_change {ms : List (String × Value)} (h : (Value.object ms).narrow = true) {key : String}
    {value : Value} (hget : Members.get? key ms = some value) (f : Value → Value) :
    (Value.object (Members.change f key ms)).narrow = (f value).narrow := by
  rw [Members.change_eq_put hget, narrow_put h]

theorem narrow_modify {items : List Value} (h : (Value.array items).narrow = true) {i : Nat}
    {item : Value} (hitem : items[i]? = some item) (f : Value → Value) :
    (Value.array (items.modify i f)).narrow = (f item).narrow := by
  rw [narrow_array] at h ⊢
  induction items generalizing i with
  | nil => cases hitem
  | cons first items ih =>
    rw [List.all_cons, Bool.and_eq_true] at h
    cases i with
    | zero =>
      obtain rfl : first = item := Option.some.inj hitem
      rw [List.modify_zero_cons, List.all_cons, h.2, Bool.and_true]
    | succ i => rw [List.modify_succ_cons, List.all_cons, h.1, Bool.true_and, ih h.2 hitem]

/-- What stands in a value that can be held back can be held back. -/
theorem narrow_of_get? {ms : List (String × Value)} (h : (Value.object ms).narrow = true) {key : String}
    {value : Value} (hget : Members.get? key ms = some value) : value.narrow = true := by
  rw [narrow_object, List.all_eq_true] at h
  exact h _ (Members.mem_of_get?_eq_some hget)

theorem narrow_of_getElem? {items : List Value} (h : (Value.array items).narrow = true) {i : Nat}
    {item : Value} (hitem : items[i]? = some item) : item.narrow = true := by
  rw [narrow_array, List.all_eq_true] at h
  exact h _ (List.mem_of_getElem? hitem)

end Value

end ContentVisibility.Json
