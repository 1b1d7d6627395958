import ContentVisibility.Proofs.Json.HeldBack
import ContentVisibility.Proofs.Json.Structures

/-!
# Written values are read as they are when held back

* `Decoder.ReadsAsHeld`: a decoder takes from the text of a value what it takes from the value held
  back;
* `readsAsHeld_list`, `readsAsHeld_record`: lists and records of such values.
-/

namespace ContentVisibility.Json

open Reader

namespace Decoder

variable {α β : Type}

/-- The decoder reads the written value, wherever it stands, as it reads the value held back. -/
structure ReadsAsHeld (d : Decoder α) (v : Value) : Prop where
  reads : ∀ x, Closed x → Reads d.text (v.chars ++ x) (d.held (Held.builder.ofValue v)).toOption x

theorem ReadsAsHeld.readText {d : Decoder α} {v : Value} (h : d.ReadsAsHeld v) :
    (d.text.readText v.text).toOption = (d.held (Held.builder.ofValue v)).toOption := by
  have hread := h.reads [] (fun _ hc => nomatch hc)
  refine Reads.readText ?_
  rwa [List.append_nil, ← String.toList_ofList (l := v.chars)] at hread

/-! ## Scalars -/

theorem readsAsHeld_checkedString (expected : String) (check : String → Except Problem α)
    (s : String) : (checkedString expected check).ReadsAsHeld (.string s) := by
  refine ⟨fun x _ => ?_⟩
  have htext : (Value.string s).chars ++ x = '"' :: (s.toList.flatMap charEscaped ++ '"' :: x) := by
    simp [Value.chars, stringChars]
  have hheld : ((checkedString expected check).held (Held.builder.ofValue (.string s))).toOption =
      (check s).toOption := rfl
  have hstring : Reads (Reader.string expected) ('"' :: (s.toList.flatMap charEscaped ++ '"' :: x))
      (some s) x :=
    (reads_token _ (by decide)).bind ((reads_skip _ _).bind (reads_stringRest s x))
  rw [htext, hheld]
  refine hstring.bind ?_
  cases check s with
  | ok a => exact reads_pure a x
  | error problem => exact (refuses_reject problem).reads

theorem readsAsHeld_bool (b : Bool) : bool.ReadsAsHeld (.bool b) := by
  refine ⟨fun x _ => ?_⟩
  cases b with
  | true =>
    refine (reads_token _ (by decide)).bind ((reads_skip _ _).bind ?_)
    exact (reads_literalRest "rue".toList x).bind (reads_pure true x)
  | false =>
    refine (reads_token _ (by decide)).bind ((reads_skip _ _).bind ?_)
    exact (reads_literalRest "alse".toList x).bind (reads_pure false x)

theorem readsAsHeld_map {d : Decoder α} {v : Value} (h : d.ReadsAsHeld v) (f : α → β) :
    (d.map f).ReadsAsHeld v := by
  refine ⟨fun x hx => ?_⟩
  have hread := h.reads x hx
  show Reads (f <$> d.text) _ (f <$> d.held (Held.builder.ofValue v)).toOption x
  rw [toOption_map, map_eq_pure_bind, Option.map_eq_bind]
  exact hread.bind_answer fun a => reads_pure (f a) x

theorem readsAsHeld_optional_null (d : Decoder α) : (optional d).ReadsAsHeld .null := by
  refine ⟨fun x _ => ?_⟩
  refine (reads_token _ (by decide)).bind ((reads_skip _ _).bind ?_)
  exact (reads_literalRest "ull".toList x).bind (reads_pure none x)

/-- A string is not null. -/
theorem readsAsHeld_optional_string {d : Decoder α} {s : String} (h : d.ReadsAsHeld (.string s)) :
    (optional d).ReadsAsHeld (.string s) := by
  refine ⟨fun x hx => ?_⟩
  have hread := (readsAsHeld_map h some).reads x hx
  have htext : (Value.string s).chars ++ x = '"' :: (s.toList.flatMap charEscaped ++ '"' :: x) := by
    simp [Value.chars, stringChars]
  rw [htext] at hread ⊢
  exact (reads_token _ (by decide)).bind hread

/-! ## Lists -/

theorem readsAsHeld_list {d : Decoder α} (hd : Steady d.text) {vs : List Value}
    (h : ∀ v ∈ vs, d.ReadsAsHeld v) : (list d).ReadsAsHeld (.array vs) := by
  refine ⟨fun x _ => ?_⟩
  have hitems : ∀ cs ∈ vs.map Value.chars, IsText cs := by
    intro cs hcs
    obtain ⟨v, -, rfl⟩ := List.mem_map.1 hcs
    exact v.isValue_chars.isText
  have hheld : ((list d).held (Held.builder.ofValue (.array vs))).toOption =
      (vs.map Value.chars).mapM (itemOf d.text) := by
    rw [Builder.ofValue, Builder.ofItems_eq_map]
    show ((vs.map Held.builder.ofValue).mapM d.held).toOption = _
    rw [toOption_mapM]
    clear hitems
    induction vs with
    | nil => rfl
    | cons v vs ih =>
      have hv : itemOf d.text v.chars = _ := (h v (List.mem_cons_self ..)).readText
      simp only [List.map_cons, List.mapM_cons, ih fun u hu => h u (List.mem_cons_of_mem v hu), hv]
  have htext : (Value.array vs).chars ++ x =
      '[' :: ([] ++ (listed true (vs.map Value.chars) ++ ']' :: x)) := by
    simp [Value.chars, Value.itemsChars_eq_map, listed_true]
  have hread := hd.reads_items hitems blank_nil x
  rw [hheld, htext]
  exact (reads_token _ (by decide)).bind hread

end Decoder

/-! ## Records -/

/-- The field that a member goes to reads its value as it does when it is held back. -/
def Fields.ReadsAsHeld (m : String × Value) : Fields τ → Prop
  | done => True
  | field spec others =>
    if spec.answersTo m.1 then spec.decoder.ReadsAsHeld m.2 else others.ReadsAsHeld m

theorem Fields.reads_takeText {fields : Fields τ} {m : String × Value} (h : fields.ReadsAsHeld m)
    (slots : fields.Slots) {x : List Char} (hx : Closed x) :
    Reads (fields.takeText slots m.1) (':' :: (m.2.chars ++ x))
      (fields.takeHeld slots (m.1, Held.builder.ofValue m.2)).toOption x := by
  induction fields with
  | done =>
    have hskip := reads_skipValue blank_nil m.2.isValue_chars hx.ended
    exact (reads_colon _).bind (hskip.bind (reads_pure slots x))
  | field spec others ih =>
    obtain ⟨slot, slots⟩ := slots
    cases hkey : spec.answersTo m.1 with
    | true =>
      rw [ReadsAsHeld, if_pos hkey] at h
      cases hslot : slot.isSome with
      | true =>
        simp only [takeText, takeHeld, hkey, hslot, if_true]
        exact (refuses_rejectClosing _ _).reads
      | false =>
        simp only [takeText, takeHeld, hkey, hslot, if_true, Bool.false_eq_true, if_false,
          toOption_bind]
        refine (reads_colon _).bind ?_
        exact Reads.bind_answer (h.reads x hx) fun a => reads_pure (some a, slots) x
    | false =>
      rw [ReadsAsHeld, if_neg (by simp [hkey])] at h
      simp only [takeText, takeHeld, hkey, Bool.false_eq_true, if_false, toOption_bind]
      exact (ih h slots).bind_answer fun slots => reads_pure (slot, slots) x

theorem Decoder.readsAsHeld_record {title : String} {fields : Fields τ} {build : τ → α}
    {ms : List (String × Value)} (h : ∀ m ∈ ms, fields.ReadsAsHeld m) :
    (record title fields build).ReadsAsHeld (.object ms) := by
  refine ⟨fun x _ => ?_⟩
  have htext : (Value.object ms).chars ++ x =
      '{' :: (commaSeparated (Value.membersChars ms) ++ '}' :: x) := by simp [Value.chars]
  have hfold : Reads (foldMembers fields.takeText true fields.empty)
      (commaSeparated (Value.membersChars ms) ++ '}' :: x)
      (ms.foldlM (fun slots m =>
        (fields.takeHeld slots (m.1, Held.builder.ofValue m.2)).toOption) fields.empty)
      ('}' :: x) :=
    reads_foldMembers (fun m hm slots y hy => Fields.reads_takeText (h m hm) slots hy) fields.empty x
  have hheld : ((record title fields build).held (Held.builder.ofValue (.object ms))).toOption =
      (ms.foldlM (fun slots m =>
          (fields.takeHeld slots (m.1, Held.builder.ofValue m.2)).toOption) fields.empty).bind
        fun slots => (fields.complete slots).toOption.map build := by
    rw [Builder.ofValue, Builder.ofMembers_eq_map]
    show ((ms.map fun m => (m.1, Held.builder.ofValue m.2)).foldlM fields.takeHeld fields.empty >>=
      fun slots => fields.complete slots >>= fun values => pure (build values)).toOption = _
    rw [toOption_bind, toOption_foldlM, List.foldlM_map]
    congr 1
    funext slots
    cases fields.complete slots <;> rfl
  rw [htext, hheld]
  refine (reads_token _ (by decide)).bind ((reads_skip _ _).bind ?_)
  refine hfold.bind_answer fun slots => ?_
  cases fields.complete slots with
  | ok values => exact (reads_endObject x).bind (reads_pure (build values) x)
  | error problem => exact (refuses_rejectClosing _ _).reads

end ContentVisibility.Json
