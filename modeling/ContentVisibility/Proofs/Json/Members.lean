import ContentVisibility.Json.Value
import Mathlib.Data.List.Nodup

/-!
# Members of an object

A member put in keeps the place of its key, and what comes from putting members in one after another
has every key once.

* `map_fst_put`, `mem_put`: the keys and the members once one more is put in;
* `get?_eq_some_of_mem`, `put_eq_map`: members of an object that has every key once;
* `ofList_eq_self`, `nodup_ofList`, `head?_ofList`: the members put in one after another.
-/

namespace ContentVisibility.Json.Members

variable {α : Type}

/-! ## One member -/

theorem put_eq_append {key : String} (value : α) {ms : List (String × α)}
    (h : key ∉ ms.map Prod.fst) : put key value ms = ms ++ [(key, value)] := by
  induction ms with
  | nil => rfl
  | cons m ms ih =>
    obtain ⟨k, v⟩ := m
    simp only [List.map_cons, List.mem_cons, not_or] at h
    rw [put, if_neg fun he => h.1 he.symm, ih h.2]
    rfl

theorem map_fst_put (key : String) (value : α) (ms : List (String × α)) :
    (put key value ms).map Prod.fst =
      if key ∈ ms.map Prod.fst then ms.map Prod.fst else ms.map Prod.fst ++ [key] := by
  induction ms with
  | nil => rfl
  | cons m ms ih =>
    obtain ⟨k, v⟩ := m
    by_cases hk : k = key
    · simp [put, hk]
    · have hk' : ¬ key = k := fun h => hk h.symm
      simp only [put, hk, if_false, List.map_cons, ih, List.mem_cons, hk', false_or]
      split <;> rfl

theorem nodup_put {key : String} {value : α} {ms : List (String × α)}
    (h : (ms.map Prod.fst).Nodup) : ((put key value ms).map Prod.fst).Nodup := by
  rw [map_fst_put]
  split
  · exact h
  · next hnew =>
    rw [List.nodup_append]
    refine ⟨h, by simp, fun a ha b hb => ?_⟩
    rw [List.mem_singleton.1 hb]
    exact fun he => hnew (he ▸ ha)

theorem mem_put {key : String} {value : α} {ms : List (String × α)} {m : String × α}
    (h : m ∈ put key value ms) : m ∈ ms ∨ m = (key, value) := by
  induction ms with
  | nil => simpa [put] using h
  | cons n ms ih =>
    obtain ⟨k, v⟩ := n
    by_cases hk : k = key
    · simp only [put, hk, if_true, List.mem_cons] at h ⊢
      rcases h with h | h
      · exact .inr h
      · exact .inl (.inr h)
    · simp only [put, hk, if_false, List.mem_cons] at h ⊢
      rcases h with h | h
      · exact .inl (.inl h)
      · exact (ih h).imp_left .inr

/-! ## Members by key -/

theorem get?_cons (key : String) (m : String × α) (ms : List (String × α)) :
    get? key (m :: ms) = if m.1 = key then some m.2 else get? key ms := by
  by_cases h : m.1 = key <;> simp [get?, h]

theorem get?_eq_none_iff {key : String} {ms : List (String × α)} :
    get? key ms = none ↔ ∀ m ∈ ms, m.1 ≠ key := by
  simp [get?]

theorem mem_of_get?_eq_some {key : String} {value : α} {ms : List (String × α)}
    (h : get? key ms = some value) : (key, value) ∈ ms := by
  induction ms with
  | nil => simp [get?] at h
  | cons m ms ih =>
    rw [get?_cons] at h
    split at h
    · next hk =>
      subst hk
      cases h
      exact List.mem_cons_self ..
    · exact List.mem_cons_of_mem m (ih h)

theorem get?_eq_some_of_mem {ms : List (String × α)} (h : (ms.map Prod.fst).Nodup) {m : String × α}
    (hm : m ∈ ms) : get? m.1 ms = some m.2 := by
  induction ms with
  | nil => cases hm
  | cons n ms ih =>
    rw [List.map_cons, List.nodup_cons] at h
    rw [get?_cons]
    rcases List.mem_cons.1 hm with rfl | hm
    · simp
    · have hne : n.1 ≠ m.1 := fun he => h.1 (he ▸ List.mem_map_of_mem hm)
      rw [if_neg hne, ih h.2 hm]

theorem get?_map (key : String) (f : String → α → α) (ms : List (String × α)) :
    get? key (ms.map fun m => (m.1, f m.1 m.2)) = (get? key ms).map (f key) := by
  induction ms with
  | nil => rfl
  | cons m ms ih =>
    rw [List.map_cons, get?_cons, get?_cons, ih]
    by_cases hk : m.1 = key
    · simp [hk]
    · simp [hk]

theorem get?_put_self (key : String) (value : α) (ms : List (String × α)) :
    get? key (put key value ms) = some value := by
  induction ms with
  | nil => simp [put, get?_cons]
  | cons m ms ih =>
    obtain ⟨k, v⟩ := m
    by_cases hk : k = key
    · rw [put, if_pos hk, get?_cons, if_pos hk]
    · rw [put, if_neg hk, get?_cons, if_neg hk, ih]

theorem get?_put_of_ne {key other : String} (h : other ≠ key) (value : α) (ms : List (String × α)) :
    get? other (put key value ms) = get? other ms := by
  induction ms with
  | nil => rw [put, get?_cons, if_neg h.symm]
  | cons m ms ih =>
    obtain ⟨k, v⟩ := m
    by_cases hk : k = key
    · have hne : k ≠ other := fun he => h (he.symm.trans hk)
      rw [put, if_pos hk, get?_cons, get?_cons, if_neg hne, if_neg hne]
    · rw [put, if_neg hk, get?_cons, get?_cons, ih]

/-- A member put in for a key that stands once replaces the member there. -/
theorem put_eq_map {key : String} {old : α} {ms : List (String × α)} (h : (ms.map Prod.fst).Nodup)
    (hold : get? key ms = some old) (value : α) :
    put key value ms = ms.map fun m => if m.1 = key then (key, value) else m := by
  induction ms with
  | nil => simp [get?] at hold
  | cons m ms ih =>
    obtain ⟨k, v⟩ := m
    rw [List.map_cons, List.nodup_cons] at h
    rw [get?_cons] at hold
    by_cases hk : k = key
    · have hrest : (ms.map fun m => if m.1 = key then (key, value) else m) = ms.map id := by
        refine List.map_congr_left fun m hm => ?_
        have hne : m.1 ≠ key := fun he => h.1 (List.mem_map.2 ⟨m, hm, he.trans hk.symm⟩)
        simp [hne]
      rw [put, if_pos hk, List.map_cons, hrest, List.map_id]
      simp [hk]
    · rw [if_neg hk] at hold
      rw [put, if_neg hk, ih h.2 hold, List.map_cons]
      simp [hk]

/-! ## Members put in one after another -/

theorem ofList_eq_foldl (ms : List (String × α)) :
    ofList ms = ms.foldl (fun kept m => put m.1 m.2 kept) [] := rfl

theorem ofList_eq_self {ms : List (String × α)} (h : (ms.map Prod.fst).Nodup) : ofList ms = ms := by
  have hgo : ∀ (kept ms : List (String × α)), ((kept ++ ms).map Prod.fst).Nodup →
      ms.foldl (fun kept m => put m.1 m.2 kept) kept = kept ++ ms := by
    intro kept ms
    induction ms generalizing kept with
    | nil => simp
    | cons m ms ih =>
      intro hnodup
      have hnew : m.1 ∉ kept.map Prod.fst := by
        rw [List.map_append, List.map_cons] at hnodup
        exact fun hm => (List.nodup_append.1 hnodup).2.2 _ hm _ (List.mem_cons_self ..) rfl
      rw [List.foldl_cons, put_eq_append m.2 hnew, ih _ (by simpa using hnodup)]
      simp
  rw [ofList_eq_foldl, hgo [] ms h, List.nil_append]

/-- What holds without members and of each putting in holds of all members put in. -/
theorem ofList_induction {P : List (String × α) → Prop} {ms : List (String × α)} (h₀ : P [])
    (hput : ∀ kept, ∀ m ∈ ms, P kept → P (put m.1 m.2 kept)) : P (ofList ms) :=
  List.foldlRecOn ms _ h₀ fun kept hkept m hm => hput kept m hm hkept

theorem nodup_ofList (ms : List (String × α)) : ((ofList ms).map Prod.fst).Nodup :=
  ofList_induction (P := fun kept => (kept.map Prod.fst).Nodup) List.nodup_nil
    fun _ _ _ h => nodup_put h

theorem mem_of_mem_ofList {ms : List (String × α)} {m : String × α} (h : m ∈ ofList ms) : m ∈ ms := by
  revert m
  refine ofList_induction (P := fun kept => ∀ {m}, m ∈ kept → m ∈ ms) (by simp) ?_
  intro kept n hn ih m hm
  rcases mem_put hm with hm | rfl
  · exact ih hm
  · exact hn

/-- The first key stays the first one. -/
theorem head?_ofList (m : String × α) (ms : List (String × α)) :
    ((ofList (m :: ms)).map Prod.fst).head? = some m.1 := by
  refine List.foldlRecOn (motive := fun kept : List (String × α) =>
    (kept.map Prod.fst).head? = some m.1) ms _ rfl ?_
  intro kept hkept n _
  rw [map_fst_put]
  split
  · exact hkept
  · cases kept with
    | nil => simp at hkept
    | cons k kept => simpa using hkept

end ContentVisibility.Json.Members
