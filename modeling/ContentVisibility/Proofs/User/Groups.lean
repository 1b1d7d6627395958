import ContentVisibility.Rule.Basic

/-!
# Groups of a user

What is found in a catalog once more entries have been put in, and so who belongs to which groups when
the groups of two sources are joined.

* `Catalog.find?_put`: the entry for a key once one more is put in;
* `GroupSet.contains_iff`: the groups of a set are its entries;
* `GroupSet.contains_putAll`, `User.isMemberOf_joiningAll`: the groups of both sources and no others.
-/

namespace ContentVisibility

/-! ## Entries by key -/

namespace Catalog

variable {α : Type} {key : α → Nat}

theorem find?_putEntry (a : α) (k : Nat) (entries : List α) :
    (putEntry key a entries).find? (fun b => key b == k) =
      if key a = k then some a else entries.find? fun b => key b == k := by
  induction entries with
  | nil => by_cases hk : key a = k <;> simp [putEntry, hk]
  | cons b entries ih =>
    unfold putEntry
    split
    · by_cases hk : key a = k <;> simp [List.find?_cons, hk]
    · split
      next hsame =>
        by_cases hk : key a = k
        · simp [hk]
        · have hb : ¬ key b = k := fun he => hk (hsame.trans he)
          simp [hk, hb]
      next hother =>
        by_cases hb : key b = k
        · have hk : ¬ key a = k := fun he => hother (he.trans hb.symm)
          simp [hk, hb]
        · simp [hb, ih]

theorem find?_put (a : α) (k : Nat) (c : Catalog α key) :
    (c.put a).find? k = if key a = k then some a else c.find? k :=
  find?_putEntry a k c.entries

end Catalog

/-! ## Sets of groups -/

theorem Identifier.number_inj {kind : IdKind} {id id' : Identifier kind} :
    id.number = id'.number ↔ id = id' := by
  constructor
  · obtain ⟨n, hn⟩ := id
    obtain ⟨m, hm⟩ := id'
    rintro rfl
    rfl
  · rintro rfl
    rfl

namespace GroupSet

theorem contains_iff (groups : GroupSet) (group : GroupId) :
    groups.contains group = true ↔ group ∈ groups.entries := by
  rw [contains, Catalog.find?, List.find?_isSome]
  simp only [beq_iff_eq, Identifier.number_inj, exists_eq_right]

theorem contains_put (groups : GroupSet) (other group : GroupId) :
    contains (groups.put other) group = true ↔ groups.contains group = true ∨ other = group := by
  rw [contains, Catalog.find?_put, contains]
  by_cases h : other = group
  · simp [h]
  · simp [h, Identifier.number_inj]

/-- A set to which groups have been added has these groups and its own. -/
theorem contains_putAll (groups : GroupSet) (others : List GroupId) (group : GroupId) :
    contains (groups.putAll others) group = true ↔
      groups.contains group = true ∨ group ∈ others := by
  induction others generalizing groups with
  | nil => simp [Catalog.putAll]
  | cons other others ih =>
    have hstep := ih (groups.put other)
    rw [contains_put] at hstep
    rw [List.mem_cons, ← or_assoc, @eq_comm _ group other]
    exact hstep

theorem contains_ofList (groups : List GroupId) (group : GroupId) :
    contains (Catalog.ofList groups) group = true ↔ group ∈ groups := by
  have hnone : ¬ contains .empty group = true := by simp [contains_iff, Catalog.empty]
  rw [Catalog.ofList, contains_putAll, or_iff_right hnone]

end GroupSet

/-! ## Members -/

namespace User

/-- A user to whose groups others have been joined belongs to the groups of both. -/
theorem isMemberOf_joiningAll (user : User) (groups : GroupSet) (group : GroupId) :
    (user.joiningAll groups).isMemberOf group = (user.groups.contains group || groups.contains group) := by
  rw [Bool.eq_iff_iff, Bool.or_eq_true, GroupSet.contains_iff groups]
  exact GroupSet.contains_putAll user.groups groups.entries group

theorem attribute_joiningAll (user : User) (groups : GroupSet) (field : Field) :
    (user.joiningAll groups).attribute field = user.attribute field := by
  cases field <;> rfl

end User

end ContentVisibility
