/-!
# Catalogs

A catalog holds at most one entry for each key, in ascending order of the keys.

* `Catalog`: entries in strictly ascending order of a key;
* `Catalog.put`, `Catalog.ofList`: the last entry put in for a key is the one that is kept;
* `Catalog.find?`: the entry for a key.
-/

namespace ContentVisibility

variable {α : Type} {key : α → Nat}

def Ascending (key : α → Nat) (entries : List α) : Prop :=
  entries.Pairwise fun a b => key a < key b

/-- At most one entry for each key. -/
structure Catalog (α : Type) (key : α → Nat) where
  entries : List α
  ascending : Ascending key entries

namespace Catalog

@[ext] theorem ext {c d : Catalog α key} (h : c.entries = d.entries) : c = d := by
  cases c; cases d; cases h; rfl

/-! ## Entries -/

/-- The entries with one more put in its place, instead of the one with its key. -/
def putEntry (key : α → Nat) (a : α) : List α → List α
  | [] => [a]
  | b :: entries =>
    if key a < key b then a :: b :: entries
    else if key a = key b then a :: entries
    else b :: putEntry key a entries

theorem mem_putEntry {a b : α} {entries : List α} (h : b ∈ putEntry key a entries) :
    b = a ∨ b ∈ entries := by
  induction entries with
  | nil => simpa [putEntry] using h
  | cons c entries ih =>
    unfold putEntry at h
    split at h
    · simpa using h
    · split at h
      · rcases List.mem_cons.1 h with h | h
        · exact .inl h
        · exact .inr (List.mem_cons_of_mem c h)
      · rcases List.mem_cons.1 h with h | h
        · exact .inr (h ▸ List.mem_cons_self)
        · exact (ih h).imp_right (List.mem_cons_of_mem c)

theorem ascending_putEntry {a : α} {entries : List α} (h : Ascending key entries) :
    Ascending key (putEntry key a entries) := by
  induction entries with
  | nil => exact List.pairwise_singleton _ _
  | cons b entries ih =>
    obtain ⟨above, rest⟩ := List.pairwise_cons.1 h
    unfold putEntry
    split
    next less =>
      refine List.pairwise_cons.2 ⟨fun c hc => ?_, h⟩
      rcases List.mem_cons.1 hc with rfl | hc
      · exact less
      · exact Nat.lt_trans less (above c hc)
    next notLess =>
      split
      next same => exact List.pairwise_cons.2 ⟨fun c hc => same ▸ above c hc, rest⟩
      next other =>
        refine List.pairwise_cons.2 ⟨fun c hc => ?_, ih rest⟩
        rcases mem_putEntry hc with rfl | hc
        · omega
        · exact above c hc

/-! ## Catalogs -/

def empty : Catalog α key := ⟨[], List.Pairwise.nil⟩

instance : Inhabited (Catalog α key) := ⟨empty⟩

/-- The catalog with one more entry, instead of the one with its key. -/
def put (a : α) (c : Catalog α key) : Catalog α key :=
  ⟨putEntry key a c.entries, ascending_putEntry c.ascending⟩

/-- The catalog with the entries of a list put in, one after another. -/
def putAll (as : List α) (c : Catalog α key) : Catalog α key :=
  as.foldl (fun c a => c.put a) c

def ofList (as : List α) : Catalog α key := empty.putAll as

def find? (k : Nat) (c : Catalog α key) : Option α := c.entries.find? fun a => key a == k

def size (c : Catalog α key) : Nat := c.entries.length

end Catalog

end ContentVisibility
