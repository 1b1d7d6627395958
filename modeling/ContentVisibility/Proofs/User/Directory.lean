import ContentVisibility.Directory
import ContentVisibility.Proofs.Json.Written
import ContentVisibility.Proofs.User.Groups

/-!
# Directories of listed users

* `Catalog.find?_ofList`: in a catalog of a list stands the last of its entries for a key;
* `Directory.lastRecord`: the last record of a user in a list of records;
* `Directory.parse_eq_ok_iff`: the directory that a text lists;
* `user?_ofList`, `mem_userIds_ofList`, `pairwise_userIds`: who is in the directory of a list.
-/

namespace ContentVisibility

namespace Catalog

variable {α : Type} {key : α → Nat}

theorem find?_putAll (as : List α) (k : Nat) (c : Catalog α key) :
    (c.putAll as).find? k = (as.filter fun a => key a = k).getLast?.or (c.find? k) := by
  induction as generalizing c with
  | nil => rfl
  | cons a as ih =>
    have hstep : (c.putAll (a :: as)).find? k = ((c.put a).putAll as).find? k := rfl
    rw [hstep, ih, find?_put]
    by_cases hk : key a = k
    · rw [if_pos hk, List.filter_cons_of_pos (by simpa using hk), List.getLast?_cons]
      cases (as.filter fun a => key a = k).getLast? <;> rfl
    · rw [if_neg hk, List.filter_cons_of_neg (by simpa using hk)]

/-- The entry for a key in the catalog of a list is the last one in the list. -/
theorem find?_ofList (as : List α) (k : Nat) :
    (ofList as : Catalog α key).find? k = (as.filter fun a => key a = k).getLast? := by
  have hempty : (empty : Catalog α key).find? k = none := rfl
  rw [ofList, find?_putAll, hempty, Option.or_none]

end Catalog

namespace Directory

/-- The last record of a user among records. -/
def lastRecord (users : List User) (id : UserId) : Option User :=
  (users.filter fun user => user.id = id).getLast?

/-- The users that a text lists, with a record for each time that one is listed. -/
def records (text : String) : Except Json.Fault (List User) :=
  (Json.Decoder.list User.decoder).text.readText text

theorem parse_eq_map (text : String) : parse text = (records text).map Catalog.ofList := by
  rw [parse, records, Json.Reader.readText_eq, Json.Reader.readText_eq]
  rcases hread : (Json.Decoder.list User.decoder).text (Json.Cursor.ofText text) with
    fault | ⟨users, cur⟩
  · simp only [reader, bind, StateT.bind, hread, Except.bind]
    rfl
  · have hleft : (reader >>= fun directory => Json.Reader.finished >>= fun _ => pure directory)
        (Json.Cursor.ofText text) =
        (Json.Reader.finished >>= fun _ => pure (Catalog.ofList users)) cur := by
      simp only [reader, bind, StateT.bind, hread, Except.bind]
      rfl
    have hright : ((Json.Decoder.list User.decoder).text >>= fun users =>
        Json.Reader.finished >>= fun _ => pure users) (Json.Cursor.ofText text) =
        (Json.Reader.finished >>= fun _ => pure users) cur := by
      simp only [bind, StateT.bind, hread, Except.bind]
    rw [hleft, hright]
    simp only [bind, StateT.bind]
    cases Json.Reader.finished cur <;> rfl

theorem map_eq_ok_iff {α β : Type} {read : Except Json.Fault α} {f : α → β} {b : β} :
    read.map f = .ok b ↔ ∃ a, read = .ok a ∧ f a = b := by
  cases read <;> simp [Except.map]

theorem parse_eq_ok_iff {text : String} {directory : Directory} :
    parse text = .ok directory ↔ ∃ users, records text = .ok users ∧
      Catalog.ofList users = directory := by
  rw [parse_eq_map, map_eq_ok_iff]

theorem user?_ofList (users : List User) (id : UserId) :
    user? (Catalog.ofList users) id = lastRecord users id := by
  rw [user?, Catalog.find?_ofList, lastRecord]
  simp only [Identifier.number_inj]

theorem isSome_lastRecord (users : List User) (id : UserId) :
    (lastRecord users id).isSome ↔ ∃ user ∈ users, user.id = id := by
  rw [lastRecord, List.getLast?_isSome, Ne, List.filter_eq_nil_iff]
  simp

theorem mem_userIds_iff (directory : Directory) (id : UserId) :
    id ∈ directory.userIds ↔ (directory.user? id).isSome := by
  rw [userIds, user?, Catalog.find?, List.find?_isSome, List.mem_map]
  simp only [beq_iff_eq, Identifier.number_inj]

theorem mem_userIds_ofList (users : List User) (id : UserId) :
    id ∈ userIds (Catalog.ofList users) ↔ ∃ user ∈ users, user.id = id := by
  rw [mem_userIds_iff, user?_ofList, isSome_lastRecord]

/-- The users of a directory come in ascending order, each once. -/
theorem pairwise_userIds (directory : Directory) :
    directory.userIds.Pairwise fun id id' => id.number < id'.number :=
  List.pairwise_map.2 directory.ascending

end Directory

end ContentVisibility
