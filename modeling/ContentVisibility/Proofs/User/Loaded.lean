import ContentVisibility.Proofs.Json.AsHeld
import ContentVisibility.Proofs.Rule.Written
import ContentVisibility.Proofs.User.Directory
import Mathlib.Data.List.Dedup

/-!
# Loaded directories

* `User.parse_text`: a written record is read back;
* `Directory.parse_listing`: a list of records is loaded if each of them is read by itself;
* `Directory.of_records`: what is known of each user is what the last record says.
-/

namespace ContentVisibility

open Json (Value Held Decoder Blank IsText)

/-! ## Records of users -/

namespace GroupSet

theorem steady_decoder : Json.Reader.Steady GroupSet.decoder.text :=
  Decoder.steady_map (Decoder.steady_list (Decoder.steady_checkedString _ _)) _

theorem readsAsHeld_decoder (groups : GroupSet) : GroupSet.decoder.ReadsAsHeld groups.json := by
  refine Decoder.readsAsHeld_map (Decoder.readsAsHeld_list (Decoder.steady_checkedString _ _) ?_) _
  intro v hv
  obtain ⟨group, -, rfl⟩ := List.mem_map.1 hv
  exact Decoder.readsAsHeld_checkedString _ _ _

end GroupSet

namespace User

open Json.Fields (pick)
open Json.FieldSpec (own others answersTo required defaulted)

/-- A record of a user is read the same way wherever it stands. -/
theorem steady_decoder : Json.Reader.Steady User.decoder.text := by
  have hattribute : Json.Reader.Steady (Decoder.optional Decoder.string).text :=
    Decoder.steady_optional (Decoder.steady_checkedString _ _)
  exact Decoder.steady_record ⟨Decoder.steady_checkedString _ _, hattribute, hattribute, hattribute,
    hattribute, GroupSet.steady_decoder, Json.Reader.steady_bool, trivial⟩

theorem readsAsHeld_attribute (s : Option String) :
    (Decoder.optional Decoder.string).ReadsAsHeld (optionalText s) := by
  cases s with
  | none => exact Decoder.readsAsHeld_optional_null _
  | some s => exact Decoder.readsAsHeld_optional_string (Decoder.readsAsHeld_checkedString _ _ s)

theorem readsAsHeld_decoder (user : User) : User.decoder.ReadsAsHeld user.json := by
  have hid : (Decoder.id : Decoder UserId).ReadsAsHeld (.string user.id.text) :=
    Decoder.readsAsHeld_checkedString _ _ _
  refine Decoder.readsAsHeld_record ?_
  simp [Json.Fields.ReadsAsHeld, attributeField, answersTo, required, defaulted, hid,
    readsAsHeld_attribute, GroupSet.readsAsHeld_decoder, Decoder.readsAsHeld_bool]

theorem held_attribute (s : Option String) :
    ((Decoder.optional Decoder.string).held (Held.builder.ofValue (optionalText s))).toOption =
      some s := by
  cases s <;> rfl

theorem restores_decoder : User.decoder.Restores User.json := by
  intro user
  have hid := Decoder.restores_id user.id
  have hgroups := GroupSet.restores_decoder user.groups
  have hactive : (Decoder.bool.held (Held.builder.ofValue (.bool user.active))).toOption =
      some user.active := rfl
  rw [User.json, Json.Builder.ofValue, Json.Builder.ofMembers_eq_map]
  show (User.decoder.held (.map _)).toOption = _
  rw [User.decoder, Decoder.held_record_map]
  simp [pick, Json.FieldSpec.pick, own, others, attributeField, answersTo, required, defaulted, hid,
    held_attribute, hgroups, hactive]

/-- **A written record is read back, member for member.** -/
theorem parse_text (user : User) : (parse user.text).toOption = some user := by
  have hread := Decoder.ReadsAsHeld.readText user.readsAsHeld_decoder
  exact hread.trans (restores_decoder user)

end User

namespace Directory

/-! ## Listed records -/

/-- The text that lists the records in the given texts. -/
def listing (before : List Char) (texts : List String) (after : List Char) : String :=
  String.ofList
    (before ++ '[' :: (Json.commaSeparated (texts.map String.toList) ++ ']' :: after))

theorem listing_text (users : List User) :
    listing [] (users.map User.text) [] = (Value.array (users.map User.json)).text := by
  have htexts : (users.map User.text).map String.toList =
      Value.itemsChars (users.map User.json) := by
    rw [Value.itemsChars_eq_map, List.map_map, List.map_map]
    exact List.map_congr_left fun user _ => String.toList_ofList
  rw [listing, htexts, Value.text, Value.chars]
  rfl

/-- A list of records is loaded if each of them is read by itself. If one of them is refused,
nothing is loaded. -/
theorem parse_listing_toOption {texts : List String} (htexts : ∀ t ∈ texts, IsText t.toList)
    {before after : List Char} (hbefore : Blank before) (hafter : Blank after) :
    (parse (listing before texts after)).toOption =
      (texts.mapM fun t => (User.parse t).toOption).map Catalog.ofList := by
  have hrecords := Decoder.readText_list User.steady_decoder htexts hbefore hafter
  rw [parse_eq_map]
  have hloaded := Json.toOption_map (Catalog.ofList : List User → Directory)
    (records (listing before texts after))
  exact hloaded.trans (congrArg (Option.map Catalog.ofList) hrecords)

theorem parse_written (users : List User) :
    parse (Value.array (users.map User.json)).text = .ok (Catalog.ofList users) := by
  have htexts : ∀ t ∈ users.map User.text, IsText t.toList := by
    intro t ht
    obtain ⟨user, -, rfl⟩ := List.mem_map.1 ht
    rw [User.text, Value.text, String.toList_ofList]
    exact (Value.isValue_chars _).isText
  have hall : (users.map User.text).mapM (fun t => (User.parse t).toOption) = some users := by
    rw [List.mapM_map]
    induction users with
    | nil => rfl
    | cons user users ih =>
      have hrest := ih fun t ht => htexts t (List.mem_cons_of_mem _ ht)
      rw [List.mapM_cons, hrest, Function.comp_apply, user.parse_text]
      rfl
  have hparse := parse_listing_toOption htexts Json.blank_nil Json.blank_nil
  rw [listing_text, hall] at hparse
  cases hread : parse (Value.array (users.map User.json)).text with
  | error fault => rw [hread] at hparse; cases hparse
  | ok directory => rw [hread] at hparse; exact congrArg Except.ok (Option.some.inj hparse)

/-! ## Records put in -/

/-- Records put into a directory come behind those that made it. -/
theorem ofList_putAll (users inserted : List User) :
    (Catalog.ofList users : Directory).putAll inserted = Catalog.ofList (users ++ inserted) :=
  List.foldl_append.symm

theorem nodup_userIds (directory : Directory) : directory.userIds.Nodup := by
  refine directory.pairwise_userIds.imp fun hless he => ?_
  exact absurd (congrArg Identifier.number he) (Nat.ne_of_lt hless)

theorem size_ofList (users : List User) :
    (Catalog.ofList users : Directory).size = (users.map User.id).dedup.length := by
  have hperm : (userIds (Catalog.ofList users)).Perm (users.map User.id).dedup := by
    refine (List.perm_ext_iff_of_nodup (nodup_userIds _) (List.nodup_dedup _)).2 fun id => ?_
    rw [mem_userIds_ofList, List.mem_dedup, List.mem_map]
  have hlength := hperm.length_eq
  rwa [userIds, List.length_map] at hlength

theorem isEmpty_ofList (users : List User) :
    isEmpty (Catalog.ofList users) = true ↔ users = [] := by
  have hsize : isEmpty (Catalog.ofList users) = true ↔
      (Catalog.ofList users : Directory).size = 0 := by
    rw [isEmpty, List.isEmpty_iff, Catalog.size, List.length_eq_zero_iff]
  rw [hsize, size_ofList, List.length_eq_zero_iff]
  constructor
  · intro h
    have hnil := (List.dedup_eq_nil _).1 h
    exact List.map_eq_nil_iff.1 hnil
  · rintro rfl
    rfl

/-- **A directory knows of each user what the last record says**: records loaded from their written
forms and records put in later. A list is loaded only as a whole, with every record in it. -/
theorem of_records (users inserted : List User) {texts : List String}
    (htexts : ∀ t ∈ texts, IsText t.toList) {before after : List Char} (hbefore : Blank before)
    (hafter : Blank after) :
    (∃ loaded directory : Directory,
      parse (Value.array (users.map User.json)).text = .ok loaded ∧
      loaded.putAll inserted = directory ∧
      (∀ id, directory.user? id = lastRecord (users ++ inserted) id) ∧
      (∀ id, directory.groupsOf id =
        ((lastRecord (users ++ inserted) id).map User.groups).getD .empty) ∧
      (directory.userIds.Pairwise fun id id' => id.number < id'.number) ∧
      (∀ id, id ∈ directory.userIds ↔ ∃ user ∈ users ++ inserted, user.id = id) ∧
      directory.size = ((users ++ inserted).map User.id).dedup.length ∧
      (directory.isEmpty = true ↔ users ++ inserted = [])) ∧
    (parse (listing before texts after)).toOption =
      (texts.mapM fun t => (User.parse t).toOption).map Catalog.ofList := by
  refine ⟨⟨Catalog.ofList users, Catalog.ofList (users ++ inserted), parse_written users,
    ofList_putAll users inserted, user?_ofList _, fun id => ?_, pairwise_userIds _,
    mem_userIds_ofList _, size_ofList _, isEmpty_ofList _⟩,
    parse_listing_toOption htexts hbefore hafter⟩
  rw [groupsOf, user?_ofList]

/-- A record with characters that are written as escapes, and with an attribute that is there and
empty. -/
def sampleRecord : User :=
  ⟨.ofNumber 7, some "R&D\n\"Σ\"", none, some "", none,
    Catalog.ofList [.ofNumber 2, .ofNumber 1], false⟩

theorem of_records_sampleRecord :
    (∃ loaded directory : Directory,
      parse (Value.array ([sampleRecord, .ofId (.ofNumber 9)].map User.json)).text = .ok loaded ∧
      loaded.putAll [(User.ofId (.ofNumber 9)).deactivated] = directory ∧
      directory.user? (.ofNumber 7) = some sampleRecord ∧
      directory.user? (.ofNumber 9) = some (User.ofId (.ofNumber 9)).deactivated ∧
      directory.size = 2) ∧
    (parse (listing ['\n'] [sampleRecord.text, Value.null.text] [' '])).toOption = none := by
  have htexts : ∀ t ∈ [sampleRecord.text, Value.null.text], IsText t.toList := by
    have htext : ∀ v : Value, IsText v.text.toList := fun v => by
      rw [Value.text, String.toList_ofList]
      exact v.isValue_chars.isText
    simpa using ⟨htext sampleRecord.json, htext .null⟩
  have hnull : (User.parse Value.null.text).toOption.isNone = true := by decide +kernel
  have hbefore : Blank ['\n'] := by simp [Blank, Json.Cursor.isBlank]
  have hafter : Blank [' '] := by simp [Blank, Json.Cursor.isBlank]
  obtain ⟨⟨loaded, directory, hload, hput, huser, -, -, -, hsize, -⟩, hlisted⟩ :=
    of_records [sampleRecord, .ofId (.ofNumber 9)] [(User.ofId (.ofNumber 9)).deactivated] htexts
      hbefore hafter
  refine ⟨⟨loaded, directory, hload, hput, (huser _).trans rfl, (huser _).trans rfl,
    hsize.trans (by decide +kernel)⟩, hlisted.trans ?_⟩
  rw [List.mapM_cons, List.mapM_cons, Option.isNone_iff_eq_none.1 hnull]
  cases (User.parse sampleRecord.text).toOption <;> rfl

end Directory

end ContentVisibility
