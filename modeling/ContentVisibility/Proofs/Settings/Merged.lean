import ContentVisibility.Proofs.Json.Members
import ContentVisibility.Settings.Layered

/-!
# Trees of settings

A tree of settings keeps each of them as an entry of one of its tables. An assignment to one setting
leaves the others as they are, and the settings that a tree gives are those of its entries.

* `Setting`: the settings one by one, each with the type of its values;
* `Tree.get?`, `Tree.assign`: the entry for a setting, and the tree with another one;
* `Tree.get?_assign`: an assignment changes the entry for its own setting only;
* `Tree.Gives`: the settings that a tree gives a value, and which;
* `Tree.Gives.assign`, `Tree.Gives.settings?`: after an assignment, and as settings.
-/

namespace ContentVisibility

open Json.Members (get? put)

/-! ## The settings one by one -/

/-- One of the settings. -/
inductive Setting where
  | malformedRules
  | audit
  | visibilityKey
  | childKeys
  | filter
  deriving DecidableEq, Repr

namespace Setting

/-- The values that a setting can have. -/
abbrev Value : Setting → Type
  | malformedRules => Policy
  | audit => Bool
  | visibilityKey | filter => String
  | childKeys => List String

end Setting

/-- The value of a setting. -/
def Settings.get (settings : Settings) : (s : Setting) → s.Value
  | .malformedRules => settings.engine.malformedRules
  | .audit => settings.engine.audit
  | .visibilityKey => settings.widgets.visibilityKey
  | .childKeys => settings.widgets.childKeys
  | .filter => settings.logging.filter

/-- The settings with the given values. -/
def Settings.ofValues (values : (s : Setting) → s.Value) : Settings :=
  ⟨⟨values .malformedRules, values .audit⟩, ⟨values .visibilityKey, values .childKeys⟩,
    ⟨values .filter⟩⟩

theorem Settings.get_ofValues (values : (s : Setting) → s.Value) (s : Setting) :
    (ofValues values).get s = values s := by
  cases s <;> rfl

namespace Setting

/-- The table that a setting stands in. -/
def table : Setting → String
  | malformedRules | audit => "engine"
  | visibilityKey | childKeys => "widgets"
  | filter => "logging"

/-- The name of a setting in its table. -/
def name : Setting → String
  | malformedRules => "malformed_rules"
  | audit => "audit"
  | visibilityKey => "visibility_key"
  | childKeys => "child_keys"
  | filter => "filter"

theorem eq_of_name {s s' : Setting} (h : s.name = s'.name) : s = s' := by
  cases s <;> cases s' <;> first | rfl | exact absurd h (by decide)

/-- The built-in value. -/
def standard (s : Setting) : s.Value := Settings.standard.get s

/-- The value that a tree is converted to. -/
def convert : (s : Setting) → Tree → Option s.Value
  | malformedRules => Tree.source.policy?
  | audit => Tree.source.flag?
  | visibilityKey | filter => Tree.source.text?
  | childKeys => fun tree => (Tree.source.list? tree).bind fun items => items.mapM Tree.source.text?

end Setting

namespace Tree

/-! ## Entries for settings -/

/-- The entry for a setting. -/
def get? (tree : Tree) (s : Setting) : Option Tree :=
  (Json.Members.get? s.table tree.entries).bind fun inner => Json.Members.get? s.name inner.entries

/-- The tree with another entry for a setting. -/
def assign (tree : Tree) (s : Setting) (new : Tree) : Tree :=
  changeEntry s.table (changeEntry s.name fun _ => new) tree

theorem entries_changeEntry (name : String) (f : Tree → Tree) (tree : Tree) :
    (changeEntry name f tree).entries =
      put name (f ((Json.Members.get? name tree.entries).getD .absent)) tree.entries := rfl

theorem get?_changeEntry (other name : String) (f : Tree → Tree) (tree : Tree) :
    Json.Members.get? other (changeEntry name f tree).entries =
      if other = name then some (f ((Json.Members.get? name tree.entries).getD .absent))
      else Json.Members.get? other tree.entries := by
  rw [entries_changeEntry]
  split
  · next h => rw [h, Json.Members.get?_put_self]
  · next h => rw [Json.Members.get?_put_of_ne h]

/-- An assignment changes the entry for its own setting only. -/
theorem get?_assign (tree : Tree) (s s' : Setting) (new : Tree) :
    (tree.assign s new).get? s' = if s' = s then some new else tree.get? s' := by
  rw [get?, get?, assign, get?_changeEntry]
  by_cases htable : s'.table = s.table
  · rw [if_pos htable, Option.bind_some, get?_changeEntry, htable]
    by_cases hname : s'.name = s.name
    · rw [if_pos hname, if_pos (Setting.eq_of_name hname)]
    · have hne : s' ≠ s := fun he => hname (congrArg Setting.name he)
      rw [if_neg hname, if_neg hne]
      cases Json.Members.get? s.table tree.entries <;> rfl
  · have hne : s' ≠ s := fun he => htable (congrArg Setting.table he)
    rw [if_neg htable, if_neg hne]

/-- Changes to the same entry, one after another. -/
theorem changeEntry_changeEntry (name : String) (f g : Tree → Tree) (tree : Tree) :
    changeEntry name g (changeEntry name f tree) = changeEntry name (fun old => g (f old)) tree := by
  have hput : ∀ (a b : Tree) (es : List (String × Tree)), put name b (put name a es) = put name b es := by
    intro a b es
    induction es with
    | nil => simp [put]
    | cons e es ih =>
      obtain ⟨k, v⟩ := e
      by_cases hk : k = name <;> simp [put, hk, ih]
  have hold : Json.Members.get? name (changeEntry name f tree).entries =
      some (f ((Json.Members.get? name tree.entries).getD .absent)) := by
    rw [get?_changeEntry, if_pos rfl]
  rw [changeEntry, hold, Option.getD_some, entries_changeEntry, hput]
  rfl

/-! ## Settings of a tree -/

end Tree

/-- Values for some of the settings. -/
abbrev Choices : Type := (s : Setting) → Option s.Value

/-- The tree gives the chosen values, and no others: it is a table, what stands in it in place of the
tables of settings are tables, and their entries are converted to the values. -/
structure Tree.Gives (tree : Tree) (choices : Choices) : Prop where
  table : tree = .table tree.entries
  tables : ∀ (s : Setting) (inner : Tree), Json.Members.get? s.table tree.entries = some inner →
    inner = .table inner.entries
  values : ∀ s, (tree.get? s).map s.convert = (choices s).map some

namespace Tree.Gives

variable {tree : Tree} {choices : Choices}

theorem assign (h : tree.Gives choices) {s : Setting} {new : Tree} {value : s.Value}
    (hnew : s.convert new = some value) :
    (tree.assign s new).Gives (Function.update choices s (some value)) where
  table := rfl
  tables s' inner hinner := by
    rw [Tree.assign, get?_changeEntry] at hinner
    split at hinner
    · obtain rfl := Option.some.inj hinner
      rfl
    · exact h.tables s' inner hinner
  values s' := by
    rw [get?_assign]
    by_cases hs : s' = s
    · subst hs
      rw [if_pos rfl, Function.update_self, Option.map_some, Option.map_some, hnew]
    · rw [if_neg hs, Function.update_of_ne hs]
      exact h.values s'

theorem touch (h : tree.Gives choices) (s : Setting) :
    (changeEntry s.table (fun old => .table old.entries) tree).Gives choices where
  table := rfl
  tables s' inner hinner := by
    rw [get?_changeEntry] at hinner
    split at hinner
    · obtain rfl := Option.some.inj hinner
      rfl
    · exact h.tables s' inner hinner
  values s' := by
    rw [← h.values s', Tree.get?, Tree.get?, get?_changeEntry]
    split
    · next htable =>
      rw [htable]
      cases Json.Members.get? s.table tree.entries <;> rfl
    · rfl

/-- A setting is converted from its entry, or else is the built-in one. -/
theorem setting_eq (h : tree.Gives choices) {s : Setting} {inner : Tree}
    (hinner : Json.Members.get? s.table tree.entries = some inner) :
    Source.setting inner.entries s.name s.convert s.standard = some ((choices s).getD s.standard) := by
  have hvalue := h.values s
  rw [Tree.get?, hinner, Option.bind_some] at hvalue
  rw [Source.setting]
  cases hentry : Json.Members.get? s.name inner.entries with
  | none =>
    rw [hentry] at hvalue
    rw [Option.map_eq_none_iff.1 hvalue.symm]
    rfl
  | some new =>
    rw [hentry] at hvalue
    obtain ⟨value, hchosen, hconverted⟩ := Option.map_eq_some_iff.1 hvalue.symm
    rw [hchosen]
    exact hconverted.symm

/-- A setting whose table is not there is the built-in one. -/
theorem getD_eq_standard (h : tree.Gives choices) {s : Setting}
    (hinner : Json.Members.get? s.table tree.entries = none) : (choices s).getD s.standard = s.standard := by
  have hvalue := h.values s
  rw [Tree.get?, hinner] at hvalue
  rw [Option.map_eq_none_iff.1 hvalue.symm]
  rfl

/-! ### Tables of settings -/

theorem entries?_eq (h : tree = .table tree.entries) (names : List String) :
    Tree.source.entries? names tree = some tree.entries := by
  rw [h]
  rfl

theorem engine_eq (h : tree.Gives choices) :
    Source.setting tree.entries "engine" Tree.source.engine? .standard =
      some ⟨(choices .malformedRules).getD Setting.malformedRules.standard,
        (choices .audit).getD Setting.audit.standard⟩ := by
  rw [Source.setting]
  cases hinner : Json.Members.get? "engine" tree.entries with
  | none =>
    rw [h.getD_eq_standard (s := .malformedRules) hinner, h.getD_eq_standard (s := .audit) hinner]
    rfl
  | some inner =>
    refine Option.bind_eq_some_iff.2 ⟨_, entries?_eq (h.tables .audit inner hinner) _, ?_⟩
    refine Option.bind_eq_some_iff.2 ⟨_, h.setting_eq (s := .malformedRules) hinner, ?_⟩
    exact Option.bind_eq_some_iff.2 ⟨_, h.setting_eq (s := .audit) hinner, rfl⟩

theorem widgets_eq (h : tree.Gives choices) :
    Source.setting tree.entries "widgets" Tree.source.widgets? .standard =
      some ⟨(choices .visibilityKey).getD Setting.visibilityKey.standard,
        (choices .childKeys).getD Setting.childKeys.standard⟩ := by
  rw [Source.setting]
  cases hinner : Json.Members.get? "widgets" tree.entries with
  | none =>
    rw [h.getD_eq_standard (s := .visibilityKey) hinner, h.getD_eq_standard (s := .childKeys) hinner]
    rfl
  | some inner =>
    refine Option.bind_eq_some_iff.2 ⟨_, entries?_eq (h.tables .childKeys inner hinner) _, ?_⟩
    refine Option.bind_eq_some_iff.2 ⟨_, h.setting_eq (s := .visibilityKey) hinner, ?_⟩
    exact Option.bind_eq_some_iff.2 ⟨_, h.setting_eq (s := .childKeys) hinner, rfl⟩

theorem logging_eq (h : tree.Gives choices) :
    Source.setting tree.entries "logging" Tree.source.logging? .standard =
      some ⟨(choices .filter).getD Setting.filter.standard⟩ := by
  rw [Source.setting]
  cases hinner : Json.Members.get? "logging" tree.entries with
  | none =>
    rw [h.getD_eq_standard (s := .filter) hinner]
    rfl
  | some inner =>
    refine Option.bind_eq_some_iff.2 ⟨_, entries?_eq (h.tables .filter inner hinner) _, ?_⟩
    exact Option.bind_eq_some_iff.2 ⟨_, h.setting_eq (s := .filter) hinner, rfl⟩

/-- **The settings of a tree have the chosen values**, and the built-in ones where none was chosen. -/
theorem settings? (h : tree.Gives choices) :
    Tree.source.settings? tree = some (.ofValues fun s => (choices s).getD s.standard) := by
  refine Option.bind_eq_some_iff.2 ⟨_, entries?_eq h.table _, ?_⟩
  refine Option.bind_eq_some_iff.2 ⟨_, h.engine_eq, ?_⟩
  refine Option.bind_eq_some_iff.2 ⟨_, h.widgets_eq, ?_⟩
  exact Option.bind_eq_some_iff.2 ⟨_, h.logging_eq, rfl⟩

end Tree.Gives

end ContentVisibility
