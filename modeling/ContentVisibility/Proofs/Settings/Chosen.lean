import ContentVisibility.Proofs.Settings.Merged
import ContentVisibility.Proofs.Settings.Variables

/-!
# What the layers of settings choose

A document chooses the settings that it has entries for, and the environment those that have a variable.
Put over a tree, a layer chooses its values in that tree, and later values in place of earlier ones.

* `Choice`, `Choices.adding`: a value for one setting, and the choices with one more;
* `Toml.choices?`: the choices of a document that holds settings only, each of its own type;
* `Environment.choices?`: the choices of an environment whose variables under the prefix each stand for
  a setting;
* `Tree.Gives.setAll_document`, `Tree.Gives.setAll_environment`: what a tree gives with such a layer.
-/

namespace ContentVisibility

/-! ## Choices -/

/-- A value for one setting. -/
abbrev Choice : Type := (s : Setting) × s.Value

namespace Choices

def none : Choices := fun _ => .none

/-- The choices with one more, in place of an earlier one for the same setting. -/
def adding (choices : Choices) (choice : Choice) : Choices :=
  Function.update choices choice.1 (some choice.2)

def addingAll (choices : Choices) (later : List Choice) : Choices := later.foldl adding choices

/-- Of the choices for a setting the last one counts. -/
def ofList (choices : List Choice) : Choices := none.addingAll choices

theorem addingAll_cons (choices : Choices) (choice : Choice) (later : List Choice) :
    choices.addingAll (choice :: later) = (choices.adding choice).addingAll later := rfl

theorem addingAll_append (choices : Choices) (later latest : List Choice) :
    choices.addingAll (later ++ latest) = (choices.addingAll later).addingAll latest :=
  List.foldl_append ..

/-- The choices of a layer put over others: its own ones go before theirs. -/
def before (choices below : Choices) : Choices := fun s => (choices s).or (below s)

/-- Later choices go before earlier ones. -/
theorem addingAll_eq_before (choices : Choices) (later : List Choice) :
    choices.addingAll later = (ofList later).before choices := by
  induction later generalizing choices with
  | nil => rfl
  | cons choice later ih =>
    have hadding : choices.adding choice = (none.adding choice).before choices := by
      funext s
      rw [before]
      by_cases hs : s = choice.1
      · subst hs
        rw [adding, adding, Function.update_self, Function.update_self]
        rfl
      · rw [adding, adding, Function.update_of_ne hs, Function.update_of_ne hs]
        rfl
    rw [ofList, addingAll_cons, addingAll_cons, ih, ih (none.adding choice), hadding]
    funext s
    exact Option.or_assoc.symm

end Choices

/-! ## Documents -/

namespace Setting

def all : List Setting := [malformedRules, audit, visibilityKey, childKeys, filter]

/-- The setting that stands in a table under a name. -/
def named? (table name : String) : Option Setting :=
  all.find? fun s => s.table == table && s.name == name

theorem eq_of_named? {table name : String} {s : Setting} (h : named? table name = some s) :
    s.table = table ∧ s.name = name := by
  have hfound := List.find?_some h
  rw [Bool.and_eq_true, beq_iff_eq, beq_iff_eq] at hfound
  exact hfound

theorem names_ne_dateKey (s : Setting) : s.table ≠ Tree.dateKey ∧ s.name ≠ Tree.dateKey := by
  cases s <;> decide

/-- The value that a document gives a setting, if it is of its own type. -/
def ofToml? : (s : Setting) → Toml.Value → Option s.Value
  | malformedRules, .string word => Policy.vocabulary.find? word
  | audit, .boolean b => some b
  | visibilityKey, .string text => some text
  | filter, .string text => some text
  | childKeys, .array items => items.mapM Toml.source.text?
  | _, _ => none

end Setting

namespace Toml

/-- The choice that an entry of a table makes. -/
def choice? (table : String) (entry : String × Value) : Option Choice :=
  (Setting.named? table entry.1).bind fun s => (s.ofToml? entry.2).map fun value => ⟨s, value⟩

/-- The choices that the entries of a table of settings make. -/
def tableChoices? : String × Value → Option (List Choice)
  | (table, .table entries) =>
    if table ∈ Setting.all.map Setting.table then entries.mapM (choice? table) else none
  | _ => none

/-- The choices of a document, if it holds settings only, each of its own type. -/
def choices? (entries : List (String × Value)) : Option (List Choice) :=
  (entries.mapM tableChoices?).map List.flatten

end Toml

namespace Tree

theorem markedDate?_eq_none {entries : List (String × Toml.Value)}
    (h : ∀ entry ∈ entries, entry.1 ≠ dateKey) : markedDate? entries = none := by
  rw [markedDate?]
  split
  · rfl
  · exact Json.Members.get?_eq_none_iff.2 h

/-- The tree is no table, so that it is put in the place of what was there. -/
def Replaces (new : Tree) : Prop := ∀ old, overlaid old new = new

theorem mapM_text? {items : List Toml.Value} {texts : List String}
    (h : items.mapM Toml.source.text? = some texts) :
    ofTomlItems? items = some (texts.map text) := by
  induction items generalizing texts with
  | nil =>
    cases h
    rfl
  | cons item items ih =>
    rw [List.mapM_cons] at h
    obtain ⟨first, hfirst, h⟩ := Option.bind_eq_some_iff.1 h
    obtain ⟨others, hothers, h⟩ := Option.bind_eq_some_iff.1 h
    cases h
    cases item with
    | string s =>
      cases hfirst
      rw [ofTomlItems?, ih hothers]
      rfl
    | integer _ | float _ | huge _ | boolean _ | datetime _ | array _ | table _ => cases hfirst

theorem mapM_text?_map (texts : List String) :
    (texts.map text).mapM Tree.source.text? = some texts := by
  induction texts with
  | nil => rfl
  | cons t texts ih =>
    rw [List.map_cons, List.mapM_cons, ih]
    rfl

theorem exists_of_ofToml? {s : Setting} {v : Toml.Value} {value : s.Value}
    (h : s.ofToml? v = some value) :
    ∃ new, ofToml? v = some new ∧ s.convert new = some value ∧ new.Replaces := by
  unfold Setting.ofToml? at h
  split at h
  · exact ⟨_, rfl, h, fun old => rfl⟩
  · exact ⟨_, rfl, h, fun old => rfl⟩
  · exact ⟨_, rfl, h, fun old => rfl⟩
  · exact ⟨_, rfl, h, fun old => rfl⟩
  · refine ⟨list (value.map text), ?_, mapM_text?_map value, fun old => rfl⟩
    rw [ofToml?, mapM_text? h]
    rfl
  · cases h

end Tree

theorem Toml.exists_of_choice? {table : String} {entry : String × Toml.Value} {choice : Choice}
    (h : choice? table entry = some choice) :
    choice.1.table = table ∧ choice.1.name = entry.1 ∧
      ∃ new, Tree.ofToml? entry.2 = some new ∧ choice.1.convert new = some choice.2 ∧ new.Replaces := by
  obtain ⟨s, hnamed, h⟩ := Option.bind_eq_some_iff.1 h
  obtain ⟨value, hvalue, rfl⟩ := Option.map_eq_some_iff.1 h
  obtain ⟨htable, hname⟩ := Setting.eq_of_named? hnamed
  exact ⟨htable, hname, Tree.exists_of_ofToml? hvalue⟩

namespace Tree

/-- A list of entries put over what stands for a table of settings, one after another. -/
def overEntries (entries : List (String × Tree)) (old : Tree) : Tree :=
  overlaidEntries (.table old.entries) entries

theorem overEntries_cons {name : String} {new : Tree} (hnew : new.Replaces)
    (entries : List (String × Tree)) (old : Tree) :
    overEntries ((name, new) :: entries) old = overEntries entries (changeEntry name (fun _ => new) old) := by
  have hover : (fun old => overlaid old new) = fun _ => new := funext hnew
  rw [overEntries, overlaidEntries, hover]
  rfl

/-- The entries of a table of settings, put over a tree, are its choices. -/
theorem Gives.overEntries {tree : Tree} {choices : Choices} (h : tree.Gives choices) {s : Setting}
    {entries : List (String × Toml.Value)} {later : List Choice}
    (hlater : entries.mapM (Toml.choice? s.table) = some later) :
    (∀ entry ∈ entries, entry.1 ≠ dateKey) ∧ ∃ new, ofTomlEntries? entries = some new ∧
      (changeEntry s.table (Tree.overEntries new) tree).Gives (choices.addingAll later) := by
  induction entries generalizing tree choices later with
  | nil =>
    cases hlater
    exact ⟨by simp, [], rfl, h.touch s⟩
  | cons entry entries ih =>
    rw [List.mapM_cons] at hlater
    obtain ⟨choice, hchoice, hlater⟩ := Option.bind_eq_some_iff.1 hlater
    obtain ⟨others, hothers, hlater⟩ := Option.bind_eq_some_iff.1 hlater
    cases hlater
    obtain ⟨htable, hname, new, hnew, hvalue, hreplaces⟩ := Toml.exists_of_choice? hchoice
    obtain ⟨hnames, rest, hrest, hgives⟩ := ih (h.assign hvalue) hothers
    refine ⟨List.forall_mem_cons.2 ⟨?_, hnames⟩, (entry.1, new) :: rest, ?_, ?_⟩
    · rw [← hname]
      exact choice.1.names_ne_dateKey.2
    · rw [ofTomlEntries?, hnew, hrest]
      rfl
    · have hover : Tree.overEntries ((entry.1, new) :: rest) =
          fun old => Tree.overEntries rest (changeEntry entry.1 (fun _ => new) old) :=
        funext (overEntries_cons hreplaces rest)
      rw [hover, ← changeEntry_changeEntry, ← hname, ← htable]
      rw [← htable] at hgives
      exact hgives

/-- A table of settings stands for the tree of its entries. -/
theorem Gives.setTable {tree : Tree} {choices : Choices} (h : tree.Gives choices)
    {entry : String × Toml.Value} {later : List Choice} (hlater : Toml.tableChoices? entry = some later) :
    entry.1 ≠ dateKey ∧ ∃ new, ofToml? entry.2 = some new ∧
      (tree.set entry.1 new).Gives (choices.addingAll later) := by
  obtain ⟨name, value⟩ := entry
  cases value with
  | table entries =>
    simp only [Toml.tableChoices?] at hlater
    split at hlater
    · next hname =>
      obtain ⟨s, -, rfl⟩ := List.mem_map.1 hname
      obtain ⟨hnames, new, hnew, hgives⟩ := h.overEntries hlater
      have hsteps : steps? s.table.toList = some [.key s.table] := by cases s <;> decide
      refine ⟨s.names_ne_dateKey.1, .table new, ?_, ?_⟩
      · rw [ofToml?, markedDate?_eq_none hnames, hnew]
        rfl
      · rw [set, hsteps]
        exact hgives
    · cases hlater
  | string _ | integer _ | float _ | huge _ | boolean _ | datetime _ | array _ => cases hlater

/-- **A document put over a tree makes its choices in that tree.** -/
theorem Gives.setAll_document {tree : Tree} {choices : Choices} (h : tree.Gives choices)
    {entries : List (String × Toml.Value)} {later : List Choice}
    (hlater : Toml.choices? entries = some later) :
    (∀ entry ∈ entries, entry.1 ≠ dateKey) ∧ ∃ layer, ofTomlEntries? entries = some layer ∧
      (tree.setAll layer).Gives (choices.addingAll later) := by
  obtain ⟨lists, hlists, rfl⟩ := Option.map_eq_some_iff.1 hlater
  clear hlater
  induction entries generalizing tree choices lists with
  | nil =>
    cases hlists
    exact ⟨by simp, [], rfl, h⟩
  | cons entry entries ih =>
    rw [List.mapM_cons] at hlists
    obtain ⟨first, hfirst, hlists⟩ := Option.bind_eq_some_iff.1 hlists
    obtain ⟨others, hothers, hlists⟩ := Option.bind_eq_some_iff.1 hlists
    cases hlists
    obtain ⟨hname, new, hnew, hset⟩ := h.setTable hfirst
    obtain ⟨hnames, layer, hlayer, hgives⟩ := ih hset others hothers
    refine ⟨List.forall_mem_cons.2 ⟨hname, hnames⟩, (entry.1, new) :: layer, ?_, ?_⟩
    · rw [ofTomlEntries?, hnew, hlayer]
      rfl
    · rw [List.flatten_cons, Choices.addingAll_append]
      exact hgives

end Tree

/-! ## Environments -/

namespace Setting

/-- The name of the variable for a setting, behind the prefix and an underscore. -/
def variableName : Setting → String
  | malformedRules => "ENGINE__MALFORMED_RULES"
  | audit => "ENGINE__AUDIT"
  | visibilityKey => "WIDGETS__VISIBILITY_KEY"
  | childKeys => "WIDGETS__CHILD_KEYS"
  | filter => "LOGGING__FILTER"

/-- The value that the text of a variable gives a setting: a word, or a text that writes no truth value
and no number. A list cannot be given. -/
def ofVariable? : (s : Setting) → String → Option s.Value
  | malformedRules, text => Policy.vocabulary.find? text
  | audit, text => Environment.flagWord? text
  | visibilityKey, text => if Environment.isPlain text then some text else none
  | filter, text => if Environment.isPlain text then some text else none
  | childKeys, _ => none

theorem dotted_lower_variableName (s : Setting) :
    Environment.dotted (Text.lower s.variableName) = (s.table ++ "." ++ s.name).toList := by
  cases s <;> decide +kernel

theorem notMem_variableName (s : Setting) : 'Σ' ∉ s.variableName.toList := by
  cases s <;> decide

/-- Only the word of a policy is read as that policy. -/
theorem eq_word_of_find? {text : String} {policy : Policy}
    (h : Policy.vocabulary.find? text = some policy) : text = policy.word := by
  by_cases hopen : text = "fail-open"
  · subst hopen
    cases h
    rfl
  · by_cases hclosed : text = "fail-closed"
    · subst hclosed
      cases h
      rfl
    · simp [Json.Vocabulary.find?, Policy.vocabulary, Ne.symm hopen, Ne.symm hclosed] at h

theorem replaces_valueTree (text : String) : (Environment.valueTree text).Replaces := by
  intro old
  rw [Environment.valueTree]
  split
  · rfl
  · split
    · rfl
    · split <;> rfl

/-- The tree of a variable of a setting is converted to its value. -/
theorem convert_of_ofVariable? {s : Setting} {text : String} {value : s.Value}
    (h : s.ofVariable? text = some value) : s.convert (Environment.valueTree text) = some value := by
  have hplain : ∀ {value : String}, (if Environment.isPlain text then some text else none) = some value →
      Tree.source.text? (Environment.valueTree text) = some value := by
    intro value h
    split at h
    · next htext =>
      rw [Environment.valueTree_of_isPlain htext]
      exact h
    · cases h
  cases s with
  | malformedRules =>
    obtain rfl := eq_word_of_find? h
    cases value <;> decide +kernel
  | audit => exact Environment.flag?_valueTree h
  | visibilityKey => exact hplain h
  | filter => exact hplain h
  | childKeys => cases h

end Setting

namespace Environment

/-- The choices of an environment, if each variable under the prefix stands for a setting. Letter case
does not matter in names. -/
def choices? (leading : String) : Environment → Option (List Choice)
  | [] => some []
  | (name, text) :: others =>
    (choices? leading others).bind fun later =>
      if (Text.lower (leading ++ "_")).isPrefixOf (Text.lower name) then
        (Setting.all.find? fun s => Text.lower name == Text.lower (leading ++ "_" ++ s.variableName)).bind
          fun s => (s.ofVariable? text).map fun value => ⟨s, value⟩ :: later
      else some later

theorem layer_cons (leading name text : String) (others : Environment) :
    layer leading ((name, text) :: others) =
      ((settingName? leading name).map fun setting => (setting, valueTree text)).toList ++
        layer leading others := by
  cases h : settingName? leading name <;> simp [layer, h]

end Environment

namespace Tree

/-- A setting is assigned under its name with a dot. -/
theorem set_dotted (tree : Tree) (s : Setting) {new : Tree} (hnew : new.Replaces) :
    tree.set (String.ofList (s.table ++ "." ++ s.name).toList) new = tree.assign s new := by
  have hsteps : steps? (s.table ++ "." ++ s.name).toList = some [.key s.table, .key s.name] := by
    cases s <;> decide +kernel
  have hover : (fun old => overlaid old new) = fun _ => new := funext hnew
  rw [set, String.toList_ofList, hsteps, hover]
  rfl

/-- **An environment put over a tree makes its choices in that tree.** -/
theorem Gives.setAll_environment {tree : Tree} {choices : Choices} (h : tree.Gives choices)
    {leading : String} {environment : Environment} {later : List Choice}
    (hlater : environment.choices? leading = some later) :
    (tree.setAll (environment.layer leading)).Gives (choices.addingAll later) := by
  induction environment generalizing tree choices later with
  | nil =>
    cases hlater
    exact h
  | cons first others ih =>
    obtain ⟨name, text⟩ := first
    obtain ⟨rest, hrest, hlater⟩ := Option.bind_eq_some_iff.1 hlater
    split at hlater
    · obtain ⟨s, hs, hlater⟩ := Option.bind_eq_some_iff.1 hlater
      obtain ⟨value, hvalue, rfl⟩ := Option.map_eq_some_iff.1 hlater
      have hlower := List.find?_some hs
      rw [beq_iff_eq] at hlower
      have hname := Environment.settingName?_eq s.notMem_variableName hlower
      rw [s.dotted_lower_variableName] at hname
      rw [Environment.layer_cons, hname, Choices.addingAll_cons]
      show ((tree.set _ _).setAll _).Gives _
      rw [set_dotted tree s (Setting.replaces_valueTree text)]
      exact ih (h.assign (Setting.convert_of_ofVariable? hvalue)) hrest
    · next hother =>
      cases hlater
      have hname : Environment.settingName? leading name = none := by
        rw [Environment.settingName?]
        exact if_neg hother
      rw [Environment.layer_cons, hname]
      exact ih h hrest

end Tree

end ContentVisibility
