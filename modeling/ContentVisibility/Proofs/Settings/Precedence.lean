import ContentVisibility.Proofs.Command.Steps
import ContentVisibility.Proofs.Settings.Check
import ContentVisibility.Proofs.Settings.Chosen

/-!
# Which layer settles a setting

Of layers that hold nothing but settings, each of its own type, the highest one that chooses a value
settles the setting. The settings so found are the ones that are loaded, if they pass the check.

* `Choices.settled`: the settings that layers come to, each chosen by the highest layer that sets it;
* `Layers.choices?`: what each layer chooses, the highest layer first;
* `Layers.tree_gives`: the tree of all layers gives the settled values;
* `Place.Chooses`: what the variables and the documents at a place choose;
* `load_of_choices`: what is loaded from such a place.
-/

namespace ContentVisibility

/-! ## Layers and their choices -/

/-- The text of a document without a byte order mark in front of it. -/
def Toml.withoutMark (text : String) : String :=
  match text.toList with
  | '\ufeff' :: cs => String.ofList cs
  | _ => text

namespace Choices

/-- What the file of a layer chooses, if it holds settings only; a missing one chooses nothing. -/
def ofFile? : Option String → Option Choices
  | .none => some none
  | .some text =>
    ((Toml.parse? .standard (Toml.withoutMark text)).bind Toml.choices?).map ofList

/-- What layers come to, the highest one first: a setting has the value that the first layer chooses
which sets it, and else its built-in value. -/
def settled (layers : List Choices) : Settings :=
  .ofValues fun s => (layers.findSome? fun choices => choices s).getD s.standard

theorem get_settled (environment localProject project user : Choices) (s : Setting) :
    (settled [environment, localProject, project, user]).get s =
      ((environment s).or ((localProject s).or ((project s).or (user s)))).getD s.standard := by
  rw [settled, Settings.get_ofValues]
  simp only [List.findSome?_cons, List.findSome?_nil]
  cases environment s <;> cases localProject s <;> cases project s <;> cases user s <;> rfl

/-- What a layer chooses for settings that a higher one sets makes no difference. -/
theorem settled_eq_of_shadowed
    {environment localProject localProject' project project' user user' : Choices}
    (h : ∀ s, environment s = .none → localProject' s = localProject s ∧
      (localProject s = .none → project' s = project s ∧ (project s = .none → user' s = user s))) :
    settled [environment, localProject', project', user'] =
      settled [environment, localProject, project, user] := by
  refine congrArg Settings.ofValues (funext fun s => ?_)
  simp only [List.findSome?_cons, List.findSome?_nil]
  cases henvironment : environment s with
  | some value => rfl
  | none =>
    obtain ⟨hlocal, hproject⟩ := h s henvironment
    rw [hlocal]
    cases hlocal : localProject s with
    | some value => rfl
    | none =>
      obtain ⟨hproject, huser⟩ := hproject hlocal
      rw [hproject]
      cases hproject : project s with
      | some value => rfl
      | none => rw [huser hproject]

end Choices

namespace Layers

/-- What the layers choose, the highest one first, if they hold settings only. -/
def choices? (layers : Layers) : Option (List Choices) := do
  let user ← Choices.ofFile? layers.user
  let project ← Choices.ofFile? layers.project
  let localProject ← Choices.ofFile? layers.localProject
  let environment ← layers.environment.choices? layers.leading
  some [.ofList environment, localProject, project, user]

/-! ## The tree of all layers -/

theorem gives_empty : (Tree.table []).Gives .none where
  table := rfl
  tables s inner h := by cases h
  values s := rfl

theorem gives_standard :
    ((Tree.table []).setAll (Tree.ofSettings .standard)).Gives fun s => some s.standard where
  table := rfl
  tables s inner h := by cases s <;> cases h <;> rfl
  values s := by cases s <;> rfl

/-- The file of a layer, put over a tree, makes its choices in that tree. -/
theorem exists_entries {file : Option String} {choices : Choices}
    (h : Choices.ofFile? file = some choices) :
    ∃ layer, entries file = .ok layer ∧ ∀ (tree : Tree) (below : Choices), tree.Gives below →
      (tree.setAll layer).Gives (choices.before below) := by
  cases file with
  | none =>
    cases h
    exact ⟨[], rfl, fun tree below hbelow => hbelow⟩
  | some text =>
    obtain ⟨later, hlater, rfl⟩ := Option.map_eq_some_iff.1 h
    obtain ⟨document, hdocument, hlater⟩ := Option.bind_eq_some_iff.1 hlater
    obtain ⟨hnames, layer, hlayer, -⟩ := gives_empty.setAll_document hlater
    refine ⟨layer, ?_, fun tree below hbelow => ?_⟩
    · have hread : Tree.ofDocument? text = some layer := by
        refine Option.bind_eq_some_iff.2 ⟨document, hdocument, ?_⟩
        simp only [Tree.markedDate?_eq_none hnames, Option.isSome_none, Bool.false_eq_true, if_false]
        exact hlayer
      unfold entries
      simp only [hread]
    · obtain ⟨-, layer', hlayer', hgives⟩ := hbelow.setAll_document hlater
      obtain rfl : layer' = layer := Option.some.inj (hlayer'.symm.trans hlayer)
      rw [Choices.addingAll_eq_before below later] at hgives
      exact hgives

variable {layers : Layers} {choices : List Choices}

/-- **The tree of all layers gives the settled values.** -/
theorem tree_gives (h : layers.choices? = some choices) :
    ∃ tree, layers.tree = .ok tree ∧ tree.Gives fun s => some ((Choices.settled choices).get s) := by
  obtain ⟨user, huser, h⟩ := Option.bind_eq_some_iff.1 h
  obtain ⟨project, hproject, h⟩ := Option.bind_eq_some_iff.1 h
  obtain ⟨localProject, hlocal, h⟩ := Option.bind_eq_some_iff.1 h
  obtain ⟨environment, henvironment, h⟩ := Option.bind_eq_some_iff.1 h
  obtain ⟨userLayer, huserLayer, hoverUser⟩ := exists_entries huser
  obtain ⟨projectLayer, hprojectLayer, hoverProject⟩ := exists_entries hproject
  obtain ⟨localLayer, hlocalLayer, hoverLocal⟩ := exists_entries hlocal
  have hgives := (hoverLocal _ _ (hoverProject _ _ (hoverUser _ _ gives_standard))).setAll_environment
    henvironment
  refine ⟨_, by rw [tree, huserLayer, hprojectLayer, hlocalLayer]; rfl, ?_⟩
  obtain rfl := Option.some.inj h
  rw [Choices.addingAll_eq_before] at hgives
  have hover : (Choices.ofList environment).before (localProject.before (project.before (user.before fun s =>
      some s.standard))) = fun s =>
        some ((Choices.settled [.ofList environment, localProject, project, user]).get s) := by
    funext s
    rw [Choices.get_settled]
    simp only [Choices.before]
    cases Choices.ofList environment s <;> cases localProject s <;> cases project s <;>
      cases user s <;> rfl
  rwa [hover] at hgives

/-! ## Loaded settings -/

/-- The settled values are what is checked and loaded. -/
theorem load_eq (h : layers.choices? = some choices) :
    layers.load = ((Choices.settled choices).check.mapError LoadFault.invalid).map fun _ =>
      Choices.settled choices := by
  obtain ⟨tree, htree, hgives⟩ := tree_gives h
  have hsettings : Tree.source.settings? tree = some (Choices.settled choices) := hgives.settings?
  simp only [load, htree, hsettings, bind, Except.bind]
  cases (Choices.settled choices).check <;> rfl

theorem load_eq_ok_iff_settled (h : layers.choices? = some choices) (settings : Settings) :
    layers.load = .ok settings ↔
      (Choices.settled choices).check = .ok () ∧ settings = Choices.settled choices := by
  rw [load_eq h]
  cases (Choices.settled choices).check with
  | ok _ => simp [Except.map, Except.mapError, eq_comm]
  | error cause => simp [Except.map, Except.mapError]

theorem load_eq_error_iff_settled (h : layers.choices? = some choices) (fault : LoadFault) :
    layers.load = .error fault ↔
      ∃ cause, (Choices.settled choices).check = .error cause ∧ fault = .invalid cause := by
  rw [load_eq h]
  cases (Choices.settled choices).check with
  | ok _ => simp [Except.map, Except.mapError]
  | error cause => simp [Except.map, Except.mapError, eq_comm]

theorem loadOrStandard_eq_settled (h : layers.choices? = some choices) : layers.loadOrStandard =
    if (Choices.settled choices).check = .ok () then Choices.settled choices else .standard := by
  rw [loadOrStandard, load_eq h]
  cases (Choices.settled choices).check with
  | ok _ => rfl
  | error cause => simp [Except.map, Except.mapError]

end Layers

/-! ## Places -/

namespace Command

namespace Place

/-- What the document at a path chooses, if it holds settings only; a missing one chooses nothing. -/
def documentAt? (place : Place Id) (path : String) : Option Choices :=
  match place.files.read path with
  | .ok text => Choices.ofFile? (some text)
  | .error .directory => none
  | .error _ => some .none

/-- What the layers of a loader choose at a place. -/
structure Chooses (place : Place Id) (loader : Loader)
    (environment localProject project user : Choices) : Prop where
  environment : (place.environment.choices? loader.leading).map .ofList = some environment
  localProject : place.documentAt? (loader.path "audience.local.toml") = some localProject
  project : place.documentAt? (loader.path "audience.toml") = some project
  /-- Where the user has no place for settings, and where they do not count, nothing is chosen. -/
  user : (if loader.own then place.userSettings.elim (some .none) place.documentAt?
    else some .none) = some user

variable {place : Place Id} {loader : Loader} {environment localProject project user : Choices}

theorem ofFile?_layer {path : String} {choices : Choices} (h : place.documentAt? path = some choices) :
    Choices.ofFile? (place.files.layer path) = some choices := by
  unfold documentAt? at h
  split at h
  next text hread => rwa [layer_eq_some hread]
  -- a directory is no document: another file would be read in its place
  next => cases h
  next fault hfile hread => rwa [layer_eq_none hread hfile]

theorem Chooses.choices? (h : place.Chooses loader environment localProject project user) :
    (place.layers loader).choices? = some [environment, localProject, project, user] := by
  obtain ⟨later, hlater, rfl⟩ := Option.map_eq_some_iff.1 h.environment
  have huser : Choices.ofFile? (place.layers loader).user = some user := by
    have huser := h.user
    rw [layers_eq]
    cases hown : loader.own with
    | false =>
      rw [hown] at huser
      exact huser
    | true =>
      rw [hown, if_pos rfl] at huser
      rw [if_pos rfl]
      cases hpath : place.userSettings with
      | none =>
        rw [hpath] at huser
        exact huser
      | some path =>
        rw [hpath] at huser
        exact ofFile?_layer huser
  have hproject : Choices.ofFile? (place.layers loader).project = some project :=
    layers_eq place loader ▸ ofFile?_layer h.project
  have hlocal : Choices.ofFile? (place.layers loader).localProject = some localProject :=
    layers_eq place loader ▸ ofFile?_layer h.localProject
  have hvariables : (place.layers loader).environment.choices? (place.layers loader).leading =
      some later := layers_eq place loader ▸ hlater
  rw [Layers.choices?, huser, hproject, hlocal, hvariables]
  rfl

/-- What is loaded at a place depends on nothing but the values that its layers settle. -/
theorem Chooses.load_eq (h : place.Chooses loader environment localProject project user) :
    place.load loader =
      ((Choices.settled [environment, localProject, project, user]).check.mapError
        LoadFault.invalid).map fun _ =>
          Choices.settled [environment, localProject, project, user] :=
  Layers.load_eq h.choices?

theorem Chooses.withoutOwn (h : place.Chooses loader environment localProject project user) :
    place.Chooses { loader with own := false } environment localProject project .none :=
  ⟨h.environment, h.localProject, h.project, rfl⟩

theorem documentAt?_congr {files : Files Id} {path : String}
    (h : files.read path = place.files.read path) :
    { place with files := files }.documentAt? path = place.documentAt? path := by
  simp only [documentAt?, h]

/-- A file of the user's own settings that is not there chooses nothing. -/
theorem Chooses.of_missing (h : place.Chooses loader environment localProject project user)
    {files : Files Id}
    (hproject : files.read (loader.path "audience.toml") =
      place.files.read (loader.path "audience.toml"))
    (hlocal : files.read (loader.path "audience.local.toml") =
      place.files.read (loader.path "audience.local.toml"))
    (hmissing : ∀ path ∈ place.userSettings, files.read path = .error .missing) :
    { place with files := files }.Chooses loader environment localProject project .none := by
  refine ⟨h.environment, (documentAt?_congr hlocal).trans h.localProject,
    (documentAt?_congr hproject).trans h.project, ?_⟩
  split
  · cases hpath : place.userSettings with
    | none => rfl
    | some path =>
      rw [Option.elim_some, documentAt?, hmissing path hpath]
  · rfl

/-- **Each setting has the value of the highest layer that sets it**, and what is so settled is loaded
exactly if it passes the check. From the highest to the lowest the layers are the variables of the
environment, `audience.local.toml` and `audience.toml` in the directory of the project, the user's own
file and the built-in settings. What a layer sets below another one that sets it too makes no
difference, and a file of the user's own that does not count is like one that is not there. -/
theorem load_of_choices (h : place.Chooses loader environment localProject project user) :
    let settled := Choices.settled [environment, localProject, project, user]
    (∀ s, settled.get s =
      ((environment s).or ((localProject s).or ((project s).or (user s)))).getD s.standard) ∧
    (∀ settings, place.load loader = .ok settings ↔
      settled.check = .ok () ∧ settings = settled) ∧
    (∀ fault, place.load loader = .error fault ↔
      ∃ cause, settled.check = .error cause ∧ fault = .invalid cause) ∧
    (place.loadOrStandard loader = if settled.check = .ok () then settled else .standard) ∧
    (∀ (place' : Place Id) (loader' : Loader) (localProject' project' user' : Choices),
      place'.Chooses loader' environment localProject' project' user' →
      (∀ s, environment s = none → localProject' s = localProject s ∧
        (localProject s = none → project' s = project s ∧ (project s = none → user' s = user s))) →
      place'.load loader' = place.load loader) ∧
    ∀ files : Files Id,
      files.read (loader.path "audience.toml") = place.files.read (loader.path "audience.toml") →
      files.read (loader.path "audience.local.toml") =
        place.files.read (loader.path "audience.local.toml") →
      (∀ path ∈ place.userSettings, files.read path = .error .missing) →
      { place with files := files }.load loader = place.load { loader with own := false } := by
  intro settled
  refine ⟨Choices.get_settled environment localProject project user,
    Layers.load_eq_ok_iff_settled h.choices?, Layers.load_eq_error_iff_settled h.choices?,
    Layers.loadOrStandard_eq_settled h.choices?,
    fun place' loader' localProject' project' user' h' hshadowed => ?_,
    fun files hproject hlocal hmissing => ?_⟩
  · rw [h.load_eq, h'.load_eq, Choices.settled_eq_of_shadowed hshadowed]
  · rw [(h.of_missing hproject hlocal hmissing).load_eq, h.withoutOwn.load_eq]

/-- An office: the user's own key for rules would be refused, but the project sets another one; the
local file names other keys of children than the project does. -/
def officePlace : Place Id where
  files := ⟨fun path =>
    if path = "/home/office/.config/audience/config.toml" then .ok "widgets.visibility_key = \"\""
    else if path = "site/audience.toml" then
      .ok "[widgets]\nvisibility_key = \"audience\"\nchild_keys = [\"rows\"]"
    else if path = "site/audience.local.toml" then .ok "widgets.child_keys = [\"cells\"]"
    else .error .missing⟩
  environment := [("HOME", "/home/office"), ("AUD_ENGINE__AUDIT", "Off")]
  userSettings := userSettingsPath [("HOME", "/home/office")]

def officeSettings : Settings := ⟨⟨.failOpen, false⟩, ⟨"audience", ["cells"]⟩, ⟨"info"⟩⟩

theorem load_of_choices_office :
    let loader : Loader := { Loader.standard with project := "site" }
    officeSettings.check = .ok () ∧ officePlace.load loader = .ok officeSettings := by
  intro loader
  have hsettled : (officePlace.layers loader).choices?.map Choices.settled = some officeSettings := by
    decide +kernel
  have hcheck : officeSettings.check = .ok () := rfl
  obtain ⟨environment, henvironment⟩ := Option.isSome_iff_exists.1
    (show ((officePlace.environment.choices? loader.leading).map Choices.ofList).isSome = true by
      decide +kernel)
  obtain ⟨localProject, hlocal⟩ := Option.isSome_iff_exists.1
    (show (officePlace.documentAt? (loader.path "audience.local.toml")).isSome = true by
      decide +kernel)
  obtain ⟨project, hproject⟩ := Option.isSome_iff_exists.1
    (show (officePlace.documentAt? (loader.path "audience.toml")).isSome = true by decide +kernel)
  obtain ⟨user, huser⟩ := Option.isSome_iff_exists.1
    (show (officePlace.documentAt? "/home/office/.config/audience/config.toml").isSome = true by
      decide +kernel)
  have h : officePlace.Chooses loader environment localProject project user :=
    ⟨henvironment, hlocal, hproject, huser⟩
  rw [h.choices?, Option.map_some, Option.some.injEq] at hsettled
  obtain ⟨-, hload, -⟩ := load_of_choices h
  exact ⟨hcheck, (hload officeSettings).2 ⟨hsettled ▸ hcheck, hsettled.symm⟩⟩

end Place

end Command

end ContentVisibility
