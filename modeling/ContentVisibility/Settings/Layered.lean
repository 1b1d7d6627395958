import ContentVisibility.Settings.Environment

/-!
# Settings from all layers

The layers are, from the lowest to the highest: the built-in settings, the file of the user, the file
of the project, the local file of the project, and the environment.

* `Layers`: what the layers hold;
* `Layers.load`: the settings that the layers give together.
-/

namespace ContentVisibility

/-- What the layers above the built-in settings hold. Each of the files may be missing. -/
structure Layers where
  user : Option String
  project : Option String
  localProject : Option String
  environment : Environment
  /-- What the names of variables start with. -/
  leading : String

/-- What the names of variables start with, unless another choice is made. -/
def Layers.standardLeading : String := "AUD"

/-- Why the layers give no settings. -/
inductive LoadFault where
  /-- The file of a layer is no document of settings. -/
  | build
  /-- A setting is of a wrong type. -/
  | convert
  | invalid (cause : Settings.Invalid)
  deriving DecidableEq, Repr

def LoadFault.message : LoadFault → String
  | build => "Failed to build configuration"
  | convert => "Failed to deserialize configuration"
  | invalid _ => "Configuration failed validation"

namespace Layers

/-- The settings of a file, or a refusal of the file. -/
def entries : Option String → Except LoadFault (List (String × Tree))
  | none => .ok []
  | some text =>
    match Tree.ofDocument? text with
    | some entries => .ok entries
    | none => .error .build

/-- The tree of all layers, each put over those below it. -/
def tree (layers : Layers) : Except LoadFault Tree := do
  let user ← entries layers.user
  let project ← entries layers.project
  let localProject ← entries layers.localProject
  let bottom := (Tree.table []).setAll (Tree.ofSettings .standard)
  pure <| (((bottom.setAll user).setAll project).setAll localProject).setAll
    (Environment.layer layers.leading layers.environment)

/-- The settings that the layers give together. Only the settings that remain are converted and
checked. -/
def load (layers : Layers) : Except LoadFault Settings := do
  let tree ← layers.tree
  match Tree.source.settings? tree with
  | none => throw .convert
  | some settings =>
    match settings.check with
    | .ok () => pure settings
    | .error cause => throw (.invalid cause)

/-- The settings that the layers give together, or the built-in ones if they give none. -/
def loadOrStandard (layers : Layers) : Settings :=
  match layers.load with
  | .ok settings => settings
  | .error _ => .standard

end Layers

end ContentVisibility
