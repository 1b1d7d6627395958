import ContentVisibility.Command.Arguments
import ContentVisibility.Command.Files
import ContentVisibility.Command.Report
import ContentVisibility.Rule.Issue
import ContentVisibility.Service.Session

/-!
# Running commands

* `Place`: where a command runs;
* `Loader`, `Place.load`: how settings are loaded from their usual places;
* `Place.settings`: the settings under which a command runs;
* `Place.execute`: the report of a task.
-/

namespace ContentVisibility.Command

/-- Where a command runs. -/
structure Place (m : Type → Type) where
  files : Files m
  environment : Environment
  /-- The path of the user's own settings, if the user has a place for them. -/
  userSettings : Option String

/-- The path of the user's own settings below the user's directory for settings. -/
def settingsBelow (directory : String) : String := directory ++ "/audience/config.toml"

/-- The path of the user's own settings: the environment names the directory for settings or the home
of the user. -/
def userSettingsPath (environment : Environment) : Option String :=
  match environment.lookup "XDG_CONFIG_HOME", environment.lookup "HOME" with
  | some directory, home =>
    if directory.startsWith "/" then some (settingsBelow directory)
    else home.map fun home => settingsBelow (home ++ "/.config")
  | none, home => home.map fun home => settingsBelow (home ++ "/.config")

/-- How settings are loaded from their usual places. -/
structure Loader where
  /-- The directory of the project; the empty path is the working directory. -/
  project : String
  /-- What the names of variables start with. -/
  leading : String
  /-- Whether the user's own settings count. -/
  own : Bool
  deriving DecidableEq, Repr

namespace Loader

def standard : Loader := ⟨"", Layers.standardLeading, true⟩

/-- The path of a file of the project. -/
def path (loader : Loader) (name : String) : String :=
  if loader.project.isEmpty || loader.project.endsWith "/" then loader.project ++ name
  else loader.project ++ "/" ++ name

end Loader

/-- A step of a command, which may fail. -/
abbrev Step (m : Type → Type) := ExceptT Complaint m

namespace Place

variable {m : Type → Type} [Monad m] (place : Place m)

/-! ## Settings -/

def projectSettings : String := "audience.toml"

def localSettings : String := "audience.local.toml"

def settingsAt (path : String) : Step m Settings := do
  match ← place.files.read path with
  | .error fault =>
    throw (.because s!"Failed to read config file at {path}: {fault.message}" [fault.message])
  | .ok text =>
    match Settings.ofFile text with
    | none => throw (.untold s!"Failed to parse TOML config at {path}")
    | some settings =>
      match settings.check with
      | .ok () => pure settings
      | .error cause => throw (.plain cause.message)

/-- What the layers hold. -/
def layers (loader : Loader) : m Layers := do
  let user ← match place.userSettings with
    | some path => if loader.own then place.files.layer path else pure none
    | none => pure none
  let project ← place.files.layer (loader.path projectSettings)
  let localProject ← place.files.layer (loader.path localSettings)
  pure ⟨user, project, localProject, place.environment, loader.leading⟩

def load (loader : Loader) : m (Except LoadFault Settings) := do
  pure (← place.layers loader).load

/-- The settings that are loaded, or the built-in ones if none are. -/
def loadOrStandard (loader : Loader) : m Settings := do
  pure (← place.layers loader).loadOrStandard

def usualSettings : Step m Settings := do
  match ← place.load .standard with
  | .ok settings => pure settings
  | .error (.invalid cause) =>
    throw (.because (LoadFault.invalid cause).message [cause.message])
  | .error fault => throw (.untold fault.message)

def settings (invocation : Invocation) : Step m Settings := do
  let settings ← match invocation.config with
    | some path => place.settingsAt path
    | none => place.usualSettings
  pure (if invocation.failClosed then settings.withPolicy .failClosed else settings)

/-! ## Arguments -/

/-- The text of a file; `what` is what the file is. -/
def textAt (what path : String) : Step m String := do
  match ← place.files.read path with
  | .ok text => pure text
  | .error fault => throw (.because s!"Failed to read {what} {path}" [fault.message])

/-- The rule of an argument: the text of a file behind an at sign, or the argument itself. -/
def ruleText (arg : String) : Step m String :=
  match arg.toList with
  | '@' :: path => place.textAt "rule file" (String.ofList path)
  | _ => pure arg

/-- The rule of an argument that may be missing. -/
def ruleText? : Option String → Step m (Option String)
  | none => pure none
  | some arg => some <$> place.ruleText arg

def userNamed (arg : String) : Step m UserId :=
  match Identifier.parse arg with
  | .ok id => pure id
  | .error e => throw (.because s!"'{arg}' is not a valid user id" [e.message])

def directoryAt (path : String) : Step m Directory := do
  let text ← place.textAt "user directory" path
  match Directory.parse text with
  | .ok directory => pure directory
  | .error fault =>
    throw (.because s!"Failed to load user directory {path}"
      [Directory.invalid fault, fault.message])

def answer (request : Run Unit α) : Step m α :=
  match (request ()).outcome with
  | .done a => pure a
  | .failed failure => throw (.plain failure.message)
  | .waiting => throw (.plain Failure.cancelled.message)

/-! ## Tasks -/

def lines (ls : List String) : String := String.join (ls.map (· ++ "\n"))

def validate (rule : String) : Step m Report := do
  let text ← place.ruleText rule
  match Rule.parse text with
  | .error fault =>
    throw (.because "Rule is not well-formed" [Rule.malformed fault, fault.message])
  | .ok rule =>
    let issues := rule.issues
    if issues.isEmpty then pure ⟨lines ["Rule is valid"], none⟩
    else
      let complaint := Complaint.plain s!"Rule has {issues.length} problem(s)"
      pure ⟨lines (issues.map fun issue => "  - " ++ issue.message), some complaint⟩

def perform (settings : Settings) : Task → Step m Report
  | .validate rule => place.validate rule
  | .check directory user rule => do
    let id ← userNamed user
    let rule ← place.ruleText? rule
    let directory ← place.directoryAt directory
    let visible ← answer ((directory.service settings).isVisible id rule)
    pure ⟨lines [if visible then "visible" else "hidden"], none⟩
  | .filterWidgets directory user content => do
    let id ← userNamed user
    let content ← place.textAt "page content" content
    let directory ← place.directoryAt directory
    let page ← answer ((directory.service settings).filterWidgets id content)
    pure ⟨lines [page], none⟩
  | .audience directory rule candidates => do
    let rule ← place.ruleText? rule
    let directory ← place.directoryAt directory
    let candidates ←
      if candidates.isEmpty then pure directory.userIds else candidates.mapM userNamed
    let members ← answer ((directory.service settings).audienceMembers rule candidates)
    pure ⟨lines (members.map Identifier.text), none⟩

def execute (invocation : Invocation) : m Report := do
  let work : Step m Report := do
    place.perform (← place.settings invocation) invocation.task
  match ← work.run with
  | .ok report => pure report
  | .error complaint => pure ⟨"", some complaint⟩

end Place

end ContentVisibility.Command
