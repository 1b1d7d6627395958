import ContentVisibility.Policy
import ContentVisibility.Text.Basic

/-!
# Settings

* `Settings`: how rules are applied, where rules stand in a page, and what is logged;
* `Settings.standard`, `Settings.strict`: the built-in settings, and those that hide content whose
  rule cannot be read;
* `Settings.check`: what no single setting can express.
-/

namespace ContentVisibility

/-- How rules are applied. -/
structure EngineSettings where
  malformedRules : Policy
  /-- Whether each decision is noted. -/
  audit : Bool
  deriving DecidableEq, Repr

/-- Where rules stand in a page. -/
structure WidgetSettings where
  /-- The key of a widget that holds its rule. -/
  visibilityKey : String
  /-- The keys of a widget that hold lists of widgets. -/
  childKeys : List String
  deriving DecidableEq, Repr

/-- What is logged. -/
structure LoggingSettings where
  filter : String
  deriving DecidableEq, Repr

/-- All settings. -/
structure Settings where
  engine : EngineSettings
  widgets : WidgetSettings
  logging : LoggingSettings
  deriving DecidableEq, Repr

namespace EngineSettings

def standard : EngineSettings := ⟨.failOpen, true⟩

end EngineSettings

namespace WidgetSettings

def standard : WidgetSettings := ⟨"visibility", ["children"]⟩

end WidgetSettings

namespace LoggingSettings

def standard : LoggingSettings := ⟨"info"⟩

end LoggingSettings

namespace Settings

def standard : Settings := ⟨.standard, .standard, .standard⟩

/-- The settings with another policy for malformed rules. -/
def withPolicy (settings : Settings) (policy : Policy) : Settings :=
  { settings with engine := { settings.engine with malformedRules := policy } }

/-- The built-in settings, except that content is hidden whose rule cannot be read. -/
def strict : Settings := standard.withPolicy .failClosed

/-- What is wrong with settings that are right one by one. -/
inductive Invalid where
  | emptyVisibilityKey
  /-- The key of the rule is also a key of child widgets. -/
  | childKeyIsVisibilityKey (key : String)
  deriving DecidableEq, Repr

def Invalid.message : Invalid → String
  | emptyVisibilityKey => "Invalid configuration: widgets.visibility_key must not be empty"
  | childKeyIsVisibilityKey key =>
    s!"Invalid configuration: widgets.child_keys must not contain the visibility key '{key}'"

/-- Check what no single setting can express. Blank characters around the key of the rule are not
looked at. -/
def check (settings : Settings) : Except Invalid Unit :=
  let key := Text.trim settings.widgets.visibilityKey
  if key = "" then .error .emptyVisibilityKey
  else if key ∈ settings.widgets.childKeys then .error (.childKeyIsVisibilityKey key)
  else .ok ()

end Settings

end ContentVisibility
