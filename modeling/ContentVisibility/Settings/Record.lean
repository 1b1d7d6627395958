import ContentVisibility.Json.Record
import ContentVisibility.Settings.Basic

/-!
# Settings as JSON

* `Settings.decoder`: settings are read from a record in which each one may be left out;
* `Settings.parse`: the settings that a text gives.
-/

namespace ContentVisibility

def EngineSettings.decoder : Json.Decoder EngineSettings :=
  .record "struct EngineConfig"
    (.field (.defaulted "malformed_rules" (.word Policy.vocabulary) standard.malformedRules) <|
      .field (.defaulted "audit" .bool standard.audit) .done)
    fun (malformedRules, audit, ()) => ⟨malformedRules, audit⟩

def WidgetSettings.decoder : Json.Decoder WidgetSettings :=
  .record "struct WidgetConfig"
    (.field (.defaulted "visibility_key" .string standard.visibilityKey) <|
      .field (.defaulted "child_keys" (.list .string) standard.childKeys) .done)
    fun (visibilityKey, childKeys, ()) => ⟨visibilityKey, childKeys⟩

def LoggingSettings.decoder : Json.Decoder LoggingSettings :=
  .record "struct LoggingConfig" (.field (.defaulted "filter" .string standard.filter) .done)
    fun (filter, ()) => ⟨filter⟩

namespace Settings

def decoder : Json.Decoder Settings :=
  .record "struct AudienceConfig"
    (.field (.defaulted "engine" EngineSettings.decoder .standard) <|
      .field (.defaulted "widgets" WidgetSettings.decoder .standard) <|
      .field (.defaulted "logging" LoggingSettings.decoder .standard) .done)
    fun (engine, widgets, logging, ()) => ⟨engine, widgets, logging⟩

def parse (s : String) : Except Json.Fault Settings := decoder.text.readText s

end Settings

end ContentVisibility
