import ContentVisibility.Json.Value
import ContentVisibility.Settings.Basic

/-!
# Settings from values

Settings are read from values of more than one type, which differ in the conversions that they
allow. What the settings are called, and that each may be left out, is the same for all.

* `Source`: the conversions that a type of values allows;
* `Source.settings`: the settings that a value gives.
-/

namespace ContentVisibility

/-- The conversions that a type of values allows. -/
structure Source (V : Type) where
  /-- The entries of a table, or the items of a list, whose order is that of the given names. -/
  entries? : List String → V → Option (List (String × V))
  flag? : V → Option Bool
  text? : V → Option String
  /-- A word that chooses among several. -/
  word? : V → Option String
  list? : V → Option (List V)

namespace Source

variable {V : Type} (source : Source V)

/-- The setting with a name, or its standard value if it is left out. -/
def setting (entries : List (String × V)) (name : String) (convert : V → Option α) (standard : α) :
    Option α :=
  match Json.Members.get? name entries with
  | some v => convert v
  | none => some standard

def policy? (v : V) : Option Policy := (source.word? v).bind Policy.vocabulary.find?

def engine? (v : V) : Option EngineSettings := do
  let entries ← source.entries? ["malformed_rules", "audit"] v
  let malformedRules ←
    setting entries "malformed_rules" source.policy? EngineSettings.standard.malformedRules
  let audit ← setting entries "audit" source.flag? EngineSettings.standard.audit
  some ⟨malformedRules, audit⟩

def widgets? (v : V) : Option WidgetSettings := do
  let entries ← source.entries? ["visibility_key", "child_keys"] v
  let visibilityKey ←
    setting entries "visibility_key" source.text? WidgetSettings.standard.visibilityKey
  let childKeys ← setting entries "child_keys"
    (fun v => (source.list? v).bind fun items => items.mapM source.text?)
    WidgetSettings.standard.childKeys
  some ⟨visibilityKey, childKeys⟩

def logging? (v : V) : Option LoggingSettings := do
  let entries ← source.entries? ["filter"] v
  let filter ← setting entries "filter" source.text? LoggingSettings.standard.filter
  some ⟨filter⟩

def settings? (v : V) : Option Settings := do
  let entries ← source.entries? ["engine", "widgets", "logging"] v
  let engine ← setting entries "engine" source.engine? .standard
  let widgets ← setting entries "widgets" source.widgets? .standard
  let logging ← setting entries "logging" source.logging? .standard
  some ⟨engine, widgets, logging⟩

end Source

end ContentVisibility
