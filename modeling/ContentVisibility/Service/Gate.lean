import ContentVisibility.Event
import ContentVisibility.Settings.Basic
import ContentVisibility.Widget.Tree

/-!
# Options and gates

A rule becomes a gate once it has been read, or once the policy has been applied to a rule that
cannot be read.

* `Options`: what a service can be tuned in;
* `Gate`: what a rule lets through;
* `Options.gateOfText`, `Options.gateOfValue`: the gate of a rule, and what is noted about it.
-/

namespace ContentVisibility

/-! ## Options -/

/-- What a service can be tuned in. -/
structure Options where
  malformedRules : Policy
  /-- Whether each decision is noted. -/
  audit : Bool
  visibilityKey : String
  childKeys : List String
  deriving DecidableEq, Repr

namespace Options

def ofSettings (settings : Settings) : Options :=
  ⟨settings.engine.malformedRules, settings.engine.audit, settings.widgets.visibilityKey,
    settings.widgets.childKeys⟩

def standard : Options := ofSettings .standard

def withoutAudit (options : Options) : Options := { options with audit := false }

/-- The keys that make a page a tree. -/
def shape (options : Options) : TreeShape := ⟨options.visibilityKey, options.childKeys⟩

end Options

/-! ## Gates -/

/-- What a rule lets through. -/
inductive Gate where
  /-- Every user that is known. -/
  | everyone
  /-- Nobody. -/
  | nobody
  /-- The users that the rule admits. -/
  | ruled (rule : Rule)

/-- Whether the gate lets a user through, with what is noted about its rule. -/
def Gate.admits (gate : Gate) (user : User) : Bool × List Event :=
  match gate with
  | everyone => (true, [])
  | nobody => (false, [])
  | ruled rule =>
    let decision := rule.decide user
    (decision.holds, decision.warnings.map .condition)

namespace Options

/-- The gate of a rule that has been read or refused. -/
def gate (options : Options) : Except Json.Fault Rule → Gate × List Event
  | .ok rule => (.ruled rule, [])
  | .error fault =>
    (if options.malformedRules.admits then .everyone else .nobody,
      [.malformedRule fault options.malformedRules])

/-- The gate of a rule as text; a missing, blank or null text restricts nothing. -/
def gateOfText (options : Options) (rule : Option String) : Gate × List Event :=
  match rule.map Text.trim with
  | none => (.everyone, [])
  | some text =>
    if text = "" ∨ text = "null" then (.everyone, []) else options.gate (Rule.parse text)

/-- The gate of a rule inside a page, where it stands as an object or as text. -/
def gateOfValue (options : Options) : Json.Value → Gate × List Event
  | .null => (.everyone, [])
  | .string text => options.gateOfText (some text)
  | value => options.gate (Rule.ofValue value)

end Options

end ContentVisibility
