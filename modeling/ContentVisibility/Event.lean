import ContentVisibility.Json.Value
import ContentVisibility.Policy
import ContentVisibility.Rule.Evaluation
import ContentVisibility.Rule.Persisted

/-!
# Events

Decisions leave a trail of events: warnings about rules, and notes on users and results.

* `Event`: what can be noted;
* `Event.level`, `Event.message`, `Event.fields`: how an event is shown.
-/

namespace ContentVisibility

/-- What can be noted while a request is answered. -/
inductive Event where
  /-- A condition of a rule cannot be used as it is. -/
  | condition (warning : Warning)
  /-- A rule cannot be read. -/
  | malformedRule (fault : Json.Fault) (policy : Policy)
  | userNotFound (user : UserId)
  | userInactive (user : UserId)
  | resolutionCancelled (user : UserId)
  | decided (user : UserId) (visible : Bool)
  | collectionFiltered (user : UserId) (total visible : Nat)
  | treeFiltered (user : UserId) (resolved : Bool) (removed : Nat)
  | audienceSelected (candidates members : Nat)
  deriving DecidableEq, Repr

/-- How much an event matters. -/
inductive Level where
  | warn
  | debug
  deriving DecidableEq, Repr

def Level.title : Level → String
  | warn => "WARN"
  | debug => "DEBUG"

/-! ## Warnings -/

def Unsupported.message : Unsupported → String
  | unknownWord => "unknown field or operator"
  | comparisonOfGroups => "operator not supported on group field"

namespace Warning

def message : Warning → String
  | unsupported .. => "Unsupported condition; treating as non-matching"
  | missingValue .. => "Condition is missing its value; treating as non-matching"
  | missingValues .. => "Condition is missing its values; treating as non-matching"
  | malformedGroup .. => "Malformed group id in condition; treating as non-matching"
  | skippedGroup .. => "Skipping malformed group id in condition"

def fields : Warning → List (String × Json.Value)
  | unsupported field operator reason =>
    [("field", .string field.title), ("operator", .string operator.title),
      ("reason", .string reason.message)]
  | missingValue field operator | missingValues field operator =>
    [("field", .string field.title), ("operator", .string operator.title)]
  | malformedGroup operator e | skippedGroup operator e =>
    [("operator", .string operator.title), ("error", .string e.message)]

end Warning

/-! ## Events -/

namespace Event

def isWarning : Event → Bool
  | condition _ | malformedRule .. => true
  | _ => false

def level (e : Event) : Level := if e.isWarning then .warn else .debug

def message : Event → String
  | condition warning => warning.message
  | malformedRule .. => "Malformed visibility rule; applying policy"
  | userNotFound _ => "User not found; failing closed"
  | userInactive _ => "User inactive; failing closed"
  | resolutionCancelled _ => "User resolution cancelled"
  | decided .. => "Visibility decided"
  | collectionFiltered .. => "Collection filtered"
  | treeFiltered .. => "Widget tree filtered"
  | audienceSelected .. => "Audience selected"

def count (n : Nat) : Json.Value := .number (.ofInt n)

def fields : Event → List (String × Json.Value)
  | condition warning => warning.fields
  | malformedRule fault policy =>
    [("error", .string (Rule.malformed fault)), ("policy", .string policy.title)]
  | userNotFound user | userInactive user | resolutionCancelled user =>
    [("user_id", .string user.text)]
  | decided user visible => [("user_id", .string user.text), ("visible", .bool visible)]
  | collectionFiltered user total visible =>
    [("user_id", .string user.text), ("total", count total), ("visible", count visible)]
  | treeFiltered user resolved removed =>
    [("user_id", .string user.text), ("resolved", .bool resolved), ("removed", count removed)]
  | audienceSelected candidates members =>
    [("candidates", count candidates), ("members", count members)]

end Event

end ContentVisibility
