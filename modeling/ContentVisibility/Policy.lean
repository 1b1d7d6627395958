import ContentVisibility.Json.Decoder

/-!
# Policy for malformed rules

A missing user always sees nothing. What a rule that cannot be read does is a choice: by default it
restricts nothing, so that a damaged rule never hides content from everyone.
-/

namespace ContentVisibility

/-- What a rule that cannot be read does. -/
inductive Policy where
  /-- It restricts nothing. -/
  | failOpen
  /-- It admits nobody. -/
  | failClosed
  deriving DecidableEq, Repr

namespace Policy

/-- Whether a rule that cannot be read admits a user. -/
def admits : Policy → Bool
  | failOpen => true
  | failClosed => false

def word : Policy → String
  | failOpen => "fail-open"
  | failClosed => "fail-closed"

def title : Policy → String
  | failOpen => "FailOpen"
  | failClosed => "FailClosed"

/-- The words for policies; no others are accepted. -/
def vocabulary : Json.Vocabulary Policy where
  words := [("fail-open", failOpen), ("fail-closed", failClosed)]
  unknown := none

end Policy

end ContentVisibility
