import ContentVisibility.Json.Tagged
import ContentVisibility.Rule.Word
import ContentVisibility.User.Record

/-!
# Persisted rules

A rule is kept as an object whose member `type` says which kind of rule it is.

* `Rule.parse`, `Rule.ofValue`: the rule that a text or a value describes;
* `Rule.json`, `Rule.text`: the one written form of a rule.
-/

namespace ContentVisibility

/-! ## Reading -/

def Condition.decoder : Json.Decoder Condition :=
  .record "struct RuleCondition"
    (.field (.required "field" (.word Field.vocabulary)) <|
      .field (.required "operator" (.word Operator.vocabulary)) <|
      .field (.defaulted "value" (.optional .string) none) <|
      .field (.defaulted "values" (.optional (.list .string)) none) .done)
    fun (field, operator, value, values, ()) => ⟨field, operator, value, values⟩

def RuleSet.decoder : Json.Decoder RuleSet :=
  .record "struct RuleSet"
    (.field (.defaulted "logic" (.word Logic.vocabulary) .and) <|
      .field (.defaulted "conditions" (.list Condition.decoder) []) .done)
    fun (logic, conditions, ()) => ⟨logic, conditions⟩

/-- The kinds of rules. -/
inductive RuleKind where
  | all
  | groups
  | rules
  deriving DecidableEq, Repr

def RuleKind.word : RuleKind → String
  | .all => "all"
  | .groups => "groups"
  | .rules => "rules"

namespace Rule

def kinds : Json.Kinds RuleKind where
  title := "internally tagged enum VisibilityRule"
  key := "type"
  vocabulary := {
    words := [
      ("All", .all), ("all", .all), ("Groups", .groups), ("groups", .groups), ("Rules", .rules),
      ("rules", .rules)]
    unknown := none }

def groupsDecoder : Json.Decoder Rule :=
  .record "struct variant VisibilityRule::Groups"
    (.field ((Json.FieldSpec.defaulted "groupIds" GroupSet.decoder .empty).orAs "group_ids") .done)
    fun (ids, ()) => .groups ids

/-- How the rest of a rule with conditions is read. -/
def rulesDecoder : Json.Decoder Rule :=
  .record "struct variant VisibilityRule::Rules"
    (.field ((Json.FieldSpec.required "ruleSet" RuleSet.decoder).orAs "rule_set") .done)
    fun (set, ()) => .rules set

/-- The rule of a kind whose rest was held back. -/
def ofHeld (kind : RuleKind) (rest : Json.Held) : Except Json.Problem Rule :=
  match kind with
  | .all => rest.noFields.map fun () => .all
  | .groups => groupsDecoder.held rest
  | .rules => rulesDecoder.held rest

/-- Read a rule. What is wrong with the rest of it has no place any more. -/
def reader : Json.Reader Rule := do
  let (kind, rest) ← kinds.read
  match ofHeld kind rest with
  | .ok rule => pure rule
  | .error problem => throw ⟨.shape problem, none⟩

/-- The rule that a text describes. -/
def parse (s : String) : Except Json.Fault Rule := reader.readText s

/-- The rule that a value describes. -/
def ofValue (v : Json.Value) : Except Json.Fault Rule :=
  match kinds.ofValue v with
  | .error problem => .error ⟨.shape problem, none⟩
  | .ok (kind, rest) =>
    match ofHeld kind rest with
    | .ok rule => .ok rule
    | .error problem => .error ⟨.shape problem, none⟩

/-- The refusal of a text or a value that describes no rule. -/
def malformed (fault : Json.Fault) : String := s!"Malformed visibility rule: {fault.message}"

end Rule

/-! ## Writing -/

def optionalMember (key : String) (v : Option Json.Value) : List (String × Json.Value) :=
  (v.map fun v => (key, v)).toList

/-- The object for a condition, without the operands that it does not have. -/
def Condition.json (c : Condition) : Json.Value :=
  .object <|
    [("field", .string c.field.word), ("operator", .string c.operator.word)] ++
      optionalMember "value" (c.value.map .string) ++
      optionalMember "values" (c.values.map fun values => .array (values.map .string))

def RuleSet.json (set : RuleSet) : Json.Value :=
  .object [
    ("logic", .string set.logic.word),
    ("conditions", .array (set.conditions.map Condition.json))]

namespace Rule

def kind : Rule → RuleKind
  | all => .all
  | groups _ => .groups
  | rules _ => .rules

def json (rule : Rule) : Json.Value :=
  .object <|
    (kinds.key, .string rule.kind.word) ::
      match rule with
      | all => []
      | groups ids => [("groupIds", ids.json)]
      | rules set => [("ruleSet", set.json)]

def text (rule : Rule) : String := rule.json.text

end Rule

end ContentVisibility
