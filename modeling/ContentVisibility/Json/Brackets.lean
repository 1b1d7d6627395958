import ContentVisibility.Json.Reader

/-!
# Lists and objects

* `moreItems`, `moreMembers`: whether something follows before the closing bracket;
* `items`: all items of a list;
* `foldMembers`: the members of an object, one after another;
* `endList`, `endObject`: the closing bracket, where nothing else may follow.
-/

namespace ContentVisibility.Json.Reader

/-! ## One step -/

/-- Whether an item follows. The comma before it is taken, the closing bracket is left. -/
def moreItems (first : Bool) : Reader Bool := do
  match ← peekToken with
  | none => failHere .endInList
  | some ']' => pure false
  | some c =>
    if first then pure true
    else if c = ',' then do
      skip
      match ← peekToken with
      | none => failHere .endInValue
      | some ']' => failAhead .trailingComma
      | some _ => pure true
    else failAhead .expectedCommaOrBracket

/-- Whether a member follows. The comma before it is taken; the quote that opens its key and the
closing brace are left. -/
def moreMembers (first : Bool) : Reader Bool := do
  match ← peekToken with
  | none => failHere .endInObject
  | some '}' => pure false
  | some c =>
    if first then (if c = '"' then pure true else failAhead .keyNotString)
    else if c = ',' then do
      skip
      match ← peekToken with
      | none => failHere .endInValue
      | some '"' => pure true
      | some '}' => failAhead .trailingComma
      | some _ => failAhead .keyNotString
    else failAhead .expectedCommaOrBrace

def colon : Reader Unit := do
  match ← peekToken with
  | some ':' => skip
  | some _ => failAhead .expectedColon
  | none => failHere .endInObject

def endList : Reader Unit := do
  match ← peekToken with
  | none => failHere .endInList
  | some ']' => skip
  | some ',' => do
    skip
    if (← peekToken) = some ']' then failAhead .trailingComma else failAhead .trailingCharacters
  | some _ => failAhead .trailingCharacters

def endObject : Reader Unit := do
  match ← peekToken with
  | none => failHere .endInObject
  | some '}' => skip
  | some ',' => failAhead .trailingComma
  | some _ => failAhead .trailingCharacters

/-! ## All items and members -/

/-- The items up to the closing bracket and the bracket, in at most `steps` steps. -/
def itemsSteps (item : Reader α) : Nat → Bool → Reader (List α)
  | 0, _ => failHere .endInList
  | steps + 1, first => do
    if ← moreItems first then
      let a ← item
      let others ← itemsSteps item steps false
      pure (a :: others)
    else
      endList
      pure []

/-- The items of a list, at its opening bracket. -/
def items (item : Reader α) : Reader (List α) := do
  skip
  itemsSteps item (← remaining) true

/-- Go through members up to the closing brace, which is left, in at most `steps` steps. What is
done with a member starts behind its key. -/
def foldMembersSteps (member : σ → String → Reader σ) : Nat → Bool → σ → Reader σ
  | 0, _, _ => failHere .endInObject
  | steps + 1, first, s => do
    if ← moreMembers first then
      skip
      let key ← stringRest
      foldMembersSteps member steps false (← member s key)
    else pure s

/-- Go through the members of an object up to its closing brace, starting behind the opening brace
or, when a member has been read, behind that member. -/
def foldMembers (member : σ → String → Reader σ) (first : Bool) (s : σ) : Reader σ := do
  foldMembersSteps member ((← remaining) + 1) first s

end ContentVisibility.Json.Reader
