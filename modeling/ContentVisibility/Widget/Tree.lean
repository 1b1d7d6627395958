import ContentVisibility.Json.Value

/-!
# Pages as trees of widgets

A page is a list of widgets. A widget is any value; an object may hold a rule under one key and lists
of further widgets under others. All else in it is left as it is.

* `TreeShape`: the keys that make a page a tree;
* `Tally`: a result, how many widgets were removed for it, and which rules were looked at;
* `TreeShape.prune`: the page without the widgets whose rules are not allowed.
-/

namespace ContentVisibility

/-- The keys that make a page a tree. -/
structure TreeShape where
  visibilityKey : String
  childKeys : List String
  deriving DecidableEq, Repr

/-- A result, with what was done for it. -/
structure Tally (α : Type) where
  result : α
  /-- How many widgets were removed. -/
  removed : Nat
  /-- The rules that were looked at, in order. -/
  consulted : List Json.Value

namespace Tally

instance : Monad Tally where
  pure a := ⟨a, 0, []⟩
  bind t f :=
    let u := f t.result
    ⟨u.result, t.removed + u.removed, t.consulted ++ u.consulted⟩

instance : LawfulMonad Tally := .mk' _
  (fun t => by simp [Functor.map])
  (fun a f => by simp [bind, pure])
  (fun t f g => by simp [bind, Nat.add_assoc])

end Tally

/-! ## How deep a page is nested -/

namespace Json.Value

mutual

/-- How many containers stand inside one another. -/
def depth : Value → Nat
  | array items => itemsDepth items + 1
  | object members => membersDepth members + 1
  | null | bool _ | number _ | string _ => 0

def itemsDepth : List Value → Nat
  | [] => 0
  | item :: items => max item.depth (itemsDepth items)

def membersDepth : List (String × Value) → Nat
  | [] => 0
  | (_, value) :: members => max value.depth (membersDepth members)

end

end Json.Value

namespace TreeShape

open Json (Value)

/-! ## One level -/

/-- The rule of a widget, if it carries one. -/
def ruleOf (shape : TreeShape) : Value → Option Value
  | .object members =>
    match Json.Members.get? shape.visibilityKey members with
    | none | some .null => none
    | some rule => some rule
  | _ => none

/-- The widgets of one level that carry no rule or an allowed one. -/
def level (shape : TreeShape) (allows : Value → Bool) (nodes : List Value) : Tally (List Value) :=
  let kept := nodes.filter fun node => (shape.ruleOf node).all allows
  ⟨kept, nodes.length - kept.length, nodes.filterMap shape.ruleOf⟩

/-! ## All levels -/

/-- Prune the list of widgets under one key, if there is one. -/
def pruneMember (prune : List Value → Tally (List Value)) (members : List (String × Value))
    (key : String) : Tally (List (String × Value)) :=
  match Json.Members.get? key members with
  | some (.array children) => do
    let kept ← prune children
    pure (Json.Members.put key (.array kept) members)
  | _ => pure members

/-- Prune the lists of widgets inside a widget, key by key. -/
def pruneNode (shape : TreeShape) (prune : List Value → Tally (List Value)) : Value → Tally Value
  | .object members => do
    let members ← shape.childKeys.foldlM (pruneMember prune) members
    pure (.object members)
  | node => pure node

/-- Prune the first `depth + 1` levels of a list of widgets. -/
def pruneLevels (shape : TreeShape) (allows : Value → Bool) : Nat → List Value → Tally (List Value)
  | 0, nodes => shape.level allows nodes
  | depth + 1, nodes => do
    let kept ← shape.level allows nodes
    kept.mapM (shape.pruneNode (shape.pruneLevels allows depth))

/-- The widgets at all levels without those whose rule is not allowed. A widget that is removed takes
its children along, and their rules are not looked at. -/
def prune (shape : TreeShape) (allows : Value → Bool) (nodes : List Value) : Tally (List Value) :=
  shape.pruneLevels allows (Value.itemsDepth nodes) nodes

end TreeShape

end ContentVisibility
