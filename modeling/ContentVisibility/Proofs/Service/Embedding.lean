import ContentVisibility.Proofs.Rule.Embedding
import ContentVisibility.Proofs.Service.Page

/-!
# Widgets with a rule as an object and as text

* `Service.Keeps`: a page of one widget is answered with that widget;
* `embeddings_agree_iff`: when a rule as an object and the same rule as text are read alike, and when
  the widgets that carry them are kept alike.
-/

namespace ContentVisibility

open Json (Value)

/-! ## Texts of objects and lists -/

namespace Text

theorem trimmed_eq_self {first last : Char} (hfirst : isBlank first = false)
    (hlast : isBlank last = false) (cs : List Char) :
    trimmed (first :: (cs ++ [last])) = first :: (cs ++ [last]) := by
  simp [trimmed, hfirst, hlast]

end Text

theorem Json.Value.exists_chars_of_isContainer {v : Value} (h : v.IsContainer) :
    ∃ first cs last, v.chars = first :: (cs ++ [last]) ∧ Text.isBlank first = false ∧
      Text.isBlank last = false ∧ first ≠ 'n' := by
  cases v with
  | array items => exact ⟨'[', _, ']', rfl, by decide, by decide, by decide⟩
  | object members => exact ⟨'{', _, '}', rfl, by decide, by decide, by decide⟩
  | null | bool _ | number _ | string _ => exact h.elim

/-- The text of an object or a list restricts something: it is read as a rule. -/
theorem Options.gateOfText_text (options : Options) {v : Value} (h : v.IsContainer) :
    options.gateOfText (some v.text) = options.gate (Rule.parse v.text) := by
  obtain ⟨first, cs, last, hchars, hfirst, hlast, hnull⟩ := Value.exists_chars_of_isContainer h
  have htext : v.text.toList = first :: (cs ++ [last]) := by
    rw [Value.text, String.toList_ofList, hchars]
  have htrim : Text.trim v.text = v.text := by
    rw [Text.trim, htext, Text.trimmed_eq_self hfirst hlast, ← htext, String.ofList_toList]
  have hother : ¬ (v.text = "" ∨ v.text = "null") := by
    rintro (he | he) <;> rw [he] at htext
    · cases htext
    · exact hnull (List.cons.inj htext).1.symm
  simp only [gateOfText, Option.map_some, htrim, hother, if_false]

/-- Only the empty list is written without anything between its brackets. -/
theorem Json.Value.text_array_eq_nil_iff {vs : List Value} :
    (Value.array vs).text = "[]" ↔ vs = [] := by
  refine ⟨fun h => ?_, fun h => h ▸ rfl⟩
  cases vs with
  | nil => rfl
  | cons v vs =>
    obtain ⟨c, cs, hchars, -⟩ := v.exists_chars_eq_cons
    have hlen := congrArg (fun s => s.toList.length) h
    simp only [text, String.toList_ofList, chars, commaSeparated_itemsChars, hchars,
      List.length_cons, List.length_append] at hlen
    have hbrackets : "[]".toList.length = 2 := by decide
    simp only [List.length_nil] at hlen
    omega

namespace TreeShape

/-- Pruning keeps as many widgets of the first level as carry no rule or an allowed one. -/
theorem length_result_prune (shape : TreeShape) (allows : Value → Bool) (nodes : List Value) :
    (shape.prune allows nodes).result.length = (nodes.filter (shape.admits allows)).length := by
  rw [prune]
  cases Value.itemsDepth nodes with
  | zero => rfl
  | succ depth =>
    rw [pruneLevels, result_bind, result_level, result_mapM, List.length_map]

end TreeShape

namespace Service

variable {σ : Type} {service : Service σ} {id : UserId} {s : σ} {user : User} {v : Value}

/-- The page, which holds one widget, is answered with that widget. -/
def Keeps (service : Service σ) (id : UserId) (content : String) (s : σ) : Prop :=
  ∃ text, (service.filterWidgets id content s).outcome = .done text ∧ text ≠ "[]"

/-- A widget with a rule is kept if the rule lets the user through. -/
theorem keeps_iff {content : String} {node rule : Value}
    (huser : (service.resolve id s).outcome = .done (some user))
    (hcontent : Value.parse content = .ok (.array [node]))
    (hrule : node.member? service.options.visibilityKey = some rule) (hnull : rule ≠ .null) :
    service.Keeps id content s ↔ ((service.options.gateOfValue rule).1.admits user).1 = true := by
  rcases hres : service.resolve id s with ⟨outcome, trace, t⟩
  rw [hres] at huser
  obtain rfl : outcome = .done (some user) := huser
  have hadmits : service.options.shape.admits (fun rule => (service.allows (some user) rule).1) node =
      ((service.options.gateOfValue rule).1.admits user).1 := by
    rw [TreeShape.admits, TreeShape.ruleOf_eq_some_iff.2 ⟨hrule, hnull⟩]
    exact admitsValue_fst user rule
  have hlen := service.options.shape.length_result_prune
    (fun rule => (service.allows (some user) rule).1) [node]
  rw [Keeps, filterWidgets_of_resolve service (widgetsOf_eq hcontent) (List.cons_ne_nil _ _) hres]
  simp only [Outcome.done.injEq, exists_eq_left', ne_eq, Value.text_array_eq_nil_iff]
  rw [← List.length_eq_zero_iff, hlen, List.length_eq_zero_iff, ← hadmits]
  simp

/-- **A rule as an object and the same rule as text are read alike**, unless the object is not
portable and its text describes a rule all the same; then the object is refused. Widgets that carry
them are kept alike, unless that rule and the policy for malformed rules decide differently. -/
theorem embeddings_agree_iff {source : String} (hsource : Value.parse source = .ok v)
    (hshape : v.IsContainer) :
    ((Rule.ofValue v).toOption = (Rule.parse v.text).toOption ↔
      (Rule.Portable v ∨ ∀ rule, Rule.parse v.text ≠ .ok rule)) ∧
    ∀ {σ : Type} (service : Service σ) (id : UserId) (s : σ) (user : User) (inline encoded : Value)
      (page page' : String), (service.resolve id s).outcome = .done (some user) →
      Value.parse page = .ok (.array [inline]) → Value.parse page' = .ok (.array [encoded]) →
      inline.member? service.options.visibilityKey = some v →
      encoded.member? service.options.visibilityKey = some (.string v.text) →
      ((service.Keeps id page s ↔ service.Keeps id page' s) ↔
        (Rule.Portable v ∨ ∀ rule, Rule.parse v.text = .ok rule →
          ((rule.decide user).holds = true ↔ service.options.malformedRules = .failOpen))) := by
  have hread := Rule.ofValue_eq_parse_text (Value.fits_of_parse hsource) hshape
  constructor
  · by_cases hportable : Rule.Portable v
    · rw [if_pos hportable] at hread
      simp only [hread, hportable, true_or]
    · rw [if_neg hportable] at hread
      rw [hread]
      cases Rule.parse v.text <;> simp [hportable, Except.toOption]
  · intro σ service id s user inline encoded page page' huser hpage hpage' hinline hencoded
    -- both widgets ask the same gate, of what the one and the other reader found
    have hvalue : service.options.gateOfValue v = service.options.gate (Rule.ofValue v) := by
      cases v with
      | array _ | object _ => rfl
      | null | bool _ | number _ | string _ => exact hshape.elim
    have htext : service.options.gateOfValue (.string v.text) =
        service.options.gate (Rule.parse v.text) := service.options.gateOfText_text hshape
    have hnull : v ≠ .null := by
      rintro rfl
      exact hshape
    rw [keeps_iff huser hpage hinline hnull, keeps_iff huser hpage' hencoded (by simp), hvalue, htext,
      admits_gate, admits_gate]
    by_cases hportable : Rule.Portable v
    · rw [if_pos hportable] at hread
      simp only [hread, hportable, true_or]
    · rw [if_neg hportable] at hread
      rw [hread]
      cases Rule.parse v.text with
      | error fault => simp [Except.toOption]
      | ok rule => simp [Except.toOption, hportable, iff_comm]

/-- A rule with a condition, which holds for whoever is in no department. -/
def conditionedRule : Value :=
  .object [("type", .string "rules"), ("ruleSet", .object [("conditions", .array [.object
    [("field", .string "department"), ("operator", .string "notEquals"), ("value", .string "law")]])])]

theorem embeddings_agree_iff_conditionedRule :
    (Rule.ofValue conditionedRule).toOption = (Rule.parse conditionedRule.text).toOption ∧
      sampleService.Keeps (.ofNumber 7)
        (Value.array [.object [("visibility", conditionedRule)]]).text () ∧
      sampleService.Keeps (.ofNumber 7)
        (Value.array [.object [("visibility", .string conditionedRule.text)]]).text () := by
  have hfits : conditionedRule.Fits Json.Reader.nestingLimit := by
    refine ⟨?_, by decide⟩
    simp [conditionedRule, Value.WellFormed, Value.WellFormedItems, Value.WellFormedMembers,
      Json.numberKey]
  have hinline : (Value.array [.object [("visibility", conditionedRule)]]).Fits
      Json.Reader.nestingLimit := by
    refine ⟨?_, by decide⟩
    simp [Value.WellFormed, Value.WellFormedItems, Value.WellFormedMembers, Json.numberKey, hfits.1]
  have hencoded : (Value.array [.object [("visibility", .string conditionedRule.text)]]).Fits
      Json.Reader.nestingLimit := by
    refine ⟨?_, by decide⟩
    simp [Value.WellFormed, Value.WellFormedItems, Value.WellFormedMembers, Json.numberKey]
  have huser : (sampleService.resolve (.ofNumber 7) ()).outcome =
      .done (some (.ofId (.ofNumber 7))) := rfl
  have hportable : Rule.Portable conditionedRule := by decide
  obtain ⟨hread, hkept⟩ := embeddings_agree_iff (Value.parse_text hfits) trivial
  have halike := (hkept sampleService (.ofNumber 7) () _ _ _ _ _ huser (Value.parse_text hinline)
    (Value.parse_text hencoded) rfl rfl).2 (.inl hportable)
  have hinlined : sampleService.Keeps (.ofNumber 7)
      (Value.array [.object [("visibility", conditionedRule)]]).text () := by
    rw [keeps_iff huser (Value.parse_text hinline) rfl (by simp [conditionedRule])]
    decide +kernel
  exact ⟨hread.2 (.inl hportable), hinlined, halike.1 hinlined⟩

/-- A rule for everyone, with a member that no rule asks for: an integer beyond 64 bits. -/
def outsizedRule : Value :=
  .object [("type", .string "all"), ("note", .number ⟨false, 2 ^ 64, [], none⟩)]

theorem embeddings_of_outsizedRule_differ :
    Value.parse outsizedRule.text = .ok outsizedRule ∧
      (Rule.ofValue outsizedRule).toOption = none ∧
      (Rule.parse outsizedRule.text).toOption = some .all ∧
      ¬ sampleService.Keeps (.ofNumber 7)
        (Value.array [.object [("visibility", outsizedRule)]]).text () ∧
      sampleService.Keeps (.ofNumber 7)
        (Value.array [.object [("visibility", .string outsizedRule.text)]]).text () := by
  have hfits : outsizedRule.Fits Json.Reader.nestingLimit := by
    refine ⟨?_, by decide⟩
    simp [outsizedRule, Value.WellFormed, Value.WellFormedMembers, Json.numberKey]
  have hinline : (Value.array [.object [("visibility", outsizedRule)]]).Fits
      Json.Reader.nestingLimit := by
    refine ⟨?_, by decide⟩
    simp [Value.WellFormed, Value.WellFormedItems, Value.WellFormedMembers, Json.numberKey, hfits.1]
  have hencoded : (Value.array [.object [("visibility", .string outsizedRule.text)]]).Fits
      Json.Reader.nestingLimit := by
    refine ⟨?_, by decide⟩
    simp [Value.WellFormed, Value.WellFormedItems, Value.WellFormedMembers, Json.numberKey]
  have huser : (sampleService.resolve (.ofNumber 7) ()).outcome =
      .done (some (.ofId (.ofNumber 7))) := rfl
  have hshape : outsizedRule.IsContainer := trivial
  have htext : (Rule.parse outsizedRule.text).toOption = some .all :=
    (Rule.parse_text_toOption hfits hshape).trans rfl
  refine ⟨Value.parse_text hfits, rfl, htext, ?_, ?_⟩
  · rw [keeps_iff huser (Value.parse_text hinline) rfl (by simp [outsizedRule])]
    decide
  · rw [keeps_iff huser (Value.parse_text hencoded) rfl (by simp)]
    show ((sampleService.options.gateOfText (some outsizedRule.text)).1.admits _).1 = true
    rw [Options.gateOfText_text _ hshape, admits_gate, htext]
    exact .inl ⟨.all, rfl, rfl⟩

end Service

end ContentVisibility
