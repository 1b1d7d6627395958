import ContentVisibility.Proofs.Rule.Listed
import ContentVisibility.Proofs.Service.Embedding

/-!
# Listed groups and the users they admit

* `Service.admitsText_listValue`, `Service.admitsText_anyOf`: the users whom a list of texts admits, and
  the users whom a condition for each of the texts admits;
* `Service.listed_alike_iff`: when both decide alike.
-/

namespace ContentVisibility

open Json (Value Held Decoder)

/-- The text of a rule is the gate of that rule, and there is nothing to say about it. -/
theorem Options.gateOfText_rule (options : Options) (rule : Rule) :
    options.gateOfText (some rule.text) = (.ruled rule, []) := by
  have hshape : rule.json.IsContainer := trivial
  have hread := rule.parse_text_toOption_self
  rw [Rule.text] at hread ⊢
  rw [options.gateOfText_text hshape]
  cases hparse : Rule.parse rule.json.text with
  | error fault => simp [hparse, Except.toOption] at hread
  | ok found =>
    obtain rfl : found = rule := by simpa [hparse, Except.toOption] using hread
    rfl

namespace Service

variable {σ : Type} (service : Service σ) (user : User) {texts : List String}

theorem admitsText_fst (rule : Option String) :
    (service.admitsText user rule).1 = ((service.options.gateOfText rule).1.admits user).1 := rfl

theorem admitsText_text {v : Value} (h : v.IsContainer) :
    (service.admitsText user (some v.text)).1 = true ↔
      (∃ rule ∈ (Rule.parse v.text).toOption, (rule.decide user).holds = true) ∨
        ((Rule.parse v.text).toOption = none ∧ service.options.malformedRules = .failOpen) := by
  rw [admitsText_fst, service.options.gateOfText_text h, admits_gate]

theorem admitsText_anyOf :
    (service.admitsText user (some (Rule.anyOf texts).text)).1 = true ↔ user.BelongsTo texts := by
  rw [admitsText_fst, Options.gateOfText_rule, ← Rule.decide_anyOf_iff]
  rfl

/-- A list of texts that all name groups admits the same users if none has blank characters around it.
Otherwise the policy for malformed rules decides. -/
theorem admitsText_listValue
    (h : ∀ s ∈ texts, ∃ group : GroupId, Identifier.parse s = .ok group) :
    (service.admitsText user (some (Rule.listValue texts).text)).1 = true ↔
      if ∀ s ∈ texts, Text.trim s = s then user.BelongsTo texts
      else service.options.malformedRules = .failOpen := by
  have hshape : (Rule.listValue texts).IsContainer := trivial
  rw [service.admitsText_text user hshape, Rule.parse_listValue, mapM_spelled? h]
  split
  · simp [User.belongsTo_iff, Rule.decide_ofList_iff]
  · simp

/-- **The two readers of groups differ by blank characters.** Inside a rule a text is read as a group as
it stands, in a condition without the blank characters around it. So a list of groups and a condition
for each of them, of which one must hold, are decided alike if no text has such characters. If some text
has, they are only where the policy for malformed rules happens to decide as the conditions. -/
theorem listed_alike_iff (id : UserId) (state : σ) (texts : List String) :
    (∀ (s : String) (group : GroupId),
      ((Decoder.id : Decoder GroupId).held (Held.builder.ofValue (.string s))).toOption = some group ↔
        Identifier.parse s = .ok group ∧ Text.trim s = s) ∧
    ((∀ s ∈ texts, ∃ group : GroupId, Identifier.parse s = .ok group) →
      ((service.isVisible id (some (Rule.listValue texts).text) state).outcome =
          (service.isVisible id (some (Rule.anyOf texts).text) state).outcome ↔
        (∀ s ∈ texts, Text.trim s = s) ∨
          ∀ user, (service.resolve id state).outcome = .done (some user) →
            (user.BelongsTo texts ↔ service.options.malformedRules = .failOpen))) := by
  constructor
  · intro s group
    rw [Decoder.held_id_string, Identifier.spelled?_eq_some_iff]
  · intro hnames
    rw [isVisible_outcome, isVisible_outcome]
    cases hresolved : (service.resolve id state).outcome with
    | failed failure => simp [Outcome.map]
    | waiting => simp [Outcome.map]
    | done known =>
      cases known with
      | none => simp [Outcome.map]
      | some user =>
        have hlist := service.admitsText_listValue user hnames
        simp only [Outcome.map, Option.any_some, Outcome.done.injEq, Option.some.injEq, forall_eq']
        rw [Bool.eq_iff_iff, admitsText_anyOf, hlist]
        by_cases htrim : ∀ s ∈ texts, Text.trim s = s
        · rw [if_pos htrim]
          exact iff_of_true Iff.rfl (.inl htrim)
        · rw [if_neg htrim, or_iff_right htrim]
          exact iff_comm

/-- A service over a directory in which each user belongs to the group with the same number. -/
def ownGroups : Service Unit :=
  ⟨.steady (fun id => some { User.ofId id with groups := Catalog.ofList [.ofNumber id.number] })
    fun _ => .empty, .standard⟩

theorem exists_of_mem_singleton {s : String} {group : GroupId} (h : Identifier.parse s = .ok group) :
    ∀ t ∈ [s], ∃ group : GroupId, Identifier.parse t = .ok group := by
  intro t ht
  rw [List.mem_singleton.1 ht]
  exact ⟨group, h⟩

/-- A group between braces, with a capital letter. -/
def bracedGroup : String := "{00000000-0000-0000-0000-00000000000A}"

theorem listed_alike_iff_bracedGroup :
    (ownGroups.isVisible (.ofNumber 10) (some (Rule.listValue [bracedGroup]).text) ()).outcome =
        .done true ∧
      (ownGroups.isVisible (.ofNumber 10) (some (Rule.anyOf [bracedGroup]).text) ()).outcome =
        .done true := by
  have hread : (Identifier.parse bracedGroup : Except _ GroupId) = .ok (.ofNumber 10) :=
    Identifier.parse_eq_ok_iff.2 (by decide)
  have halike := ((ownGroups.listed_alike_iff (.ofNumber 10) () [bracedGroup]).2
    (exists_of_mem_singleton hread)).2 (.inl (by decide))
  have hany : ∀ user : User, user.isMemberOf (.ofNumber 10) = true →
      (ownGroups.admitsText user (some (Rule.anyOf [bracedGroup]).text)).1 = true := by
    intro user hmember
    apply (ownGroups.admitsText_anyOf user).2
    exact ⟨bracedGroup, List.mem_singleton_self _, _, hread, hmember⟩
  have hvisible : (ownGroups.isVisible (.ofNumber 10)
      (some (Rule.anyOf [bracedGroup]).text) ()).outcome = .done true := by
    obtain ⟨user, huser, hmember⟩ : ∃ user, (ownGroups.resolve (.ofNumber 10) ()).outcome =
        .done (some user) ∧ user.isMemberOf (.ofNumber 10) = true := ⟨_, rfl, by decide⟩
    rw [isVisible_outcome, huser, Outcome.map, Option.any_some, hany user hmember]
  exact ⟨halike.trans hvisible, hvisible⟩

/-- A group with a blank character before it. -/
def paddedGroup : String := " 00000000-0000-0000-0000-000000000007"

theorem listed_paddedGroup_differ :
    (Identifier.parse paddedGroup : Except _ GroupId) = .ok (.ofNumber 7) ∧
      ((Decoder.id : Decoder GroupId).held (Held.builder.ofValue (.string paddedGroup))).toOption = none ∧
      (ownGroups.isVisible (.ofNumber 8) (some (Rule.listValue [paddedGroup]).text) ()).outcome =
        .done true ∧
      (ownGroups.isVisible (.ofNumber 8) (some (Rule.anyOf [paddedGroup]).text) ()).outcome =
        .done false := by
  have hread : (Identifier.parse paddedGroup : Except _ GroupId) = .ok (.ofNumber 7) :=
    Identifier.parse_eq_ok_iff.2 (by decide)
  have hpadded : ¬ ∀ s ∈ [paddedGroup], Text.trim s = s := by decide
  have hlist : ∀ user, (ownGroups.admitsText user
      (some (Rule.listValue [paddedGroup]).text)).1 = true := by
    intro user
    rw [ownGroups.admitsText_listValue user (exists_of_mem_singleton hread), if_neg hpadded]
    rfl
  have hany : ∀ user : User, user.isMemberOf (.ofNumber 7) = false →
      (ownGroups.admitsText user (some (Rule.anyOf [paddedGroup]).text)).1 = false := by
    intro user hstranger
    rw [Bool.eq_false_iff, ne_eq, admitsText_anyOf]
    rintro ⟨s, hs, group, hgroup, hmember⟩
    rw [List.mem_singleton.1 hs, hread] at hgroup
    rw [← Except.ok.inj hgroup, hstranger] at hmember
    cases hmember
  obtain ⟨user, huser, hstranger⟩ : ∃ user, (ownGroups.resolve (.ofNumber 8) ()).outcome =
      .done (some user) ∧ user.isMemberOf (.ofNumber 7) = false := ⟨_, rfl, by decide⟩
  refine ⟨hread, by decide, ?_, ?_⟩
  · rw [isVisible_outcome, huser, Outcome.map, Option.any_some, hlist user]
  · rw [isVisible_outcome, huser, Outcome.map, Option.any_some, hany user hstranger]

end Service

end ContentVisibility
