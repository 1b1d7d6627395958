import ContentVisibility.Proofs.Rule.Written
import ContentVisibility.Proofs.Service.Page
import ContentVisibility.Proofs.Widget.Successive

/-!
# Pages for one user after another

A page that has been filtered for one user and is then filtered for another is left with what both may
see, whoever comes first.

* `TreeShape.kept_and`: positions that are kept by two tests;
* `Service.seen_seen_eq_cut`: what is left of what one user sees when another looks at it;
* `filterWidgets_successive`: pruning with two tests, and filtering for two users, in either order.
-/

namespace ContentVisibility

open Json (Value)

/-- The widgets at a position and above it pass two tests if they pass the one and pass the other. -/
theorem TreeShape.kept_and {shape : TreeShape} {passes passes' : Value → Prop} {nodes : List Value}
    {i : Nat} {steps : List Step} :
    shape.Kept (fun node => passes node ∧ passes' node) nodes i steps ↔
      shape.Kept passes nodes i steps ∧ shape.Kept passes' nodes i steps := by
  constructor
  · intro h
    refine ⟨fun k hk => ?_, fun k hk => ?_⟩
    · obtain ⟨node, hnode, hpasses, -⟩ := h k hk
      exact ⟨node, hnode, hpasses⟩
    · obtain ⟨node, hnode, -, hpasses'⟩ := h k hk
      exact ⟨node, hnode, hpasses'⟩
  · rintro ⟨h, h'⟩ k hk
    obtain ⟨node, hnode, hpasses⟩ := h k hk
    obtain ⟨node', hnode', hpasses'⟩ := h' k hk
    obtain rfl : node = node' := Option.some.inj (hnode.symm.trans hnode')
    exact ⟨node, hnode, hpasses, hpasses'⟩

namespace Service

variable {σ : Type} {service : Service σ} {id id' : UserId} {user user' : Option User} {s s' : σ}

/-! ## Two users -/

/-- The positions of a page that both users may see. -/
def bothSee (service : Service σ) (id : UserId) (user : Option User) (s : σ) (id' : UserId)
    (user' : Option User) (s' : σ) (nodes : List Value) (i : Nat) (steps : List Step) : Bool :=
  decide (service.options.shape.Kept (service.Shows id user s) nodes i steps) &&
    decide (service.options.shape.Kept (service.Shows id' user' s') nodes i steps)

/-- What one user sees of what another sees is what both may see. -/
theorem seen_seen_eq_cut (hkey : service.options.shape.Separate)
    (huser : (service.resolve id s).outcome = .done user)
    (huser' : (service.resolve id' s').outcome = .done user') {nodes : List Value} {depth : Nat}
    (hfits : (Value.array nodes).Fits depth) :
    service.seen user' (service.seen user nodes) =
      service.options.shape.cut (service.bothSee id user s id' user' s' nodes) nodes := by
  have hseen : ∀ (user : Option User) {nodes : List Value}, (Value.array nodes).Fits depth →
      service.seen user nodes =
        (service.options.shape.prune (fun rule => (service.allows user rule).1) nodes).result :=
    fun user nodes hfits => (TreeShape.prune_result hkey hfits.items).symm
  have hpasses : service.options.shape.admits (fun rule =>
        (service.allows user rule).1 && (service.allows user' rule).1) =
      fun node => decide (service.Shows id user s node ∧ service.Shows id' user' s' node) := by
    funext node
    rw [TreeShape.admits_and, Bool.eq_iff_iff, Bool.and_eq_true, admits_iff_shows huser,
      admits_iff_shows huser', decide_eq_true_iff]
  have hkept : service.bothSee id user s id' user' s' nodes = fun i steps =>
      decide (service.options.shape.Kept
        (fun node => service.Shows id user s node ∧ service.Shows id' user' s' node) nodes i steps) := by
    funext i steps
    rw [bothSee, ← Bool.decide_and, decide_eq_decide]
    exact TreeShape.kept_and.symm
  rw [hseen user' (fits_seen user hfits), hseen user hfits, TreeShape.prune_prune hkey,
    TreeShape.prune_result hkey hfits.items, hpasses, hkept,
    TreeShape.cut_kept fun node hm => (hfits.items node hm).1]

theorem bothSee_comm (nodes : List Value) :
    service.bothSee id user s id' user' s' nodes = service.bothSee id' user' s' id user s nodes := by
  funext i steps
  exact Bool.and_comm _ _

/-- **One user after another.** Pruning a tree of any shape that keeps rules apart from children with one
test and then with another is pruning it with both, in either order. So a page that has been filtered
for one user, and is filtered for another whenever that may be, is left with exactly the positions that
both may see, whoever comes first. -/
theorem filterWidgets_successive {shape : TreeShape}
    (hkey : shape.visibilityKey ∉ shape.childKeys) :
    (∀ (p q : Value → Bool) (nodes : List Value),
      (shape.prune q (shape.prune p nodes).result).result =
          (shape.prune (fun rule => p rule && q rule) nodes).result ∧
        (shape.prune q (shape.prune p nodes).result).result =
          (shape.prune p (shape.prune q nodes).result).result) ∧
    ∀ {σ : Type} (service : Service σ), service.options.shape = shape →
      ∀ (content : String) (nodes : List Value), Value.parse content = .ok (.array nodes) →
      ∀ (id id' : UserId) (user user' : Option User) (s t s' t' : σ),
        (service.resolve id s).outcome = .done user → (service.resolve id t).outcome = .done user →
        (service.resolve id' s').outcome = .done user' → (service.resolve id' t').outcome = .done user' →
        let both := (Value.array (shape.cut (service.bothSee id user s id' user' s' nodes) nodes)).text
        (∃ text, (service.filterWidgets id content s).outcome = .done text ∧
            (service.filterWidgets id' text s').outcome = .done both) ∧
          ∃ text, (service.filterWidgets id' content t').outcome = .done text ∧
            (service.filterWidgets id text t).outcome = .done both := by
  refine ⟨fun p q nodes => ⟨TreeShape.prune_prune hkey p q nodes, ?_⟩, ?_⟩
  · rw [TreeShape.prune_prune hkey, TreeShape.prune_prune hkey]
    simp only [Bool.and_comm]
  · rintro σ service rfl content nodes hcontent id id' user user' s t s' t' hs ht hs' ht'
    have hfits := fits_of_widgetsOf (widgetsOf_eq hcontent)
    have hanswer : ∀ {user : Option User} {id : UserId} {s : σ} {nodes : List Value},
        (Value.array nodes).Fits Json.Reader.nestingLimit →
        (service.resolve id s).outcome = .done user →
        (service.filterWidgets id (Value.array nodes).text s).outcome =
          .done (Value.array (service.seen user nodes)).text :=
      fun hfits huser => filterWidgets_outcome hkey (widgetsOf_eq (Value.parse_text hfits)) huser
    refine ⟨⟨_, filterWidgets_outcome hkey (widgetsOf_eq hcontent) hs, ?_⟩,
      ⟨_, filterWidgets_outcome hkey (widgetsOf_eq hcontent) ht', ?_⟩⟩
    · rw [hanswer (fits_seen user hfits) hs', seen_seen_eq_cut hkey hs hs' hfits]
    · have hboth : service.bothSee id user s id' user' s' nodes =
          service.bothSee id' user' s' id user s nodes := bothSee_comm nodes
      rw [hanswer (fits_seen user' hfits) ht, seen_seen_eq_cut hkey hs' hs hfits, hboth]

/-- A service over a directory in which one user belongs to one group and another to another. -/
def pairService : Service Unit :=
  ⟨.steady (fun id => if id.number = 7 ∨ id.number = 8 then
      some { User.ofId id with groups := Catalog.ofList [.ofNumber id.number] } else none) fun _ => .empty,
    .standard⟩

/-- The rule that admits the members of the groups with the given numbers. -/
def groupsRule (numbers : List Nat) : Value :=
  (Rule.groups (Catalog.ofList (numbers.map Identifier.ofNumber))).json

/-- A page with a widget for each of two users, one of them inside a widget for both. -/
def pairPage : List Value :=
  [.object [("visibility", groupsRule [7])],
    .object [("visibility", groupsRule [7, 8]), ("children", .array [
      .object [("visibility", .string (groupsRule [8]).text)], .object [("id", .string "a")]])]]

theorem fits_pairPage : (Value.array pairPage).Fits Json.Reader.nestingLimit := by
  have hrule : ∀ numbers, (groupsRule numbers).WellFormed := fun numbers => (Rule.fits_json _).1
  refine ⟨?_, by decide⟩
  simp [pairPage, Value.WellFormed, Value.WellFormedItems, Value.WellFormedMembers, Json.numberKey,
    hrule]

theorem filterWidgets_successive_pairPage :
    ∃ text, (pairService.filterWidgets (.ofNumber 7) (Value.array pairPage).text ()).outcome =
        .done text ∧
      (pairService.filterWidgets (.ofNumber 8) text ()).outcome = .done (Value.array [
        .object [("visibility", groupsRule [7, 8]),
          ("children", .array [.object [("id", .string "a")]])]]).text := by
  have hkey : Options.standard.shape.visibilityKey ∉ Options.standard.shape.childKeys := by decide
  obtain ⟨text, hfirst, hboth⟩ := ((filterWidgets_successive hkey).2 pairService rfl _ _
    (Value.parse_text fits_pairPage) (.ofNumber 7) (.ofNumber 8) _ _ () () () () rfl rfl rfl rfl).1
  refine ⟨text, hfirst, hboth.trans (congrArg Outcome.done ?_)⟩
  decide +kernel

end Service

end ContentVisibility
