import ContentVisibility.Proofs.Command.Listing
import ContentVisibility.Proofs.Service.Policy

/-!
# Commands that fail closed

A flag of the command line makes the settings fail closed, whatever they are.

* `Step.Alike`: two steps that fail alike or give results that are related;
* `Place.ShowsNoMore`: how the report of a task may differ from one that shows more;
* `execute_failClosed`: what a command reports with the flag shows no more than what it reports without;
* `failClosed_within_failOpen`: failing closed shows no more than failing open, and the same where no
  rule is malformed.
-/

namespace ContentVisibility

open Json (Value)

variable {α β γ δ : Type}

/-! ## Two steps -/

namespace Command

/-- Two steps fail with the same complaint, or give results that are related. -/
def Step.Alike (R : α → β → Prop) (x : Step Id α) (y : Step Id β) : Prop :=
  (∃ complaint, x.run = .error complaint ∧ y.run = .error complaint) ∨
    ∃ a b, x.run = .ok a ∧ y.run = .ok b ∧ R a b

namespace Step.Alike

variable {R : α → β → Prop} {S : γ → δ → Prop} {x : Step Id α} {y : Step Id β}

theorem bind {f : α → Step Id γ} {g : β → Step Id δ} (h : Alike R x y)
    (hthen : ∀ a b, R a b → Alike S (f a) (g b)) : Alike S (x >>= f) (y >>= g) := by
  rcases h with ⟨complaint, hx, hy⟩ | ⟨a, b, hx, hy, hab⟩
  · exact .inl ⟨complaint, run_bind_error hx, run_bind_error hy⟩
  · have hnext := hthen a b hab
    rw [Alike] at hnext ⊢
    rwa [run_bind_ok hx, run_bind_ok hy]

theorem self {R : α → α → Prop} {x : Step Id α} (h : ∀ a, x.run = .ok a → R a a) : Alike R x x := by
  cases hx : x.run with
  | error complaint => exact .inl ⟨complaint, hx, hx⟩
  | ok a => exact .inr ⟨a, a, hx, hx, h a hx⟩

theorem after (x : Step Id α) {f : α → Step Id γ} {g : α → Step Id δ}
    (hthen : ∀ a, x.run = .ok a → Alike S (f a) (g a)) : Alike S (x >>= f) (x >>= g) := by
  have hself : Alike (fun a b => x.run = .ok a ∧ b = a) x x := self fun a hx => ⟨hx, rfl⟩
  refine hself.bind fun a b hab => ?_
  rw [hab.2]
  exact hthen a hab.1

theorem pure {a : α} {b : β} (h : R a b) : Alike R (pure a) (pure b) := .inr ⟨a, b, rfl, rfl, h⟩

end Step.Alike

end Command

/-! ## Services over a directory -/

/-- Settings fail closed already, or else they fail open. -/
theorem Settings.withPolicy_eq (settings : Settings) :
    settings.withPolicy .failClosed = settings ∨ settings.withPolicy .failOpen = settings := by
  obtain ⟨⟨policy, audit⟩, widgets, logging⟩ := settings
  cases policy
  · exact .inr rfl
  · exact .inl rfl

namespace Directory

variable (directory : Directory) (settings : Settings)

theorem service_withPolicy (policy : Policy) :
    directory.service (settings.withPolicy policy) = (directory.service settings).under policy := rfl

/-- Whoever sees something when failing closed sees it anyway. -/
theorem sees_of_withPolicy {rule : Option String} {id : UserId}
    (h : directory.sees (settings.withPolicy .failClosed) rule id = true) :
    directory.sees settings rule id = true := by
  rcases settings.withPolicy_eq with hsame | hopen
  · rwa [hsame] at h
  · have hclosed := directory.isVisible_service (settings.withPolicy .failClosed) rule id
    have hopened := directory.isVisible_service (settings.withPolicy .failOpen) rule id
    rw [service_withPolicy] at hclosed hopened
    rw [hopen] at hopened
    exact (Service.isVisible_under hclosed hopened).1 h

theorem filterWidgets_service (id : UserId) {content : String} {nodes : List Value}
    (hcontent : Service.widgetsOf content = .ok nodes) :
    ∃ text, ((directory.service settings).filterWidgets id content ()).outcome = .done text := by
  by_cases hne : nodes = []
  · subst hne
    exact ⟨"[]", by rw [Service.filterWidgets_nil _ hcontent]⟩
  · have huser := directory.resolve_service settings id
    rcases hresolve : (directory.service settings).resolve id () with ⟨outcome, trace, t⟩
    rw [hresolve] at huser
    obtain rfl : outcome = .done _ := huser
    exact ⟨_, by rw [Service.filterWidgets_of_resolve _ hcontent hne hresolve]⟩

/-- Content that is no page is refused under all settings alike; of a page, settings that fail closed
leave no more positions than others. -/
theorem filterWidgets_withPolicy (id : UserId) (content : String) :
    let closed := directory.service (settings.withPolicy .failClosed)
    let given := directory.service settings
    closed = given ∨
      (∃ failure, (closed.filterWidgets id content ()).outcome = .failed failure ∧
        (given.filterWidgets id content ()).outcome = .failed failure) ∨
      ∃ nodes keep keep', Value.parse content = .ok (.array nodes) ∧
        (∀ i steps, keep i steps = true → keep' i steps = true) ∧
        (closed.filterWidgets id content ()).outcome =
          .done (Value.array (given.options.shape.cut keep nodes)).text ∧
        (given.filterWidgets id content ()).outcome =
          .done (Value.array (given.options.shape.cut keep' nodes)).text := by
  intro closed given
  rcases settings.withPolicy_eq with hsame | hopen
  · exact .inl (congrArg directory.service hsame)
  · refine .inr ?_
    cases hcontent : Service.widgetsOf content with
    | error fault =>
      refine .inl ⟨.invalidContent fault, ?_, ?_⟩ <;> rw [Service.filterWidgets, hcontent] <;> rfl
    | ok nodes =>
      have hgiven : given.under .failOpen = given := by rw [← service_withPolicy, hopen]
      obtain ⟨text, hfewer⟩ : ∃ text,
          ((given.under .failClosed).filterWidgets id content ()).outcome = .done text :=
        directory.filterWidgets_service (settings.withPolicy .failClosed) id hcontent
      obtain ⟨text', hmore⟩ : ∃ text,
          ((given.under .failOpen).filterWidgets id content ()).outcome = .done text := by
        rw [hgiven]
        exact directory.filterWidgets_service settings id hcontent
      obtain ⟨nodes, user, hparse, -, rfl, rfl, hle, -⟩ := Service.filterWidgets_under hfewer hmore
      rw [hgiven] at hle hmore
      exact .inr ⟨nodes, _, _, hparse, hle, hfewer, hmore⟩

end Directory

/-! ## Two commands -/

namespace Command.Place

variable {place : Place Id}

/-- How the report of a task may differ from one that shows more: the user is not let through, fewer
users are listed, or fewer positions of the page are left. -/
inductive ShowsNoMore (place : Place Id) (shape : TreeShape) : Task → Report → Report → Prop
  | same (task : Task) (report : Report) : ShowsNoMore place shape task report report
  | check (directory user : String) (rule : Option String) :
    ShowsNoMore place shape (.check directory user rule) ⟨lines ["hidden"], none⟩
      ⟨lines ["visible"], none⟩
  | audience (directory : String) (rule : Option String) (candidates : List String)
    {ids ids' : List UserId} (h : ids.Sublist ids') :
    ShowsNoMore place shape (.audience directory rule candidates)
      ⟨lines (ids.map Identifier.text), none⟩ ⟨lines (ids'.map Identifier.text), none⟩
  | filterWidgets (directory user content : String) {text : String} {nodes : List Value}
    {keep keep' : Nat → List ContentVisibility.Step → Bool} (hread : place.files.read content = .ok text)
    (hparse : Value.parse text = .ok (.array nodes))
    (hle : ∀ i steps, keep i steps = true → keep' i steps = true) :
    ShowsNoMore place shape (.filterWidgets directory user content)
      ⟨lines [(Value.array (shape.cut keep nodes)).text], none⟩
      ⟨lines [(Value.array (shape.cut keep' nodes)).text], none⟩

theorem alike_answer {R : α → β → Prop} {request : Run Unit α} {request' : Run Unit β} {a : α} {b : β}
    (h : (request ()).outcome = .done a) (h' : (request' ()).outcome = .done b) (hR : R a b) :
    Step.Alike R (answer request) (answer request') :=
  .inr ⟨a, b, answer_eq_ok h, answer_eq_ok h', hR⟩

theorem alike_listed (settings : Settings) (path : String) (rule : Option String) (args : List String)
    (directory : Directory) (text : Option String) (ids : List UserId) :
    Step.Alike (ShowsNoMore place (Options.ofSettings settings).shape (.audience path rule args))
      (answer ((directory.service (settings.withPolicy .failClosed)).audienceMembers text ids) >>=
        fun members => pure ⟨lines (members.map Identifier.text), none⟩)
      (answer ((directory.service settings).audienceMembers text ids) >>=
        fun members => pure ⟨lines (members.map Identifier.text), none⟩) := by
  have hanswers : Step.Alike List.Sublist
      (answer ((directory.service (settings.withPolicy .failClosed)).audienceMembers text ids))
      (answer ((directory.service settings).audienceMembers text ids)) :=
    alike_answer (directory.audienceMembers_service _ text ids)
      (directory.audienceMembers_service _ text ids)
      (List.monotone_filter_right ids fun id => directory.sees_of_withPolicy settings)
  exact hanswers.bind fun fewer more hle => .pure (.audience path rule args hle)

/-- A task that is performed under settings that fail closed fails as it does otherwise, or shows no
more. -/
theorem perform_withPolicy (place : Place Id) (settings : Settings) (task : Task) :
    Step.Alike (ShowsNoMore place (Options.ofSettings settings).shape task)
      (place.perform (settings.withPolicy .failClosed) task) (place.perform settings task) := by
  cases task with
  | validate rule => exact .self fun report _ => .same _ report
  | check path arg rule =>
    rw [perform, perform]
    refine .after _ fun id _ => .after _ fun text _ => .after _ fun directory _ => ?_
    have hanswers : Step.Alike (fun fewer more : Bool => fewer = true → more = true)
        (answer ((directory.service (settings.withPolicy .failClosed)).isVisible id text))
        (answer ((directory.service settings).isVisible id text)) :=
      alike_answer (directory.isVisible_service _ text id) (directory.isVisible_service _ text id)
        (directory.sees_of_withPolicy settings)
    refine hanswers.bind fun fewer more hle => .pure ?_
    -- hidden with the flag and visible without it is the only difference that there can be
    cases fewer <;> cases more
    · exact .same _ _
    · exact .check path arg rule
    · cases hle rfl
    · exact .same _ _
  | filterWidgets path arg content =>
    rw [perform, perform]
    refine .after _ fun id _ => .after _ fun text htext => .after _ fun directory _ => ?_
    have hread := textAt_eq_ok_iff.1 htext
    rcases directory.filterWidgets_withPolicy settings id text with
      hsame | ⟨failure, hclosed, hopened⟩ | ⟨nodes, keep, keep', hparse, hle, hclosed, hopened⟩
    · rw [hsame]
      exact .self fun report _ => .same _ report
    · exact .inl ⟨_, run_bind_error (answer_eq_error hclosed), run_bind_error (answer_eq_error hopened)⟩
    · refine .inr ⟨_, _, run_bind_ok (answer_eq_ok hclosed), run_bind_ok (answer_eq_ok hopened), ?_⟩
      exact .filterWidgets path arg content hread hparse hle
  | audience path rule args =>
    rw [perform, perform]
    refine .after _ fun text _ => .after _ fun directory _ => ?_
    cases args with
    -- without candidates all users of the directory are listed
    | nil => exact alike_listed settings path rule [] directory text directory.userIds
    | cons arg args =>
      exact .after _ fun ids _ => alike_listed settings path rule (arg :: args) directory text ids

/-- What a command reports that is to fail closed shows no more than what it reports otherwise. -/
theorem execute_failClosed (place : Place Id) (config : Option String) (task : Task) :
    (∀ complaint, (place.settings ⟨config, false, task⟩).run = .error complaint →
      place.execute ⟨config, true, task⟩ = place.execute ⟨config, false, task⟩) ∧
    ∀ settings, (place.settings ⟨config, false, task⟩).run = .ok settings →
      ShowsNoMore place (Options.ofSettings settings).shape task
        (place.execute ⟨config, true, task⟩) (place.execute ⟨config, false, task⟩) := by
  have hflag := place.settings_failClosed config task
  constructor
  · intro complaint hplain
    rw [hplain] at hflag
    rw [execute_eq_match, execute_eq_match, run_bind_error hflag, run_bind_error hplain]
  · intro settings hplain
    rw [hplain] at hflag
    rw [execute_eq_match, execute_eq_match, run_bind_ok hflag, run_bind_ok hplain]
    rcases place.perform_withPolicy settings task with ⟨complaint, hfewer, hmore⟩ |
      ⟨fewer, more, hfewer, hmore, hle⟩
    · rw [hfewer, hmore]
      exact .same _ _
    · rw [hfewer, hmore]
      exact hle

end Command.Place

/-! ## The two policies -/

namespace Service

open Command (Place Invocation Task Report)
open Command.Place

variable {σ : Type}

/-- **Failing closed shows no more than failing open, and the same where no rule is malformed.** Of two
requests that are answered, under the one and under the other policy, the first one is never let
through more; what it is left with of a collection, of candidates or of a page is part of what the
second one is left with. A page is the same for both if no rule in it is malformed, unless the key of
the rules is a child key and some child key is listed twice: then a widget may be tested again after
its rule has lost something, and the rest of the rule may be malformed. The flag of the command line
changes nothing but the policy of whatever settings there are; so the report of a task with the flag
shows no more than its report without. -/
theorem failClosed_within_failOpen (service : Service σ) (s : σ) :
    let closed := service.under .failClosed
    let opened := service.under .failOpen
    (∀ id rule visible visible',
      (closed.isVisible id rule s).outcome = .done visible →
      (opened.isVisible id rule s).outcome = .done visible' →
      (visible = true → visible' = true) ∧ (¬ Rule.Malformed rule → visible = visible')) ∧
    (∀ (α : Type) id (items xs ys : List α) ruleOf,
      (closed.filterVisible id items ruleOf s).outcome = .done xs →
      (opened.filterVisible id items ruleOf s).outcome = .done ys →
      xs.Sublist ys ∧ ((∀ item ∈ items, ¬ Rule.Malformed (ruleOf item)) → xs = ys)) ∧
    (∀ rule candidates xs ys,
      (closed.audienceMembers rule candidates s).outcome = .done xs →
      (opened.audienceMembers rule candidates s).outcome = .done ys →
      xs.Sublist ys ∧ (¬ Rule.Malformed rule → xs = ys)) ∧
    (∀ id content text text',
      (closed.filterWidgets id content s).outcome = .done text →
      (opened.filterWidgets id content s).outcome = .done text' →
      ∃ nodes user, Value.parse content = .ok (.array nodes) ∧
        (nodes ≠ [] → (service.resolve id s).outcome = .done user) ∧
        text = (Value.array (service.options.shape.cut (closed.left user nodes) nodes)).text ∧
        text' = (Value.array (service.options.shape.cut (opened.left user nodes) nodes)).text ∧
        (∀ i steps, closed.left user nodes i steps = true → opened.left user nodes i steps = true) ∧
        (service.options.visibilityKey ∉ service.options.childKeys ∨ service.options.childKeys.Nodup →
          service.options.shape.Everywhere (fun node =>
            ∀ rule ∈ service.options.shape.ruleOf node, ¬ Rule.MalformedInPage rule) nodes →
          text = text')) ∧
    ∀ (place : Place Id) (config : Option String) (task : Task),
      let flagged : Invocation := ⟨config, true, task⟩
      let plain : Invocation := ⟨config, false, task⟩
      (place.settings flagged).run =
        Except.map (fun settings => settings.withPolicy .failClosed) (place.settings plain).run ∧
      (∀ complaint, (place.settings plain).run = .error complaint →
        place.execute flagged = place.execute plain) ∧
      ∀ settings, (place.settings plain).run = .ok settings →
        ShowsNoMore place (Options.ofSettings settings).shape task
          (place.execute flagged) (place.execute plain) :=
  ⟨fun _ _ _ _ h h' => isVisible_under h h', fun _ _ _ _ _ _ h h' => filterVisible_under h h',
    fun _ _ _ _ h h' => audienceMembers_under h h', fun _ _ _ _ h h' => filterWidgets_under h h',
    fun place config task =>
      ⟨place.settings_failClosed config task, place.execute_failClosed config task⟩⟩

/-- A rule that can be read, as text. -/
def sampleRuleText : String := (Value.object [("type", .string "all")]).text

theorem not_malformed_sampleRuleText : ¬ Rule.Malformed (some sampleRuleText) := by
  rintro ⟨_, ⟨⟩, -, -, fault, hfault⟩
  have hok : (Rule.parse (Text.trim sampleRuleText)).toOption.isSome = true := by decide +kernel
  rw [hfault] at hok
  cases hok

theorem fits_firstWidget : (Value.array (samplePage.take 1)).Fits Json.Reader.nestingLimit := by
  refine ⟨?_, by decide⟩
  simp [samplePage, Value.WellFormed, Value.WellFormedItems, Value.WellFormedMembers, Json.numberKey]

theorem exists_filterWidgets_sample (policy : Policy) :
    ∃ text, ((sampleService.under policy).filterWidgets (.ofNumber 7)
      (Value.array (samplePage.take 1)).text ()).outcome = .done text := by
  have hkey : sampleService.options.shape.Separate := by decide
  have hkey : (sampleService.under policy).options.shape.Separate := hkey
  have huser : ((sampleService.under policy).resolve (.ofNumber 7) ()).outcome =
      .done (some (.ofId (.ofNumber 7))) := rfl
  exact ⟨_, filterWidgets_outcome hkey (widgetsOf_eq (Value.parse_text fits_firstWidget)) huser⟩

theorem check_samplePlace :
    let id : UserId := .ofNumber 7
    let task : Task := .check "users.json" id.text (some "?")
    samplePlace.execute ⟨none, true, task⟩ = ⟨lines ["hidden"], none⟩ ∧
      samplePlace.execute ⟨none, false, task⟩ = ⟨lines ["visible"], none⟩ := by
  intro id task
  obtain ⟨-, hopen, hclosed⟩ := sees_sampleUsers
  constructor
  · rw [check_eq (settings_samplePlace true task) directoryAt_sampleUsers rfl (Identifier.parse_text _),
      if_pos rfl, hclosed]
    rfl
  · rw [check_eq (settings_samplePlace false task) directoryAt_sampleUsers rfl (Identifier.parse_text _),
      if_neg Bool.false_ne_true, hopen]
    rfl

/-- Requests under both policies, and a command with and without the flag: a rule that cannot be read
hides from the user what it guards. -/
theorem failClosed_within_failOpen_samplePage :
    let closed := sampleService.under .failClosed
    let opened := sampleService.under .failOpen
    let id : UserId := .ofNumber 7
    (∃ visible visible', (closed.isVisible id (some sampleRuleText) ()).outcome = .done visible ∧
      (opened.isVisible id (some sampleRuleText) ()).outcome = .done visible' ∧ visible = visible') ∧
    (∃ xs ys, (closed.filterVisible id ["?", sampleRuleText] some ()).outcome = .done xs ∧
      (opened.filterVisible id ["?", sampleRuleText] some ()).outcome = .done ys ∧ xs.Sublist ys) ∧
    (∃ xs ys, (closed.audienceMembers (some "?") [id] ()).outcome = .done xs ∧
      (opened.audienceMembers (some "?") [id] ()).outcome = .done ys ∧ xs.Sublist ys) ∧
    (∃ text, (closed.filterWidgets id (Value.array (samplePage.take 1)).text ()).outcome = .done text ∧
      (opened.filterWidgets id (Value.array (samplePage.take 1)).text ()).outcome = .done text) ∧
    let task : Task := .check "users.json" id.text (some "?")
    let hidden : Report := ⟨lines ["hidden"], none⟩
    let visible : Report := ⟨lines ["visible"], none⟩
    samplePlace.execute ⟨none, true, task⟩ = hidden ∧
      samplePlace.execute ⟨none, false, task⟩ = visible ∧
      ShowsNoMore samplePlace (Options.ofSettings .standard).shape task hidden visible := by
  intro closed opened id
  obtain ⟨hvisible, hitems, hmembers, hpages, hcommands⟩ := failClosed_within_failOpen sampleService ()
  refine ⟨⟨_, _, rfl, rfl, ?_⟩, ⟨_, _, rfl, rfl, ?_⟩, ⟨_, _, rfl, rfl, ?_⟩, ?_, ?_⟩
  · exact (hvisible id (some sampleRuleText) _ _ rfl rfl).2 not_malformed_sampleRuleText
  · exact (hitems String id ["?", sampleRuleText] _ _ some rfl rfl).1
  · exact (hmembers (some "?") [id] _ _ rfl rfl).1
  · have hrule : ¬ Rule.MalformedInPage (.object [("type", .string "groups")]) :=
      Rule.not_malformedInPage trivial (by decide +kernel)
    obtain ⟨text, htext⟩ := exists_filterWidgets_sample .failClosed
    obtain ⟨text', htext'⟩ := exists_filterWidgets_sample .failOpen
    obtain ⟨nodes, user, hnodes, -, -, -, -, heq⟩ := hpages id _ text text' htext htext'
    cases (Value.parse_text fits_firstWidget).symm.trans hnodes
    refine ⟨text, htext, ?_⟩
    rw [heq (.inl (by decide)) ?_]
    · exact htext'
    · simp [samplePage, sampleService, Options.shape, TreeShape.everywhere_cons,
        TreeShape.everywhere_nil, TreeShape.childrenAt, TreeShape.ruleOf, Value.member?,
        Json.Members.get?, hrule]
  · intro task hidden visible
    obtain ⟨hclosed, hopened⟩ := check_samplePlace
    have hless := (hcommands _ none task).2.2 _ (settings_samplePlace false task)
    rw [hclosed, hopened] at hless
    exact ⟨hclosed, hopened, hless⟩

/-- A service whose pages are tested again after their rules have changed. -/
def revisitingService : Service Unit :=
  ⟨sampleService.host, ⟨.failOpen, true, "visibility", ["children", "visibility", "children"]⟩⟩

/-- A page with a widget whose rule holds a widget. -/
def revisitedPage : List Value :=
  [.object [("children", .array [.object [("visibility", .array [.string "rules",
    .object [("visibility", .object [("type", .string "groups")])]])]])]]

theorem fits_revisitedPage : (Value.array revisitedPage).Fits Json.Reader.nestingLimit := by
  refine ⟨?_, by decide⟩
  simp [revisitedPage, Value.WellFormed, Value.WellFormedItems, Value.WellFormedMembers,
    Json.numberKey]

theorem revisitedPage_differs :
    revisitingService.options.shape.Everywhere (fun node =>
      ∀ rule ∈ revisitingService.options.shape.ruleOf node, ¬ Rule.MalformedInPage rule)
      revisitedPage ∧
    ((revisitingService.under .failClosed).filterWidgets (.ofNumber 7)
      (Value.array revisitedPage).text ()).outcome =
        .done (Value.array [.object [("children", .array [])]]).text ∧
    ((revisitingService.under .failOpen).filterWidgets (.ofNumber 7)
      (Value.array revisitedPage).text ()).outcome =
        .done (Value.array [.object [("children", .array [.object [("visibility",
          .array [.string "rules"])]])]]).text ∧
    (Value.array [.object [("children", .array [])]]).text ≠
      (Value.array [.object [("children", .array [.object [("visibility",
        .array [.string "rules"])]])]]).text := by
  have hcontent := widgetsOf_eq (Value.parse_text fits_revisitedPage)
  have hpruned : ∀ policy, ((revisitingService.under policy).filterWidgets (.ofNumber 7)
      (Value.array revisitedPage).text ()).outcome = .done (Value.array
        (revisitingService.options.shape.prune (fun rule => ((revisitingService.under policy).allows
          (some (.ofId (.ofNumber 7))) rule).1) revisitedPage).result).text := by
    intro policy
    rw [filterWidgets_of_resolve _ hcontent (List.cons_ne_nil _ _) rfl]
    rfl
  refine ⟨?_, ?_, ?_, by decide +kernel⟩
  · have hrule : ¬ Rule.MalformedInPage (.array [.string "rules",
        .object [("visibility", .object [("type", .string "groups")])]]) :=
      Rule.not_malformedInPage trivial (by decide +kernel)
    have hinner : ¬ Rule.MalformedInPage (.object [("type", .string "groups")]) :=
      Rule.not_malformedInPage trivial (by decide +kernel)
    simp [revisitedPage, revisitingService, Options.shape, TreeShape.everywhere_cons,
      TreeShape.everywhere_nil, TreeShape.childrenAt, TreeShape.ruleOf, Value.member?,
      Json.Members.get?, hrule, hinner]
  · rw [hpruned]
    exact congrArg Outcome.done (by decide +kernel)
  · rw [hpruned]
    exact congrArg Outcome.done (by decide +kernel)

end Service

end ContentVisibility
