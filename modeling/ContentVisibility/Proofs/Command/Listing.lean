import ContentVisibility.Proofs.Command.Steps
import ContentVisibility.Proofs.Identifier.Written
import ContentVisibility.Proofs.Service.Audience
import ContentVisibility.Proofs.Service.Listed
import ContentVisibility.Proofs.User.Loaded

/-!
# Lists of an audience

One command lists the users whom a rule admits, another one decides the rule for a single user.

* `Directory.sees`: who sees what a rule guards, and `isVisible_service`: that this is what is decided;
* `Directory.audience`: the users of a directory who see it;
* `audienceMembers_eq_filter`: an audience, where every decision is answered;
* `check_eq`, `audience_eq`: what the two commands print;
* `audience_agrees_with_check`: the users that are listed are those for whom the other command says
  that they see what the rule guards.
-/

namespace ContentVisibility

/-! ## Services over a directory -/

namespace Directory

variable (directory : Directory) (settings : Settings)

/-- A service over a directory knows the active users of the directory. -/
theorem resolve_service (id : UserId) : ((directory.service settings).resolve id ()).outcome =
    .done ((directory.user? id).bind fun user =>
      if user.active then some (user.joiningAll (directory.groupsOf id)) else none) := by
  have hlookup : (directory.service settings).resolve id () =
      (directory.service settings).lookup id () := rfl
  have hfound : ((directory.service settings).ask id (.snapshot id)
      ((directory.service settings).host.snapshot id)) () =
        ⟨.done (directory.user? id), [.call (.snapshot id)], ()⟩ := rfl
  rw [hlookup, Service.lookup, Run.bind_done hfound]
  cases directory.user? id with
  | none => rfl
  | some user => cases hactive : user.active <;> simp only [hactive, Option.bind_some] <;> rfl

/-- Whether a user sees what a rule guards, given as text: one of the directory who is active and whom
the rule admits. -/
def sees (rule : Option String) (id : UserId) : Bool :=
  (directory.user? id).any fun user => user.active &&
    ((directory.service settings).admitsText (user.joiningAll (directory.groupsOf id)) rule).1

theorem sees_eq_any_admits (rule : Option String) (id : UserId) :
    directory.sees settings rule id = (directory.user? id).any fun user => user.active &&
      (((Options.ofSettings settings).gateOfText rule).1.admits
        (user.joiningAll (directory.groupsOf id))).1 :=
  rfl

/-- A service over a directory answers every decision. -/
theorem isVisible_service (rule : Option String) (id : UserId) :
    ((directory.service settings).isVisible id rule ()).outcome =
      .done (directory.sees settings rule id) := by
  rw [Service.isVisible_outcome, resolve_service, Outcome.map, sees]
  congr 1
  cases directory.user? id with
  | none => rfl
  | some user => cases hactive : user.active <;> simp [hactive]

variable {directory settings} {rule : Option String} {id : UserId}

theorem exists_of_sees (h : directory.sees settings rule id = true) :
    ∃ user ∈ directory.user? id, user.active = true := by
  obtain ⟨user, huser, hsees⟩ := (Option.any_eq_true _ _).1 h
  exact ⟨user, huser, (Bool.and_eq_true_iff.1 hsees).1⟩

/-- Where everyone is let through, they all do. -/
theorem sees_of_everyone
    (hgate : ((Options.ofSettings settings).gateOfText rule).1 = .everyone) {user : User}
    (h : user ∈ directory.user? id) (hactive : user.active = true) :
    directory.sees settings rule id = true := by
  have hadmits : ∀ user, ((directory.service settings).admitsText user rule).1 = true := by
    intro user
    show (((Options.ofSettings settings).gateOfText rule).1.admits user).1 = true
    rw [hgate]
    rfl
  rw [sees, show directory.user? id = some user from h, Option.any_some, hactive, hadmits, Bool.and_self]

variable (directory settings rule) in
/-- The users of a directory who see what a rule guards. -/
def audience : List UserId := directory.userIds.filter (directory.sees settings rule)

theorem mem_audience_iff :
    id ∈ directory.audience settings rule ↔ directory.sees settings rule id = true := by
  rw [audience, List.mem_filter, and_iff_right_iff_imp]
  intro hsees
  obtain ⟨user, huser, -⟩ := exists_of_sees hsees
  rw [mem_userIds_iff, show directory.user? id = some user from huser, Option.isSome_some]

theorem pairwise_audience (directory : Directory) (settings : Settings) (rule : Option String) :
    (directory.audience settings rule).Pairwise fun id id' => id.number < id'.number :=
  (pairwise_userIds directory).filter _

/-- The audience in the directory of a list are those of the list who see what the rule guards. -/
theorem mem_audience_ofList {users : List User} :
    id ∈ audience (Catalog.ofList users) settings rule ↔
      (∃ user ∈ users, user.id = id) ∧ sees (Catalog.ofList users) settings rule id = true := by
  rw [audience, List.mem_filter, mem_userIds_ofList]

theorem exists_active_of_mem_audience {users : List User}
    (h : id ∈ audience (Catalog.ofList users) settings rule) :
    ∃ user ∈ lastRecord users id, user.active = true := by
  rw [← user?_ofList]
  exact exists_of_sees (mem_audience_iff.1 h)

theorem mem_audience_of_active {users : List User} {user : User} (h : user ∈ lastRecord users id)
    (hactive : user.active = true) : id ∈ audience (Catalog.ofList users) settings none := by
  rw [← user?_ofList] at h
  exact mem_audience_iff.2 (sees_of_everyone rfl h hactive)

end Directory

namespace Service

variable {service : Service Unit} {rule : Option String}

/-- A rule that admits nobody lets no user through. -/
theorem isVisible_ne_true_of_nobody (h : (service.options.gateOfText rule).1 = .nobody) (id : UserId) :
    (service.isVisible id rule ()).outcome ≠ .done true := by
  have hnone : ∀ user, (service.admitsText user rule).1 = false := by
    intro user
    show ((service.options.gateOfText rule).1.admits user).1 = false
    rw [h]
    rfl
  rw [isVisible_outcome]
  rcases (service.resolve id ()).outcome with _ | failure | _
  · simp [Outcome.map, hnone]
  · simp [Outcome.map]
  · simp [Outcome.map]

theorem turns_unit (ids : List UserId) : service.turns rule ids () = ids.map fun id => (id, ()) := by
  induction ids with
  | nil => rfl
  | cons id ids ih => rw [turns, List.map_cons, ih]

/-- **Where every decision is answered, the audience are the candidates who are let through.** -/
theorem audienceMembers_eq_filter
    (h : ∀ id, ∃ visible, (service.isVisible id rule ()).outcome = .done visible)
    (candidates : List UserId) : (service.audienceMembers rule candidates ()).outcome =
      .done (candidates.filter fun id => (service.isVisible id rule ()).outcome = .done true) := by
  by_cases hgate : (service.options.gateOfText rule).1 = .nobody
  · have hnobody : (candidates.filter fun id =>
        (service.isVisible id rule ()).outcome = .done true) = [] := by
      rw [List.filter_eq_nil_iff]
      simp [isVisible_ne_true_of_nobody hgate]
    rw [(audienceMembers_of_nobody hgate candidates).1, hnobody]
  · rw [(audienceMembers_eq_membersAmong hgate candidates).1,
      (membersAmong_of_done rfl fun turn _ => h turn.1).1, turns_unit, List.filter_map, List.map_map]
    simp only [Function.comp_def, List.map_id', decision]
    rfl

end Service

theorem Directory.audienceMembers_service (directory : Directory) (settings : Settings)
    (rule : Option String) (candidates : List UserId) :
    ((directory.service settings).audienceMembers rule candidates ()).outcome =
      .done (candidates.filter (directory.sees settings rule)) := by
  have hvisible := directory.isVisible_service settings rule
  rw [Service.audienceMembers_eq_filter fun id => ⟨_, hvisible id⟩]
  simp only [hvisible, Outcome.done.injEq, Bool.decide_eq_true]

/-! ## Two commands -/

namespace Command.Place

variable {place : Place Id} {config : Option String} {failClosed : Bool} {settings : Settings}
  {path fileText : String} {directory : Directory} {rule text? : Option String}

theorem settings_of_task {task task' : Task}
    (h : (place.settings ⟨config, failClosed, task⟩).run = .ok settings) :
    (place.settings ⟨config, failClosed, task'⟩).run = .ok settings := h

theorem check_eq {arg : String} {id : UserId} {task : Task}
    (hsettings : (place.settings ⟨config, failClosed, task⟩).run = .ok settings)
    (hdirectory : (place.directoryAt path).run = .ok directory)
    (hrule : (place.ruleText? rule).run = .ok text?) (hid : Identifier.parse arg = .ok id) :
    place.execute ⟨config, failClosed, .check path arg rule⟩ =
      ⟨lines [if directory.sees settings text? id then "visible" else "hidden"], none⟩ :=
  execute_eq (settings_of_task hsettings)
    (perform_check hid hrule hdirectory (directory.isVisible_service settings text? id))

theorem audience_eq {args : List String} {candidates : List UserId} {task : Task}
    (hsettings : (place.settings ⟨config, failClosed, task⟩).run = .ok settings)
    (hdirectory : (place.directoryAt path).run = .ok directory)
    (hrule : (place.ruleText? rule).run = .ok text?)
    (hcandidates : if args = [] then candidates = directory.userIds
      else List.Forall₂ (fun arg id => Identifier.parse arg = .ok id) args candidates) :
    place.execute ⟨config, failClosed, .audience path rule args⟩ =
      ⟨lines ((candidates.filter (directory.sees settings text?)).map Identifier.text), none⟩ := by
  exact execute_eq (settings_of_task hsettings)
    (perform_audience hcandidates hrule hdirectory
      (directory.audienceMembers_service settings text? candidates))

theorem visible_iff (visible : Bool) :
    (⟨lines [if visible then "visible" else "hidden"], none⟩ : Report) =
      ⟨lines ["visible"], none⟩ ↔ visible = true := by
  cases visible <;> decide

theorem check_eq_visible_iff {id : UserId} {task : Task}
    (hsettings : (place.settings ⟨config, failClosed, task⟩).run = .ok settings)
    (hdirectory : (place.directoryAt path).run = .ok directory)
    (hrule : (place.ruleText? rule).run = .ok text?) :
    place.execute ⟨config, failClosed, .check path id.text rule⟩ = ⟨lines ["visible"], none⟩ ↔
      directory.sees settings text? id = true := by
  rw [check_eq hsettings hdirectory hrule (Identifier.parse_text id), visible_iff]

theorem mem_iff_sees_of_check {ids : List UserId} {id : UserId} {task : Task}
    (hsettings : (place.settings ⟨config, failClosed, task⟩).run = .ok settings)
    (hdirectory : (place.directoryAt path).run = .ok directory)
    (hrule : (place.ruleText? rule).run = .ok text?)
    (h : place.execute ⟨config, failClosed, .check path id.text rule⟩ =
      ⟨lines [if id ∈ ids then "visible" else "hidden"], none⟩) :
    id ∈ ids ↔ directory.sees settings text? id = true := by
  rw [← check_eq_visible_iff hsettings hdirectory hrule, h]
  by_cases hmem : id ∈ ids
  · simp [hmem]
  · rw [if_neg hmem]
    exact iff_of_false hmem fun he => Bool.false_ne_true ((visible_iff false).1 he)

/-- **The list of an audience agrees with the decisions on single users.** Whatever is asked of a
directory that can be read, under settings that are right and for a rule that can be read: without
candidates a list of users is printed, in ascending order and each once, and with candidates those of
them, in their order, who would be on that list. The users on the list are those of the directory for
whom the decision on them alone says that they see what the rule guards; the last record of each of
them is that of an active user, and without a rule all such users are listed. -/
theorem audience_agrees_with_check
    (hsettings : (place.settings ⟨config, failClosed, .audience path rule []⟩).run = .ok settings)
    (hfile : place.files.read path = .ok fileText)
    (hdirectory : Directory.parse fileText = .ok directory) (hrule : place.RuleReadable rule) :
    let audience (args : List String) : Report :=
      place.execute ⟨config, failClosed, .audience path rule args⟩
    let check (arg : String) : Report := place.execute ⟨config, failClosed, .check path arg rule⟩
    ∃ (users : List User) (ids : List UserId), Directory.records fileText = .ok users ∧
      audience [] = ⟨lines (ids.map Identifier.text), none⟩ ∧
      ids.Pairwise (fun id id' => id.number < id'.number) ∧
      (∀ id, id ∈ ids ↔ (∃ user ∈ users, user.id = id) ∧ check id.text = ⟨lines ["visible"], none⟩) ∧
      (∀ (arg : String) (id : UserId), Identifier.parse arg = .ok id →
        check arg = ⟨lines [if id ∈ ids then "visible" else "hidden"], none⟩) ∧
      (∀ id ∈ ids, ∃ user ∈ Directory.lastRecord users id, user.active = true) ∧
      (rule = none → ∀ id, ∀ user ∈ Directory.lastRecord users id, user.active = true → id ∈ ids) ∧
      ∀ (args : List String) (candidates : List UserId), args ≠ [] →
        List.Forall₂ (fun arg id => Identifier.parse arg = .ok id) args candidates →
        audience args = ⟨lines ((candidates.filter fun id =>
          check id.text = ⟨lines ["visible"], none⟩).map Identifier.text), none⟩ := by
  intro audience check
  obtain ⟨users, hrecords, rfl⟩ := Directory.parse_eq_ok_iff.1 hdirectory
  obtain ⟨text?, htext⟩ := exists_ruleText? hrule
  have hread := directoryAt_eq_ok hfile hdirectory
  have hseen : ∀ id : UserId, check id.text = ⟨lines ["visible"], none⟩ ↔
      Directory.sees (Catalog.ofList users) settings text? id = true :=
    fun id => check_eq_visible_iff hsettings hread htext
  refine ⟨users, Directory.audience (Catalog.ofList users) settings text?, hrecords,
    audience_eq hsettings hread htext (by rw [if_pos rfl]), Directory.pairwise_audience _ _ _,
    fun id => ?listed, fun arg id hid => ?checked, fun id => Directory.exists_active_of_mem_audience,
    ?unruled, fun args candidates hargs hparsed => ?among⟩
  case listed => rw [hseen, Directory.mem_audience_ofList]
  -- any spelling of an identifier gives the same user
  case checked =>
    have hcheck : check arg = _ := check_eq hsettings hread htext hid
    simp only [hcheck, Directory.mem_audience_iff]
  case unruled =>
    rintro rfl id user huser hactive
    cases htext
    exact Directory.mem_audience_of_active huser hactive
  case among =>
    have hlist : audience args = _ := audience_eq hsettings hread htext (by rwa [if_neg hargs])
    rw [hlist]
    simp only [hseen, Bool.decide_eq_true]

/-- Records of three users in two departments; the second record of one of them says that the account is
not active. -/
def sampleUsers : List User :=
  let lawyer (number : Nat) : User := { User.ofId (.ofNumber number) with department := some "Law" }
  [lawyer 9, { User.ofId (.ofNumber 8) with department := some "Sales" }, lawyer 7,
    (lawyer 9).deactivated]

/-- A rule that admits one of the departments. -/
def departmentRule : Rule := .rules ⟨.and, [.single .department .equals "law"]⟩

/-- A place with these records in a file, the rule in another one, and no settings of its own. -/
def samplePlace : Place Id where
  files := ⟨fun path =>
    if path = "users.json" then .ok (Json.Value.array (sampleUsers.map User.json)).text
    else if path = "rule.json" then .ok departmentRule.text
    else .error .missing⟩
  environment := []
  userSettings := none

/-- Whom the rule admits, and who sees what a rule guards that cannot be read. -/
theorem sees_sampleUsers :
    let directory : Directory := Catalog.ofList sampleUsers
    (∀ settings, directory.sees settings (some departmentRule.text) (.ofNumber 7) = true ∧
      directory.sees settings (some departmentRule.text) (.ofNumber 8) = false ∧
      directory.sees settings (some departmentRule.text) (.ofNumber 9) = false) ∧
    directory.sees .standard (some "?") (.ofNumber 7) = true ∧
    directory.sees (Settings.standard.withPolicy .failClosed) (some "?") (.ofNumber 7) = false := by
  refine ⟨fun settings => ?_, by decide +kernel, by decide +kernel⟩
  simp only [Directory.sees_eq_any_admits, Options.gateOfText_rule]
  decide +kernel

theorem read_sampleUsers : samplePlace.files.read "users.json" =
    .ok (Json.Value.array (sampleUsers.map User.json)).text := by
  simp [samplePlace]

theorem read_departmentRule : samplePlace.files.read "rule.json" = .ok departmentRule.text := by
  simp [samplePlace]

theorem directoryAt_sampleUsers :
    (samplePlace.directoryAt "users.json").run = .ok (Catalog.ofList sampleUsers : Directory) :=
  directoryAt_eq_ok read_sampleUsers (Directory.parse_written sampleUsers)

theorem settings_samplePlace (failClosed : Bool) (task : Task) :
    (samplePlace.settings ⟨none, failClosed, task⟩).run =
      .ok (if failClosed then Settings.standard.withPolicy .failClosed else .standard) := by
  have hload : samplePlace.load .standard = .ok .standard := by
    show (_ : Except LoadFault Settings) = _
    decide +kernel
  exact settings_eq_ok_iff.2 ⟨.standard, hload, rfl⟩

theorem ruleReadable_sample {rule : String} (h : rule = "@rule.json" ∨ rule = "?") :
    samplePlace.RuleReadable (some rule) := by
  rcases h with rfl | rfl
  · rintro _ ⟨⟩ path hpath
    cases hpath
    exact ⟨departmentRule.text, read_departmentRule⟩
  · rintro _ ⟨⟩ path hpath
    cases hpath

theorem ruleText_departmentRule :
    (samplePlace.ruleText? (some "@rule.json")).run = .ok (some departmentRule.text) :=
  run_bind_ok (textAt_eq_ok read_departmentRule "rule file")

/-- Of two active users the one is listed whose department the rule admits, and so is not the third one.
A rule that cannot be read lists the user as well, unless the command is to fail closed. -/
theorem audience_agrees_with_check_samplePlace :
    let audience (failClosed : Bool) (rule : String) : Report :=
      samplePlace.execute ⟨none, failClosed, .audience "users.json" (some rule) []⟩
    ∃ lawyers everyone nobody : List UserId,
      audience false "@rule.json" = ⟨lines (lawyers.map Identifier.text), none⟩ ∧
      (.ofNumber 7 ∈ lawyers ∧ .ofNumber 8 ∉ lawyers ∧ .ofNumber 9 ∉ lawyers) ∧
      audience false "?" = ⟨lines (everyone.map Identifier.text), none⟩ ∧ .ofNumber 7 ∈ everyone ∧
      audience true "?" = ⟨lines (nobody.map Identifier.text), none⟩ ∧ .ofNumber 7 ∉ nobody := by
  intro audience
  obtain ⟨hruled, hopen, hclosed⟩ := sees_sampleUsers
  obtain ⟨hseven, hother, hnine⟩ := hruled .standard
  have hdirectory := Directory.parse_written sampleUsers
  have hread := directoryAt_sampleUsers
  have hopened : (samplePlace.settings ⟨none, false, .validate ""⟩).run = .ok .standard :=
    settings_samplePlace false _
  have hflagged : (samplePlace.settings ⟨none, true, .validate ""⟩).run =
      .ok (Settings.standard.withPolicy .failClosed) := settings_samplePlace true _
  obtain ⟨-, lawyers, -, hlawyers, -, -, hlaw, -⟩ := audience_agrees_with_check
    (settings_of_task hopened) read_sampleUsers hdirectory (ruleReadable_sample (.inl rfl))
  obtain ⟨-, everyone, -, heveryone, -, -, hall, -⟩ := audience_agrees_with_check
    (settings_of_task hopened) read_sampleUsers hdirectory (ruleReadable_sample (.inr rfl))
  obtain ⟨-, nobody, -, hnobody, -, -, hnone, -⟩ := audience_agrees_with_check
    (settings_of_task hflagged) read_sampleUsers hdirectory (ruleReadable_sample (.inr rfl))
  have hmember := fun id : UserId => mem_iff_sees_of_check hopened hread ruleText_departmentRule
    (hlaw id.text id (Identifier.parse_text id))
  have hshown := mem_iff_sees_of_check hopened hread rfl
    (hall _ (.ofNumber 7) (Identifier.parse_text _))
  have hhidden := mem_iff_sees_of_check hflagged hread rfl
    (hnone _ (.ofNumber 7) (Identifier.parse_text _))
  refine ⟨lawyers, everyone, nobody, hlawyers, ⟨(hmember _).2 hseven, ?_, ?_⟩, heveryone,
    hshown.2 hopen, hnobody, ?_⟩
  · simp [hmember, hother]
  · simp [hmember, hnine]
  · simp [hhidden, hclosed]

end Command.Place

end ContentVisibility
