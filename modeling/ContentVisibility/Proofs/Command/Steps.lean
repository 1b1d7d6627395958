import ContentVisibility.Command.Execute
import Mathlib.Data.List.Forall2

/-!
# Steps of commands over files in memory

* `run_bind_ok`, `run_bind_error`: one step after another;
* `layers_eq`: which file fills which layer of settings;
* `settingsAt_eq_ok_iff`, `settings_eq_ok_iff`: the settings that a file gives, and those of a command;
* `exists_ruleText?`, `directoryAt_eq_ok`: what is read from files;
* `perform_check`, `perform_audience`: the reports of two tasks.
-/

namespace ContentVisibility.Command

variable {α β : Type}

/-! ## One step after another -/

theorem run_bind_ok {x : Step Id α} {f : α → Step Id β} {a : α} (h : x.run = .ok a) :
    (x >>= f).run = (f a).run := by
  have hx : x = (.ok a : Except Complaint α) := h
  subst hx
  rfl

theorem run_bind_error {x : Step Id α} {f : α → Step Id β} {complaint : Complaint}
    (h : x.run = .error complaint) : (x >>= f).run = .error complaint := by
  have hx : x = (.error complaint : Except Complaint α) := h
  subst hx
  rfl

namespace Place

variable {place : Place Id} {path : String}

/-! ## Settings -/

theorem run_settingsAt (place : Place Id) (path : String) :
    (place.settingsAt path).run = match place.files.read path with
      | .error fault => .error (.because
          s!"Failed to read config file at {path}: {fault.message}" [fault.message])
      | .ok text =>
        match Settings.ofFile text with
        | none => .error (.untold s!"Failed to parse TOML config at {path}")
        | some settings =>
          match settings.check with
          | .ok () => .ok settings
          | .error cause => .error (.plain cause.message) := rfl

theorem settingsAt_eq_ok_iff {settings : Settings} : (place.settingsAt path).run = .ok settings ↔
    ∃ text, place.files.read path = .ok text ∧ Settings.ofFile text = some settings ∧
      settings.check = .ok () := by
  rw [run_settingsAt]
  constructor
  · intro h
    split at h
    · cases h
    · next text hread =>
      split at h
      · cases h
      · next found hfound =>
        split at h
        · next hcheck =>
          cases h
          exact ⟨text, hread, hfound, hcheck⟩
        · cases h
  · rintro ⟨text, hread, hfile, hcheck⟩
    simp only [hread, hfile, hcheck]

theorem run_usualSettings (place : Place Id) :
    place.usualSettings.run = match place.load .standard with
      | .ok settings => .ok settings
      | .error (.invalid cause) =>
        .error (.because (LoadFault.invalid cause).message [cause.message])
      | .error fault => .error (.untold fault.message) := by
  have hrun : place.usualSettings.run = match (place.load .standard : Except LoadFault Settings) with
      | .ok settings => (pure settings : Step Id Settings).run
      | .error (.invalid cause) =>
        (throw (.because (LoadFault.invalid cause).message [cause.message]) : Step Id Settings).run
      | .error fault => (throw (.untold fault.message) : Step Id Settings).run := rfl
  rw [hrun]
  rcases place.load .standard with (_ | _ | _) | _ <;> rfl

theorem usualSettings_eq_ok_iff {settings : Settings} :
    place.usualSettings.run = .ok settings ↔ place.load .standard = .ok settings := by
  rw [run_usualSettings]
  rcases place.load .standard with (_ | _ | _) | _
  · exact iff_of_false (by rintro ⟨⟩) (by rintro ⟨⟩)
  · exact iff_of_false (by rintro ⟨⟩) (by rintro ⟨⟩)
  · exact iff_of_false (by rintro ⟨⟩) (by rintro ⟨⟩)
  · constructor <;> rintro ⟨⟩ <;> rfl

/-- Settings are made to fail closed by the flag alone. -/
theorem run_settings (place : Place Id) (invocation : Invocation) :
    (place.settings invocation).run =
      Except.map (fun settings => if invocation.failClosed then settings.withPolicy .failClosed
        else settings) (match invocation.config with
          | some path => (place.settingsAt path).run
          | none => place.usualSettings.run) := by
  obtain ⟨config, failClosed, task⟩ := invocation
  have hthen : ∀ found : Step Id Settings,
      (found >>= fun settings => pure (if failClosed then settings.withPolicy .failClosed
        else settings)).run = Except.map (fun settings => if failClosed then
          settings.withPolicy .failClosed else settings) found.run := by
    intro found
    cases hfound : found.run with
    | ok settings => rw [run_bind_ok hfound]; rfl
    | error complaint => rw [run_bind_error hfound]; rfl
  cases config with
  | some path => exact hthen (place.settingsAt path)
  | none => exact hthen place.usualSettings

/-- The settings of a command: those of the file that it names, or else the usual ones; if it is to fail
closed, under that policy. -/
theorem settings_eq_ok_iff {invocation : Invocation} {settings : Settings} :
    (place.settings invocation).run = .ok settings ↔
      ∃ found, (match invocation.config with
        | some path => ∃ text, place.files.read path = .ok text ∧
          Settings.ofFile text = some found ∧ found.check = .ok ()
        | none => place.load .standard = .ok found) ∧
      (if invocation.failClosed then found.withPolicy .failClosed else found) = settings := by
  have hmap : ∀ {run : Except Complaint Settings} {f : Settings → Settings},
      run.map f = .ok settings ↔ ∃ found, run = .ok found ∧ f found = settings := by
    intro run f
    cases run <;> simp [Except.map]
  rw [run_settings]
  refine hmap.trans (exists_congr fun found => and_congr_left fun _ => ?_)
  cases invocation.config with
  | some path => exact settingsAt_eq_ok_iff
  | none => exact usualSettings_eq_ok_iff

/-- The flag makes whatever settings there are fail closed. -/
theorem settings_failClosed (place : Place Id) (config : Option String) (task : Task) :
    (place.settings ⟨config, true, task⟩).run =
      Except.map (fun settings => settings.withPolicy .failClosed)
        (place.settings ⟨config, false, task⟩).run := by
  have hmap : ∀ found : Except Complaint Settings,
      Except.map (fun settings => if true then settings.withPolicy .failClosed else settings) found =
        Except.map (fun settings => settings.withPolicy .failClosed)
          (Except.map (fun settings => if false then settings.withPolicy .failClosed else settings)
            found) := by
    intro found
    cases found <;> rfl
  rw [run_settings, run_settings]
  exact hmap _

/-! ## Files -/

theorem layer_eq_some {text : String} (h : place.files.read path = .ok text) :
    place.files.layer path = some text := by
  simp only [Files.layer, h]
  rfl

/-- A file that cannot be read fills no layer; but in the place of a directory stands another file. -/
theorem layer_eq_none {fault : FileFault} (h : place.files.read path = .error fault)
    (hfault : fault = .directory → False) : place.files.layer path = none := by
  simp only [Files.layer, h]
  cases fault with
  | directory => exact (hfault rfl).elim
  | missing | notDirectory | nameTooLong | other _ => rfl

/-- Which file fills which layer of settings. -/
theorem layers_eq (place : Place Id) (loader : Loader) : place.layers loader =
    { user := if loader.own then place.userSettings.bind place.files.layer else none
      project := place.files.layer (loader.path "audience.toml")
      localProject := place.files.layer (loader.path "audience.local.toml")
      environment := place.environment
      leading := loader.leading } := by
  rw [layers]
  cases place.userSettings <;> cases loader.own <;> rfl

theorem run_textAt (place : Place Id) (what path : String) :
    (place.textAt what path).run = match place.files.read path with
      | .ok text => .ok text
      | .error fault => .error (.because s!"Failed to read {what} {path}" [fault.message]) := rfl

theorem textAt_eq_ok_iff {what text : String} :
    (place.textAt what path).run = .ok text ↔ place.files.read path = .ok text := by
  rw [run_textAt]
  cases place.files.read path with
  | error fault => exact iff_of_false (by rintro ⟨⟩) (by rintro ⟨⟩)
  | ok found => constructor <;> rintro ⟨⟩ <;> rfl

theorem textAt_eq_ok {text : String} (h : place.files.read path = .ok text) (what : String) :
    (place.textAt what path).run = .ok text :=
  textAt_eq_ok_iff.2 h

/-- A rule that is given in a file can be read. -/
def RuleReadable (place : Place Id) (rule : Option String) : Prop :=
  ∀ arg ∈ rule, ∀ path, arg.toList = '@' :: path →
    ∃ text, place.files.read (String.ofList path) = .ok text

theorem exists_ruleText? {rule : Option String} (h : place.RuleReadable rule) :
    ∃ text, (place.ruleText? rule).run = .ok text := by
  cases rule with
  | none => exact ⟨none, rfl⟩
  | some arg =>
    have hrun : ∃ text, (place.ruleText arg).run = .ok text := by
      unfold ruleText
      split
      · next path hpath =>
        obtain ⟨text, htext⟩ := h arg rfl path hpath
        exact ⟨text, textAt_eq_ok htext _⟩
      · exact ⟨arg, rfl⟩
    obtain ⟨text, htext⟩ := hrun
    exact ⟨some text, run_bind_ok htext⟩

theorem directoryAt_eq_ok {text : String} {directory : Directory}
    (h : place.files.read path = .ok text) (hparse : Directory.parse text = .ok directory) :
    (place.directoryAt path).run = .ok directory := by
  rw [directoryAt, run_bind_ok (textAt_eq_ok h _), hparse]
  rfl

/-! ## Users -/

theorem userNamed_eq_ok {arg : String} {id : UserId} (h : Identifier.parse arg = .ok id) :
    (userNamed arg : Step Id UserId).run = .ok id := by
  rw [userNamed, h]
  rfl

theorem mapM_userNamed_eq_ok {args : List String} {ids : List UserId}
    (h : List.Forall₂ (fun arg id => Identifier.parse arg = .ok id) args ids) :
    (args.mapM userNamed : Step Id (List UserId)).run = .ok ids := by
  induction h with
  | nil => rfl
  | cons hfirst hrest ih =>
    rw [List.mapM_cons, run_bind_ok (userNamed_eq_ok hfirst), run_bind_ok ih]
    rfl

theorem answer_eq_ok {request : Run Unit α} {a : α} (h : (request ()).outcome = .done a) :
    (answer request : Step Id α).run = .ok a := by
  rw [answer, h]
  rfl

theorem answer_eq_error {request : Run Unit α} {failure : Failure}
    (h : (request ()).outcome = .failed failure) :
    (answer request : Step Id α).run = .error (.plain failure.message) := by
  rw [answer, h]
  rfl

/-! ## Tasks -/

theorem execute_eq_match (place : Place Id) (invocation : Invocation) :
    place.execute invocation = match (place.settings invocation >>= fun settings =>
        place.perform settings invocation.task).run with
      | .ok report => report
      | .error complaint => ⟨"", some complaint⟩ := rfl

theorem execute_eq {invocation : Invocation} {settings : Settings} {report : Report}
    (hsettings : (place.settings invocation).run = .ok settings)
    (hreport : (place.perform settings invocation.task).run = .ok report) :
    place.execute invocation = report := by
  rw [execute_eq_match, run_bind_ok hsettings, hreport]

theorem perform_check {settings : Settings} {path arg : String} {rule text? : Option String}
    {id : UserId} {directory : Directory} {visible : Bool} (hid : Identifier.parse arg = .ok id)
    (hrule : (place.ruleText? rule).run = .ok text?)
    (hdirectory : (place.directoryAt path).run = .ok directory)
    (hvisible : ((directory.service settings).isVisible id text? ()).outcome = .done visible) :
    (place.perform settings (.check path arg rule)).run =
      .ok ⟨lines [if visible then "visible" else "hidden"], none⟩ := by
  rw [perform, run_bind_ok (userNamed_eq_ok hid), run_bind_ok hrule, run_bind_ok hdirectory,
    run_bind_ok (answer_eq_ok hvisible)]
  rfl

theorem perform_audience {settings : Settings} {path : String} {rule text? : Option String}
    {args : List String} {directory : Directory} {candidates members : List UserId}
    (hcandidates : if args = [] then candidates = directory.userIds
      else List.Forall₂ (fun arg id => Identifier.parse arg = .ok id) args candidates)
    (hrule : (place.ruleText? rule).run = .ok text?)
    (hdirectory : (place.directoryAt path).run = .ok directory)
    (hmembers : ((directory.service settings).audienceMembers text? candidates ()).outcome =
      .done members) :
    (place.perform settings (.audience path rule args)).run =
      .ok ⟨lines (members.map Identifier.text), none⟩ := by
  have hlisted : ((answer ((directory.service settings).audienceMembers text? candidates) :
      Step Id (List UserId)) >>= fun members =>
        pure (⟨lines (members.map Identifier.text), none⟩ : Report)).run =
      .ok ⟨lines (members.map Identifier.text), none⟩ := by
    rw [run_bind_ok (answer_eq_ok hmembers)]
    rfl
  rw [perform, run_bind_ok hrule, run_bind_ok hdirectory]
  cases args with
  | nil =>
    rw [if_pos rfl] at hcandidates
    exact hcandidates ▸ hlisted
  | cons arg args => exact (run_bind_ok (mapM_userNamed_eq_ok hcandidates)).trans hlisted

end Place

end ContentVisibility.Command
