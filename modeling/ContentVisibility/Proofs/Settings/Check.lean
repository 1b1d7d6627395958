import ContentVisibility.Proofs.Identifier.Spelled
import ContentVisibility.Settings.Layered

/-!
# What the check of settings says

* `Text.trim_eq_empty_iff`: what is left of a text that is blank all over;
* `Settings.check_eq_ok_iff`: the settings that pass the check;
* `Settings.check_iff_iff`: for which keys the check says what is said of the keys as they are;
* `load_eq_ok_iff`: the settings that all layers give have passed the check.
-/

namespace ContentVisibility

namespace Text

/-- Nothing is left exactly of a text without any other character. -/
theorem trim_eq_empty_iff (s : String) : trim s = "" ↔ ∀ c ∈ s.toList, isBlank c = true := by
  have hempty : trim s = "" ↔ trimmed s.toList = [] := by
    rw [trim, ← String.toList_inj, String.toList_ofList]
    rfl
  rw [hempty]
  constructor
  · intro h c hc
    obtain ⟨before, after, hs, hbefore, hafter⟩ := exists_padding s.toList
    rw [hs, h, List.append_nil, List.mem_append] at hc
    rcases hc with hc | hc
    · exact hbefore c hc
    · exact hafter c hc
  · intro h
    have hnone : trimmed (s.toList ++ [] ++ []) = trimmed [] := trimmed_padded [] h (List.forall_mem_nil _)
    rwa [List.append_nil, List.append_nil] at hnone

end Text

namespace Settings

variable {settings : Settings}

/-- The key of rules has a character that is not blank. -/
def KeyGiven (settings : Settings) : Prop :=
  ∃ c ∈ settings.widgets.visibilityKey.toList, Text.isBlank c = false

instance (settings : Settings) : Decidable settings.KeyGiven :=
  inferInstanceAs (Decidable (∃ c ∈ settings.widgets.visibilityKey.toList, Text.isBlank c = false))

theorem keyGiven_iff : settings.KeyGiven ↔ Text.trim settings.widgets.visibilityKey ≠ "" := by
  rw [Ne, Text.trim_eq_empty_iff, KeyGiven]
  simp only [not_forall, exists_prop, Bool.not_eq_true]

theorem check_eq_ok_iff : settings.check = .ok () ↔ settings.KeyGiven ∧
    Text.trim settings.widgets.visibilityKey ∉ settings.widgets.childKeys := by
  rw [keyGiven_iff]
  simp only [check]
  split
  · simp_all
  · split <;> simp_all

/-- The check says what is to be said of the keys as they are exactly if blank characters around the key
of rules make no difference to whether it is a child key. -/
theorem check_iff_iff :
    (settings.check = .ok () ↔ settings.KeyGiven ∧
      settings.widgets.visibilityKey ∉ settings.widgets.childKeys) ↔
    (settings.KeyGiven → (Text.trim settings.widgets.visibilityKey ∈ settings.widgets.childKeys ↔
      settings.widgets.visibilityKey ∈ settings.widgets.childKeys)) := by
  rw [check_eq_ok_iff]
  by_cases hkey : settings.KeyGiven
  · simp only [hkey, true_and, true_imp_iff, not_iff_not]
  · simp only [hkey, false_and, false_imp_iff]

end Settings

/-! ## Loaded settings -/

variable {settings : Settings}

theorem Layers.load_eq_ok_iff {layers : Layers} : layers.load = .ok settings ↔
    ∃ tree, layers.tree = .ok tree ∧ Tree.source.settings? tree = some settings ∧
      settings.check = .ok () := by
  constructor
  · intro h
    rcases htree : layers.tree with fault | tree <;>
      simp only [load, htree, bind, Except.bind] at h
    · cases h
    · split at h
      · cases h
      · next found hfound =>
        split at h
        · next hcheck =>
          cases h
          exact ⟨tree, rfl, hfound, hcheck⟩
        · cases h
  · rintro ⟨tree, htree, hsettings, hcheck⟩
    simp only [load, htree, hsettings, hcheck, bind, Except.bind]
    rfl

end ContentVisibility
