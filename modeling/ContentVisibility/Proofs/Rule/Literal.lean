import ContentVisibility.Proofs.Text.Fold
import ContentVisibility.Rule.Evaluation

/-!
# Conditions on a part of an attribute

Whether an attribute contains a value, or starts with it, is decided in lower case. A value that
literally stands in the attribute is found there unless it is cut out of a word next to a capital sigma.

* `Condition.contains_decide`, `startsWith_decide`: the two decisions in lower case;
* `Condition.decide_of_literal`: when a value that stands in an attribute is found there;
* `Condition.decide_of_literal_word_cut`: a value that stands in an attribute and is not found there.
-/

namespace ContentVisibility.Condition

open Text

variable {user : User} {field : Field} {a : String}

/-- A condition on what an attribute contains is decided in lower case. -/
theorem contains_decide (ha : user.attribute field = some a) (v : String)
    (values : Option (List String)) :
    decide ⟨field, .contains, some v, values⟩ user = ⟨occursIn (lower v) (lower a), []⟩ := by
  have hholds : Test.holds user (.contains field v) = occursIn (lower v) (lower a) := by
    rw [Test.holds, ha, Option.any_some]
  rw [← hholds]
  cases field with
  | department | location | jobTitle | preferredLanguage => rfl
  | group | unknown => cases ha

theorem startsWith_decide (ha : user.attribute field = some a) (v : String)
    (values : Option (List String)) :
    decide ⟨field, .startsWith, some v, values⟩ user = ⟨(lower v).isPrefixOf (lower a), []⟩ := by
  have hholds : Test.holds user (.startsWith field v) = (lower v).isPrefixOf (lower a) := by
    rw [Test.holds, ha, Option.any_some]
  rw [← hholds]
  cases field with
  | department | location | jobTitle | preferredLanguage => rfl
  | group | unknown => cases ha

/-- **A value that literally stands in an attribute is found there** unless it is cut out of a word next
to a capital sigma; cut so from the start of the attribute, it is not found to start it. A value without
a capital sigma is always found. -/
theorem decide_of_literal (ha : user.attribute field = some a) (v : String)
    (values : Option (List String)) :
    let contains := decide ⟨field, .contains, some v, values⟩ user
    let startsWith := decide ⟨field, .startsWith, some v, values⟩ user
    (∀ before after, a.toList = before ++ v.toList ++ after →
      ¬ CutsSigma before.reverse v.toList after → contains.holds = true) ∧
    (∀ after, a.toList = v.toList ++ after →
      (startsWith.holds = true ↔ ¬ CutsSigma [] v.toList after)) ∧
    ('Σ' ∉ v.toList →
      (v.toList <:+: a.toList → contains.holds = true) ∧
        (v.toList <+: a.toList → startsWith.holds = true)) := by
  intro contains startsWith
  have hcontains : contains = ⟨occursIn (lower v) (lower a), []⟩ := contains_decide ha v values
  have hstartsWith : startsWith = ⟨(lower v).isPrefixOf (lower a), []⟩ :=
    startsWith_decide ha v values
  have hfound : ∀ before after, a.toList = before ++ v.toList ++ after →
      ¬ CutsSigma before.reverse v.toList after → contains.holds = true := by
    intro before after hplace huncut
    rw [hcontains]
    exact occursIn_lower hplace huncut
  have hstarts : ∀ after, a.toList = v.toList ++ after →
      (startsWith.holds = true ↔ ¬ CutsSigma [] v.toList after) := by
    intro after hplace
    rw [hstartsWith]
    exact isPrefixOf_lower_iff hplace
  refine ⟨hfound, hstarts, fun hsigma => ⟨?_, ?_⟩⟩
  · rintro ⟨before, after, hplace⟩
    exact hfound before after hplace.symm (not_cutsSigma_of_notMem hsigma _ _)
  · rintro ⟨after, hplace⟩
    exact (hstarts after hplace.symm).2 (not_cutsSigma_of_notMem hsigma _ _)

/-- A user in a department whose name holds one word twice, once as the start of a longer word. -/
def streetUser : User := { User.ofId (.ofNumber 7) with department := some "ΟΔΟΣ'Α ΟΔΟΣ" }

theorem decide_of_literal_streetUser :
    ((single .department .contains "ΟΔΟΣ").decide streetUser).holds = true ∧
      ((single .department .startsWith "ΟΔΟΣ").decide streetUser).holds = false ∧
      ((single .department .startsWith "ΟΔΟ").decide streetUser).holds = true := by
  have ha : streetUser.attribute .department = some "ΟΔΟΣ'Α ΟΔΟΣ" := rfl
  obtain ⟨hcontains, hstartsWith, -⟩ := decide_of_literal ha "ΟΔΟΣ" none
  obtain ⟨-, -, hplain⟩ := decide_of_literal ha "ΟΔΟ" none
  refine ⟨hcontains "ΟΔΟΣ'Α ".toList [] (by decide) (by decide +kernel), ?_, ?_⟩
  · rw [← Bool.not_eq_true]
    exact (not_congr (hstartsWith "'Α ΟΔΟΣ".toList (by decide))).2 (by decide +kernel)
  · exact (hplain (by decide)).2 ⟨"Σ'Α ΟΔΟΣ".toList, by decide⟩

/-- A user in a department whose name is one word. -/
def wordUser : User := { User.ofId (.ofNumber 7) with department := some "ΑΣΑ" }

theorem decide_of_literal_word_cut :
    wordUser.attribute .department = some "ΑΣΑ" ∧ "ΑΣ".toList <+: "ΑΣΑ".toList ∧
      ((single .department .contains "ΑΣ").decide wordUser).holds = false ∧
      ((single .department .startsWith "ΑΣ").decide wordUser).holds = false := by
  decide +kernel

end ContentVisibility.Condition
