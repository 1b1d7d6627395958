import ContentVisibility.Proofs.Text.Fold
import ContentVisibility.Settings.Environment

/-!
# Variables of the environment

What the names and the values of variables stand for, whatever their letter case.

* `Environment.settingName?_eq`: the setting that a variable under the prefix gives;
* `Environment.integer?_eq_none`, `float?_eq_none`: texts that write no number;
* `Environment.isPlain`, `valueTree_of_isPlain`: texts that are kept as they are;
* `Environment.flagWord?`, `flag?_valueTree`: the words that stand for a truth value.
-/

namespace ContentVisibility.Environment

open Text (lower)

/-! ## Names -/

/-- The prefix and the underscore behind it keep their lower-case form in front of any text. -/
theorem lower_leading_append (leading : String) {rest : String} (h : 'Σ' ∉ rest.toList) :
    lower (leading ++ "_" ++ rest) = lower (leading ++ "_") ++ lower rest := by
  refine Text.lower_append_of_not_cutsSigma ?_ (Text.not_cutsSigma_of_notMem h _ _)
  have hlast : (leading ++ "_").toList = leading.toList ++ ['_'] := by simp
  rw [hlast]
  exact Text.not_cutsSigma_of_last (by decide) (by decide +kernel) rest.toList

/-- The setting that a variable under the prefix gives: the rest of its name in lower case, with dots. -/
theorem settingName?_eq {leading name rest : String} (h : 'Σ' ∉ rest.toList)
    (hname : lower name = lower (leading ++ "_" ++ rest)) :
    settingName? leading name = some (String.ofList (dotted (lower rest))) := by
  rw [lower_leading_append leading h] at hname
  have hleads : (lower (leading ++ "_")).isPrefixOf (lower name) = true := by
    rw [hname, List.isPrefixOf_iff_prefix]
    exact List.prefix_append ..
  rw [settingName?]
  simp only [hleads, if_true]
  rw [hname, List.drop_left]

/-! ## Numbers -/

theorem signed_subset (cs : List Char) : (Toml.signed cs).2 ⊆ cs := by
  unfold Toml.signed
  split <;> simp

theorem toNat_of_isDigit {c : Char} (h : Toml.isDigit c = true) : 48 ≤ c.toNat ∧ c.toNat < 58 := by
  rw [Toml.isDigit, Json.Digit.ofChar?] at h
  split at h
  · next hc => exact hc
  · cases h

theorem toLower_of_isDigit {c : Char} (h : Toml.isDigit c = true) : c.toLower = c := by
  have hc : c.val.toNat < 58 := (toNat_of_isDigit h).2
  unfold Char.toLower
  rw [dif_neg]
  rintro ⟨hcapital, -⟩
  have ha : 'A'.val.toNat ≤ c.val.toNat := hcapital
  have h65 : 'A'.val.toNat = 65 := by decide
  omega

/-- A text has no digits if it has none in lower case. -/
theorem isDigit_eq_false {s : String} (h : ∀ c ∈ lower s, Toml.isDigit c = false) :
    ∀ c ∈ s.toList, Toml.isDigit c = false := by
  intro c hc
  by_contra hdigit
  rw [Bool.not_eq_false] at hdigit
  have hlow := toLower_of_isDigit hdigit
  have hmem := Text.toLower_mem_lower hc (by
    rw [hlow]
    have hbounds := toNat_of_isDigit hdigit
    omega)
  rw [hlow] at hmem
  rw [h c hmem] at hdigit
  cases hdigit

/-- A text without digits writes no integer. -/
theorem integer?_eq_none {s : String} (h : ∀ c ∈ lower s, Toml.isDigit c = false) :
    integer? s = none := by
  have hsub := signed_subset s.toList
  rw [integer?]
  generalize Toml.signed s.toList = p at hsub
  obtain ⟨negative, digits⟩ := p
  cases digits with
  | nil => rfl
  | cons d ds =>
    have hd := isDigit_eq_false h d (hsub (List.mem_cons_self ..))
    simp [hd]

/-- A text without digits writes no float, unless it has a letter of one of the words for floats. -/
theorem float?_eq_none {s : String} (h : ∀ c ∈ lower s, Toml.isDigit c = false ∧ c ≠ 'i' ∧ c ≠ 'a') :
    float? s = none := by
  have hdigits := isDigit_eq_false fun c hc => (h c hc).1
  have hsub := signed_subset s.toList
  rw [float?]
  generalize Toml.signed s.toList = p at hsub
  obtain ⟨negative, cs⟩ := p
  have hletter : ∀ c : Char, c.toNat < 0x80 → c ∉ lower s → c ∉ cs.map Char.toLower := by
    intro c hascii hc hmem
    obtain ⟨d, hd, rfl⟩ := List.mem_map.1 hmem
    exact hc (Text.toLower_mem_lower (hsub hd) hascii)
  have hi := hletter 'i' (by decide) fun hmem => (h _ hmem).2.1 rfl
  have ha := hletter 'a' (by decide) fun hmem => (h _ hmem).2.2 rfl
  have hword : ∀ word : String, 'i' ∈ word.toList ∨ 'a' ∈ word.toList →
      String.ofList (cs.map Char.toLower) ≠ word := by
    rintro word hmem rfl
    rw [String.toList_ofList] at hmem
    exact hmem.elim hi ha
  have hinf := hword "inf" (by decide)
  have hinfinity := hword "infinity" (by decide)
  have hnan := hword "nan" (by decide)
  -- where a number has its digits there are none
  have hnone : ∀ digits : List Char, digits ⊆ cs →
      (!digits.all Toml.isDigit || digits.isEmpty) = true := by
    intro digits hmem
    cases digits with
    | nil => rfl
    | cons d ds =>
      have hd := hdigits d (hsub (hmem (List.mem_cons_self ..)))
      rw [List.all_cons, hd, Bool.false_and]
      rfl
  simp only [hinf, hinfinity, hnan, decide_false, Bool.or_self, Bool.false_eq_true, if_false]
  rw [if_pos (hnone _ ?_)]
  · rfl
  · have hmantissa := (List.takeWhile_sublist (fun c => !(decide (c = 'e') || decide (c = 'E')))
      (l := cs)).subset
    refine List.append_subset.2 ⟨?_, ?_⟩
    · exact List.Subset.trans (List.takeWhile_sublist _).subset hmantissa
    · refine List.Subset.trans (List.drop_sublist 1 _).subset ?_
      exact List.Subset.trans (List.dropWhile_sublist _).subset hmantissa

/-! ## Texts -/

/-- The text writes neither a truth value nor a number. -/
def isPlain (s : String) : Bool :=
  String.ofList (lower s) ∉ ["true", "false"] && (integer? s).isNone && (float? s).isNone

theorem valueTree_of_isPlain {s : String} (h : isPlain s = true) : valueTree s = .text s := by
  rw [isPlain, Bool.and_eq_true, Bool.and_eq_true, decide_eq_true_iff, Option.isNone_iff_eq_none,
    Option.isNone_iff_eq_none] at h
  obtain ⟨⟨hword, hinteger⟩, hfloat⟩ := h
  simp only [List.mem_cons, List.not_mem_nil, or_false, not_or] at hword
  rw [valueTree]
  simp only [hword.1, hword.2, if_false, hinteger, hfloat]

/-! ## Truth values -/

/-- The truth value that a word stands for, in any letter case. -/
def flagWord? (s : String) : Option Bool :=
  let word := String.ofList (lower s)
  if s = "1" ∨ word ∈ ["true", "on", "yes"] then some true
  else if s = "0" ∨ word ∈ ["false", "off", "no"] then some false
  else none

/-- A word is kept as a text if its letters are none of those that write numbers. -/
theorem isPlain_of_letters {s word : String} (h : String.ofList (lower s) = word)
    (hword : word ∉ ["true", "false"])
    (hletters : ∀ c ∈ word.toList, Toml.isDigit c = false ∧ c ≠ 'i' ∧ c ≠ 'a') : isPlain s = true := by
  subst h
  rw [String.toList_ofList] at hletters
  rw [isPlain, integer?_eq_none fun c hc => (hletters c hc).1, float?_eq_none hletters]
  simpa using hword

theorem flag?_text {s word : String} (h : String.ofList (lower s) = word) :
    (Tree.text s).flag? =
      if word ∈ ["1", "true", "on", "yes"] then some true
      else if word ∈ ["0", "false", "off", "no"] then some false else none := by
  rw [Tree.flag?, h]

theorem flag?_valueTree {s : String} {b : Bool} (h : flagWord? s = some b) :
    (valueTree s).flag? = some b := by
  generalize hword : String.ofList (lower s) = word
  have hwords : ∀ w ∈ ["on", "yes", "off", "no"], w ∉ ["true", "false"] ∧
      w.toList.all (fun c => !Toml.isDigit c && c != 'i' && c != 'a') = true := by decide
  -- these words are kept as texts, while the others are truth values or numbers at once
  have htext : word ∈ ["on", "yes", "off", "no"] → valueTree s = .text s := by
    intro hmem
    obtain ⟨hother, hletters⟩ := hwords word hmem
    refine valueTree_of_isPlain (isPlain_of_letters hword hother fun c hc => ?_)
    simpa [and_assoc] using List.all_eq_true.1 hletters c hc
  rw [flagWord?, hword] at h
  split at h
  · next htrue =>
    cases h
    rcases htrue with rfl | hmem
    · rfl
    · simp only [List.mem_cons, List.not_mem_nil, or_false] at hmem
      rcases hmem with rfl | rfl | rfl
      · rw [valueTree, hword]
        rfl
      · rw [htext (by decide), flag?_text hword]
        rfl
      · rw [htext (by decide), flag?_text hword]
        rfl
  · split at h
    · next hfalse =>
      cases h
      rcases hfalse with rfl | hmem
      · rfl
      · simp only [List.mem_cons, List.not_mem_nil, or_false] at hmem
        rcases hmem with rfl | rfl | rfl
        · rw [valueTree, hword]
          rfl
        · rw [htext (by decide), flag?_text hword]
          rfl
        · rw [htext (by decide), flag?_text hword]
          rfl
    · cases h

end ContentVisibility.Environment
