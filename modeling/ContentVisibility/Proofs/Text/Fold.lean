import Mathlib.Data.List.Infix
import ContentVisibility.Text.Fold

/-!
# Case folding of a part of a text

All but the capital sigma have the same lower-case form wherever they stand. So a part of a text keeps
its lower-case form unless it is cut out of a word next to a capital sigma.

* `lowerBetween`: the lower-case form of a part, seen with what stands around it;
* `lower_append`: a text in lower case is its parts in lower case, each seen where it stands;
* `CutsSigma`: the part goes on, or has begun, with a cased character beyond a capital sigma at its end
  or at its start;
* `lowerBetween_eq_iff`: only such a part has a lower-case form that differs from its own;
* `occursIn_lower`, `isPrefixOf_lower_iff`: when a part of a text is found in lower case.
-/

namespace ContentVisibility.Text

/-! ## Parts of a text -/

/-- The lower-case form of a character with the given text before it, nearest character first, and
after it. -/
def lowerForm (before : List Char) (c : Char) (after : List Char) : List Char :=
  if c = 'Σ' then [lowerSigma before after]
  else if c = 'İ' then ['i', '\u0307']
  else [lowerChar c]

/-- The lower-case form of a part of a text that stands between two others. -/
def lowerBetween (before : List Char) : List Char → List Char → List Char
  | [], _ => []
  | c :: cs, after => lowerForm before c (cs ++ after) ++ lowerBetween (c :: before) cs after

theorem lowerFrom_append (before cs after : List Char) :
    lowerFrom before (cs ++ after) =
      lowerBetween before cs after ++ lowerFrom (cs.reverse ++ before) after := by
  induction cs generalizing before with
  | nil => rfl
  | cons c cs ih =>
    rw [List.cons_append, lowerFrom, ih, lowerBetween, List.append_assoc, List.reverse_cons,
      List.append_assoc]
    rfl

theorem lowerFrom_eq_lowerBetween (before cs : List Char) :
    lowerFrom before cs = lowerBetween before cs [] := by
  have h := lowerFrom_append before cs []
  rwa [List.append_nil, lowerFrom, List.append_nil] at h

theorem lower_append {s : String} {before cs after : List Char}
    (h : s.toList = before ++ cs ++ after) :
    lower s = lowerBetween [] before (cs ++ after) ++ lowerBetween before.reverse cs after ++
      lowerFrom (cs.reverse ++ before.reverse) after := by
  rw [lower, h, List.append_assoc, lowerFrom_append, List.append_nil, lowerFrom_append,
    List.append_assoc]

theorem occursIn_iff {needle hay : List Char} : occursIn needle hay = true ↔ needle <:+: hay := by
  induction hay with
  | nil => simp [occursIn]
  | cons c hay ih => rw [occursIn, Bool.or_eq_true, List.isPrefixOf_iff_prefix, ih, List.infix_cons_iff]

/-! ## Where a capital sigma stands -/

/-- A capital sigma with the given text before it, nearest character first, and after it ends a word. -/
def endsWord (before after : List Char) : Bool := meetsCased before && !meetsCased after

/-- Characters that do not count where the end of a word is looked for. -/
def Ignorable (cs : List Char) : Prop := ∀ c ∈ cs, inRanges caseIgnorableRanges c = true

theorem meetsCased_append {cs : List Char} (h : Ignorable cs) (ds : List Char) :
    meetsCased (cs ++ ds) = meetsCased ds := by
  rw [meetsCased, List.dropWhile_append_of_pos h, meetsCased]

theorem meetsCased_of_ignorable {cs : List Char} (h : Ignorable cs) : meetsCased cs = false := by
  have hnil := meetsCased_append h []
  rw [List.append_nil] at hnil
  rw [hnil]
  rfl

/-- The first character that counts settles it, whatever follows. -/
theorem meetsCased_append_of_not {cs : List Char} (h : ¬ Ignorable cs) (ds : List Char) :
    meetsCased (cs ++ ds) = meetsCased cs := by
  induction cs with
  | nil => exact absurd (fun _ hc => nomatch hc) h
  | cons c cs ih =>
    by_cases hc : inRanges caseIgnorableRanges c = true
    · have hrest : ¬ Ignorable cs := fun hcs => h (List.forall_mem_cons.2 ⟨hc, hcs⟩)
      have hskip : ∀ es, meetsCased (c :: es) = meetsCased es := by
        intro es
        rw [meetsCased, List.dropWhile_cons_of_pos hc, meetsCased]
      rw [List.cons_append, hskip, hskip, ih hrest]
    · rw [List.cons_append, meetsCased, meetsCased, List.dropWhile_cons_of_neg hc,
        List.dropWhile_cons_of_neg hc]

theorem ignorable_reverse {cs : List Char} : Ignorable cs.reverse ↔ Ignorable cs := by
  simp only [Ignorable, List.mem_reverse]

theorem lowerSigma_eq_iff {before after before' after' : List Char} :
    lowerSigma before after = lowerSigma before' after' ↔
      endsWord before after = endsWord before' after' := by
  have hform : ∀ before after, lowerSigma before after = if endsWord before after then 'ς' else 'σ' :=
    fun _ _ => rfl
  rw [hform, hform]
  cases endsWord before after <;> cases endsWord before' after' <;> simp

/-- A part of a text is cut out of a word next to a capital sigma: the sigma ends the part, and in the
text the word goes on; or the sigma starts the part, and in the text it ends a word. What does not count
for the end of a word may stand between the sigma and the end, or the start, of the part. -/
inductive CutsSigma (before cs after : List Char) : Prop where
  | goesOn (start rest : List Char) (h : cs = start ++ 'Σ' :: rest) (hstart : meetsCased start.reverse)
      (hrest : Ignorable rest) (hafter : meetsCased after)
  | begun (start rest : List Char) (h : cs = start ++ 'Σ' :: rest) (hstart : Ignorable start)
      (hbefore : meetsCased before) (hrest : meetsCased (rest ++ after) = false)

/-- A capital sigma takes the same form in the part as in the text. -/
theorem endsWord_eq_iff {before start rest after : List Char} :
    endsWord (start.reverse ++ before) (rest ++ after) = endsWord start.reverse rest ↔
      ¬ (meetsCased start.reverse = true ∧ Ignorable rest ∧ meetsCased after = true) ∧
        ¬ (Ignorable start ∧ meetsCased before = true ∧ meetsCased (rest ++ after) = false) := by
  by_cases hstart : Ignorable start
  · -- nothing that counts stands before the sigma in the part
    have hreverse := ignorable_reverse.2 hstart
    have hnone := meetsCased_of_ignorable hreverse
    rw [endsWord, endsWord, meetsCased_append hreverse, hnone]
    cases meetsCased before <;> cases meetsCased (rest ++ after) <;> simp [hstart]
  · have hbefore := meetsCased_append_of_not (mt ignorable_reverse.1 hstart) before
    rw [endsWord, endsWord, hbefore]
    by_cases hrest : Ignorable rest
    · rw [meetsCased_append hrest, meetsCased_of_ignorable hrest]
      cases meetsCased start.reverse <;> cases meetsCased after <;> simp [hstart, hrest]
    · rw [meetsCased_append_of_not hrest]
      simp [hstart, hrest]

theorem not_cutsSigma_iff {before cs after : List Char} :
    ¬ CutsSigma before cs after ↔ ∀ start rest, cs = start ++ 'Σ' :: rest →
      endsWord (start.reverse ++ before) (rest ++ after) = endsWord start.reverse rest := by
  constructor
  · intro h start rest hcs
    rw [endsWord_eq_iff]
    exact ⟨fun ⟨hstart, hrest, hafter⟩ => h (.goesOn start rest hcs hstart hrest hafter),
      fun ⟨hstart, hbefore, hrest⟩ => h (.begun start rest hcs hstart hbefore hrest)⟩
  · intro h hcut
    cases hcut with
    | goesOn start rest hcs hstart hrest hafter =>
      exact (endsWord_eq_iff.1 (h start rest hcs)).1 ⟨hstart, hrest, hafter⟩
    | begun start rest hcs hstart hbefore hrest =>
      exact (endsWord_eq_iff.1 (h start rest hcs)).2 ⟨hstart, hbefore, hrest⟩

theorem not_cutsSigma_of_notMem {cs : List Char} (h : 'Σ' ∉ cs) (before after : List Char) :
    ¬ CutsSigma before cs after := by
  rw [not_cutsSigma_iff]
  rintro start rest rfl
  exact absurd (List.mem_append_right start (List.mem_cons_self ..)) h

/-! ## The lower-case form of a part -/

theorem length_lowerForm (c : Char) (before after before' after' : List Char) :
    (lowerForm before c after).length = (lowerForm before' c after').length := by
  unfold lowerForm
  split
  · rfl
  · split <;> rfl

/-- The lower-case form of a part is equally long wherever the part stands. -/
theorem length_lowerBetween (before cs after before' after' : List Char) :
    (lowerBetween before cs after).length = (lowerBetween before' cs after').length := by
  induction cs generalizing before before' with
  | nil => rfl
  | cons c cs ih =>
    rw [lowerBetween, lowerBetween, List.length_append, List.length_append,
      length_lowerForm c before _ before' (cs ++ after'), ih]

theorem lowerForm_eq_iff {c : Char} {before after before' after' : List Char} :
    lowerForm before c after = lowerForm before' c after' ↔
      (c = 'Σ' → endsWord before after = endsWord before' after') := by
  by_cases hc : c = 'Σ'
  · simp [lowerForm, hc, lowerSigma_eq_iff]
  · simp [lowerForm, hc]

/-- Two parts of texts have the same lower-case form if each capital sigma takes the same form in both;
`seen` is what of the part stands before, nearest character first. -/
theorem lowerBetween_append_eq_iff {before seen cs after : List Char} :
    lowerBetween (seen ++ before) cs after = lowerBetween seen cs [] ↔
      ∀ start rest, cs = start ++ 'Σ' :: rest →
        endsWord (start.reverse ++ (seen ++ before)) (rest ++ after) =
          endsWord (start.reverse ++ seen) rest := by
  induction cs generalizing seen with
  | nil => simp [lowerBetween]
  | cons c cs ih =>
    have hlength := length_lowerForm c (seen ++ before) (cs ++ after) seen (cs ++ [])
    have hparts : lowerBetween (seen ++ before) (c :: cs) after = lowerBetween seen (c :: cs) [] ↔
        lowerForm (seen ++ before) c (cs ++ after) = lowerForm seen c (cs ++ []) ∧
          lowerBetween (c :: seen ++ before) cs after = lowerBetween (c :: seen) cs [] :=
      ⟨fun h => List.append_inj h hlength, fun h => congrArg₂ _ h.1 h.2⟩
    rw [hparts, lowerForm_eq_iff, ih, List.append_nil]
    constructor
    · rintro ⟨hhead, htail⟩ (_ | ⟨d, start⟩) rest hcs
      · obtain ⟨rfl, rfl⟩ := List.cons.inj hcs
        exact hhead rfl
      · obtain ⟨rfl, rfl⟩ := List.cons.inj hcs
        simpa using htail start rest rfl
    · intro h
      refine ⟨?_, fun start rest hcs => ?_⟩
      · rintro rfl
        exact h [] cs rfl
      · simpa using h (c :: start) rest (by rw [hcs, List.cons_append])

/-- **A part of a text has its own lower-case form where it stands**, unless it is cut out of a word
next to a capital sigma. -/
theorem lowerBetween_eq_iff {before cs after : List Char} :
    lowerBetween before cs after = lowerBetween [] cs [] ↔ ¬ CutsSigma before cs after := by
  have h := @lowerBetween_append_eq_iff before [] cs after
  simp only [List.nil_append, List.append_nil] at h
  rw [h, not_cutsSigma_iff]

/-! ## Texts written one behind the other -/

theorem lower_eq_lowerBetween (s : String) : lower s = lowerBetween [] s.toList [] :=
  lowerFrom_eq_lowerBetween [] s.toList

/-- Texts one behind the other keep their lower-case forms, unless one of them is cut out of a word next
to a capital sigma. -/
theorem lower_append_of_not_cutsSigma {s t : String} (hs : ¬ CutsSigma [] s.toList t.toList)
    (ht : ¬ CutsSigma s.toList.reverse t.toList []) : lower (s ++ t) = lower s ++ lower t := by
  have hplace : (s ++ t).toList = s.toList ++ t.toList ++ [] := by simp
  rw [lower_append hplace, List.append_nil, lowerBetween_eq_iff.2 hs, lowerBetween_eq_iff.2 ht,
    ← lower_eq_lowerBetween, ← lower_eq_lowerBetween]
  exact List.append_nil _

/-- A text is not cut so whose last character counts and is no capital sigma, if nothing is before it. -/
theorem not_cutsSigma_of_last {start : List Char} {c : Char} (hc : c ≠ 'Σ')
    (hcounts : inRanges caseIgnorableRanges c = false) (after : List Char) :
    ¬ CutsSigma [] (start ++ [c]) after := by
  rw [not_cutsSigma_iff]
  intro before rest hcs
  have hrest : ¬ Ignorable rest := by
    intro h
    rcases List.eq_nil_or_concat rest with rfl | ⟨rest, d, rfl⟩
    · exact hc (List.append_inj_right' hcs rfl |> List.cons.inj |>.1)
    · have hlast : start ++ [c] = (before ++ 'Σ' :: rest) ++ [d] := by simpa using hcs
      obtain rfl : c = d := (List.cons.inj (List.append_inj_right' hlast rfl)).1
      have hd := h c (by simp)
      rw [hcounts] at hd
      cases hd
  rw [List.append_nil, endsWord, endsWord, meetsCased_append_of_not hrest]

/-- Any other character than the capital sigma and the dotted capital i is found in lower case. -/
theorem lowerChar_mem_lower {s : String} {c : Char} (hc : c ∈ s.toList) (hsigma : c ≠ 'Σ')
    (hdotted : c ≠ 'İ') : lowerChar c ∈ lower s := by
  have hfrom : ∀ (before cs : List Char), c ∈ cs → lowerChar c ∈ lowerFrom before cs := by
    intro before cs
    induction cs generalizing before with
    | nil => exact fun h => absurd h List.not_mem_nil
    | cons d cs ih =>
      intro h
      rw [lowerFrom, List.mem_append]
      rcases List.mem_cons.1 h with rfl | h
      · rw [if_neg hsigma, if_neg hdotted]
        exact .inl (List.mem_singleton_self _)
      · exact .inr (ih _ h)
  exact hfrom [] s.toList hc

/-! ## ASCII characters -/

theorem forall_ascii {P : Char → Prop} (h : ∀ n < 0x80, P (Char.ofNat n)) :
    ∀ c : Char, c.toNat < 0x80 → P c := by
  intro c hc
  have hP := h c.toNat hc
  rwa [Char.ofNat_toNat] at hP

theorem lowerChar_eq_toLower {c : Char} (h : c.toNat < 0x80) : lowerChar c = c.toLower := by
  have hall : ∀ c : Char, c.toNat < 0x80 → lowerChar c = c.toLower := forall_ascii (by decide)
  exact hall c h

theorem toNat_lt_of_toLower {c : Char} (h : c.toLower.toNat < 0x80) : c.toNat < 0x80 := by
  unfold Char.toLower at h
  split at h
  · next hcapital =>
    have hz : c.val.toNat ≤ 'Z'.val.toNat := hcapital.2
    have h90 : 'Z'.val.toNat = 90 := by decide
    show c.val.toNat < 0x80
    omega
  · exact h

theorem toLower_mem_lower {s : String} {c : Char} (hc : c ∈ s.toList) (h : c.toLower.toNat < 0x80) :
    c.toLower ∈ lower s := by
  have hlow := toNat_lt_of_toLower h
  have hne : ∀ d : Char, 0x80 ≤ d.toNat → c ≠ d := by
    rintro d hd rfl
    omega
  have hmem := lowerChar_mem_lower hc (hne 'Σ' (by decide)) (hne 'İ' (by decide))
  rwa [lowerChar_eq_toLower hlow] at hmem

/-! ## Searching in lower case -/

/-- A part of a text is found in it in lower case, unless it is cut out of a word next to a capital
sigma. -/
theorem occursIn_lower {needle hay : String} {before after : List Char}
    (hplace : hay.toList = before ++ needle.toList ++ after)
    (huncut : ¬ CutsSigma before.reverse needle.toList after) :
    occursIn (lower needle) (lower hay) = true := by
  have hlower := lower_append hplace
  rw [lowerBetween_eq_iff.2 huncut, ← lower_eq_lowerBetween] at hlower
  exact occursIn_iff.2 ⟨_, _, hlower.symm⟩

/-- A text is found in lower case to start with its first part exactly if that is not cut so. -/
theorem isPrefixOf_lower_iff {needle hay : String} {after : List Char}
    (hplace : hay.toList = needle.toList ++ after) :
    (lower needle).isPrefixOf (lower hay) = true ↔ ¬ CutsSigma [] needle.toList after := by
  have hlower : lower hay = lowerBetween [] needle.toList after ++
      lowerFrom (needle.toList.reverse ++ []) after := by
    rw [lower, hplace, lowerFrom_append]
  have hprefix : lowerBetween [] needle.toList after <+: lower hay := hlower ▸ List.prefix_append ..
  -- both forms of the part are equally long, so only one of them starts the text
  have hlength : (lower needle).length = (lowerBetween [] needle.toList after).length := by
    rw [lower_eq_lowerBetween]
    exact length_lowerBetween ..
  rw [List.isPrefixOf_iff_prefix, ← lowerBetween_eq_iff, ← lower_eq_lowerBetween]
  constructor
  · intro h
    exact ((List.prefix_of_prefix_length_le h hprefix hlength.le).eq_of_length hlength).symm
  · intro h
    rwa [h] at hprefix

instance (before cs after : List Char) : Decidable (CutsSigma before cs after) :=
  decidable_of_iff (lowerBetween before cs after ≠ lowerBetween [] cs [])
    ((not_congr lowerBetween_eq_iff).trans Classical.not_not)

end ContentVisibility.Text
