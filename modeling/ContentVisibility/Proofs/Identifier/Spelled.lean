import ContentVisibility.Identifier.Spelling
import Mathlib.Data.List.TakeWhile

/-!
# The two readers of identifiers

A spelling holds digits, hyphens, braces and the letters of a marker, and so no blank character. The
reader that allows blank characters around a spelling accepts the texts that the strict one accepts, and
these with blank characters around them.

* `Text.trimmed_of_forall`: a text without blank characters is left as it is;
* `Text.trimmed_padded`, `Text.exists_padding`: blank characters around a text are taken away, and no others;
* `isBlank_of_spelled?`: no character of a spelling is blank;
* `spelled?_eq_some_iff`: a text is a spelling if and only if it is read as one and has no blank characters
  around it.
-/

namespace ContentVisibility

/-! ## Blank characters -/

namespace Text

theorem dropWhile_isBlank {cs : List Char} (h : ∀ c ∈ cs, isBlank c = false) :
    cs.dropWhile isBlank = cs := by
  cases cs with
  | nil => rfl
  | cons c cs => exact List.dropWhile_cons_of_neg (by simp [h c (List.mem_cons_self ..)])

theorem trimmed_of_forall {cs : List Char} (h : ∀ c ∈ cs, isBlank c = false) : trimmed cs = cs := by
  have hreverse : ∀ c ∈ cs.reverse, isBlank c = false := fun c hc => h c (List.mem_reverse.1 hc)
  rw [trimmed, dropWhile_isBlank h, dropWhile_isBlank hreverse, List.reverse_reverse]

theorem trim_eq_self_iff {s : String} : trim s = s ↔ trimmed s.toList = s.toList := by
  constructor
  · intro h
    have hlist := congrArg String.toList h
    rwa [trim, String.toList_ofList] at hlist
  · intro h
    rw [trim, h, String.ofList_toList]

theorem trimmed_padded {before after : List Char} (cs : List Char)
    (hbefore : ∀ c ∈ before, isBlank c = true) (hafter : ∀ c ∈ after, isBlank c = true) :
    trimmed (before ++ cs ++ after) = trimmed cs := by
  have hafter' : ∀ c ∈ after.reverse, isBlank c = true := fun c hc => hafter c (List.mem_reverse.1 hc)
  rw [trimmed, trimmed, List.append_assoc, List.dropWhile_append_of_pos hbefore, List.dropWhile_append]
  cases hrest : cs.dropWhile isBlank with
  | nil => simp [List.dropWhile_eq_nil_iff.2 hafter]
  | cons c rest =>
    rw [List.isEmpty_cons, if_neg Bool.false_ne_true, List.reverse_append,
      List.dropWhile_append_of_pos hafter']

/-- Only blank characters are taken from the two ends of a text. -/
theorem exists_padding (cs : List Char) : ∃ before after, cs = before ++ trimmed cs ++ after ∧
    (∀ c ∈ before, isBlank c = true) ∧ ∀ c ∈ after, isBlank c = true := by
  have hrest : cs.dropWhile isBlank =
      trimmed cs ++ ((cs.dropWhile isBlank).reverse.takeWhile isBlank).reverse := by
    rw [trimmed, ← List.reverse_append, List.takeWhile_append_dropWhile, List.reverse_reverse]
  refine ⟨cs.takeWhile isBlank, ((cs.dropWhile isBlank).reverse.takeWhile isBlank).reverse, ?_,
    fun c hc => List.mem_takeWhile_imp hc, fun c hc => List.mem_takeWhile_imp (List.mem_reverse.1 hc)⟩
  rw [List.append_assoc, ← hrest, List.takeWhile_append_dropWhile]

/-- Of the first characters those from the exclamation mark to the tilde are not blank. -/
theorem isBlank_of_visible {c : Char} (hfrom : 0x21 ≤ c.toNat) (hto : c.toNat ≤ 0x7E) :
    isBlank c = false := by
  have hout : ∀ range ∈ blankRanges, range.2 < 0x21 ∨ 0x7E < range.1 := by decide
  apply List.any_eq_false.2
  intro range hmem hin
  rw [Bool.and_eq_true, decide_eq_true_eq, decide_eq_true_eq] at hin
  have hrange := hout range hmem
  omega

theorem isBlank_of_hexValue? {c : Char} (h : (hexValue? c).isSome = true) : isBlank c = false := by
  obtain ⟨hfrom, hto⟩ := toNat_of_hexValue? h
  exact isBlank_of_visible (by omega) (by omega)

/-- Only capital letters have another lower case, and they are not blank. -/
theorem isBlank_of_toLower {c : Char} (h : isBlank c.toLower = false) : isBlank c = false := by
  unfold Char.toLower at h
  split at h
  · next hcapital =>
    have hfrom : 65 ≤ c.toNat := hcapital.1
    have hto : c.toNat ≤ 90 := hcapital.2
    exact isBlank_of_visible (by omega) (by omega)
  · exact h

theorem isSome_of_hexReadFrom? {start n : Nat} {cs : List Char} (h : hexReadFrom? start cs = some n) :
    ∀ c ∈ cs, (hexValue? c).isSome = true := by
  induction cs generalizing start with
  | nil => exact fun _ hc => nomatch hc
  | cons c cs ih =>
    cases hvalue : hexValue? c with
    | none => simp [hexReadFrom?, hvalue] at h
    | some value =>
      have hrest : hexReadFrom? (16 * start + value) cs = some n := by
        simpa [hexReadFrom?, hvalue] using h
      intro d hd
      rcases List.mem_cons.1 hd with rfl | hd
      · exact Option.isSome_of_eq_some hvalue
      · exact ih hrest d hd

end Text

namespace Identifier

variable {kind : IdKind} {cs ds : List Char} {c : Char}

/-! ## Characters of a spelling -/

theorem mem_of_unhyphenate? {ns : List Nat} (h : unhyphenate? ns cs = some ds) (hc : c ∈ cs) :
    c ∈ ds ∨ c = '-' := by
  induction ns generalizing cs ds with
  | nil =>
    cases cs with
    | nil => cases hc
    | cons _ _ => cases h
  | cons n ns ih =>
    cases ns with
    | nil =>
      simp only [unhyphenate?] at h
      split at h
      · cases h
        exact .inl hc
      · cases h
    | cons m ns =>
      simp only [unhyphenate?] at h
      split at h
      · next rest hdrop =>
        obtain ⟨others, hothers, rfl⟩ := Option.map_eq_some_iff.1 h
        rw [← List.take_append_drop n cs, hdrop, List.mem_append, List.mem_cons] at hc
        rcases hc with hrun | rfl | hrest
        · exact .inl (List.mem_append_left _ hrun)
        · exact .inr rfl
        · exact (ih hothers hrest).imp_left (List.mem_append_right _)
      · cases h

theorem betweenBraces?_eq_some_iff : betweenBraces? cs = some ds ↔ cs = '{' :: (ds ++ ['}']) := by
  constructor
  · intro h
    unfold betweenBraces? at h
    split at h
    · next rest =>
      split at h
      · next hlast =>
        obtain ⟨body, rfl⟩ := List.getLast?_eq_some_iff.1 hlast
        rw [List.dropLast_concat] at h
        cases h
        rfl
      · cases h
    · cases h
  · rintro rfl
    simp [betweenBraces?]

theorem betweenBraces?_eq_none (h : '{' ∉ cs) : betweenBraces? cs = none := by
  refine Option.eq_none_iff_forall_ne_some.2 fun body hbody => h ?_
  rw [betweenBraces?_eq_some_iff.1 hbody]
  exact List.mem_cons_self ..

theorem mem_of_betweenBraces? (h : betweenBraces? cs = some ds) (hc : c ∈ cs) :
    c ∈ ds ∨ c = '{' ∨ c = '}' := by
  rw [betweenBraces?_eq_some_iff.1 h, List.mem_cons, List.mem_append, List.mem_singleton] at hc
  rcases hc with hopen | hbody | hclose
  · exact .inr (.inl hopen)
  · exact .inl hbody
  · exact .inr (.inr hclose)

theorem afterUrn?_eq_some_iff :
    afterUrn? cs = some ds ↔ ∃ marker, marker.map Char.toLower = urn ∧ cs = marker ++ ds := by
  constructor
  · intro h
    unfold afterUrn? at h
    split at h
    · next hmarker =>
      cases h
      exact ⟨cs.take urn.length, hmarker, (List.take_append_drop ..).symm⟩
    · cases h
  · rintro ⟨marker, hmarker, rfl⟩
    have hlength : marker.length = urn.length := by rw [← hmarker, List.length_map]
    rw [afterUrn?, List.take_left' hlength, if_pos hmarker, List.drop_left' hlength]

theorem afterUrn?_eq_none (h : ∀ c ∈ cs, c.toLower ≠ 'u') : afterUrn? cs = none := by
  refine Option.eq_none_iff_forall_ne_some.2 fun body hbody => ?_
  obtain ⟨marker, hmarker, rfl⟩ := afterUrn?_eq_some_iff.1 hbody
  have hu : 'u' ∈ marker.map Char.toLower := by
    rw [hmarker]
    decide
  obtain ⟨first, hfirst, hlower⟩ := List.mem_map.1 hu
  exact h first (List.mem_append_left _ hfirst) hlower

theorem mem_of_afterUrn? (h : afterUrn? cs = some ds) (hc : c ∈ cs) :
    c ∈ ds ∨ c.toLower ∈ urn := by
  obtain ⟨marker, hmarker, rfl⟩ := afterUrn?_eq_some_iff.1 h
  rcases List.mem_append.1 hc with hrun | hrest
  · rw [← hmarker]
    exact .inr (List.mem_map_of_mem hrun)
  · exact .inl hrest

theorem isBlank_of_mem_urn (h : c ∈ urn) : Text.isBlank c = false := by
  have hall : (urn.all fun c => !Text.isBlank c) = true := by decide
  simpa using List.all_eq_true.1 hall c h

/-- What is no place of a digit is a hyphen, a brace or a letter of the marker. -/
theorem mem_of_digitPlaces? (h : digitPlaces? cs = some ds) (hc : c ∈ cs) :
    c ∈ ds ∨ Text.isBlank c = false := by
  unfold digitPlaces? at h
  split at h
  · cases h
    exact .inl hc
  · have hbody : c ∈ (betweenBraces? cs).getD ((afterUrn? cs).getD cs) ∨ Text.isBlank c = false := by
      cases hbraces : betweenBraces? cs with
      | some body =>
        refine (mem_of_betweenBraces? hbraces hc).imp_right ?_
        rintro (rfl | rfl) <;> decide
      | none =>
        cases hurn : afterUrn? cs with
        | some body =>
          refine (mem_of_afterUrn? hurn hc).imp_right fun hmem => ?_
          exact Text.isBlank_of_toLower (isBlank_of_mem_urn hmem)
        | none => exact .inl hc
    rcases hbody with hbody | hblank
    · refine (mem_of_unhyphenate? h hbody).imp_right ?_
      rintro rfl
      decide
    · exact .inr hblank

/-- **No character of a spelling is blank.** -/
theorem isBlank_of_spelled? {id : Identifier kind} (h : spelled? cs = some id) :
    ∀ c ∈ cs, Text.isBlank c = false := by
  obtain ⟨n, hread, -⟩ := Option.map_eq_some_iff.1 h
  obtain ⟨ds, hplaces, hdigits⟩ := Option.bind_eq_some_iff.1 hread
  intro c hc
  rcases mem_of_digitPlaces? hplaces hc with hdigit | hblank
  · exact Text.isBlank_of_hexValue? (Text.isSome_of_hexReadFrom? hdigits c hdigit)
  · exact hblank

/-! ## The two readers -/

/-- A text with blank characters around it is no spelling; any other is read by both readers alike. -/
theorem spelled?_eq (s : String) :
    (spelled? s.toList : Option (Identifier kind)) = if Text.trim s = s then parse? s else none := by
  rw [parse?]
  split
  · next htrim => rw [Text.trim_eq_self_iff.1 htrim]
  · next htrim =>
    apply Option.eq_none_iff_forall_ne_some.2
    intro id h
    exact htrim (Text.trim_eq_self_iff.2 (Text.trimmed_of_forall (isBlank_of_spelled? h)))

theorem parse_eq_ok_iff {s : String} {id : Identifier kind} :
    parse s = .ok id ↔ parse? s = some id := by
  rw [parse]
  cases hread : (parse? s : Option (Identifier kind)) with
  | none => exact ⟨nofun, nofun⟩
  | some other => simp

/-- **A text is a spelling if and only if it is read as one and has no blank characters around it.** -/
theorem spelled?_eq_some_iff {s : String} {id : Identifier kind} :
    spelled? s.toList = some id ↔ parse s = .ok id ∧ Text.trim s = s := by
  rw [spelled?_eq, parse_eq_ok_iff]
  by_cases htrim : Text.trim s = s
  · simp [htrim]
  · simp [htrim]

end Identifier

end ContentVisibility
