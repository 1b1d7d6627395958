import ContentVisibility.Proofs.Identifier.Order

/-!
# The forms of an identifier

An identifier has 32 digits, each of them in either letter case. They stand alone, or in runs of 8, 4, 4, 4
and 12 with hyphens between, and these runs may stand between braces or after the marker of a resource name.

* `Text.hexRead?_eq_some_iff`: digits are read as the number whose digits they are in lower case;
* `Identifier.IsForm`: the forms of an identifier;
* `Identifier.spelled?_eq_some_iff_isForm`: the spellings are the forms;
* `Identifier.parse_exactly_forms`: what is read as an identifier, and what a refusal holds.
-/

namespace ContentVisibility

namespace Text

/-! ## Digits in either letter case -/

/-- The value of a digit does not depend on its letter case. -/
theorem hexValue?_eq_some_iff {c : Char} {d : Nat} :
    hexValue? c = some d ↔ d < 16 ∧ c.toLower = hexDigit d := by
  constructor
  · intro h
    have hall : ∀ c : Char, c.toNat < 0x80 → ∀ d ∈ hexValue? c, d < 16 ∧ c.toLower = hexDigit d :=
      forall_ascii (by decide)
    have hto := (toNat_of_hexValue? (Option.isSome_of_eq_some h)).2
    exact hall c (by omega) d h
  · rintro ⟨hd, hc⟩
    have hlow : ∀ d < 16, (hexDigit d).toNat < 0x80 := by decide
    have hall : ∀ c : Char, c.toNat < 0x80 → hexValue? c = hexValue? c.toLower := forall_ascii (by decide)
    rw [hall c (toNat_lt_of_toLower (hc ▸ hlow d hd)), hc, hexValue?_hexDigit hd]

theorem hexRead?_eq_some_iff {cs : List Char} {n : Nat} :
    hexRead? cs = some n ↔ n < 16 ^ cs.length ∧ cs.map Char.toLower = hexWritten cs.length n := by
  -- The last digit decides the last digit of the number, so the induction takes the digits from the end.
  induction cs using List.reverseRecOn generalizing n with
  | nil =>
    simp [hexRead?, hexReadFrom?, hexWritten, eq_comm]
  | append_singleton cs c ih =>
    have hread : hexRead? (cs ++ [c]) = some n ↔
        ∃ m, hexRead? cs = some m ∧ ∃ d, hexValue? c = some d ∧ 16 * m + d = n := by
      rw [hexRead?, hexReadFrom?_append, Option.bind_eq_some_iff]
      simp [hexRead?, hexReadFrom?, bind, Option.bind_eq_some_iff]
    rw [hread, List.length_append, List.length_singleton, hexWritten, List.map_append, List.map_singleton,
      Nat.pow_succ]
    constructor
    · rintro ⟨m, hm, d, hd, rfl⟩
      obtain ⟨hlt, hdigits⟩ := ih.1 hm
      obtain ⟨hd16, hdigit⟩ := hexValue?_eq_some_iff.1 hd
      have hquotient : (16 * m + d) / 16 = m := by omega
      have hremainder : (16 * m + d) % 16 = d := by omega
      rw [hquotient, hremainder, hdigits, hdigit]
      exact ⟨by omega, rfl⟩
    · rintro ⟨hlt, hdigits⟩
      have hlength : (cs.map Char.toLower).length = (hexWritten cs.length (n / 16)).length := by
        rw [List.length_map, length_hexWritten]
      obtain ⟨hothers, hlast⟩ := List.append_inj hdigits hlength
      have hd : n % 16 < 16 := Nat.mod_lt _ (by decide)
      refine ⟨n / 16, ih.2 ⟨by omega, hothers⟩, n % 16,
        hexValue?_eq_some_iff.2 ⟨hd, (List.cons.inj hlast).1⟩, by omega⟩

/-- The digits of a number one by one, the first place being the most significant one. -/
theorem hexWritten_eq_map (width n : Nat) : hexWritten width n =
    (List.range width).map fun place => lowerDigits.getD (n / 16 ^ (width - 1 - place) % 16) '0' := by
  have hdigit : ∀ d < 16, hexDigit d = lowerDigits.getD d '0' := by decide
  induction width generalizing n with
  | zero => rfl
  | succ width ih =>
    rw [hexWritten, ih, List.range_succ, List.map_append, hdigit _ (Nat.mod_lt n (by decide))]
    congr 1
    · refine List.map_congr_left fun place hplace => ?_
      have hlt := List.mem_range.1 hplace
      have hplaces : width + 1 - 1 - place = (width - 1 - place) + 1 := by omega
      rw [hplaces, Nat.pow_succ', Nat.div_div_eq_div_mul]
    · simp

end Text

namespace Identifier

variable {kind : IdKind} {cs ds : List Char} {id : Identifier kind}

/-! ## Forms -/

/-- The digit at a place of a number that is written with 32 digits. The first place is the most
significant one. -/
def digitAt (n place : Nat) : Char := Text.lowerDigits.getD (n / 16 ^ (31 - place) % 16) '0'

/-- The characters are the digits of the identifier, each of them in either letter case. -/
def HasDigits (id : Identifier kind) (ds : List Char) : Prop :=
  ds.map Char.toLower = (List.range 32).map (digitAt id.number)

/-- Runs of 8, 4, 4, 4 and 12 characters with hyphens between. -/
def inRuns (ds : List Char) : List Char :=
  ['-'].intercalate [ds.take 8, (ds.drop 8).take 4, (ds.drop 12).take 4, (ds.drop 16).take 4, ds.drop 20]

/-- The marker of a resource name in any letter case. -/
def IsUrn (cs : List Char) : Prop := cs.map Char.toLower = "urn:uuid:".toList

/-- The forms of an identifier, where some texts are markers of a resource name. -/
inductive IsForm (IsMarker : List Char → Prop) (id : Identifier kind) : List Char → Prop where
  | plain {ds : List Char} (hdigits : id.HasDigits ds) : IsForm IsMarker id ds
  | hyphenated {ds : List Char} (hdigits : id.HasDigits ds) : IsForm IsMarker id (inRuns ds)
  | braced {ds : List Char} (hdigits : id.HasDigits ds) : IsForm IsMarker id ('{' :: (inRuns ds ++ ['}']))
  | named {marker ds : List Char} (hmarker : IsMarker marker) (hdigits : id.HasDigits ds) :
    IsForm IsMarker id (marker ++ inRuns ds)

theorem hyphenate_runLengths (ds : List Char) : hyphenate runLengths ds = inRuns ds := by
  simp [runLengths, hyphenate_cons_cons, hyphenate, inRuns, List.intercalate, List.intersperse]

theorem digits_eq_map (id : Identifier kind) : id.digits = (List.range 32).map (digitAt id.number) :=
  Text.hexWritten_eq_map 32 id.number

theorem HasDigits.length_eq (h : id.HasDigits ds) : ds.length = 32 := by
  simpa using congrArg List.length h

theorem length_inRuns (h : id.HasDigits ds) : (inRuns ds).length = 36 := by
  rw [← hyphenate_runLengths, length_hyphenate_runLengths h.length_eq]

/-- Read as a number, the digits of an identifier give its number. -/
theorem hasDigits_iff : id.HasDigits ds ↔ ds.length = 32 ∧ Text.hexRead? ds = some id.number := by
  constructor
  · intro h
    have hlength := h.length_eq
    refine ⟨hlength, Text.hexRead?_eq_some_iff.2 ?_⟩
    rw [hlength]
    exact ⟨id.number_lt, h.trans id.digits_eq_map.symm⟩
  · rintro ⟨hlength, h⟩
    have hdigits := (Text.hexRead?_eq_some_iff.1 h).2
    rw [hlength] at hdigits
    exact hdigits.trans id.digits_eq_map

theorem number_ofNumber {n : Nat} (h : n < 16 ^ 32) : (ofNumber n : Identifier kind).number = n :=
  Nat.mod_eq_of_lt h

/-! ## Spellings -/

theorem digitPlaces?_iff_of_hasDigits (h : id.HasDigits ds) :
    digitPlaces? cs = some ds ↔ cs = ds ∨ cs = inRuns ds ∨ cs = '{' :: (inRuns ds ++ ['}']) ∨
      ∃ marker, IsUrn marker ∧ cs = marker ++ inRuns ds := by
  obtain ⟨hlength, hread⟩ := hasDigits_iff.1 h
  rw [digitPlaces?_eq_some_iff (Text.isSome_of_hexReadFrom? hread), hyphenate_runLengths]
  exact and_iff_right hlength

theorem spelled?_of_digitPlaces? (h : id.HasDigits ds) (hplaces : digitPlaces? cs = some ds) :
    spelled? cs = some id := by
  rw [spelled?, hplaces, Option.bind_some, (hasDigits_iff.1 h).2, Option.map_some, ofNumber_number]

theorem exists_of_spelled? (h : spelled? cs = some id) :
    ∃ ds, id.HasDigits ds ∧ digitPlaces? cs = some ds := by
  obtain ⟨n, hread, rfl⟩ := Option.map_eq_some_iff.1 h
  obtain ⟨ds, hplaces, hdigits⟩ := Option.bind_eq_some_iff.1 hread
  have hlength := ((digitPlaces?_eq_some_iff (Text.isSome_of_hexReadFrom? hdigits)).1 hplaces).1
  have hlt := (Text.hexRead?_eq_some_iff.1 hdigits).1
  rw [hlength] at hlt
  refine ⟨ds, hasDigits_iff.2 ⟨hlength, ?_⟩, hplaces⟩
  rw [number_ofNumber hlt, hdigits]

/-- The spellings of an identifier are its forms, the marker of a resource name being taken in any letter
case. -/
theorem spelled?_eq_some_iff_isForm : spelled? cs = some id ↔ IsForm IsUrn id cs := by
  constructor
  · intro h
    obtain ⟨ds, hdigits, hplaces⟩ := exists_of_spelled? h
    rcases (digitPlaces?_iff_of_hasDigits hdigits).1 hplaces with rfl | rfl | rfl | ⟨marker, hmarker, rfl⟩
    · exact .plain hdigits
    · exact .hyphenated hdigits
    · exact .braced hdigits
    · exact .named hmarker hdigits
  · intro h
    cases h with
    | plain hdigits =>
      exact spelled?_of_digitPlaces? hdigits ((digitPlaces?_iff_of_hasDigits hdigits).2 (.inl rfl))
    | hyphenated hdigits =>
      exact spelled?_of_digitPlaces? hdigits
        ((digitPlaces?_iff_of_hasDigits hdigits).2 (.inr (.inl rfl)))
    | braced hdigits =>
      exact spelled?_of_digitPlaces? hdigits
        ((digitPlaces?_iff_of_hasDigits hdigits).2 (.inr (.inr (.inl rfl))))
    | named hmarker hdigits =>
      exact spelled?_of_digitPlaces? hdigits
        ((digitPlaces?_iff_of_hasDigits hdigits).2 (.inr (.inr (.inr ⟨_, hmarker, rfl⟩))))

/-! ## What is read, and what is refused -/

theorem trimmed_of_isForm {before form after : List Char} (hbefore : ∀ c ∈ before, Text.isBlank c = true)
    (hafter : ∀ c ∈ after, Text.isBlank c = true) (h : IsForm IsUrn id form) :
    Text.trimmed (before ++ form ++ after) = form := by
  rw [Text.trimmed_padded form hbefore hafter]
  exact Text.trimmed_of_forall (isBlank_of_spelled? (spelled?_eq_some_iff_isForm.2 h))

theorem parse_eq_ok_iff_isForm {s : String} : parse s = .ok id ↔ IsForm IsUrn id (Text.trim s).toList := by
  rw [parse_eq_ok_iff, parse?, spelled?_eq_some_iff_isForm, Text.trim, String.toList_ofList]

theorem parse_eq_error_iff {s : String} {e : ParseError} :
    (parse s : Except ParseError (Identifier kind)) = .error e ↔
      e = ⟨kind, s⟩ ∧ ∀ id : Identifier kind, parse s ≠ .ok id := by
  rw [parse]
  cases hread : (parse? s : Option (Identifier kind)) with
  | none => simp [eq_comm]
  | some other => simp

/-- **Reading inverts writing for every form of an identifier, and nothing else is read.** A text is read as
an identifier if and only if it is a form of it, with blank characters around it or without. The written
form is the hyphenated one with digits in lower case. Any other text is refused, and the refusal holds the
text as it was given. -/
theorem parse_exactly_forms (id : Identifier kind) (s : String) :
    (parse s = .ok id ↔ ∃ before form after, s.toList = before ++ form ++ after ∧
      (∀ c ∈ before, Text.isBlank c = true) ∧ (∀ c ∈ after, Text.isBlank c = true) ∧
      IsForm IsUrn id form) ∧
    (parse s = .ok id ↔ IsForm IsUrn id (Text.trim s).toList) ∧
    (id.text.toList = inRuns ((List.range 32).map (digitAt id.number)) ∧ parse id.text = .ok id) ∧
    ∀ e : ParseError, (parse s : Except ParseError (Identifier kind)) = .error e ↔
      e = ⟨kind, s⟩ ∧ ∀ other : Identifier kind, ¬ IsForm IsUrn other (Text.trim s).toList := by
  refine ⟨?_, parse_eq_ok_iff_isForm, ⟨?_, id.parse_text⟩, fun e => ?_⟩
  · rw [parse_eq_ok_iff_isForm, Text.trim, String.toList_ofList]
    constructor
    · intro h
      obtain ⟨before, after, hs, hbefore, hafter⟩ := Text.exists_padding s.toList
      exact ⟨before, _, after, hs, hbefore, hafter, h⟩
    · rintro ⟨before, form, after, hs, hbefore, hafter, h⟩
      rw [hs, trimmed_of_isForm hbefore hafter h]
      exact h
  · rw [toList_text, hyphenate_runLengths, digits_eq_map]
  · rw [parse_eq_error_iff]
    exact and_congr_right fun _ => forall_congr' fun _ => parse_eq_ok_iff_isForm.not

/-- A group whose number has letters among its digits. -/
def sampleGroup : GroupId := .ofNumber 0x6f1c2b0a3d4e4f508a617b8c9d0e1f23

/-- The digits of the group in mixed letter case. -/
def mixedDigits : List Char := "6F1c2B0a3d4E4f508A617b8C9d0E1f23".toList

/-- The group as a resource name, in mixed letter case and with blank characters around. -/
def paddedName : String := "\u00a0\u2003URN:uuid:6F1c2B0a-3d4E-4f50-8A61-7b8C9d0E1f23\u3000\n"

theorem parse_exactly_forms_paddedName : parse paddedName = .ok sampleGroup ∧
    parse "6f1c2b0a-3d4e-4f50-8a61-7b8c9d0e1f23" = .ok sampleGroup := by
  have hdigits : sampleGroup.HasDigits mixedDigits := by
    rw [HasDigits]
    decide +kernel
  have hbefore : "\u00a0\u2003".toList.all Text.isBlank = true := by decide
  have hafter : "\u3000\n".toList.all Text.isBlank = true := by decide
  have hname := ((parse_exactly_forms sampleGroup paddedName).1).2
    ⟨_, "URN:uuid:".toList ++ inRuns mixedDigits, _, by decide +kernel, List.all_eq_true.1 hbefore,
      List.all_eq_true.1 hafter, .named (by rw [IsUrn]; decide) hdigits⟩
  have hwritten := ((parse_exactly_forms sampleGroup paddedName).2.2.1).2
  have htext : sampleGroup.text = "6f1c2b0a-3d4e-4f50-8a61-7b8c9d0e1f23" := by decide +kernel
  exact ⟨hname, htext ▸ hwritten⟩

/-- The group as a resource name with the marker in capital letters. -/
def capitalName : String := "URN:UUID:6f1c2b0a-3d4e-4f50-8a61-7b8c9d0e1f23"

/-- The marker of a resource name may be written in capital letters, too. -/
theorem parse_capitalName : parse capitalName = .ok sampleGroup ∧
    ¬ IsForm (fun marker => marker = "urn:uuid:".toList) sampleGroup (Text.trim capitalName).toList := by
  constructor
  · decide +kernel
  · intro h
    generalize hcs : (Text.trim capitalName).toList = cs at h
    have hlength : cs.length = 45 := by
      rw [← hcs]
      decide +kernel
    cases h with
    | plain hdigits =>
      rw [hdigits.length_eq] at hlength
      cases hlength
    | hyphenated hdigits =>
      rw [length_inRuns hdigits] at hlength
      cases hlength
    | braced hdigits =>
      rw [List.length_cons, List.length_append, length_inRuns hdigits] at hlength
      cases hlength
    | named hmarker _ =>
      have hfirst : (Text.trim capitalName).toList.head? = some 'u' := by
        rw [hcs, hmarker]
        rfl
      exact absurd hfirst (by decide +kernel)

end Identifier

end ContentVisibility
