import ContentVisibility.Proofs.Identifier.Spelled
import ContentVisibility.Proofs.Json.Scalars
import ContentVisibility.Proofs.Text.Fold
import Mathlib.Algebra.BigOperators.Group.List.Basic

/-!
# Written identifiers

The written form of an identifier is one of its spellings.

* `unhyphenate?_eq_some_iff`: hyphens put between runs are taken out again, and no others;
* `digitPlaces?_eq_some_iff`: where the digits of a spelling stand;
* `spelled?_text`: the written form spells the identifier;
* `parse_text`: the written form is read as the identifier.
-/

namespace ContentVisibility.Identifier

variable {kind : IdKind}

/-! ## Hyphens -/

theorem hyphenate_cons_cons (n m : Nat) (ns : List Nat) (cs : List Char) :
    hyphenate (n :: m :: ns) cs = cs.take n ++ '-' :: hyphenate (m :: ns) (cs.drop n) := by
  rw [hyphenate]
  exact List.cons_ne_nil m ns

theorem unhyphenate?_hyphenate {ns : List Nat} (hne : ns ≠ []) {cs : List Char}
    (h : cs.length = ns.sum) : unhyphenate? ns (hyphenate ns cs) = some cs := by
  induction ns generalizing cs with
  | nil => exact absurd rfl hne
  | cons n ns ih =>
    rw [List.sum_cons] at h
    cases ns with
    | nil => exact if_pos h
    | cons m ns =>
      have hrun : (cs.take n).length = n := List.length_take_of_le (by omega)
      have hrest : (cs.drop n).length = (m :: ns).sum := by
        rw [List.length_drop]
        omega
      have hothers := ih (List.cons_ne_nil m ns) hrest
      rw [hyphenate_cons_cons, unhyphenate?, List.drop_left' hrun]
      · simp only [hothers, Option.map_some, List.take_left' hrun, List.take_append_drop]
      · exact List.cons_ne_nil m ns

/-- Nothing but the hyphens between the runs is taken out. -/
theorem unhyphenate?_eq_some_iff {ns : List Nat} (hne : ns ≠ []) {cs ds : List Char} :
    unhyphenate? ns cs = some ds ↔ ds.length = ns.sum ∧ cs = hyphenate ns ds := by
  constructor
  · intro h
    induction ns generalizing cs ds with
    | nil => exact absurd rfl hne
    | cons n ns ih =>
      cases ns with
      | nil =>
        simp only [unhyphenate?] at h
        split at h
        · next hlength =>
          cases h
          exact ⟨hlength, rfl⟩
        · cases h
      | cons m ns =>
        simp only [unhyphenate?] at h
        split at h
        · next rest hdrop =>
          obtain ⟨others, hothers, rfl⟩ := Option.map_eq_some_iff.1 h
          obtain ⟨hlength, rfl⟩ := ih (List.cons_ne_nil m ns) hothers
          have hlt : n < cs.length := by
            by_contra hle
            rw [List.drop_eq_nil_of_le (Nat.le_of_not_lt hle)] at hdrop
            cases hdrop
          have hrun : (cs.take n).length = n := List.length_take_of_le hlt.le
          rw [hyphenate_cons_cons, List.take_left' hrun, List.drop_left' hrun, ← hdrop,
            List.take_append_drop, List.length_append, hrun, hlength, List.sum_cons]
          exact ⟨rfl, rfl⟩
        · cases h
  · rintro ⟨hlength, rfl⟩
    exact unhyphenate?_hyphenate hne hlength

theorem length_hyphenate {ns : List Nat} {cs : List Char} (h : cs.length = ns.sum) :
    (hyphenate ns cs).length = cs.length + (ns.length - 1) := by
  induction ns generalizing cs with
  | nil => rfl
  | cons n ns ih =>
    cases ns with
    | nil => rfl
    | cons m ns =>
      rw [List.sum_cons] at h
      have hrun : (cs.take n).length = n := List.length_take_of_le (by omega)
      have hrest : (cs.drop n).length = (m :: ns).sum := by
        rw [List.length_drop]
        omega
      have hothers := ih hrest
      rw [List.length_drop, List.length_cons] at hothers
      rw [hyphenate, List.length_append, List.length_cons, hothers, hrun]
      · simp only [List.length_cons]
        omega
      · exact nofun

theorem length_hyphenate_runLengths {ds : List Char} (h : ds.length = 32) :
    (hyphenate runLengths ds).length = 36 := by
  have hsum : ds.length = runLengths.sum := h
  rw [length_hyphenate hsum, h]
  rfl

/-! ## Digits -/

/-- A digit opens neither braces nor the marker of a resource name. -/
theorem opens_of_hexValue? {c : Char} (h : (Text.hexValue? c).isSome = true) :
    c ≠ '{' ∧ c.toLower ≠ 'u' := by
  have hall : ∀ c : Char, c.toNat < 0x80 → (Text.hexValue? c).isSome = true →
      c ≠ '{' ∧ c.toLower ≠ 'u' := Text.forall_ascii (by decide)
  have hto := (Text.toNat_of_hexValue? h).2
  exact hall c (by omega) h

theorem opens_of_mem_hyphenate {ds : List Char} (hlength : ds.length = 32)
    (hdigits : ∀ c ∈ ds, (Text.hexValue? c).isSome = true) :
    ∀ c ∈ hyphenate runLengths ds, c ≠ '{' ∧ c.toLower ≠ 'u' := by
  intro c hc
  rcases mem_of_unhyphenate? (unhyphenate?_hyphenate (by decide) hlength) hc with hdigit | rfl
  · exact opens_of_hexValue? (hdigits c hdigit)
  · decide

/-! ## The places of the digits -/

theorem digitPlaces?_of_body {cs ds : List Char} (hlength : ds.length = 32) (hlong : cs.length ≠ 32)
    (hbody : (betweenBraces? cs).getD ((afterUrn? cs).getD cs) = hyphenate runLengths ds) :
    digitPlaces? cs = some ds := by
  rw [digitPlaces?, if_neg hlong, hbody]
  exact unhyphenate?_hyphenate (by decide) hlength

/-- The digits of a spelling stand alone, or in runs with hyphens between, or so between braces or after
the marker of a resource name. -/
theorem digitPlaces?_eq_some_iff {cs ds : List Char}
    (hdigits : ∀ c ∈ ds, (Text.hexValue? c).isSome = true) :
    digitPlaces? cs = some ds ↔ ds.length = 32 ∧
      (cs = ds ∨ cs = hyphenate runLengths ds ∨ cs = '{' :: (hyphenate runLengths ds ++ ['}']) ∨
        ∃ marker, marker.map Char.toLower = urn ∧ cs = marker ++ hyphenate runLengths ds) := by
  constructor
  · intro h
    unfold digitPlaces? at h
    split at h
    · next hlength =>
      cases h
      exact ⟨hlength, .inl rfl⟩
    · obtain ⟨hlength, hbody⟩ := (unhyphenate?_eq_some_iff (by decide)).1 h
      refine ⟨hlength, .inr ?_⟩
      cases hbraces : betweenBraces? cs with
      | some body =>
        obtain rfl : body = hyphenate runLengths ds := by simpa [hbraces] using hbody
        exact .inr (.inl (betweenBraces?_eq_some_iff.1 hbraces))
      | none =>
        cases hurn : afterUrn? cs with
        | some body =>
          obtain rfl : body = hyphenate runLengths ds := by simpa [hbraces, hurn] using hbody
          exact .inr (.inr (afterUrn?_eq_some_iff.1 hurn))
        | none => exact .inl (by simpa [hbraces, hurn] using hbody)
  · rintro ⟨hlength, h⟩
    have hlong := length_hyphenate_runLengths hlength
    have hopens := opens_of_mem_hyphenate hlength hdigits
    -- digits open neither braces nor the marker, so that each form is told from the ones tried before
    rcases h with rfl | rfl | rfl | ⟨marker, hmarker, rfl⟩
    · exact if_pos hlength
    · refine digitPlaces?_of_body hlength (by omega) ?_
      rw [betweenBraces?_eq_none fun hmem => (hopens _ hmem).1 rfl,
        afterUrn?_eq_none fun c hmem => (hopens c hmem).2]
      rfl
    · refine digitPlaces?_of_body hlength ?_ ?_
      · rw [List.length_cons, List.length_append, hlong]
        decide
      · rw [betweenBraces?_eq_some_iff.2 rfl]
        rfl
    · have hbrace : '{' ∉ marker ++ hyphenate runLengths ds := by
        intro hmem
        rcases List.mem_append.1 hmem with hmem | hmem
        · have hlower := List.mem_map_of_mem (f := Char.toLower) hmem
          rw [hmarker] at hlower
          exact absurd hlower (by decide)
        · exact (hopens _ hmem).1 rfl
      refine digitPlaces?_of_body hlength ?_ ?_
      · rw [List.length_append, hlong]
        omega
      · rw [betweenBraces?_eq_none hbrace, afterUrn?_eq_some_iff.2 ⟨marker, hmarker, rfl⟩]
        rfl

/-! ## The written form -/

theorem length_digits (id : Identifier kind) : id.digits.length = runLengths.sum :=
  Text.length_hexWritten 32 id.number

theorem hexRead?_digits (id : Identifier kind) : Text.hexRead? id.digits = some id.number :=
  Text.hexRead?_hexWritten id.number_lt

theorem ofNumber_number (id : Identifier kind) : ofNumber id.number = id := by
  cases id with
  | mk n h => simp [ofNumber, Nat.mod_eq_of_lt h]

theorem toList_text (id : Identifier kind) : id.text.toList = hyphenate runLengths id.digits :=
  String.toList_ofList

theorem digitPlaces?_text (id : Identifier kind) : digitPlaces? id.text.toList = some id.digits := by
  have hdigits : ∀ c ∈ id.digits, (Text.hexValue? c).isSome = true := by
    intro c hc
    obtain ⟨d, hd, rfl⟩ := Text.exists_of_mem_hexWritten hc
    rw [Text.hexValue?_hexDigit hd]
    rfl
  exact (digitPlaces?_eq_some_iff hdigits).2 ⟨id.length_digits, .inr (.inl id.toList_text)⟩

/-- **The written form of an identifier spells it.** -/
theorem spelled?_text (id : Identifier kind) : spelled? id.text.toList = some id := by
  rw [spelled?, digitPlaces?_text, Option.bind_some, hexRead?_digits, Option.map_some,
    ofNumber_number]

/-- **The written form of an identifier is read as the identifier.** -/
theorem parse_text (id : Identifier kind) : parse id.text = .ok id := by
  have htrimmed : Text.trimmed id.text.toList = id.text.toList :=
    Text.trimmed_of_forall (isBlank_of_spelled? (spelled?_text id))
  rw [parse, parse?, htrimmed, spelled?_text]

end ContentVisibility.Identifier
