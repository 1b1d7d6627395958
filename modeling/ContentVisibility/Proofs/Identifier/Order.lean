import ContentVisibility.Proofs.Identifier.Written

/-!
# Written identifiers in order

The written forms of identifiers stand in the order of their numbers: all have the same length, with
hyphens at the same places, and the digits have their order as characters.

* `Text.hexWritten_lt_iff`: numbers of a fixed count of digits, as texts and as numbers;
* `Identifier.hyphenate_lt_iff`: hyphens at the same places make no difference;
* `Identifier.text_lt_iff`: the order of the written forms is the order of the numbers;
* `Identifier.Hyphenated`, `Identifier.hyphenated_text`: what a written form looks like.
-/

namespace ContentVisibility

/-! ## Texts of the same length -/

/-- Of two texts whose first parts have the same length, the first parts decide unless they are equal. -/
theorem Text.append_lt_append_iff {as bs : List Char} (h : as.length = bs.length) (cs ds : List Char) :
    as ++ cs < bs ++ ds ↔ as < bs ∨ as = bs ∧ cs < ds := by
  induction as generalizing bs with
  | nil =>
    obtain rfl : bs = [] := List.length_eq_zero_iff.1 h.symm
    simp
  | cons a as ih =>
    cases bs with
    | nil => cases h
    | cons b bs =>
      have hlength : as.length = bs.length := by simpa using h
      rw [List.cons_append, List.cons_append, List.cons_lt_cons_iff, List.cons_lt_cons_iff,
        ih hlength, List.cons.injEq]
      constructor
      · rintro (hless | ⟨rfl, hless | ⟨rfl, hless⟩⟩)
        · exact .inl (.inl hless)
        · exact .inl (.inr ⟨rfl, hless⟩)
        · exact .inr ⟨⟨rfl, rfl⟩, hless⟩
      · rintro ((hless | ⟨rfl, hless⟩) | ⟨⟨rfl, rfl⟩, hless⟩)
        · exact .inl hless
        · exact .inr ⟨rfl, .inl hless⟩
        · exact .inr ⟨rfl, .inr ⟨rfl, hless⟩⟩

/-! ## Digits -/

namespace Text

/-- The digits that are written. -/
def lowerDigits : List Char := "0123456789abcdef".toList

theorem hexDigit_lt_iff {d e : Nat} (hd : d < 16) (he : e < 16) : hexDigit d < hexDigit e ↔ d < e := by
  have hall : ∀ d < 16, ∀ e < 16, hexDigit d < hexDigit e ↔ d < e := by decide
  exact hall d hd e he

theorem hexDigit_mem_lowerDigits {d : Nat} (hd : d < 16) : hexDigit d ∈ lowerDigits := by
  have hall : ∀ d < 16, hexDigit d ∈ lowerDigits := by decide
  exact hall d hd

theorem hexWritten_inj {width n m : Nat} (hn : n < 16 ^ width) (hm : m < 16 ^ width) :
    hexWritten width n = hexWritten width m ↔ n = m := by
  refine ⟨fun h => ?_, fun h => h ▸ rfl⟩
  have hread := hexRead?_hexWritten hn
  rw [h, hexRead?_hexWritten hm] at hread
  exact (Option.some.inj hread).symm

/-- Numbers written with the same count of digits stand in their order. -/
theorem hexWritten_lt_iff {width n m : Nat} (hn : n < 16 ^ width) (hm : m < 16 ^ width) :
    hexWritten width n < hexWritten width m ↔ n < m := by
  induction width generalizing n m with
  | zero =>
    have hzero : n = 0 ∧ m = 0 := by omega
    simp [hexWritten, hzero]
  | succ width ih =>
    have hn' : n / 16 < 16 ^ width := by rw [Nat.pow_succ] at hn; omega
    have hm' : m / 16 < 16 ^ width := by rw [Nat.pow_succ] at hm; omega
    have hlength : (hexWritten width (n / 16)).length = (hexWritten width (m / 16)).length := by
      rw [length_hexWritten, length_hexWritten]
    have hlast : [hexDigit (n % 16)] < [hexDigit (m % 16)] ↔ n % 16 < m % 16 := by
      rw [List.cons_lt_cons_iff, hexDigit_lt_iff (by omega) (by omega)]
      simp
    rw [hexWritten, hexWritten, append_lt_append_iff hlength, ih hn' hm', hexWritten_inj hn' hm',
      hlast]
    omega

end Text

namespace Identifier

variable {kind : IdKind}

/-! ## Hyphens -/

/-- Hyphens at the same places make no difference to the order. -/
theorem hyphenate_lt_iff (ns : List Nat) {cs ds : List Char} (h : cs.length = ds.length) :
    hyphenate ns cs < hyphenate ns ds ↔ cs < ds := by
  induction ns generalizing cs ds with
  | nil => rfl
  | cons n ns ih =>
    cases ns with
    | nil => rfl
    | cons m ns =>
      have hrun : (cs.take n).length = (ds.take n).length := by simp [h]
      have hrest : (cs.drop n).length = (ds.drop n).length := by simp [h]
      have hothers := ih hrest
      calc hyphenate (n :: m :: ns) cs < hyphenate (n :: m :: ns) ds
          ↔ cs.take n < ds.take n ∨ cs.take n = ds.take n ∧ cs.drop n < ds.drop n := by
            rw [hyphenate_cons_cons, hyphenate_cons_cons, Text.append_lt_append_iff hrun,
              List.cons_lt_cons_iff, hothers]
            simp
        _ ↔ cs.take n ++ cs.drop n < ds.take n ++ ds.drop n :=
            (Text.append_lt_append_iff hrun _ _).symm
        _ ↔ cs < ds := by rw [List.take_append_drop, List.take_append_drop]

/-! ## Written forms -/

theorem text_lt_iff (id id' : Identifier kind) : id.text < id'.text ↔ id.number < id'.number := by
  have hlength : id.digits.length = id'.digits.length := by rw [length_digits, length_digits]
  rw [String.lt_iff, toList_text, toList_text, hyphenate_lt_iff runLengths hlength]
  exact Text.hexWritten_lt_iff id.number_lt id'.number_lt

/-- The text consists of 32 lower-case digits in runs of 8, 4, 4, 4 and 12 with hyphens between. -/
def Hyphenated (s : String) : Prop :=
  ∃ digits : List Char, digits.length = 32 ∧ (∀ c ∈ digits, c ∈ Text.lowerDigits) ∧
    s.toList = hyphenate [8, 4, 4, 4, 12] digits

theorem hyphenated_text (id : Identifier kind) : Hyphenated id.text := by
  refine ⟨id.digits, id.length_digits, fun c hc => ?_, id.toList_text⟩
  obtain ⟨d, hd, rfl⟩ := Text.exists_of_mem_hexWritten hc
  exact Text.hexDigit_mem_lowerDigits hd

end Identifier

end ContentVisibility
