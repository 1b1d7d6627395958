import ContentVisibility.Json.Scalar
import ContentVisibility.Proofs.Json.Reading
import Mathlib.Data.Nat.Digits.Defs

/-!
# Written scalars are read back

* `reads_string_written`: a string between quotes is read as the string;
* `reads_number_written`: a written number is read as the number, where no more of a number follows.
-/

namespace ContentVisibility

/-! ## Hexadecimal digits -/

namespace Text

theorem hexValue?_hexDigit {d : Nat} (h : d < 16) : hexValue? (hexDigit d) = some d := by
  have hall : ∀ d < 16, hexValue? (hexDigit d) = some d := by decide
  exact hall d h

theorem hexReadFrom?_append (start : Nat) (cs ds : List Char) :
    hexReadFrom? start (cs ++ ds) = (hexReadFrom? start cs).bind fun n => hexReadFrom? n ds := by
  induction cs generalizing start with
  | nil => rfl
  | cons c cs ih =>
    simp only [List.cons_append, hexReadFrom?]
    cases hexValue? c with
    | none => rfl
    | some d => exact ih _

theorem hexReadFrom?_hexWritten (width start n : Nat) :
    hexReadFrom? start (hexWritten width n) = some (16 ^ width * start + n % 16 ^ width) := by
  induction width generalizing n with
  | zero => simp [hexWritten, hexReadFrom?, Nat.mod_one]
  | succ width ih =>
    have hd : n % 16 < 16 := Nat.mod_lt _ (by decide)
    have hsplit : n % 16 ^ (width + 1) = 16 * (n / 16 % 16 ^ width) + n % 16 := by
      rw [Nat.pow_succ, Nat.mul_comm, Nat.mod_mul, Nat.add_comm]
    rw [hexWritten, hexReadFrom?_append, ih]
    simp only [Option.bind_some, hexReadFrom?, hexValue?_hexDigit hd, bind, hsplit]
    congr 1
    ring

theorem hexRead?_hexWritten {width n : Nat} (h : n < 16 ^ width) :
    hexRead? (hexWritten width n) = some n := by
  rw [hexRead?, hexReadFrom?_hexWritten, Nat.mod_eq_of_lt h]
  simp

theorem length_hexWritten (width n : Nat) : (hexWritten width n).length = width := by
  induction width generalizing n with
  | zero => rfl
  | succ width ih => simp [hexWritten, ih]

theorem exists_of_mem_hexWritten {width n : Nat} {c : Char} (h : c ∈ hexWritten width n) :
    ∃ d < 16, c = hexDigit d := by
  induction width generalizing n with
  | zero => simp [hexWritten] at h
  | succ width ih =>
    rcases List.mem_append.1 h with h | h
    · exact ih h
    · exact ⟨n % 16, Nat.mod_lt _ (by decide), List.mem_singleton.1 h⟩

theorem utf8Size_of_mem_hexWritten {width n : Nat} {c : Char} (h : c ∈ hexWritten width n) :
    c.utf8Size = 1 := by
  have hall : ∀ d < 16, (hexDigit d).utf8Size = 1 := by decide
  obtain ⟨d, hd, rfl⟩ := exists_of_mem_hexWritten h
  exact hall d hd

end Text

namespace Json

/-! ## Strings -/

/-- A written character stands for itself, is a letter behind a backslash, or is written by number. -/
theorem charEscaped_cases (c : Char) :
    (charEscaped c = [c] ∧ c ≠ '"' ∧ c ≠ '\\' ∧ ¬ c.toNat < 0x20) ∨
      (∃ letter, charEscaped c = ['\\', letter] ∧ letter ≠ 'u' ∧
        Reader.letterEscape? letter = some c) ∨
      (charEscaped c = '\\' :: 'u' :: Text.hexWritten 4 c.toNat ∧ c.toNat < 0x20) := by
  unfold charEscaped
  split_ifs with h₁ h₂ h₃ h₄ h₅ h₆ h₇ h₈
  · exact .inr (.inl ⟨'"', rfl, by decide, by rw [h₁]; rfl⟩)
  · exact .inr (.inl ⟨'\\', rfl, by decide, by rw [h₂]; rfl⟩)
  · exact .inr (.inl ⟨'b', rfl, by decide, by rw [h₄]; rfl⟩)
  · exact .inr (.inl ⟨'t', rfl, by decide, by rw [h₅]; rfl⟩)
  · exact .inr (.inl ⟨'n', rfl, by decide, by rw [h₆]; rfl⟩)
  · exact .inr (.inl ⟨'f', rfl, by decide, by rw [h₇]; rfl⟩)
  · exact .inr (.inl ⟨'r', rfl, by decide, by rw [h₈]; rfl⟩)
  · exact .inr (.inr ⟨rfl, h₃⟩)
  · exact .inl ⟨rfl, h₁, h₂, h₃⟩

namespace Reader

theorem behindBytes?_isSome (p : Position) (cs x : List Char) (h : ∀ c ∈ cs, c.utf8Size = 1) :
    (Cursor.behindBytes? p cs.length (cs ++ x)).isSome := by
  induction cs generalizing p with
  | nil => simp [Cursor.behindBytes?]
  | cons c cs ih =>
    have hc : c.utf8Size = 1 := h c (by simp)
    simp only [List.length_cons, List.cons_append, Cursor.behindBytes?, hc]
    rw [if_pos (by omega)]
    exact ih _ fun d hd => h d (by simp [hd])

theorem reads_fourHex_of_digits {ds : List Char} {n : Nat} (hlen : ds.length = 4)
    (hsize : ∀ d ∈ ds, d.utf8Size = 1) (hread : Text.hexRead? ds = some n) (x : List Char) :
    Reads fourHex (ds ++ x) (some n) x := by
  intro cur hx
  have hsome := behindBytes?_isSome cur.position ds x hsize
  rw [hlen, ← hx] at hsome
  obtain ⟨p, hp⟩ := Option.isSome_iff_exists.1 hsome
  have htake : cur.rest.take 4 = ds := by rw [hx, List.take_left' hlen]
  refine ⟨cur.nextN 4, ?_, ?_⟩
  · simp only [fourHex, hp, htake, hread]
  · simp only [Cursor.nextN, hx, List.drop_left' hlen]

theorem reads_fourHex {n : Nat} (h : n < 16 ^ 4) (x : List Char) :
    Reads fourHex (Text.hexWritten 4 n ++ x) (some n) x :=
  reads_fourHex_of_digits (Text.length_hexWritten 4 n)
    (fun _ hc => Text.utf8Size_of_mem_hexWritten hc) (Text.hexRead?_hexWritten h) x

theorem reads_numberedEscape {c : Char} (h : c.toNat < 0x20) (x : List Char) :
    Reads numberedEscape (Text.hexWritten 4 c.toNat ++ x) (some c) x := by
  refine (reads_fourHex (by omega) x).bind ?_
  have hlow : (0xDC00 ≤ c.toNat && c.toNat ≤ 0xDFFF) = false := by simp; omega
  have hplain : (c.toNat < 0xD800 || 0xDBFF < c.toNat) = true := by simp; omega
  simp only [hlow, hplain, Bool.false_eq_true, if_false, if_true]
  rw [Char.ofNat_toNat]
  exact reads_pure c x

theorem reads_escape_letter {c d : Char} (h : letterEscape? c = some d) (x : List Char) :
    Reads escape (c :: x) (some d) x := by
  have hu : c ≠ 'u' := by
    rintro rfl
    cases h
  refine (reads_peek _).bind ?_
  simp only [List.head?_cons, h]
  exact (reads_skip c x).bind (reads_pure d x)

theorem reads_stringSteps (cs : List Char) {steps : Nat} (h : cs.length < steps) (x : List Char) :
    Reads (stringSteps steps) (cs.flatMap charEscaped ++ '"' :: x) (some cs) x := by
  induction cs generalizing steps with
  | nil =>
    obtain ⟨steps, rfl⟩ := Nat.exists_eq_add_one.2 h
    refine (reads_peek _).bind ?_
    exact (reads_skip _ _).bind (reads_pure _ _)
  | cons c cs ih =>
    obtain ⟨steps, rfl⟩ := Nat.exists_eq_add_one.2 (Nat.lt_of_le_of_lt (Nat.zero_le _) h)
    have ih := @ih steps (by simpa using h)
    rw [List.flatMap_cons, List.append_assoc]
    unfold stringSteps
    rcases charEscaped_cases c with ⟨hc, hq, hb, hctl⟩ | ⟨letter, hc, hu, hletter⟩ | ⟨hc, hctl⟩
    · -- the character stands for itself
      rw [hc]
      refine (reads_peek _).bind ?_
      simp only [List.cons_append, List.nil_append, List.head?_cons]
      rw [if_neg hctl]
      exact (reads_skip _ _).bind (ih.bind (reads_pure _ _))
    · -- a letter behind a backslash
      simp only [hc, List.cons_append, List.nil_append]
      refine (reads_peek _).bind ?_
      refine (reads_skip _ _).bind ?_
      exact (reads_escape_letter hletter _).bind (ih.bind (reads_pure _ _))
    · -- a control character by number
      simp only [hc, List.cons_append]
      refine (reads_peek _).bind ?_
      refine (reads_skip _ _).bind (Reads.bind (y := cs.flatMap charEscaped ++ '"' :: x) ?_
        (ih.bind (reads_pure _ _)))
      refine (reads_peek _).bind ?_
      exact (reads_skip _ _).bind (reads_numberedEscape hctl _)

theorem length_le_flatMap_charEscaped (cs : List Char) :
    cs.length ≤ (cs.flatMap charEscaped).length := by
  induction cs with
  | nil => simp
  | cons c cs ih =>
    have hc : 1 ≤ (charEscaped c).length := by
      rcases charEscaped_cases c with ⟨h, -⟩ | ⟨_, h, -⟩ | ⟨h, -⟩ <;> simp [h]
    simp only [List.flatMap_cons, List.length_append, List.length_cons]
    omega

/-- A written string is read back, behind its opening quote. -/
theorem reads_stringRest (s : String) (x : List Char) :
    Reads stringRest (s.toList.flatMap charEscaped ++ '"' :: x) (some s) x := by
  refine (reads_remaining _).bind (Reads.bind (reads_stringSteps s.toList ?_ x) ?_)
  · have := length_le_flatMap_charEscaped s.toList
    simp only [List.length_append, List.length_cons]
    omega
  · rw [String.ofList_toList]
    exact reads_pure s x

end Reader

/-! ## Digits -/

theorem Digit.ofChar?_char (d : Digit) : Digit.ofChar? d.char = some d := by
  revert d
  decide

theorem Digit.char_eq_digitChar {n : Nat} (h : n < 10) : Nat.digitChar n = Digit.char ⟨n, h⟩ := by
  have hall : ∀ d : Digit, Nat.digitChar d.val = d.char := by decide
  exact hall ⟨n, h⟩

theorem toDigits_eq_map_char (n : Nat) :
    ∃ (first : Digit) (others : List Digit), Nat.toDigits 10 n = (first :: others).map Digit.char ∧
      Digit.valueFrom 0 (first :: others) = n ∧ (first = 0 → others = []) := by
  induction n using Nat.base_induction 10 (by decide) with
  | single n hn =>
    refine ⟨⟨n, hn⟩, [], ?_, ?_, fun _ => rfl⟩
    · rw [Nat.toDigits_of_lt_base hn, Digit.char_eq_digitChar hn]
      rfl
    · simp [Digit.valueFrom]
  | digit n d hd hn ih =>
    obtain ⟨first, others, hwritten, hvalue, hzero⟩ := ih
    refine ⟨first, others ++ [⟨d, hd⟩], ?_, ?_, fun h => ?_⟩
    · rw [← Nat.toDigits_append_toDigits (by decide) hn hd, hwritten, Nat.toDigits_of_lt_base hd,
        Digit.char_eq_digitChar hd]
      simp
    · rw [← List.cons_append, Digit.valueFrom, List.foldl_append]
      show 10 * Digit.valueFrom 0 (first :: others) + d = _
      rw [hvalue]
    · -- a number that starts with a zero is zero
      subst h
      rw [hzero rfl] at hvalue
      simp [Digit.valueFrom] at hvalue
      omega

namespace Reader

/-- No digit comes next. -/
def NoDigit (x : List Char) : Prop := ∀ c ∈ x.head?, Digit.ofChar? c = none

theorem reads_digitRun (ds : List Digit) {x : List Char} (h : NoDigit x) :
    Reads digitRun (ds.map Digit.char ++ x) (some ds) x := by
  have hstop : x.takeWhile (fun c => (Digit.ofChar? c).isSome) = [] := by
    cases x with
    | nil => rfl
    | cons c x => simp [h c (by simp)]
  have hrun : (ds.map Digit.char ++ x).takeWhile (fun c => (Digit.ofChar? c).isSome) =
      ds.map Digit.char := by
    rw [List.takeWhile_append_of_pos (by simp [Digit.ofChar?_char]), hstop, List.append_nil]
  have hread : (ds.map Digit.char).filterMap Digit.ofChar? = ds := by
    rw [List.filterMap_map]
    have hall : Digit.ofChar? ∘ Digit.char = some := by
      funext d
      exact Digit.ofChar?_char d
    rw [hall, List.filterMap_some]
  intro cur hx
  refine ⟨cur.nextN (ds.map Digit.char).length, ?_, ?_⟩
  · simp only [digitRun, hx, hrun, hread]
  · simp only [Cursor.nextN, hx, List.drop_left]

theorem reads_digitOr (stray : Reader Digit) (d : Digit) (x : List Char) :
    Reads (digitOr stray) (d.char :: x) (some d) x := by
  refine (reads_peek _).bind ?_
  simp only [List.head?_cons, Digit.ofChar?_char]
  exact (reads_skip _ _).bind (reads_pure _ _)

/-! ## Numbers -/

theorem reads_wholePart (stray : Reader Digit) (n : Nat) {x : List Char} (h : NoDigit x) :
    Reads (wholePart stray) (Nat.toDigits 10 n ++ x) (some n) x := by
  obtain ⟨first, others, hwritten, hvalue, hzero⟩ := toDigits_eq_map_char n
  rw [hwritten, List.map_cons, List.cons_append]
  refine (reads_digitOr stray first _).bind ?_
  by_cases h0 : first = 0
  · obtain rfl := hzero h0
    have hn : n = 0 := by rw [← hvalue, h0]; rfl
    have hnext : x.head?.bind Digit.ofChar? = none := by
      cases hx : x.head? with
      | none => rfl
      | some c => exact h c hx
    rw [if_pos h0]
    refine (reads_peek _).bind ?_
    simp only [List.map_nil, List.nil_append, hnext, hn]
    exact reads_pure 0 x
  · rw [if_neg h0]
    refine (reads_digitRun others h).bind ?_
    rw [hvalue]
    exact reads_pure n x

/-- The written fraction of a number. -/
def fractionChars (fraction : List Digit) : List Char :=
  if fraction.isEmpty then [] else '.' :: fraction.map Digit.char

/-- The written exponent of a number. -/
def exponentChars (exponent : Option Exponent) : List Char := (exponent.map Exponent.chars).getD []

theorem reads_fractionPart (fraction : List Digit) {x : List Char} (h : NoDigit x)
    (hpoint : x.head? ≠ some '.') :
    Reads fractionPart (fractionChars fraction ++ x) (some fraction) x := by
  refine (reads_peek _).bind ?_
  cases fraction with
  | nil =>
    simp only [fractionChars, List.isEmpty_nil, if_true, List.nil_append]
    exact reads_pure [] x
  | cons d ds =>
    simp only [fractionChars, List.isEmpty_cons, Bool.false_eq_true, if_false, List.map_cons,
      List.cons_append, List.head?_cons]
    refine (reads_skip _ _).bind ((reads_digitOr _ d _).bind ?_)
    exact (reads_digitRun ds h).bind (reads_pure _ x)

theorem reads_exponentPart (stray : Reader Digit) (exponent : Option Exponent) {x : List Char}
    (h : NoDigit x) (hletter : x.head? ≠ some 'e' ∧ x.head? ≠ some 'E') :
    Reads (exponentPart stray) (exponentChars exponent ++ x) (some exponent) x := by
  refine (reads_peek _).bind ?_
  cases exponent with
  | none =>
    simp only [exponentChars, Option.map_none, Option.getD_none, List.nil_append, hletter.1,
      hletter.2, decide_false, Bool.or_self, Bool.false_eq_true, if_false]
    exact reads_pure none x
  | some e =>
    obtain ⟨negative, first, others⟩ := e
    simp only [exponentChars, Option.map_some, Option.getD_some, Exponent.chars, List.map_cons,
      List.cons_append, List.nil_append, List.head?_cons, decide_true, Bool.true_or, if_true]
    refine (reads_skip _ _).bind ?_
    refine Reads.bind (y := first.char :: (others.map Digit.char ++ x)) (a := negative) ?_ ?_
    · refine (reads_peek _).bind ?_
      cases negative <;> exact (reads_skip _ _).bind (reads_pure _ _)
    · refine (reads_digitOr stray first _).bind ?_
      exact (reads_digitRun others h).bind (reads_pure _ x)

/-- What stands behind a written value: nothing, or a comma or a closing bracket. -/
def Closed (x : List Char) : Prop := ∀ c ∈ x.head?, c = ',' ∨ c = ']' ∨ c = '}'

theorem Closed.noDigit {x : List Char} (h : Closed x) : NoDigit x := by
  intro c hc
  rcases h c hc with rfl | rfl | rfl <;> decide

theorem Closed.head?_ne {x : List Char} (h : Closed x) {c : Char}
    (hc : c ≠ ',' ∧ c ≠ ']' ∧ c ≠ '}') : x.head? ≠ some c := by
  intro hx
  rcases h c hx with h | h | h
  · exact hc.1 h
  · exact hc.2.1 h
  · exact hc.2.2 h

theorem noDigit_exponentChars (exponent : Option Exponent) {x : List Char} (h : Closed x) :
    NoDigit (exponentChars exponent ++ x) := by
  cases exponent with
  | none => exact h.noDigit
  | some e =>
    intro c hc
    obtain rfl : 'e' = c := by simpa [exponentChars, Exponent.chars] using hc
    decide

theorem head?_exponentChars_ne (exponent : Option Exponent) {x : List Char} (h : Closed x) :
    (exponentChars exponent ++ x).head? ≠ some '.' := by
  cases exponent with
  | none => exact h.head?_ne (by decide)
  | some e => simp [exponentChars, Exponent.chars]

theorem noDigit_fractionChars (fraction : List Digit) {x : List Char} (h : NoDigit x) :
    NoDigit (fractionChars fraction ++ x) := by
  cases fraction with
  | nil => exact h
  | cons d ds =>
    intro c hc
    obtain rfl : '.' = c := by simpa [fractionChars] using hc
    decide

theorem reads_numberRest (stray : Reader Digit) (n : Number) {x : List Char} (h : Closed x) :
    Reads (numberRest stray n.negative)
      (Nat.toDigits 10 n.whole ++ (fractionChars n.fraction ++ (exponentChars n.exponent ++ x)))
      (some n) x := by
  have hexp := noDigit_exponentChars n.exponent h
  refine (reads_wholePart stray n.whole (noDigit_fractionChars _ hexp)).bind ?_
  refine (reads_fractionPart n.fraction hexp (head?_exponentChars_ne _ h)).bind ?_
  refine (reads_exponentPart stray n.exponent h.noDigit
    ⟨h.head?_ne (by decide), h.head?_ne (by decide)⟩).bind ?_
  exact reads_pure n x

theorem head?_toDigits (n : Nat) (x : List Char) :
    ∃ d : Digit, (Nat.toDigits 10 n ++ x).head? = some d.char := by
  obtain ⟨first, others, hwritten, -, -⟩ := toDigits_eq_map_char n
  exact ⟨first, by rw [hwritten]; rfl⟩

theorem reads_numberOr (stray : Reader Digit) (n : Number) {x : List Char} (h : Closed x) :
    Reads (numberOr stray) (n.chars ++ x) (some n) x := by
  have hrest := reads_numberRest stray n h
  have hchars : n.chars ++ x = (if n.negative then ['-'] else []) ++ (Nat.toDigits 10 n.whole ++
      (fractionChars n.fraction ++ (exponentChars n.exponent ++ x))) := by
    simp [Number.chars, fractionChars, exponentChars]
  rw [hchars]
  refine (reads_peek _).bind ?_
  cases hneg : n.negative with
  | true =>
    rw [hneg] at hrest
    exact (reads_skip _ _).bind hrest
  | false =>
    rw [hneg] at hrest
    obtain ⟨d, hd⟩ := head?_toDigits n.whole
      (fractionChars n.fraction ++ (exponentChars n.exponent ++ x))
    have hdash : ∀ d : Digit, d.char ≠ '-' := by decide
    simp only [Bool.false_eq_true, if_false, List.nil_append, hd]
    split
    · next hx => exact absurd (Option.some.inj hx) (hdash d)
    · exact hrest

theorem reads_number (n : Number) {x : List Char} (h : Closed x) :
    Reads number (n.chars ++ x) (some n) x :=
  reads_numberOr _ n h

end Reader

end Json

end ContentVisibility
