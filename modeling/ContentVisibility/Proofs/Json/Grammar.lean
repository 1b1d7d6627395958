import ContentVisibility.Proofs.Json.Written

/-!
# The grammar of JSON texts

* `StringBody`, `IsNumber`: what a string has between its quotes, and numbers;
* `IsValue`, `IsText`: values, and values with blank characters around them;
* `IsText.exists_token`: where the value of a text starts;
* `Value.isValue_chars`: every written value is of the grammar.
-/

namespace ContentVisibility.Json

/-! ## Scalars -/

/-- Only blank characters. -/
def Blank (cs : List Char) : Prop := ∀ c ∈ cs, Cursor.isBlank c = true

/-- What a string has between its quotes. A number behind a backslash may be a lone surrogate. -/
inductive StringBody : List Char → Prop
  | nil : StringBody []
  | plain {c : Char} {cs : List Char} (quote : c ≠ '"') (backslash : c ≠ '\\')
      (control : ¬ c.toNat < 0x20) (rest : StringBody cs) : StringBody (c :: cs)
  | letter {c d : Char} {cs : List Char} (escape : Reader.letterEscape? c = some d)
      (rest : StringBody cs) : StringBody ('\\' :: c :: cs)
  | number {ds cs : List Char} (four : ds.length = 4)
      (hex : ∀ d ∈ ds, (Text.hexValue? d).isSome = true) (rest : StringBody cs) :
      StringBody ('\\' :: 'u' :: (ds ++ cs))

/-- One digit or more. -/
def digitChars (first : Digit) (others : List Digit) : List Char :=
  first.char :: others.map Digit.char

inductive IsFraction : List Char → Prop
  | none : IsFraction []
  | digits (first : Digit) (others : List Digit) : IsFraction ('.' :: digitChars first others)

inductive IsExponent : List Char → Prop
  | none : IsExponent []
  | digits {letter : Char} {sign : List Char} (hletter : letter = 'e' ∨ letter = 'E')
      (hsign : sign = [] ∨ sign = ['+'] ∨ sign = ['-']) (first : Digit) (others : List Digit) :
      IsExponent (letter :: (sign ++ digitChars first others))

/-- A number. A leading zero stands alone. -/
inductive IsNumber : List Char → Prop
  | parts {sign fraction exponent : List Char} {first : Digit} {others : List Digit}
      (hsign : sign = [] ∨ sign = ['-']) (hzero : first = 0 → others = [])
      (hfraction : IsFraction fraction) (hexponent : IsExponent exponent) :
      IsNumber (sign ++ (digitChars first others ++ (fraction ++ exponent)))

/-! ## Values -/

/-- The key of a member: a string with blank characters around it. -/
inductive IsKey : List Char → Prop
  | quoted {before cs after : List Char} (hbefore : Blank before) (body : StringBody cs)
      (hafter : Blank after) : IsKey (before ++ '"' :: (cs ++ '"' :: after))

/-- A member behind its key. -/
def memberChars (m : List Char × List Char) : List Char := m.1 ++ ':' :: m.2

mutual

/-- A value, from its first character to its last one. -/
inductive IsValue : List Char → Prop
  | null : IsValue ['n', 'u', 'l', 'l']
  | true : IsValue ['t', 'r', 'u', 'e']
  | false : IsValue ['f', 'a', 'l', 's', 'e']
  | number {cs : List Char} (h : IsNumber cs) : IsValue cs
  | string {cs : List Char} (h : StringBody cs) : IsValue ('"' :: (cs ++ ['"']))
  | noItems {blanks : List Char} (h : Blank blanks) : IsValue ('[' :: (blanks ++ [']']))
  | items {first : List Char} {others : List (List Char)} (hfirst : IsText first)
      (hothers : ∀ cs ∈ others, IsText cs) :
      IsValue ('[' :: (commaSeparated (first :: others) ++ [']']))
  | noMembers {blanks : List Char} (h : Blank blanks) : IsValue ('{' :: (blanks ++ ['}']))
  | members {first : List Char × List Char} {others : List (List Char × List Char)}
      (hkey : IsKey first.1) (hvalue : IsText first.2) (hkeys : ∀ m ∈ others, IsKey m.1)
      (hvalues : ∀ m ∈ others, IsText m.2) :
      IsValue ('{' :: (commaSeparated ((first :: others).map memberChars) ++ ['}']))

/-- A value with blank characters around it. -/
inductive IsText : List Char → Prop
  | padded {before cs after : List Char} (hbefore : Blank before) (value : IsValue cs)
      (hafter : Blank after) : IsText (before ++ (cs ++ after))

end

theorem blank_nil : Blank [] := fun _ h => absurd h List.not_mem_nil

theorem IsValue.isText {cs : List Char} (h : IsValue cs) : IsText cs := by
  simpa using IsText.padded blank_nil h blank_nil

/-! ## First characters -/

/-- The characters that a value can start with. -/
def valueStarts : List Char :=
  ['n', 't', 'f', '"', '[', '{', '-', '0', '1', '2', '3', '4', '5', '6', '7', '8', '9']

theorem char_mem_valueStarts (d : Digit) : d.char ∈ valueStarts := by
  revert d
  decide

theorem IsNumber.exists_cons {cs : List Char} (h : IsNumber cs) :
    ∃ c rest, cs = c :: rest ∧ (c = '-' ∨ ∃ d : Digit, c = d.char) := by
  obtain ⟨rfl | rfl, -, -, -⟩ := h
  · exact ⟨_, _, rfl, .inr ⟨_, rfl⟩⟩
  · exact ⟨_, _, rfl, .inl rfl⟩

theorem IsValue.exists_cons {cs : List Char} (h : IsValue cs) :
    ∃ c rest, cs = c :: rest ∧ c ∈ valueStarts := by
  cases h with
  | number h =>
    obtain ⟨c, rest, hcs, rfl | ⟨d, rfl⟩⟩ := h.exists_cons
    · exact ⟨_, rest, hcs, by decide⟩
    · exact ⟨_, rest, hcs, char_mem_valueStarts d⟩
  | null | true | false | string _ | noItems _ | items _ _ | noMembers _ | members _ _ _ _ =>
    exact ⟨_, _, rfl, by decide⟩

/-- A text is blank up to where its value starts. -/
theorem IsText.exists_token {cs : List Char} (h : IsText cs) :
    ∃ before c rest, cs = before ++ c :: rest ∧ Blank before ∧ IsText (c :: rest) ∧
      c ∈ valueStarts := by
  obtain ⟨hbefore, hvalue, hafter⟩ := h
  obtain ⟨c, rest, rfl, hc⟩ := hvalue.exists_cons
  exact ⟨_, c, _, rfl, hbefore, IsText.padded blank_nil hvalue hafter, hc⟩

theorem IsText.ne_nil {cs : List Char} (h : IsText cs) : cs ≠ [] := by
  obtain ⟨before, c, rest, rfl, -⟩ := h.exists_token
  simp

theorem IsKey.exists_quote {cs : List Char} (h : IsKey cs) :
    ∃ before rest, cs = before ++ '"' :: rest ∧ Blank before ∧ IsKey ('"' :: rest) := by
  obtain ⟨hbefore, body, hafter⟩ := h
  exact ⟨_, _, rfl, hbefore, IsKey.quoted blank_nil body hafter⟩

/-! ## Written values -/

theorem stringBody_charEscaped (cs : List Char) : StringBody (cs.flatMap charEscaped) := by
  induction cs with
  | nil => exact .nil
  | cons c cs ih =>
    rw [List.flatMap_cons]
    rcases charEscaped_cases c with ⟨hc, hq, hb, hctl⟩ | ⟨letter, hc, -, hletter⟩ | ⟨hc, -⟩
    · rw [hc]
      exact .plain hq hb hctl ih
    · rw [hc]
      exact .letter hletter ih
    · rw [hc]
      refine .number (Text.length_hexWritten 4 c.toNat) (fun d hd => ?_) ih
      obtain ⟨k, hk, rfl⟩ := Text.exists_of_mem_hexWritten hd
      rw [Text.hexValue?_hexDigit hk]
      rfl

theorem isFraction_fractionChars (fraction : List Digit) :
    IsFraction (Reader.fractionChars fraction) := by
  cases fraction with
  | nil => exact .none
  | cons d ds => exact .digits d ds

theorem isExponent_exponentChars (exponent : Option Exponent) :
    IsExponent (Reader.exponentChars exponent) := by
  cases exponent with
  | none => exact .none
  | some e =>
    obtain ⟨negative, first, others⟩ := e
    cases negative with
    | true => exact .digits (.inl rfl) (.inr (.inr rfl)) first others
    | false => exact .digits (.inl rfl) (.inr (.inl rfl)) first others

theorem isNumber_chars (n : Number) : IsNumber n.chars := by
  obtain ⟨first, others, hwritten, -, hzero⟩ := toDigits_eq_map_char n.whole
  have hparts : n.chars = (if n.negative then ['-'] else []) ++ (digitChars first others ++
      (Reader.fractionChars n.fraction ++ Reader.exponentChars n.exponent)) := by
    simp [Number.chars, hwritten, digitChars, Reader.fractionChars, Reader.exponentChars]
  have hsign : (if n.negative then ['-'] else []) = [] ∨
      (if n.negative then ['-'] else []) = ['-'] := by
    cases n.negative
    · exact .inl rfl
    · exact .inr rfl
  rw [hparts]
  exact .parts hsign hzero (isFraction_fractionChars _) (isExponent_exponentChars _)

namespace Value

theorem isKey_stringChars (s : String) : IsKey (stringChars s) := by
  have h := IsKey.quoted blank_nil (stringBody_charEscaped s.toList) blank_nil
  simpa [stringChars] using h

theorem isValue_chars (v : Value) : IsValue v.chars := by
  induction v using Value.ind with
  | null => exact .null
  | bool b => cases b with
    | true => exact .true
    | false => exact .false
  | number n => exact .number (isNumber_chars n)
  | string s =>
    have h := IsValue.string (stringBody_charEscaped s.toList)
    simpa [chars, stringChars] using h
  | array items ih =>
    rw [chars, itemsChars_eq_map]
    cases items with
    | nil => exact .noItems blank_nil
    | cons first others =>
      refine .items (ih first (List.mem_cons_self ..)).isText fun cs hcs => ?_
      obtain ⟨v, hv, rfl⟩ := List.mem_map.1 hcs
      exact (ih v (List.mem_cons_of_mem first hv)).isText
  | object members ih =>
    have hmembers : membersChars members =
        (members.map fun m => (stringChars m.1, m.2.chars)).map memberChars := by
      rw [membersChars_eq_map, List.map_map]
      rfl
    rw [chars, hmembers]
    cases members with
    | nil => exact .noMembers blank_nil
    | cons first others =>
      refine .members (isKey_stringChars first.1) (ih first (List.mem_cons_self ..)).isText
        (fun m hm => ?_) fun m hm => ?_
      · obtain ⟨n, -, rfl⟩ := List.mem_map.1 hm
        exact isKey_stringChars n.1
      · obtain ⟨n, hn, rfl⟩ := List.mem_map.1 hm
        exact (ih n (List.mem_cons_of_mem first hn)).isText

end Value

end ContentVisibility.Json
