import ContentVisibility.Json.Skip
import ContentVisibility.Proofs.Json.Grammar
import ContentVisibility.Proofs.Json.Local
import Mathlib.Data.List.TakeWhile

/-!
# Texts are passed over

* `Reader.IgnoresBlanks`: blank characters in front make no difference to a reader;
* `Reader.Ended`: where a value has come to its end;
* `Reader.reads_skipValue`: a text of the grammar is passed over wherever it stands.
-/

namespace ContentVisibility.Json

/-! ## Blank characters -/

namespace Cursor

theorem nextN_nextN (cur : Cursor) (m n : Nat) : (cur.nextN m).nextN n = cur.nextN (m + n) := by
  have hposition : ((cur.rest.drop m).take n).foldl Position.behind
      ((cur.rest.take m).foldl Position.behind cur.position) =
        (cur.rest.take (m + n)).foldl Position.behind cur.position := by
    rw [List.take_add, List.foldl_append]
  simp only [nextN, List.drop_drop, hposition, Nat.sub_sub]

theorem skipBlanks_nextN {cur : Cursor} {blanks x : List Char} (h : cur.rest = blanks ++ x)
    (hb : Blank blanks) : (cur.nextN blanks.length).skipBlanks = cur.skipBlanks := by
  have hrest : (cur.nextN blanks.length).rest = x := by
    show cur.rest.drop _ = x
    rw [h, List.drop_left]
  have hrun : cur.rest.takeWhile isBlank = blanks ++ x.takeWhile isBlank := by
    rw [h, List.takeWhile_append_of_pos hb]
  rw [skipBlanks, skipBlanks, hrest, hrun, nextN_nextN, List.length_append]

theorem skipBlanks_skipBlanks (cur : Cursor) : cur.skipBlanks.skipBlanks = cur.skipBlanks :=
  skipBlanks_nextN List.takeWhile_append_dropWhile.symm fun _ hc => List.mem_takeWhile_imp hc

end Cursor

namespace Reader

variable {α β : Type}

/-- Blank characters in front make no difference. -/
def IgnoresBlanks (r : Reader α) : Prop := ∀ cur : Cursor, r cur.skipBlanks = r cur

theorem ignoresBlanks_token (f : Option Char → Reader α) : IgnoresBlanks (peekToken >>= f) := by
  intro cur
  have hpeek : ∀ cur : Cursor,
      (peekToken >>= f) cur = f cur.skipBlanks.rest.head? cur.skipBlanks := fun _ => bind_ok rfl
  rw [hpeek, hpeek, Cursor.skipBlanks_skipBlanks]

theorem IgnoresBlanks.bind {r : Reader α} (h : IgnoresBlanks r) (f : α → Reader β) :
    IgnoresBlanks (r >>= f) := by
  intro cur
  show (r cur.skipBlanks >>= fun p => f p.1 p.2) = (r cur >>= fun p => f p.1 p.2)
  rw [h cur]

theorem IgnoresBlanks.reads {r : Reader α} (h : IgnoresBlanks r) {blanks x y : List Char}
    (hb : Blank blanks) {answer : Option α} (hr : Reads r x answer y) :
    Reads r (blanks ++ x) answer y := by
  intro cur hcur
  have hrun : r cur = r (cur.nextN blanks.length) := by
    rw [← h cur, ← Cursor.skipBlanks_nextN hcur hb, h]
  rw [hrun]
  refine hr _ ?_
  show cur.rest.drop _ = x
  rw [hcur, List.drop_left]

/-! ## Ends of values -/

/-- The characters that end a value in a list or an object. -/
def enders : List Char := [' ', '\n', '\t', '\r', ',', ':', ']', '}']

/-- A value has come to its end. -/
def Ended (x : List Char) : Prop := ∀ c ∈ x.head?, c ∈ enders

theorem ended_cons {c : Char} (x : List Char) (h : c ∈ enders) : Ended (c :: x) := by
  intro d hd
  obtain rfl : c = d := by simpa using hd
  exact h

theorem ended_blank_append {blanks x : List Char} (hb : Blank blanks) (hx : Ended x) :
    Ended (blanks ++ x) := by
  cases blanks with
  | nil => exact hx
  | cons c cs =>
    have hc : Cursor.isBlank c = true := hb c (List.mem_cons_self ..)
    refine ended_cons _ ?_
    simp only [Cursor.isBlank, Bool.or_eq_true, decide_eq_true_eq] at hc
    rcases hc with ((rfl | rfl) | rfl) | rfl <;> decide

theorem Closed.ended {x : List Char} (h : Closed x) : Ended x := by
  intro c hc
  rcases h c hc with rfl | rfl | rfl <;> decide

theorem Ended.noDigit {x : List Char} (h : Ended x) : NoDigit x := by
  have hall : enders.all (fun c => (Digit.ofChar? c).isNone) = true := by decide
  exact fun c hc => Option.isNone_iff_eq_none.1 (List.all_eq_true.1 hall c (h c hc))

theorem Ended.head?_ne {x : List Char} (h : Ended x) {c : Char} (hc : c ∉ enders) :
    x.head? ≠ some c :=
  fun hx => hc (h c hx)

/-! ## Scalars -/

theorem utf8Size_of_hexValue? {c : Char} (h : (Text.hexValue? c).isSome = true) :
    c.utf8Size = 1 := by
  have hle : c.toNat ≤ 127 := (Text.toNat_of_hexValue? h).2.trans (by decide)
  have hval : c.val ≤ 127 := UInt32.le_iff_toNat_le.2 hle
  rw [Char.utf8Size]
  exact if_pos hval

theorem isSome_hexReadFrom? {ds : List Char} (h : ∀ d ∈ ds, (Text.hexValue? d).isSome = true)
    (start : Nat) : (Text.hexReadFrom? start ds).isSome = true := by
  induction ds generalizing start with
  | nil => rfl
  | cons d ds ih =>
    obtain ⟨n, hn⟩ := Option.isSome_iff_exists.1 (h d (List.mem_cons_self ..))
    simp only [Text.hexReadFrom?, hn, bind, Option.bind]
    exact ih (fun c hc => h c (List.mem_cons_of_mem d hc)) _

theorem exists_reads_fourHex {ds : List Char} (hlen : ds.length = 4)
    (h : ∀ d ∈ ds, (Text.hexValue? d).isSome = true) :
    ∃ n, ∀ x, Reads fourHex (ds ++ x) (some n) x := by
  obtain ⟨n, hn⟩ := Option.isSome_iff_exists.1 (isSome_hexReadFrom? h 0)
  exact ⟨n, reads_fourHex_of_digits hlen (fun d hd => utf8Size_of_hexValue? (h d hd)) hn⟩

theorem reads_skipEscape_letter {c d : Char} (h : letterEscape? c = some d) (x : List Char) :
    Reads skipEscape (c :: x) (some ()) x := by
  have hu : c ≠ 'u' := by
    rintro rfl
    cases h
  refine (reads_peek _).bind ?_
  simp only [List.head?_cons]
  rw [if_pos (by rw [h]; rfl)]
  exact reads_skip c x

theorem reads_skipStringSteps {cs : List Char} (h : StringBody cs) {steps : Nat}
    (hn : cs.length < steps) (x : List Char) :
    Reads (skipStringSteps steps) (cs ++ '"' :: x) (some ()) x := by
  induction h generalizing steps with
  | nil =>
    obtain ⟨steps, rfl⟩ := Nat.exists_eq_add_one.2 hn
    exact (reads_peek _).bind (reads_skip _ _)
  | @plain c cs quote backslash control rest ih =>
    obtain ⟨steps, rfl⟩ := Nat.exists_eq_add_one.2 (Nat.lt_of_le_of_lt (Nat.zero_le _) hn)
    refine (reads_peek _).bind ?_
    simp only [List.cons_append, List.head?_cons]
    rw [if_neg control]
    exact (reads_skip _ _).bind (ih (by simpa using hn))
  | @letter c d cs escape rest ih =>
    obtain ⟨steps, rfl⟩ := Nat.exists_eq_add_one.2 (Nat.lt_of_le_of_lt (Nat.zero_le _) hn)
    have hfew : cs.length < steps := by
      simp only [List.length_cons] at hn
      omega
    refine (reads_peek _).bind ?_
    exact (reads_skip _ _).bind ((reads_skipEscape_letter escape _).bind (ih hfew))
  | @number ds cs four hex rest ih =>
    obtain ⟨steps, rfl⟩ := Nat.exists_eq_add_one.2 (Nat.lt_of_le_of_lt (Nat.zero_le _) hn)
    obtain ⟨n, hread⟩ := exists_reads_fourHex four hex
    have hfew : cs.length < steps := by
      simp only [List.length_cons, List.length_append] at hn
      omega
    have htext : '\\' :: 'u' :: (ds ++ cs) ++ '"' :: x =
        '\\' :: 'u' :: (ds ++ (cs ++ '"' :: x)) := by simp
    rw [htext]
    refine (reads_peek _).bind ((reads_skip _ _).bind ?_)
    refine Reads.bind (a := ()) (y := cs ++ '"' :: x) ?_ (ih hfew)
    exact (reads_peek _).bind ((reads_skip _ _).bind ((hread _).bind (reads_pure () _)))

theorem reads_skipString {cs : List Char} (h : StringBody cs) (x : List Char) :
    Reads skipString (cs ++ '"' :: x) (some ()) x :=
  (reads_remaining _).bind (reads_skipStringSteps h (by simp) x)

theorem reads_skipDigit (d : Digit) (x : List Char) :
    Reads skipDigit (d.char :: x) (some true) x := by
  refine (reads_peek _).bind ?_
  simp only [List.head?_cons, Option.bind_some, Digit.ofChar?_char]
  exact (reads_skip _ _).bind (reads_pure _ _)

theorem reads_skipExponent {cs : List Char} (h : IsExponent cs) {x : List Char} (hx : Ended x) :
    Reads skipExponent (cs ++ x) (some ()) x := by
  cases h with
  | none =>
    refine (reads_peek _).bind ?_
    simp only [List.nil_append, hx.head?_ne (by decide : 'e' ∉ enders),
      hx.head?_ne (by decide : 'E' ∉ enders), decide_false, Bool.or_self, Bool.false_eq_true,
      if_false]
    exact reads_pure () x
  | @digits letter sign hletter hsign first others =>
    have hrest : Reads (do
          if ← skipDigit then let _ ← digitRun
          else failAhead .invalidNumber)
        (digitChars first others ++ x) (some ()) x :=
      (reads_skipDigit first _).bind ((reads_digitRun others hx.noDigit).bind (reads_pure () x))
    have htext : letter :: (sign ++ digitChars first others) ++ x =
        letter :: (sign ++ (digitChars first others ++ x)) := by simp
    rw [htext]
    refine (reads_peek _).bind ?_
    rw [if_pos (by rcases hletter with rfl | rfl <;> rfl)]
    refine (reads_skip _ _).bind ?_
    rcases hsign with rfl | rfl | rfl
    · -- without a sign the first digit is looked at, and left
      have hnone : Reads exponentSign (digitChars first others ++ x) (some false)
          (digitChars first others ++ x) := by
        have hdigits : ∀ d : Digit, d.char ≠ '-' ∧ d.char ≠ '+' := by decide
        refine (reads_peek _).bind ?_
        split
        · next heq => exact absurd (Option.some.inj heq) (hdigits first).1
        · next heq => exact absurd (Option.some.inj heq) (hdigits first).2
        · exact reads_pure _ _
      exact hnone.bind hrest
    · exact Reads.bind ((reads_peek _).bind ((reads_skip _ _).bind (reads_pure _ _))) hrest
    · exact Reads.bind ((reads_peek _).bind ((reads_skip _ _).bind (reads_pure _ _))) hrest

theorem noDigit_exponent_append {cs : List Char} (h : IsExponent cs) {x : List Char}
    (hx : Ended x) : NoDigit (cs ++ x) := by
  cases h with
  | none => exact hx.noDigit
  | digits hletter _ _ _ =>
    intro c hc
    obtain rfl : _ = c := by simpa using hc
    rcases hletter with rfl | rfl <;> decide

theorem reads_skipFraction {cs exponent : List Char} (h : IsFraction cs)
    (hexponent : IsExponent exponent) {x : List Char} (hx : Ended x) :
    Reads skipFraction (cs ++ (exponent ++ x)) (some ()) x := by
  have hrest := reads_skipExponent hexponent hx
  refine (reads_peek _).bind ?_
  cases h with
  | none =>
    have hpoint : (exponent ++ x).head? ≠ some '.' := by
      cases hexponent with
      | none => exact hx.head?_ne (by decide)
      | digits hletter _ _ _ => rcases hletter with rfl | rfl <;> simp
    simp only [List.nil_append, hpoint, if_false]
    exact hrest
  | digits first others =>
    simp only [List.cons_append, List.head?_cons, if_true]
    refine (reads_skip _ _).bind ((reads_skipDigit first _).bind ?_)
    exact (reads_digitRun others (noDigit_exponent_append hexponent hx)).bind hrest

theorem noDigit_fraction_append {cs : List Char} (h : IsFraction cs) {x : List Char}
    (hx : NoDigit x) : NoDigit (cs ++ x) := by
  cases h with
  | none => exact hx
  | digits first others =>
    intro c hc
    obtain rfl : '.' = c := by simpa using hc
    decide

theorem reads_skipNumber {first : Digit} {others : List Digit} (hzero : first = 0 → others = [])
    {fraction exponent : List Char} (hfraction : IsFraction fraction)
    (hexponent : IsExponent exponent) {x : List Char} (hx : Ended x) :
    Reads skipNumber (digitChars first others ++ (fraction ++ (exponent ++ x))) (some ()) x := by
  have hrest := reads_skipFraction hfraction hexponent hx
  have hnone : NoDigit (fraction ++ (exponent ++ x)) :=
    noDigit_fraction_append hfraction (noDigit_exponent_append hexponent hx)
  refine (reads_peek _).bind ?_
  simp only [digitChars, List.cons_append, List.head?_cons, Option.bind_some, Digit.ofChar?_char]
  refine (reads_skip _ _).bind ?_
  by_cases h0 : first = 0
  · obtain rfl := hzero h0
    have hnext : (fraction ++ (exponent ++ x)).head?.bind Digit.ofChar? = none := by
      cases hx : (fraction ++ (exponent ++ x)).head? with
      | none => rfl
      | some c => exact hnone c hx
    simp only [h0, Fin.val_zero, if_true, List.map_nil, List.nil_append]
    refine (reads_peek _).bind ?_
    simp only [hnext, Option.isSome_none, Bool.false_eq_true, if_false]
    exact hrest
  · have hval : ¬ first.val = 0 := fun h => h0 (Fin.ext h)
    simp only [hval, if_false]
    exact (reads_digitRun others hnone).bind hrest

/-! ## Tokens -/

theorem not_close_of_mem_valueStarts {c : Char} (h : c ∈ valueStarts) :
    Cursor.isBlank c = false ∧ c ≠ ']' ∧ c ≠ '}' := by
  have hall : valueStarts.all (fun c => !Cursor.isBlank c && c != ']' && c != '}') = true := by decide
  simpa [and_assoc] using List.all_eq_true.1 hall c h

theorem ignoresBlanks_peekToken : IgnoresBlanks peekToken := by
  intro cur
  have hpeek : ∀ cur : Cursor, peekToken cur = .ok (cur.skipBlanks.rest.head?, cur.skipBlanks) :=
    fun _ => rfl
  rw [hpeek, hpeek, Cursor.skipBlanks_skipBlanks]

/-- A token is met behind blank characters. -/
theorem reads_token_behind {before : List Char} (hbefore : Blank before) {c : Char}
    (hc : Cursor.isBlank c = false) (x : List Char) :
    Reads peekToken (before ++ c :: x) (some (some c)) (c :: x) :=
  ignoresBlanks_peekToken.reads hbefore (reads_token x hc)

/-! ## Values -/

/-- Items, each behind a comma. -/
def further (items : List (List Char)) : List Char := items.flatMap (',' :: ·)

theorem further_cons (cs : List Char) (items : List (List Char)) (x : List Char) :
    further (cs :: items) ++ x = ',' :: (cs ++ (further items ++ x)) := by
  simp [further]

theorem length_le_further (items : List (List Char)) : items.length ≤ (further items).length := by
  induction items with
  | nil => exact Nat.le_refl _
  | cons cs items ih =>
    simp only [further, List.flatMap_cons, List.length_append, List.length_cons] at ih ⊢
    omega

theorem ended_further {close : Char} (h : close ∈ enders) (items : List (List Char))
    (x : List Char) : Ended (further items ++ close :: x) := by
  cases items with
  | nil => exact ended_cons x h
  | cons cs items => exact ended_cons _ (by decide)

theorem reads_skipKey {cs : List Char} (h : IsKey cs) (x : List Char) :
    Reads skipKey (cs ++ ':' :: x) (some ()) x := by
  obtain ⟨hbefore, body, hafter⟩ := h
  rw [List.append_assoc]
  refine (ignoresBlanks_token _).reads hbefore ?_
  rw [List.cons_append, List.append_assoc]
  refine (reads_token _ (by decide)).bind ((reads_skip _ _).bind ?_)
  refine (reads_skipString body _).bind ?_
  exact (ignoresBlanks_token _).reads hafter ((reads_token _ (by decide)).bind (reads_skip _ _))

/-- So many steps are enough for values of so many characters. -/
def ValuesPass (n : Nat) : Prop :=
  ∀ cs, IsValue cs → cs.length ≤ n → ∀ x, Ended x →
    Reads (skipValueSteps n) (cs ++ x) (some ()) x

/-- So many steps are enough for items and their closing bracket. -/
def ItemsPass (n : Nat) : Prop :=
  ∀ items, (∀ cs ∈ items, IsText cs) → (further items).length < n → ∀ blanks x, Blank blanks →
    Reads (skipItems n) (blanks ++ (further items ++ ']' :: x)) (some ()) x

/-- So many steps are enough for members and their closing brace. -/
def MembersPass (n : Nat) : Prop :=
  ∀ ms : List (List Char × List Char), (∀ m ∈ ms, IsKey m.1) → (∀ m ∈ ms, IsText m.2) →
    (further (ms.map memberChars)).length < n → ∀ blanks x, Blank blanks →
      Reads (skipMembers n) (blanks ++ (further (ms.map memberChars) ++ '}' :: x)) (some ()) x

theorem ValuesPass.padded {n : Nat} (h : ValuesPass n) {before cs x : List Char}
    (hbefore : Blank before) (hcs : IsValue cs) (hn : cs.length ≤ n) (hx : Ended x) :
    Reads (skipValueSteps n) (before ++ (cs ++ x)) (some ()) x := by
  have hread := h cs hcs hn x hx
  obtain ⟨c, rest, rfl, -⟩ := hcs.exists_cons
  obtain ⟨n, rfl⟩ := Nat.exists_eq_add_one.2 (Nat.lt_of_lt_of_le (Nat.succ_pos rest.length) hn)
  unfold skipValueSteps at hread ⊢
  exact (ignoresBlanks_token _).reads hbefore hread

theorem ValuesPass.text {n : Nat} (h : ValuesPass n) {cs : List Char} (hcs : IsText cs)
    (hn : cs.length ≤ n) : ∃ after, Blank after ∧ ∀ x, Ended x →
      Reads (skipValueSteps n) (cs ++ x) (some ()) (after ++ x) := by
  obtain @⟨before, cs, after, hbefore, hvalue, hafter⟩ := hcs
  refine ⟨after, hafter, fun x hx => ?_⟩
  simp only [List.length_append] at hn
  rw [List.append_assoc, List.append_assoc]
  exact h.padded hbefore hvalue (by omega) (ended_blank_append hafter hx)

theorem itemsPass_succ {n : Nat} (h : ValuesPass n) (hi : ItemsPass n) : ItemsPass (n + 1) := by
  intro items hitems hn blanks x hblanks
  unfold skipItems
  refine (ignoresBlanks_token _).reads hblanks ?_
  cases items with
  | nil => exact (reads_token _ (by decide)).bind (reads_skip _ _)
  | cons cs items =>
    have hlen : cs.length + (further items).length < n := by
      simp only [further, List.flatMap_cons, List.length_append, List.length_cons] at hn ⊢
      omega
    obtain ⟨after, hafter, hvalue⟩ := h.text (hitems cs (List.mem_cons_self ..)) (by omega)
    rw [further_cons]
    refine (reads_token _ (by decide)).bind ((reads_skip _ _).bind ?_)
    refine (hvalue _ (ended_further (by decide) items x)).bind ?_
    exact hi items (fun t ht => hitems t (List.mem_cons_of_mem cs ht)) (by omega) after x hafter

theorem membersPass_succ {n : Nat} (h : ValuesPass n) (hm : MembersPass n) :
    MembersPass (n + 1) := by
  intro ms hkeys hvalues hn blanks x hblanks
  unfold skipMembers
  refine (ignoresBlanks_token _).reads hblanks ?_
  cases ms with
  | nil => exact (reads_token _ (by decide)).bind (reads_skip _ _)
  | cons m ms =>
    have hlen : m.2.length + (further (ms.map memberChars)).length < n := by
      simp only [further, memberChars, List.map_cons, List.flatMap_cons, List.length_append,
        List.length_cons] at hn ⊢
      omega
    obtain ⟨after, hafter, hvalue⟩ := h.text (hvalues m (List.mem_cons_self ..)) (by omega)
    rw [List.map_cons, further_cons, memberChars, List.append_assoc]
    refine (reads_token _ (by decide)).bind ((reads_skip _ _).bind ?_)
    refine (reads_skipKey (hkeys m (List.mem_cons_self ..)) _).bind ?_
    refine (hvalue _ (ended_further (by decide) _ x)).bind ?_
    exact hm ms (fun k hk => hkeys k (List.mem_cons_of_mem m hk))
      (fun k hk => hvalues k (List.mem_cons_of_mem m hk)) (by omega) after x hafter

theorem reads_skipValueSteps_number {cs : List Char} (h : IsNumber cs) (n : Nat) {x : List Char}
    (hx : Ended x) : Reads (skipValueSteps (n + 1)) (cs ++ x) (some ()) x := by
  obtain @⟨sign, fraction, exponent, first, others, hsign, hzero, hfraction, hexponent⟩ := h
  have hrest := reads_skipNumber hzero hfraction hexponent hx
  have htext : sign ++ (digitChars first others ++ (fraction ++ exponent)) ++ x =
      sign ++ (digitChars first others ++ (fraction ++ (exponent ++ x))) := by simp
  unfold skipValueSteps
  rw [htext]
  rcases hsign with rfl | rfl
  · have hall : ∀ d : Digit, Cursor.isBlank d.char = false ∧
        d.char ∉ ['n', 't', 'f', '-', '"', '[', '{'] := by decide
    obtain ⟨hblank, hother⟩ := hall first
    simp only [List.mem_cons, not_or] at hother
    obtain ⟨h₁, h₂, h₃, h₄, h₅, h₆, h₇, -⟩ := hother
    refine (reads_token _ hblank).bind ?_
    simp only [Digit.ofChar?_char, Option.isSome_some, if_true]
    exact hrest
  · exact (reads_token _ (by decide)).bind ((reads_skip _ _).bind hrest)

theorem reads_skipValueSteps_items {n : Nat} (h : ValuesPass n) (hi : ItemsPass n)
    {first : List Char} {others : List (List Char)} (hfirst : IsText first)
    (hothers : ∀ cs ∈ others, IsText cs) (hn : (commaSeparated (first :: others)).length < n)
    (x : List Char) :
    Reads (skipValueSteps (n + 1)) ('[' :: (commaSeparated (first :: others) ++ ']' :: x))
      (some ()) x := by
  obtain ⟨before, c, rest, rfl, hbefore, hrest, hc⟩ := hfirst.exists_token
  rw [Value.commaSeparated_cons, List.length_append, List.length_append] at hn
  obtain ⟨after, hafter, hvalue⟩ := h.text hrest (by omega)
  have htext : commaSeparated ((before ++ c :: rest) :: others) ++ ']' :: x =
      before ++ c :: (rest ++ (further others ++ ']' :: x)) := by
    simp [Value.commaSeparated_cons, further]
  unfold skipValueSteps
  rw [htext]
  refine (reads_token _ (by decide)).bind ((reads_skip _ _).bind ?_)
  refine (reads_token_behind hbefore (not_close_of_mem_valueStarts hc).1 _).bind ?_
  split
  · next heq => cases heq
  · next heq => exact absurd (Option.some.inj heq) (not_close_of_mem_valueStarts hc).2.1
  · refine (hvalue _ (ended_further (by decide) others x)).bind ?_
    refine hi others hothers ?_ after x hafter
    rw [further]
    omega

theorem reads_skipValueSteps_members {n : Nat} (h : ValuesPass n) (hm : MembersPass n)
    {first : List Char × List Char} {others : List (List Char × List Char)} (hkey : IsKey first.1)
    (hvalue : IsText first.2) (hkeys : ∀ m ∈ others, IsKey m.1) (hvalues : ∀ m ∈ others, IsText m.2)
    (hn : (commaSeparated ((first :: others).map memberChars)).length < n) (x : List Char) :
    Reads (skipValueSteps (n + 1))
      ('{' :: (commaSeparated ((first :: others).map memberChars) ++ '}' :: x)) (some ()) x := by
  obtain ⟨before, rest, hkeyText, hbefore, hrest⟩ := hkey.exists_quote
  simp only [List.map_cons, Value.commaSeparated_cons, memberChars, List.length_append,
    List.length_cons] at hn
  obtain ⟨after, hafter, hvalue⟩ := h.text hvalue (by omega)
  have htext : commaSeparated ((first :: others).map memberChars) ++ '}' :: x =
      before ++ '"' :: (rest ++ ':' :: (first.2 ++
        (further (others.map memberChars) ++ '}' :: x))) := by
    simp [Value.commaSeparated_cons, further, memberChars, hkeyText]
  unfold skipValueSteps
  rw [htext]
  refine (reads_token _ (by decide)).bind ((reads_skip _ _).bind ?_)
  refine (reads_token_behind hbefore (by decide) _).bind ?_
  refine (reads_skipKey hrest _).bind ((hvalue _ (ended_further (by decide) _ x)).bind ?_)
  refine hm others hkeys hvalues ?_ after x hafter
  rw [further]
  omega

theorem valuesPass_succ {n : Nat} (h : ValuesPass n) (hi : ItemsPass n) (hm : MembersPass n) :
    ValuesPass (n + 1) := by
  intro cs hcs hn x hx
  -- one case for each production; lists and objects take their steps from the shorter texts inside
  cases hcs with
  | null =>
    refine (reads_token _ (by decide)).bind ((reads_skip _ _).bind ?_)
    exact reads_literalRest "ull".toList x
  | true =>
    refine (reads_token _ (by decide)).bind ((reads_skip _ _).bind ?_)
    exact reads_literalRest "rue".toList x
  | false =>
    refine (reads_token _ (by decide)).bind ((reads_skip _ _).bind ?_)
    exact reads_literalRest "alse".toList x
  | number hnumber => exact reads_skipValueSteps_number hnumber n hx
  | string body =>
    rw [List.cons_append, List.append_assoc]
    refine (reads_token _ (by decide)).bind ((reads_skip _ _).bind ?_)
    exact reads_skipString body x
  | noItems hblanks =>
    rw [List.cons_append, List.append_assoc]
    refine (reads_token _ (by decide)).bind ((reads_skip _ _).bind ?_)
    exact (ignoresBlanks_token _).reads hblanks
      ((reads_token _ (by decide)).bind (reads_skip _ _))
  | items hfirst hothers =>
    rw [List.cons_append, List.append_assoc]
    simp only [List.length_cons, List.length_append] at hn
    exact reads_skipValueSteps_items h hi hfirst hothers (by omega) x
  | noMembers hblanks =>
    rw [List.cons_append, List.append_assoc]
    refine (reads_token _ (by decide)).bind ((reads_skip _ _).bind ?_)
    exact (ignoresBlanks_token _).reads hblanks
      ((reads_token _ (by decide)).bind (reads_skip _ _))
  | members hkey hvalue hkeys hvalues =>
    rw [List.cons_append, List.append_assoc]
    simp only [List.length_cons, List.length_append] at hn
    exact reads_skipValueSteps_members h hm hkey hvalue hkeys hvalues (by omega) x

/-- As many steps as there are characters are enough. -/
theorem values_pass (n : Nat) : ValuesPass n ∧ ItemsPass n ∧ MembersPass n := by
  induction n with
  | zero =>
    refine ⟨fun cs hcs hn => ?_, fun _ _ hn => absurd hn (Nat.not_lt_zero _),
      fun _ _ _ hn => absurd hn (Nat.not_lt_zero _)⟩
    obtain ⟨c, rest, rfl, -⟩ := hcs.exists_cons
    exact absurd hn (by simp)
  | succ n ih =>
    obtain ⟨hvalues, hitems, hmembers⟩ := ih
    exact ⟨valuesPass_succ hvalues hitems hmembers, itemsPass_succ hvalues hitems,
      membersPass_succ hvalues hmembers⟩

theorem reads_skipValue {before cs x : List Char} (hbefore : Blank before) (h : IsValue cs)
    (hx : Ended x) : Reads skipValue (before ++ (cs ++ x)) (some ()) x := by
  refine (reads_remaining _).bind ((values_pass _).1.padded hbefore h ?_ hx)
  simp only [List.length_append]
  omega

end Reader

end ContentVisibility.Json
