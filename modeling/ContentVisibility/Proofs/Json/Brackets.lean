import ContentVisibility.Proofs.Json.Scalars

/-!
# Written lists and objects are read back

What is proved here is the same for all readers of items and of members, also for those that refuse
some of them:

* `reads_itemsSteps`: written items are read one by one up to the closing bracket;
* `reads_foldMembersSteps`: written members are gone through one by one up to the closing brace, as by
  a fold that ends with the first refusal.
-/

namespace ContentVisibility.Json

/-! ## Written items and members -/

namespace Value

/-- Written items, each behind a comma. -/
def furtherItems (vs : List Value) : List Char := vs.flatMap fun v => ',' :: v.chars

/-- Written members, each behind a comma. -/
def furtherMembers (ms : List (String × Value)) : List Char :=
  ms.flatMap fun m => ',' :: (stringChars m.1 ++ ':' :: m.2.chars)

theorem itemsChars_eq_map (vs : List Value) : itemsChars vs = vs.map chars := by
  induction vs with
  | nil => rfl
  | cons v vs ih => simp [itemsChars, ih]

theorem membersChars_eq_map (ms : List (String × Value)) :
    membersChars ms = ms.map fun m => stringChars m.1 ++ ':' :: m.2.chars := by
  induction ms with
  | nil => rfl
  | cons m ms ih => simp [membersChars, ih]

theorem commaSeparated_cons (item : List Char) (items : List (List Char)) :
    commaSeparated (item :: items) = item ++ items.flatMap (',' :: ·) := by
  induction items generalizing item with
  | nil => simp [commaSeparated]
  | cons next items ih => simp [commaSeparated, ih next]

theorem commaSeparated_itemsChars (v : Value) (vs : List Value) :
    commaSeparated (itemsChars (v :: vs)) = v.chars ++ furtherItems vs := by
  rw [itemsChars_eq_map, List.map_cons, commaSeparated_cons, List.flatMap_map]
  rfl

theorem commaSeparated_membersChars (m : String × Value) (ms : List (String × Value)) :
    commaSeparated (membersChars (m :: ms)) =
      stringChars m.1 ++ ':' :: (m.2.chars ++ furtherMembers ms) := by
  rw [membersChars_eq_map, List.map_cons, commaSeparated_cons, List.flatMap_map]
  simp [furtherMembers]

/-- A written number starts with a digit or a minus sign, as no other value does. -/
theorem exists_numberChars_eq_cons (n : Number) :
    ∃ c cs, n.chars = c :: cs ∧ Cursor.isBlank c = false ∧
      c ∉ ['n', 't', 'f', '"', '[', '{', ']'] ∧ (c = '-' || (Digit.ofChar? c).isSome) = true := by
  obtain ⟨first, others, hwritten, -, -⟩ := toDigits_eq_map_char n.whole
  have hdigit : ∀ d : Digit, Cursor.isBlank d.char = false ∧
      d.char ∉ ['n', 't', 'f', '"', '[', '{', ']'] := by decide
  simp only [Number.chars, hwritten]
  cases n.negative with
  | true => exact ⟨'-', _, rfl, by decide, by decide, by decide⟩
  | false =>
    exact ⟨first.char, _, rfl, (hdigit first).1, (hdigit first).2, by simp [Digit.ofChar?_char]⟩

/-- A written value starts with a character that is no blank and no closing bracket, and with a quote
only if it is a string. -/
theorem exists_chars_eq_cons (v : Value) :
    ∃ c cs, v.chars = c :: cs ∧ Cursor.isBlank c = false ∧ c ≠ ']' ∧
      (c ≠ '"' ∨ ∃ s, v = .string s) := by
  cases v with
  | null => exact ⟨'n', _, rfl, by decide, by decide, .inl (by decide)⟩
  | bool b => cases b <;> exact ⟨_, _, rfl, by decide, by decide, .inl (by decide)⟩
  | number n =>
    obtain ⟨c, cs, hchars, hblank, hother, -⟩ := exists_numberChars_eq_cons n
    simp only [List.mem_cons, not_or] at hother
    obtain ⟨-, -, -, hquote, -, -, hclose, -⟩ := hother
    exact ⟨c, cs, hchars, hblank, hclose, .inl hquote⟩
  | string s => exact ⟨'"', _, rfl, by decide, by decide, .inr ⟨s, rfl⟩⟩
  | array items => exact ⟨'[', _, rfl, by decide, by decide, .inl (by decide)⟩
  | object members => exact ⟨'{', _, rfl, by decide, by decide, .inl (by decide)⟩

theorem length_le_furtherItems (vs : List Value) : vs.length ≤ (furtherItems vs).length := by
  induction vs with
  | nil => simp
  | cons v vs ih =>
    simp only [furtherItems, List.flatMap_cons, List.length_append, List.length_cons] at ih ⊢
    omega

theorem length_le_furtherMembers (ms : List (String × Value)) :
    ms.length ≤ (furtherMembers ms).length := by
  induction ms with
  | nil => simp
  | cons m ms ih =>
    simp only [furtherMembers, List.flatMap_cons, List.length_append, List.length_cons] at ih ⊢
    omega

end Value

namespace Reader

open Value (furtherItems furtherMembers)

variable {α σ : Type}

theorem closed_cons {c : Char} (x : List Char) (h : c = ',' ∨ c = ']' ∨ c = '}') :
    Closed (c :: x) := by
  intro d hd
  obtain rfl : c = d := by simpa using hd
  exact h

theorem closed_furtherItems (vs : List Value) (x : List Char) :
    Closed (furtherItems vs ++ ']' :: x) := by
  cases vs with
  | nil => exact closed_cons x (by decide)
  | cons v vs => exact closed_cons _ (by decide)

theorem closed_furtherMembers (ms : List (String × Value)) (x : List Char) :
    Closed (furtherMembers ms ++ '}' :: x) := by
  cases ms with
  | nil => exact closed_cons x (by decide)
  | cons m ms => exact closed_cons _ (by decide)

/-! ## Items -/

theorem reads_moreItems_end (first : Bool) (x : List Char) :
    Reads (moreItems first) (']' :: x) (some false) (']' :: x) :=
  (reads_token x (by decide)).bind (reads_pure _ _)

theorem reads_moreItems_first {c : Char} (x : List Char) (hblank : Cursor.isBlank c = false)
    (hclose : c ≠ ']') : Reads (moreItems true) (c :: x) (some true) (c :: x) := by
  refine (reads_token x hblank).bind ?_
  split
  · next heq => cases heq
  · next heq => exact absurd (Option.some.inj heq) hclose
  · exact reads_pure _ _

theorem reads_moreItems_next {c : Char} (x : List Char) (hblank : Cursor.isBlank c = false)
    (hclose : c ≠ ']') : Reads (moreItems false) (',' :: c :: x) (some true) (c :: x) := by
  refine (reads_token _ (by decide)).bind ?_
  refine (reads_skip _ _).bind ((reads_token x hblank).bind ?_)
  split
  · next heq => cases heq
  · next heq => exact absurd (Option.some.inj heq) hclose
  · exact reads_pure _ _

theorem reads_endList (x : List Char) : Reads endList (']' :: x) (some ()) x :=
  (reads_token x (by decide)).bind (reads_skip _ _)

section Items

variable {item : Reader α} {f : Value → α}

theorem reads_itemsSteps_further {vs : List Value}
    (h : ∀ v ∈ vs, ∀ x, Closed x → Reads item (v.chars ++ x) (some (f v)) x) {steps : Nat}
    (hsteps : vs.length < steps) (x : List Char) :
    Reads (itemsSteps item steps false) (furtherItems vs ++ ']' :: x) (some (vs.map f)) x := by
  induction vs generalizing steps with
  | nil =>
    obtain ⟨steps, rfl⟩ := Nat.exists_eq_add_one.2 hsteps
    refine (reads_moreItems_end false x).bind ?_
    exact (reads_endList x).bind (reads_pure _ x)
  | cons v vs ih =>
    obtain ⟨steps, rfl⟩ := Nat.exists_eq_add_one.2 (Nat.lt_of_le_of_lt (Nat.zero_le _) hsteps)
    obtain ⟨c, cs, hv, hblank, hclose, -⟩ := v.exists_chars_eq_cons
    have hfew : vs.length < steps := by simpa using hsteps
    have ih := ih (fun u hu => h u (List.mem_cons_of_mem v hu)) hfew
    have hitem := h v (by simp) _ (closed_furtherItems vs x)
    rw [hv] at hitem
    have htext : furtherItems (v :: vs) ++ ']' :: x =
        ',' :: c :: (cs ++ (furtherItems vs ++ ']' :: x)) := by
      simp [furtherItems, hv]
    rw [htext]
    refine (reads_moreItems_next _ hblank hclose).bind ?_
    exact Reads.bind hitem (ih.bind (reads_pure _ x))

/-- Written items are read one by one, and the closing bracket behind them. -/
theorem reads_itemsSteps {vs : List Value}
    (h : ∀ v ∈ vs, ∀ x, Closed x → Reads item (v.chars ++ x) (some (f v)) x) {steps : Nat}
    (hsteps : vs.length < steps) (x : List Char) :
    Reads (itemsSteps item steps true) (commaSeparated (Value.itemsChars vs) ++ ']' :: x)
      (some (vs.map f)) x := by
  obtain ⟨steps, rfl⟩ := Nat.exists_eq_add_one.2 (Nat.lt_of_le_of_lt (Nat.zero_le _) hsteps)
  cases vs with
  | nil =>
    refine (reads_moreItems_end true x).bind ?_
    exact (reads_endList x).bind (reads_pure _ x)
  | cons v vs =>
    obtain ⟨c, cs, hv, hblank, hclose, -⟩ := v.exists_chars_eq_cons
    have hitem := h v (by simp) _ (closed_furtherItems vs x)
    have hfew : vs.length < steps := by simpa using hsteps
    have hrest := reads_itemsSteps_further (fun u hu => h u (List.mem_cons_of_mem v hu)) hfew x
    rw [Value.commaSeparated_itemsChars, List.append_assoc]
    rw [hv, List.cons_append] at hitem ⊢
    refine (reads_moreItems_first _ hblank hclose).bind ?_
    exact hitem.bind (hrest.bind (reads_pure _ x))

theorem reads_items {vs : List Value}
    (h : ∀ v ∈ vs, ∀ x, Closed x → Reads item (v.chars ++ x) (some (f v)) x) (x : List Char) :
    Reads (items item) ((Value.array vs).chars ++ x) (some (vs.map f)) x := by
  have htext : (Value.array vs).chars ++ x =
      '[' :: (commaSeparated (Value.itemsChars vs) ++ ']' :: x) := by simp [Value.chars]
  rw [htext]
  refine (reads_skip _ _).bind ((reads_remaining _).bind (reads_itemsSteps h ?_ x))
  cases vs with
  | nil => simp
  | cons v vs =>
    obtain ⟨c, cs, hv, -, -⟩ := v.exists_chars_eq_cons
    have := Value.length_le_furtherItems vs
    simp only [Value.commaSeparated_itemsChars, hv, List.length_append, List.length_cons]
    omega

end Items

/-! ## Members -/

theorem reads_moreMembers_end (first : Bool) (x : List Char) :
    Reads (moreMembers first) ('}' :: x) (some false) ('}' :: x) :=
  (reads_token x (by decide)).bind (reads_pure _ _)

theorem reads_moreMembers_first (x : List Char) :
    Reads (moreMembers true) ('"' :: x) (some true) ('"' :: x) :=
  (reads_token x (by decide)).bind (reads_pure _ _)

theorem reads_moreMembers_next (x : List Char) :
    Reads (moreMembers false) (',' :: '"' :: x) (some true) ('"' :: x) :=
  (reads_token _ (by decide)).bind <|
    (reads_skip _ _).bind ((reads_token x (by decide)).bind (reads_pure _ _))

theorem reads_colon (x : List Char) : Reads colon (':' :: x) (some ()) x :=
  (reads_token x (by decide)).bind (reads_skip _ _)

theorem reads_endObject (x : List Char) : Reads endObject ('}' :: x) (some ()) x :=
  (reads_token x (by decide)).bind (reads_skip _ _)

section Members

variable {member : σ → String → Reader σ} {step : σ → String × Value → Option σ}

/-- Written members behind others are gone through as by a fold, up to the first refusal. -/
theorem reads_foldMembersSteps {ms : List (String × Value)}
    (h : ∀ m ∈ ms, ∀ s x, Closed x →
      Reads (member s m.1) (':' :: (m.2.chars ++ x)) (step s m) x)
    {steps : Nat} (hsteps : ms.length < steps) (s : σ) (x : List Char) :
    Reads (foldMembersSteps member steps false s) (furtherMembers ms ++ '}' :: x)
      (ms.foldlM step s) ('}' :: x) := by
  induction ms generalizing steps s with
  | nil =>
    obtain ⟨steps, rfl⟩ := Nat.exists_eq_add_one.2 hsteps
    exact (reads_moreMembers_end false x).bind (reads_pure s _)
  | cons m ms ih =>
    obtain ⟨steps, rfl⟩ := Nat.exists_eq_add_one.2 (Nat.lt_of_le_of_lt (Nat.zero_le _) hsteps)
    have htext : furtherMembers (m :: ms) ++ '}' :: x =
        ',' :: '"' :: (m.1.toList.flatMap charEscaped ++
          '"' :: ':' :: (m.2.chars ++ (furtherMembers ms ++ '}' :: x))) := by
      simp [furtherMembers, stringChars]
    have hmember := h m (by simp) s _ (closed_furtherMembers ms x)
    rw [htext, List.foldlM_cons]
    refine (reads_moreMembers_next _).bind ?_
    refine (reads_skip _ _).bind ((reads_stringRest m.1 _).bind ?_)
    cases hs : step s m with
    | none =>
      rw [hs] at hmember
      exact hmember.bind_none
    | some s' =>
      rw [hs] at hmember
      exact hmember.bind (ih (fun n hn => h n (List.mem_cons_of_mem m hn)) (by simpa using hsteps) s')

/-- The same from the opening brace of the object on. -/
theorem reads_foldMembers {ms : List (String × Value)}
    (h : ∀ m ∈ ms, ∀ s x, Closed x →
      Reads (member s m.1) (':' :: (m.2.chars ++ x)) (step s m) x)
    (s : σ) (x : List Char) :
    Reads (foldMembers member true s) (commaSeparated (Value.membersChars ms) ++ '}' :: x)
      (ms.foldlM step s) ('}' :: x) := by
  refine (reads_remaining _).bind ?_
  cases ms with
  | nil => exact (reads_moreMembers_end true x).bind (reads_pure s _)
  | cons m ms =>
    have hlen := Value.length_le_furtherMembers ms
    have htext : commaSeparated (Value.membersChars (m :: ms)) ++ '}' :: x =
        '"' :: (m.1.toList.flatMap charEscaped ++
          '"' :: ':' :: (m.2.chars ++ (furtherMembers ms ++ '}' :: x))) := by
      simp [Value.commaSeparated_membersChars, stringChars]
    have hmember := h m (by simp) s _ (closed_furtherMembers ms x)
    have hrest := fun (n : Nat) (hn : ms.length < n) (s' : σ) =>
      reads_foldMembersSteps (fun n hn => h n (List.mem_cons_of_mem m hn)) hn s' x
    rw [htext, List.foldlM_cons]
    refine (reads_moreMembers_first _).bind ?_
    refine (reads_skip _ _).bind ((reads_stringRest m.1 _).bind ?_)
    cases hs : step s m with
    | none =>
      rw [hs] at hmember
      exact hmember.bind_none
    | some s' =>
      rw [hs] at hmember
      refine hmember.bind (hrest _ ?_ s')
      simp only [List.length_cons, List.length_append]
      omega

end Members

end Reader

end ContentVisibility.Json
