import ContentVisibility.Proofs.Json.Kinds
import ContentVisibility.Proofs.Json.Passing

/-!
# Readers that do the same with a text wherever it stands

* `Reader.Settled`: what a reader does with a text does not depend on what stands behind it;
* `Reader.Steady`: that holds of every text of the grammar, and blank characters in front make no
  difference;
* `Steady.reads`: such a reader does with a text in a longer one what it does with it alone;
* `steady_string`, `steady_bool`: the readers of scalars.
-/

namespace ContentVisibility.Json

namespace Reader

variable {α β : Type}

/-! ## One text -/

/-- Wherever the text stands, the reader gives the same answer and leaves nothing of the text but
blank characters at its end. -/
def Settled (r : Reader α) (cs : List Char) : Prop :=
  ∃ answer after, Blank after ∧ ∀ x, Ended x → Reads r (cs ++ x) answer (after ++ x)

section Settled

variable {r : Reader α} {cs : List Char}

theorem Refuses.settled (h : Refuses r) : Settled r cs :=
  ⟨none, [], blank_nil, fun _ _ => h.reads⟩

theorem settled_of_exists (h : ∃ answer, ∀ x, Reads r (cs ++ x) answer x) : Settled r cs := by
  obtain ⟨answer, hread⟩ := h
  exact ⟨answer, [], blank_nil, fun x _ => hread x⟩

/-- What follows on an answer settled by a text, settled by what that text leaves. -/
theorem exists_reads_bind {f : α → Reader β} {before after : List Char → List Char}
    {answer : Option α} (h : ∀ x, Reads r (before x) answer (after x))
    (hf : ∀ a, ∃ answer, ∀ x, Reads (f a) (after x) answer x) :
    ∃ answer, ∀ x, Reads (r >>= f) (before x) answer x := by
  cases answer with
  | none => exact ⟨none, fun x => (h x).bind_none⟩
  | some a =>
    obtain ⟨answer, hread⟩ := hf a
    exact ⟨answer, fun x => (h x).bind (hread x)⟩

theorem Settled.check {f : α → Reader β} (h : Settled r cs)
    (hf : ∀ a, (∃ b, f a = pure b) ∨ Refuses (f a)) : Settled (r >>= f) cs := by
  obtain ⟨answer, after, hafter, hread⟩ := h
  cases answer with
  | none => exact ⟨none, [], blank_nil, fun x hx => (hread x hx).bind_none⟩
  | some a =>
    rcases hf a with ⟨b, hb⟩ | hrefuses
    · refine ⟨some b, after, hafter, fun x hx => (hread x hx).bind ?_⟩
      rw [hb]
      exact reads_pure b _
    · exact ⟨none, [], blank_nil, fun x hx => (hread x hx).bind hrefuses.reads⟩

theorem Settled.map (h : Settled r cs) (g : α → β) : Settled (r >>= fun a => pure (g a)) cs :=
  h.check fun a => .inl ⟨g a, rfl⟩

/-- The first token of a text decides what is done with it. -/
theorem settled_token {f : Option Char → Reader α} {c : Char} (hc : Cursor.isBlank c = false)
    (h : Settled (f (some c)) (c :: cs)) : Settled (peekToken >>= f) (c :: cs) := by
  obtain ⟨answer, after, hafter, hread⟩ := h
  exact ⟨answer, after, hafter, fun x hx => (reads_token _ hc).bind (hread x hx)⟩

theorem settled_skip {f : Unit → Reader α} {c : Char} (h : Settled (f ()) cs) :
    Settled (skip >>= f) (c :: cs) := by
  obtain ⟨answer, after, hafter, hread⟩ := h
  exact ⟨answer, after, hafter, fun x hx => (reads_skip c _).bind (hread x hx)⟩

theorem settled_literalRest (cs : List Char) : Settled (literalRest cs) cs :=
  settled_of_exists ⟨_, reads_literalRest cs⟩

end Settled

/-! ## Every text -/

/-- The reader does the same with a text of the grammar wherever it stands. -/
structure Steady (r : Reader α) : Prop where
  ignoresBlanks : IgnoresBlanks r
  settled : ∀ {cs}, IsText cs → Settled r cs

section Steady

variable {r : Reader α} {cs : List Char}

/-- It is enough to look at values without blank characters around them. -/
theorem Steady.of_values (hr : IgnoresBlanks r) (h : ∀ {cs}, IsValue cs → Settled r cs) :
    Steady r := by
  refine ⟨hr, fun hcs => ?_⟩
  obtain @⟨before, cs, after, hbefore, hvalue, hafter⟩ := hcs
  obtain ⟨answer, left, hleft, hread⟩ := h hvalue
  refine ⟨answer, left ++ after, ?_, fun x hx => ?_⟩
  · intro c hc
    exact (List.mem_append.1 hc).elim (hleft c) (hafter c)
  · rw [List.append_assoc, List.append_assoc, List.append_assoc]
    exact hr.reads hbefore (hread _ (ended_blank_append hafter hx))

theorem Steady.check {f : α → Reader β} (h : Steady r)
    (hf : ∀ a, (∃ b, f a = pure b) ∨ Refuses (f a)) : Steady (r >>= f) :=
  ⟨h.ignoresBlanks.bind f, fun hcs => (h.settled hcs).check hf⟩

theorem Steady.map (h : Steady r) (g : α → β) : Steady (r >>= fun a => pure (g a)) :=
  h.check fun a => .inl ⟨g a, rfl⟩

theorem readText_of_reads {s : String} {answer : Option α} {after : List Char}
    (hafter : Blank after) (h : Reads r s.toList answer after) :
    (r.readText s).toOption = answer := by
  have hfinished : Reads finished after (some ()) [] := by
    have hread := (ignoresBlanks_token _).reads hafter reads_finished
    rwa [List.append_nil] at hread
  cases answer with
  | none =>
    obtain ⟨fault, hr⟩ := readText_eq_error h
    rw [hr]
    rfl
  | some a =>
    obtain ⟨cur, hr, -⟩ := h.bind (f := fun a => finished >>= fun _ => pure a)
      (hfinished.bind (reads_pure a [])) (Cursor.ofText s) rfl
    rw [readText_eq, hr]
    rfl

/-- **In a longer text a steady reader does with a text what it does with it alone.** -/
theorem Steady.reads (h : Steady r) (hcs : IsText cs) : ∃ after, Blank after ∧ ∀ x, Ended x →
    Reads r (cs ++ x) (r.readText (String.ofList cs)).toOption (after ++ x) := by
  obtain ⟨answer, after, hafter, hread⟩ := h.settled hcs
  have halone : (r.readText (String.ofList cs)).toOption = answer := by
    refine readText_of_reads hafter ?_
    have hend := hread [] (fun _ hc => nomatch hc)
    rwa [List.append_nil, List.append_nil, ← String.toList_ofList (l := cs)] at hend
  exact ⟨after, hafter, halone ▸ hread⟩

theorem Steady.readText_behind (h : Steady r) {blanks : List Char} (hb : Blank blanks)
    (hcs : IsText cs) : (r.readText (String.ofList (blanks ++ cs))).toOption =
      (r.readText (String.ofList cs)).toOption := by
  obtain ⟨after, hafter, hread⟩ := h.reads hcs
  refine readText_of_reads hafter ?_
  have hend := h.ignoresBlanks.reads hb (hread [] (fun _ hc => nomatch hc))
  rwa [List.append_nil, List.append_nil, ← String.toList_ofList (l := blanks ++ cs)] at hend

end Steady

/-! ## Strings -/

theorem reads_pairContinues (c : Char) (x : List Char) :
    Reads (pairContinues c) (c :: x) (some ()) x := by
  refine (reads_peek _).bind ?_
  simp only [List.head?_cons, if_true]
  exact reads_skip c x

theorem reads_pairContinues_of_ne {c expected : Char} (h : c ≠ expected) (x y : List Char) :
    Reads (pairContinues expected) (c :: x) none y := by
  refine (reads_peek _).bind ?_
  simp only [List.head?_cons]
  rw [if_neg h]
  exact (refuses_failAhead _).reads

/-- Behind the first of two numbers that write one character, the second is read with it or nothing
is. -/
theorem numberedEscape_cases {ds cs : List Char} (four : ds.length = 4)
    (hex : ∀ d ∈ ds, (Text.hexValue? d).isSome = true) (h : StringBody cs) :
    (∃ c rest, StringBody rest ∧ rest.length ≤ cs.length ∧
        ∀ x, Reads numberedEscape (ds ++ (cs ++ '"' :: x)) (some c) (rest ++ '"' :: x)) ∨
      ∀ x y, Reads numberedEscape (ds ++ (cs ++ '"' :: x)) none y := by
  obtain ⟨n, hfirst⟩ := exists_reads_fourHex four hex
  unfold numberedEscape
  by_cases hlow : (0xDC00 ≤ n && n ≤ 0xDFFF) = true
  · refine .inr fun x y => (hfirst _).bind ?_
    rw [if_pos hlow]
    exact (refuses_failHere _).reads
  by_cases hplain : (n < 0xD800 || 0xDBFF < n) = true
  · refine .inl ⟨Char.ofNat n, cs, h, Nat.le_refl _, fun x => (hfirst _).bind ?_⟩
    rw [if_neg hlow, if_pos hplain]
    exact reads_pure _ _
  -- only another escape by number can follow
  cases h with
  | nil =>
    refine .inr fun x y => (hfirst _).bind ?_
    rw [if_neg hlow, if_neg hplain]
    exact (reads_pairContinues_of_ne (by decide) _ []).bind_none
  | plain quote backslash control rest =>
    refine .inr fun x y => (hfirst _).bind ?_
    rw [if_neg hlow, if_neg hplain]
    exact (reads_pairContinues_of_ne backslash _ []).bind_none
  | @letter c d cs escape rest =>
    have hu : c ≠ 'u' := by
      rintro rfl
      cases escape
    refine .inr fun x y => (hfirst _).bind ?_
    rw [if_neg hlow, if_neg hplain]
    exact (reads_pairContinues _ _).bind (reads_pairContinues_of_ne hu _ []).bind_none
  | @number ds₂ cs four₂ hex₂ rest =>
    obtain ⟨n₂, hsecond⟩ := exists_reads_fourHex four₂ hex₂
    have htext : ∀ x, '\\' :: 'u' :: (ds₂ ++ cs) ++ '"' :: x =
        '\\' :: 'u' :: (ds₂ ++ (cs ++ '"' :: x)) := by simp
    by_cases hhigh : (n₂ < 0xDC00 || 0xDFFF < n₂) = true
    · refine .inr fun x y => (hfirst _).bind ?_
      rw [if_neg hlow, if_neg hplain, htext]
      refine (reads_pairContinues _ _).bind ((reads_pairContinues _ _).bind ((hsecond _).bind ?_))
      rw [if_pos hhigh]
      exact (refuses_failHere _).reads
    · have hle : cs.length ≤ ('\\' :: 'u' :: (ds₂ ++ cs)).length := by
        simp only [List.length_cons, List.length_append]
        omega
      refine .inl ⟨Char.ofNat (0x10000 + 0x400 * (n - 0xD800) + (n₂ - 0xDC00)), cs, rest, hle,
        fun x => (hfirst _).bind ?_⟩
      rw [if_neg hlow, if_neg hplain, htext]
      refine (reads_pairContinues _ _).bind ((reads_pairContinues _ _).bind ((hsecond _).bind ?_))
      rw [if_neg hhigh]
      exact reads_pure _ _

theorem exists_reads_stringSteps {cs : List Char} (h : StringBody cs) :
    ∃ answer, ∀ steps x, cs.length < steps →
      Reads (stringSteps steps) (cs ++ '"' :: x) answer x := by
  -- two escapes may be read as one character, so the induction is on how long the string is
  induction hlen : cs.length using Nat.strong_induction_on generalizing cs with
  | _ n ih =>
    subst hlen
    have hmore : ∀ {rest : List Char} (c : Char), StringBody rest → rest.length < cs.length →
        ∃ answer, ∀ steps x, rest.length < steps →
          Reads (do let cs ← stringSteps steps; pure (c :: cs)) (rest ++ '"' :: x) answer x := by
      intro rest c hrest hless
      obtain ⟨answer, hread⟩ := ih rest.length hless hrest rfl
      cases answer with
      | none => exact ⟨none, fun steps x hn => (hread steps x hn).bind_none⟩
      | some cs =>
        exact ⟨some (c :: cs), fun steps x hn => (hread steps x hn).bind (reads_pure _ x)⟩
    cases h with
    | nil =>
      refine ⟨some [], fun steps x hn => ?_⟩
      obtain ⟨steps, rfl⟩ := Nat.exists_eq_add_one.2 hn
      exact (reads_peek _).bind ((reads_skip _ _).bind (reads_pure _ x))
    | @plain c cs quote backslash control rest =>
      obtain ⟨answer, hread⟩ := hmore c rest (by simp)
      refine ⟨answer, fun steps x hn => ?_⟩
      obtain ⟨steps, rfl⟩ := Nat.exists_eq_add_one.2 (Nat.lt_of_le_of_lt (Nat.zero_le _) hn)
      refine (reads_peek _).bind ?_
      simp only [List.cons_append, List.head?_cons]
      rw [if_neg control]
      exact (reads_skip _ _).bind (hread steps x (by simpa using hn))
    | @letter c d cs hletter rest =>
      obtain ⟨answer, hread⟩ := hmore d rest (by simp only [List.length_cons]; omega)
      refine ⟨answer, fun steps x hn => ?_⟩
      obtain ⟨steps, rfl⟩ := Nat.exists_eq_add_one.2 (Nat.lt_of_le_of_lt (Nat.zero_le _) hn)
      have hfew : cs.length < steps := by
        simp only [List.length_cons] at hn
        omega
      refine (reads_peek _).bind ((reads_skip _ _).bind ?_)
      exact (reads_escape_letter hletter _).bind (hread steps x hfew)
    | @number ds cs four hex rest =>
      have htext : ∀ x, '\\' :: 'u' :: (ds ++ cs) ++ '"' :: x =
          '\\' :: 'u' :: (ds ++ (cs ++ '"' :: x)) := by simp
      rcases numberedEscape_cases four hex rest with ⟨c, cs', hrest, hle, hescape⟩ | hescape
      · obtain ⟨answer, hread⟩ := hmore c hrest (by
          simp only [List.length_cons, List.length_append]
          omega)
        refine ⟨answer, fun steps x hn => ?_⟩
        obtain ⟨steps, rfl⟩ := Nat.exists_eq_add_one.2 (Nat.lt_of_le_of_lt (Nat.zero_le _) hn)
        have hfew : cs'.length < steps := by
          simp only [List.length_cons, List.length_append] at hn
          omega
        rw [htext]
        refine (reads_peek _).bind ((reads_skip _ _).bind ?_)
        refine Reads.bind (a := c) (y := cs' ++ '"' :: x) ?_ (hread steps x hfew)
        exact (reads_peek _).bind ((reads_skip _ _).bind (hescape x))
      · refine ⟨none, fun steps x hn => ?_⟩
        obtain ⟨steps, rfl⟩ := Nat.exists_eq_add_one.2 (Nat.lt_of_le_of_lt (Nat.zero_le _) hn)
        rw [htext]
        refine (reads_peek _).bind ((reads_skip _ _).bind (Reads.bind_none (y := x) ?_))
        exact (reads_peek _).bind ((reads_skip _ _).bind (hescape x x))

theorem exists_reads_stringRest {cs : List Char} (h : StringBody cs) :
    ∃ answer, ∀ x, Reads stringRest (cs ++ '"' :: x) answer x := by
  obtain ⟨answer, hread⟩ := exists_reads_stringSteps h
  have hsteps : ∀ x, Reads (remaining >>= stringSteps) (cs ++ '"' :: x) answer x :=
    fun x => (reads_remaining _).bind (hread _ x (by simp))
  have hrest : stringRest = (remaining >>= stringSteps) >>= fun cs => pure (String.ofList cs) := by
    rw [stringRest, bind_assoc]
  rw [hrest]
  exact exists_reads_bind hsteps fun cs => ⟨_, reads_pure _⟩

theorem settled_stringRest {cs : List Char} (h : StringBody cs) :
    Settled stringRest (cs ++ ['"']) := by
  refine settled_of_exists ?_
  simp only [List.append_assoc]
  exact exists_reads_stringRest h

/-! ## Scalars -/

section Scalars

/-- A number starts with a character that no other value starts with. -/
theorem exists_start_of_isNumber {cs : List Char} (h : IsNumber cs) :
    ∃ c rest, cs = c :: rest ∧ Cursor.isBlank c = false ∧ c ∉ ['n', 't', 'f', '"', '[', '{'] := by
  have hdigits : ∀ d : Digit, Cursor.isBlank d.char = false ∧
      d.char ∉ ['n', 't', 'f', '"', '[', '{'] := by decide
  obtain ⟨c, rest, rfl, rfl | ⟨d, rfl⟩⟩ := h.exists_cons
  · exact ⟨_, _, rfl, by decide, by decide⟩
  · exact ⟨_, _, rfl, hdigits d⟩

theorem steady_string (expected : String) : Steady (string expected) := by
  refine .of_values (ignoresBlanks_token _) fun h => ?_
  cases h with
  | string body => exact settled_token (by decide) (settled_skip (settled_stringRest body))
  | number hnumber =>
    obtain ⟨c, rest, rfl, hblank, hother⟩ := exists_start_of_isNumber hnumber
    refine settled_token hblank ?_
    split
    · next heq => exact absurd (by simp [Option.some.inj heq]) hother
    · exact (Kinds.refuses_mismatch _).settled
  | null | true | false | noItems _ | items _ _ | noMembers _ | members _ _ _ _ =>
    exact settled_token (by decide) (Kinds.refuses_mismatch _).settled

theorem steady_bool : Steady bool := by
  refine .of_values (ignoresBlanks_token _) fun h => ?_
  cases h with
  | true =>
    exact settled_token (by decide) (settled_skip ((settled_literalRest _).map fun _ => true))
  | false =>
    exact settled_token (by decide) (settled_skip ((settled_literalRest _).map fun _ => false))
  | number hnumber =>
    obtain ⟨c, rest, rfl, hblank, hother⟩ := exists_start_of_isNumber hnumber
    refine settled_token hblank ?_
    split
    · next heq => exact absurd (by simp [Option.some.inj heq]) hother
    · next heq => exact absurd (by simp [Option.some.inj heq]) hother
    · exact (Kinds.refuses_mismatch _).settled
  | null | string _ | noItems _ | items _ _ | noMembers _ | members _ _ _ _ =>
    exact settled_token (by decide) (Kinds.refuses_mismatch _).settled

theorem checked_cases (result : Except Problem α) :
    (∃ a, checked result = pure a) ∨ Refuses (checked result : Reader α) := by
  cases result with
  | ok a => exact .inl ⟨a, rfl⟩
  | error problem => exact .inr (refuses_reject problem)

end Scalars

end Reader

end ContentVisibility.Json
