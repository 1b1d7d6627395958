import ContentVisibility.Json.Document

/-!
# What readers do with a text

* `Reader.Reads`: before a given text a reader gives a given answer, or none, and leaves a given rest;
* `Reader.Refuses`: a reader never gives an answer;
* `Reader.Ensures`: whatever a reader answers has a property.

Each has one rule for sequences and one for every reader of a character. Places in the text play no
part in any of them.
-/

namespace ContentVisibility.Json.Reader

variable {α β : Type}

/-- Wherever `before` is left of the text, the reader gives the answer and leaves `after`; it refuses
if there is no answer. -/
def Reads (r : Reader α) (before : List Char) (answer : Option α) (after : List Char) : Prop :=
  ∀ cur : Cursor, cur.rest = before →
    match answer with
    | some a => ∃ cur', r cur = .ok (a, cur') ∧ cur'.rest = after
    | none => ∃ fault, r cur = .error fault

/-- The reader refuses whatever is left of the text. -/
def Refuses (r : Reader α) : Prop := ∀ cur, ∃ fault, r cur = .error fault

/-- All answers of the reader have the property. -/
def Ensures (r : Reader α) (P : α → Prop) : Prop :=
  ∀ cur a cur', r cur = .ok (a, cur') → P a

/-! ## Sequences -/

theorem bind_ok {r : Reader α} {f : α → Reader β} {cur cur' : Cursor} {a : α}
    (h : r cur = .ok (a, cur')) : (r >>= f) cur = f a cur' := by
  show (r cur >>= fun p => f p.1 p.2) = _
  rw [h]
  rfl

theorem bind_error {r : Reader α} {f : α → Reader β} {cur : Cursor} {fault : Fault}
    (h : r cur = .error fault) : (r >>= f) cur = .error fault := by
  show (r cur >>= fun p => f p.1 p.2) = _
  rw [h]
  rfl

section Reads

variable {r : Reader α} {f : α → Reader β} {x y z : List Char}

theorem Reads.bind {a : α} {b : Option β} (h : Reads r x (some a) y) (h' : Reads (f a) y b z) :
    Reads (r >>= f) x b z := by
  intro cur hx
  obtain ⟨cur', hr, hy⟩ := h cur hx
  rw [bind_ok hr]
  exact h' cur' hy

theorem Reads.bind_none (h : Reads r x none y) : Reads (r >>= f) x none z := by
  intro cur hx
  obtain ⟨fault, hr⟩ := h cur hx
  exact ⟨fault, bind_error hr⟩

/-- Whatever the first answer is. -/
theorem Reads.bind_answer {answer : Option α} {g : α → Option β} (h : Reads r x answer y)
    (h' : ∀ a, Reads (f a) y (g a) z) : Reads (r >>= f) x (answer.bind g) z := by
  cases answer with
  | none => exact h.bind_none
  | some a => exact h.bind (h' a)

theorem Refuses.reads (h : Refuses r) : Reads r x none y := fun cur _ => h cur

theorem reads_pure (a : α) (x : List Char) : Reads (pure a : Reader α) x (some a) x :=
  fun cur hx => ⟨cur, rfl, hx⟩

end Reads

section Refuses

variable {r : Reader α} {f : α → Reader β}

theorem Refuses.bind (h : Refuses r) : Refuses (r >>= f) := by
  intro cur
  obtain ⟨fault, hr⟩ := h cur
  exact ⟨fault, bind_error hr⟩

theorem refuses_bind (h : ∀ a, Refuses (f a)) : Refuses (r >>= f) := by
  intro cur
  cases hr : r cur with
  | error fault => exact ⟨fault, bind_error hr⟩
  | ok p =>
    obtain ⟨a, cur'⟩ := p
    rw [bind_ok hr]
    exact h a cur'

theorem refuses_failHere (fault : SyntaxFault) : Refuses (failHere fault : Reader α) :=
  fun _ => ⟨_, rfl⟩

theorem refuses_failAhead (fault : SyntaxFault) : Refuses (failAhead fault : Reader α) :=
  fun _ => ⟨_, rfl⟩

theorem refuses_reject (problem : Problem) : Refuses (reject problem : Reader α) :=
  fun _ => ⟨_, rfl⟩

theorem refuses_rejectClosing (close : Char) (problem : Problem) :
    Refuses (rejectClosing close problem : Reader α) :=
  fun _ => ⟨_, rfl⟩

end Refuses

section Ensures

variable {r : Reader α} {f : α → Reader β} {P : α → Prop} {Q : β → Prop}

theorem Ensures.bind (h : Ensures r P) (h' : ∀ a, P a → Ensures (f a) Q) : Ensures (r >>= f) Q := by
  intro cur b cur' hb
  cases hr : r cur with
  | error fault => rw [bind_error hr] at hb; cases hb
  | ok p =>
    obtain ⟨a, cur₁⟩ := p
    rw [bind_ok hr] at hb
    exact h' a (h cur a cur₁ hr) cur₁ b cur' hb

theorem ensures_bind (h : ∀ a, Ensures (f a) Q) : Ensures (r >>= f) Q :=
  Ensures.bind (P := fun _ => True) (fun _ _ _ _ => trivial) fun a _ => h a

theorem ensures_pure {a : α} (h : P a) : Ensures (pure a : Reader α) P := by
  intro cur b cur' hb
  obtain ⟨rfl, -⟩ : a = b ∧ cur = cur' := by simpa using Except.ok.inj hb
  exact h

theorem Refuses.ensures (h : Refuses r) : Ensures r P := by
  intro cur a cur' hr
  obtain ⟨fault, he⟩ := h cur
  rw [he] at hr
  cases hr

end Ensures

/-! ## Single characters -/

theorem reads_peek (x : List Char) : Reads peek x (some x.head?) x :=
  fun cur hx => ⟨cur, by rw [← hx]; rfl, hx⟩

theorem reads_skip (c : Char) (x : List Char) : Reads skip (c :: x) (some ()) x :=
  fun cur hx => ⟨cur.next, rfl, by simp [Cursor.next, hx]⟩

theorem reads_remaining (x : List Char) : Reads remaining x (some x.length) x :=
  fun cur hx => ⟨cur, by rw [← hx, ← cur.left_eq]; rfl, hx⟩

theorem skipBlanks_rest {cur : Cursor} (h : ∀ c ∈ cur.rest.head?, Cursor.isBlank c = false) :
    cur.skipBlanks.rest = cur.rest := by
  have hnone : cur.rest.takeWhile Cursor.isBlank = [] := by
    cases hr : cur.rest with
    | nil => rfl
    | cons c rest => simp [h c (by simp [hr])]
  simp [Cursor.skipBlanks, Cursor.nextN, hnone]

theorem reads_peekToken {x : List Char} (h : ∀ c ∈ x.head?, Cursor.isBlank c = false) :
    Reads peekToken x (some x.head?) x := by
  intro cur hx
  have hrest : cur.skipBlanks.rest = cur.rest := skipBlanks_rest (by rw [hx]; exact h)
  exact ⟨cur.skipBlanks, by rw [← hx, ← hrest]; rfl, by rw [hrest, hx]⟩

theorem reads_token {c : Char} (x : List Char) (h : Cursor.isBlank c = false) :
    Reads peekToken (c :: x) (some (some c)) (c :: x) :=
  reads_peekToken (by simpa using h)

theorem reads_literalRest (cs x : List Char) : Reads (literalRest cs) (cs ++ x) (some ()) x := by
  induction cs with
  | nil => exact reads_pure () x
  | cons c cs ih =>
    unfold literalRest
    refine (reads_peek _).bind ?_
    simp only [List.cons_append, List.head?_cons, if_true]
    exact (reads_skip c _).bind ih

end ContentVisibility.Json.Reader
