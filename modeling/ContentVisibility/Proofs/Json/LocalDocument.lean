import ContentVisibility.Proofs.Json.Kinds
import ContentVisibility.Proofs.Json.Local
import Mathlib.Data.List.TakeWhile

/-!
# Documents are read locally

* `Reader.local_document`: documents are read locally, if no object stands for a number;
* `Kinds.local_readObject`, `Kinds.local_readList`: so is an object or a list that names its kind, up
  to its closing bracket.
-/

namespace ContentVisibility.Json.Reader

variable {α β σ : Type}

/-! ## Scalars -/

section Scalars

variable {n : Nat}

theorem local_literalRest (cs : List Char) : Local false n (literalRest cs) (literalRest cs) := by
  induction cs generalizing n with
  | nil => exact local_pure ()
  | cons expected cs ih =>
    refine local_peek.bind fun c => ?_
    cases c with
    | none => exact (refuses_failHere _).local
    | some c =>
      simp only
      split
      · exact local_skip ih
      · exact (refuses_failAhead _).local

theorem behindBytes?_isSome_of_le (p : Position) {k : Nat} {cs : List Char} (h : k ≤ cs.length) :
    (Cursor.behindBytes? p k cs).isSome = true := by
  induction cs generalizing p k with
  | nil =>
    obtain rfl : k = 0 := Nat.le_zero.1 h
    rfl
  | cons c cs ih =>
    cases k with
    | zero => rfl
    | succ k =>
      rw [Cursor.behindBytes?]
      split
      · have := c.utf8Size_pos
        exact ih _ (by rw [List.length_cons] at h; omega)
      · rfl

theorem local_fourHex : Local false n fourHex fourHex := by
  intro cur a cur' h
  rw [fourHex] at h
  split at h
  · cases h
  · split at h
    · cases h
    · next k hk =>
      obtain ⟨rfl, rfl⟩ : k = a ∧ cur.nextN 4 = cur' := by simpa using h
      refine ⟨List.drop_suffix 4 cur.rest, by rintro ⟨⟩, fun x y w hx hy hne _ => ?_⟩
      have hne : 0 < y.length := List.length_pos_iff.2 (hne.resolve_left Bool.false_ne_true)
      have hy : (x ++ w).drop 4 = y ++ w := by rw [← hx, ← hy]; rfl
      have hlen : x.length = y.length + 4 := by
        have := congrArg List.length hy
        rw [List.length_drop, List.length_append, List.length_append] at this
        omega
      rw [List.drop_append_of_le_length (by omega)] at hy
      rw [hx, List.take_append_of_le_length (by omega)] at hk
      intro cur₂ hcur₂
      have hlen : 4 ≤ cur₂.rest.length := by rw [hcur₂]; omega
      obtain ⟨p, hp⟩ := Option.isSome_iff_exists.1 (behindBytes?_isSome_of_le cur₂.position hlen)
      refine ⟨cur₂.nextN 4, ?_, ?_⟩
      · rw [fourHex, hp, hcur₂, hk]
      · rw [← List.append_cancel_right hy, ← hcur₂]
        rfl

theorem local_pairContinues (c : Char) :
    Local false n (pairContinues c) (pairContinues c) := by
  refine local_peek.bind fun next => ?_
  split
  · exact (refuses_failHere _).local
  · split
    · exact local_next
    · exact (refuses_failAhead _).local

theorem local_numberedEscape : Local false n numberedEscape numberedEscape := by
  refine local_fourHex.bind fun first => ?_
  split
  · exact (refuses_failHere _).local
  split
  · exact local_pure _
  refine (local_pairContinues _).bind fun _ => (local_pairContinues _).bind fun _ =>
    local_fourHex.bind fun second => ?_
  split
  · exact (refuses_failHere _).local
  · exact local_pure _

theorem local_escape : Local false n escape escape := by
  refine local_peek.bind fun c => ?_
  split
  · exact (refuses_failHere _).local
  · exact local_skip local_numberedEscape
  · split
    · exact local_skip (local_pure _)
    · exact (refuses_failAhead _).local

theorem local_stringSteps (m j : Nat) : Local false j (stringSteps m) (stringSteps j) := by
  refine local_steps (fun m (_ : Unit) => stringSteps m) (fun _ => refuses_failHere _) ?_ m j ()
  intro m j n ih _
  refine local_peek.bind fun c => ?_
  split
  · exact (refuses_failHere _).local
  · exact local_skip (local_pure _)
  · exact local_skip (local_escape.bind fun _ => ((ih ()).mono (Nat.le_refl n)).map _)
  · split
    · exact (refuses_failAhead _).local
    · exact local_skip ((ih ()).map _)

theorem local_stringRest : Local false n stringRest stringRest := by
  have h : Local false n (remaining >>= stringSteps) (remaining >>= stringSteps) :=
    local_remaining local_stringSteps
  exact h.map String.ofList

theorem local_digitRun : Local false n digitRun digitRun := by
  let run (c : Char) : Bool := (Digit.ofChar? c).isSome
  intro cur a cur' h
  obtain ⟨rfl, rfl⟩ : (cur.rest.takeWhile run).filterMap Digit.ofChar? = a ∧
      cur.nextN (cur.rest.takeWhile run).length = cur' := by simpa [digitRun] using h
  have hrest : ∀ cur : Cursor,
      (cur.nextN (cur.rest.takeWhile run).length).rest = cur.rest.dropWhile run :=
    fun cur => drop_length_takeWhile run cur.rest
  rw [hrest]
  refine ⟨List.dropWhile_suffix run, by rintro ⟨⟩, fun x y w hx hy hne _ => ?_⟩
  rw [hx] at hy ⊢
  obtain ⟨rfl, htake⟩ := dropWhile_of_append hy (hne.resolve_left Bool.false_ne_true)
  rw [htake]
  rintro cur rfl
  exact ⟨_, rfl, hrest cur⟩

/-- Numbers, where what becomes of another character is a refusal. -/
theorem local_digitOr {stray : Reader Digit} (h : Refuses stray) :
    Local false n (digitOr stray) (digitOr stray) := by
  refine local_peek.bind fun c => ?_
  split
  · exact (refuses_failHere _).local
  · split
    · exact local_skip (local_pure _)
    · exact h.local

theorem local_wholePart {stray : Reader Digit} (h : Refuses stray) :
    Local false n (wholePart stray) (wholePart stray) := by
  refine (local_digitOr h).bind fun first => ?_
  split
  · refine local_peek.bind fun c => ?_
    split
    · exact (refuses_failAhead _).local
    · exact local_pure _
  · exact local_digitRun.map _

theorem local_fractionPart : Local false n fractionPart fractionPart := by
  refine local_peek.bind fun c => ?_
  split
  · exact local_skip ((local_digitOr (refuses_failAhead _)).bind fun _ => local_digitRun.map _)
  · exact local_pure _

theorem local_exponentSign : Local false n exponentSign exponentSign := by
  refine local_peek.bind fun c => ?_
  split
  · exact local_skip (local_pure _)
  · exact local_skip (local_pure _)
  · exact local_pure _

theorem local_exponentPart {stray : Reader Digit} (h : Refuses stray) :
    Local false n (exponentPart stray) (exponentPart stray) := by
  refine local_peek.bind fun c => ?_
  split
  · exact local_skip (local_exponentSign.bind fun _ => (local_digitOr h).bind fun _ =>
      local_digitRun.map _)
  · exact local_pure _

theorem local_numberRest {stray : Reader Digit} (h : Refuses stray) (negative : Bool) :
    Local false n (numberRest stray negative) (numberRest stray negative) :=
  (local_wholePart h).bind fun _ => local_fractionPart.bind fun _ => (local_exponentPart h).map _

theorem local_number : Local false n number number := by
  refine local_peek.bind fun c => ?_
  split
  · exact local_skip (local_numberRest (refuses_failAhead _) true)
  · exact local_numberRest (refuses_failAhead _) false

theorem local_string (expected : String) : Local false n (string expected) (string expected) := by
  refine local_peekToken.bind fun c => ?_
  split
  · exact local_skip local_stringRest
  · exact (Kinds.refuses_mismatch expected).local

end Scalars

/-! ## Lists and objects -/

section Brackets

variable {closing : Bool} {n : Nat}

theorem local_moreItems_further {f f' : Bool → Reader β}
    (hmore : Local closing n (f true) (f' true))
    (hdone : Local closing (n + 1) (f false) (f' false)) :
    Local closing (n + 1) (moreItems false >>= f) (moreItems false >>= f') := by
  unfold moreItems
  rw [bind_assoc, bind_assoc]
  refine local_peekToken.bind fun c => ?_
  split
  · exact (refuses_failHere _).bind.local
  · simpa using hdone
  · rw [if_neg Bool.false_ne_true]
    split
    · simp only [bind_assoc]
      refine local_skip (local_peekToken.bind fun c => ?_)
      split
      · exact (refuses_failHere _).bind.local
      · exact (refuses_failAhead _).bind.local
      · simpa using hmore
    · exact (refuses_failAhead _).bind.local

theorem local_moreItems_first {f f' : Bool → Reader β}
    (h : ∀ more, Local closing n (f more) (f' more)) :
    Local closing n (moreItems true >>= f) (moreItems true >>= f') := by
  unfold moreItems
  rw [bind_assoc, bind_assoc]
  refine local_peekToken.bind fun c => ?_
  split
  · exact (refuses_failHere _).bind.local
  · simpa using h false
  · simpa using h true

theorem local_moreMembers (first : Bool) :
    Local false n (moreMembers first) (moreMembers first) := by
  refine local_peekToken.bind fun c => ?_
  split
  · exact (refuses_failHere _).local
  · exact local_pure _
  split
  · split
    · exact local_pure _
    · exact (refuses_failAhead _).local
  split
  · refine local_skip (local_peekToken.bind fun c => ?_)
    split
    · exact (refuses_failHere _).local
    · exact local_pure _
    · exact (refuses_failAhead _).local
    · exact (refuses_failAhead _).local
  · exact (refuses_failAhead _).local

theorem local_colon : Local false n colon colon := by
  refine local_peekToken.bind fun c => ?_
  split
  · exact local_next
  · exact (refuses_failAhead _).local
  · exact (refuses_failHere _).local

/-- Behind blank characters, a closing bracket and nothing else is taken. -/
theorem local_closing {close : Char} (hclose : close = ']' ∨ close = '}')
    {f : Option Char → Reader Unit} (hskip : f (some close) = skip)
    (hothers : ∀ c, c ≠ some close → Refuses (f c)) :
    Local true n (peekToken >>= f) (peekToken >>= f) := by
  have hblank : Cursor.isBlank close = false := by rcases hclose with rfl | rfl <;> decide
  intro cur a cur' h
  obtain ⟨mid, hpeek, hmid⟩ := reads_peekToken_dropWhile cur.rest cur rfl
  rw [bind_ok hpeek] at h
  by_cases he : (cur.rest.dropWhile Cursor.isBlank).head? = some close
  · rw [he, hskip] at h
    obtain rfl : mid.next = cur' := congrArg Prod.snd (Except.ok.inj h)
    obtain ⟨after, hafter⟩ := List.head?_eq_some_iff.1 he
    have hnext : mid.next.rest = after := by
      show mid.rest.tail = after
      rw [hmid, hafter, List.tail_cons]
    have hcur : cur.rest = cur.rest.takeWhile Cursor.isBlank ++ close :: after := by
      rw [← hafter, List.takeWhile_append_dropWhile]
    rw [hnext]
    refine ⟨⟨cur.rest.takeWhile Cursor.isBlank ++ [close], by simpa using hcur.symm⟩,
      fun _ => ⟨_, close, hclose, hcur⟩, fun x y w hx hy _ _ => ?_⟩
    -- the text alone has the blank characters and the bracket, too
    have hx : x = cur.rest.takeWhile Cursor.isBlank ++ close :: y := by
      rw [hx, hy, ← List.cons_append, ← List.append_assoc] at hcur
      rw [hx]
      exact List.append_cancel_right hcur
    have hdrop : x.dropWhile Cursor.isBlank = close :: y := by
      rw [hx, List.dropWhile_append_of_pos fun c hc => List.mem_takeWhile_imp hc,
        List.dropWhile_cons_of_neg (by simp [hblank])]
    have hpeek := reads_peekToken_dropWhile x
    rw [hdrop] at hpeek
    refine hpeek.bind ?_
    rw [List.head?_cons, hskip]
    exact reads_skip close y
  · obtain ⟨fault, hfault⟩ := hothers _ he mid
    rw [hfault] at h
    cases h

theorem local_endList : Local true n endList endList := by
  refine local_closing (.inl rfl) rfl fun c hc => ?_
  split
  · exact refuses_failHere _
  · exact absurd rfl hc
  · refine refuses_bind fun _ => refuses_bind fun _ => ?_
    split
    · exact refuses_failAhead _
    · exact refuses_failAhead _
  · exact refuses_failAhead _

theorem local_endObject : Local true n endObject endObject := by
  refine local_closing (.inr rfl) rfl fun c hc => ?_
  split
  · exact refuses_failHere _
  · exact absurd rfl hc
  · exact refuses_failAhead _
  · exact refuses_failAhead _

section Items

variable {item : Reader α}

theorem local_itemsSteps_further (hitem : ∀ n, Local false n item item) (m j : Nat) :
    Local true (j + 1) (itemsSteps item m false) (itemsSteps item j false) := by
  refine local_steps (fun m (_ : Unit) => itemsSteps item m false) (fun _ => refuses_failHere _) ?_
    m j ()
  intro m j n ih _
  refine local_moreItems_further ?_ ?_
  · exact (hitem n).bind fun _ => (ih ()).map _
  · exact local_endList.map _

theorem local_items (hitem : ∀ n, Local false n item item) :
    Local false n (items item) (items item) := by
  refine local_skip (local_remaining fun m j => ?_)
  rw [Bool.toNat_false, Nat.add_zero]
  cases m with
  | zero => exact (refuses_failHere _).local
  | succ m =>
    have hstep : ∀ k,
        Local true (k + 1) (itemsSteps item (m + 1) true) (itemsSteps item (k + 1) true) := by
      intro k
      refine local_moreItems_first fun more => ?_
      cases more with
      | true => exact (hitem _).bind fun _ => (local_itemsSteps_further hitem m k).map _
      | false => exact local_endList.map _
    cases j with
    | zero => exact (hstep 0).any.weaken.mono (by decide)
    | succ j => exact (hstep j).weaken

end Items

theorem local_foldMembersSteps {member : σ → String → Reader σ}
    (hmember : ∀ n s key, Local false n (member s key) (member s key)) (m j : Nat) (first : Bool)
    (s : σ) :
    Local false j (foldMembersSteps member m first s) (foldMembersSteps member j first s) := by
  refine local_steps (fun m (i : Bool × σ) => foldMembersSteps member m i.1 i.2)
    (fun _ => refuses_failHere _) ?_ m j (first, s)
  intro m j n ih i
  refine (local_moreMembers i.1).bind fun more => ?_
  cases more with
  | false => exact local_pure i.2
  | true =>
    refine local_skip (local_stringRest.bind fun key => (hmember n i.2 key).bind fun s => ?_)
    exact ih (false, s)

theorem local_foldMembers {member : σ → String → Reader σ}
    (hmember : ∀ n s key, Local false n (member s key) (member s key)) (first : Bool) (s : σ) :
    Local false n (foldMembers member first s) (foldMembers member first s) :=
  local_remaining fun m j => (local_foldMembersSteps hmember (m + 1) (j + 1) first s).mono (by simp)

end Brackets

/-! ## Documents -/

section Documents

variable {n : Nat} {b : Builder α}

theorem local_documentWith {list object : Reader α} (hlist : Local false n list list)
    (hobject : Local false n object object) :
    Local false n (documentWith b list object) (documentWith b list object) := by
  refine local_peekToken.bind fun c => ?_
  split
  · exact (refuses_failHere _).local
  · exact local_skip ((local_literalRest _).map _)
  · exact local_skip ((local_literalRest _).map _)
  · exact local_skip ((local_literalRest _).map _)
  · exact local_skip (local_stringRest.map _)
  · exact hlist
  · exact hobject
  · split
    · exact local_number.map _
    · exact (refuses_failAhead _).local

theorem local_object (hb : b.marksNumbers = false) {document : Reader α}
    (h : ∀ n, Local false n document document) :
    Local false n (object b document) (object b document) := by
  have hmember : ∀ n (read : List (String × α)) (key : String),
      Local false n (do colon; let a ← document; pure ((key, a) :: read))
        (do colon; let a ← document; pure ((key, a) :: read)) :=
    fun n read key => local_colon.bind fun _ => (h n).map _
  refine local_skip ((local_moreMembers true).bind fun more => ?_)
  cases more with
  | false => exact local_skip (local_pure _)
  | true =>
    refine local_skip (local_stringRest.bind fun key => ?_)
    rw [hb, Bool.false_and, if_neg Bool.false_ne_true]
    refine (hmember _ [] key).bind fun first => ?_
    refine (local_foldMembers hmember false first).bind fun read => ?_
    exact (local_endObject.map _).weaken

theorem local_document (hb : b.marksNumbers = false) (depth : Nat) :
    Local false n (document b depth) (document b depth) := by
  induction depth generalizing n with
  | zero => exact local_documentWith (refuses_failAhead _).local (refuses_failAhead _).local
  | succ depth ih =>
    exact local_documentWith ((local_items fun _ => ih).map _) (local_object hb fun _ => ih)

end Documents

end ContentVisibility.Json.Reader

namespace ContentVisibility.Json.Kinds

open Reader

variable {κ : Type} (kinds : Kinds κ) {n : Nat}

theorem local_kind : Local false n
    (do Reader.checked (kinds.vocabulary.find (← Reader.string expected)))
    (do Reader.checked (kinds.vocabulary.find (← Reader.string expected))) := by
  refine (local_string expected).check fun s => ?_
  cases kinds.vocabulary.find s with
  | ok kind => exact .inl ⟨kind, rfl⟩
  | error problem => exact .inr (refuses_reject problem)

theorem local_held : Local false n (Reader.held 1) (Reader.held 1) := local_document rfl _

theorem local_member (parts : Parts κ) (key : String) :
    Local false n (kinds.member parts key) (kinds.member parts key) := by
  unfold member
  split
  · split
    · exact (refuses_rejectClosing _ _).local
    · have h : Local false n _ _ := kinds.local_kind.map fun kind => (some kind, parts.2)
      rw [bind_assoc] at h
      exact local_colon.bind fun _ => h
  · exact local_colon.bind fun _ => local_held.map _

theorem local_readObject : Local true n kinds.readObject kinds.readObject := by
  refine local_skip ((local_foldMembers (fun _ => kinds.local_member) true _).bind fun parts => ?_)
  split
  · exact (refuses_rejectClosing _ _).local
  · exact local_endObject.map _

theorem local_readList : Local true n kinds.readList kinds.readList := by
  refine local_skip (local_moreItems_first fun more => ?_)
  cases more with
  | false => exact (refuses_rejectClosing _ _).local
  | true =>
    have hrest : ∀ {n}, Local true n
        (remaining >>= fun left => itemsSteps (Reader.held 1) (left + 1) false)
        (remaining >>= fun left => itemsSteps (Reader.held 1) (left + 1) false) :=
      local_remaining fun m j =>
        (local_itemsSteps_further (fun _ => local_held) (m + 1) (j + 1)).mono (by simp)
    have h : Local true (n - 1) _ _ :=
      kinds.local_kind.bind fun kind => hrest.map fun rest => (kind, Held.sequence rest)
    simpa only [bind_assoc, if_pos] using h

end ContentVisibility.Json.Kinds
