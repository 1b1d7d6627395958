import ContentVisibility.Proofs.Json.Reading
import Mathlib.Data.List.Basic

/-!
# Readers look no further than what follows

A reader that leaves something of a text looks at no more than the first character of it. So the
text may be cut off behind that, and its place in a longer text makes no difference.

* `Reader.Local`: what a reader does before more text, it does without that;
* `Local.bind`, `Local.check`, `local_skip`: readers one after another;
* `local_steps`, `local_remaining`: readers in steps that are counted.
-/

namespace ContentVisibility.Json.Reader

variable {α β σ : Type}

/-- What is left of a text, as a reader leaves it that has taken a closing bracket last. -/
def Closes (before after : List Char) : Prop :=
  ∃ p c, (c = ']' ∨ c = '}') ∧ before = p ++ c :: after

theorem Closes.length_lt {x y : List Char} (h : Closes x y) : y.length < x.length := by
  obtain ⟨p, c, -, rfl⟩ := h
  simp only [List.length_append, List.length_cons]
  omega

theorem Closes.of_suffix {x y z : List Char} (h : Closes y z) (hx : y <:+ x) : Closes x z := by
  obtain ⟨p, c, hc, rfl⟩ := h
  obtain ⟨q, rfl⟩ := hx
  exact ⟨q ++ p, c, hc, (List.append_assoc ..).symm⟩

/-- Where `r` reads a text with more text behind, `r'` reads the text alone and leaves what `r`
leaves but for the text behind. It is enough that `r'` does so where fewer than `n` characters are
taken and, unless the reader is closing, something is left. A closing reader takes a closing bracket
last. -/
def Local (closing : Bool) (n : Nat) (r r' : Reader α) : Prop :=
  ∀ cur a cur', r cur = .ok (a, cur') →
    cur'.rest <:+ cur.rest ∧ (closing = true → Closes cur.rest cur'.rest) ∧
      ∀ x y w, cur.rest = x ++ w → cur'.rest = y ++ w → closing = true ∨ y ≠ [] →
        x.length < n + y.length → Reads r' x (some a) y

/-! ## Sequences -/

section Sequences

variable {closing : Bool} {n : Nat} {r r' : Reader α} {f f' : α → Reader β}

theorem Local.bind (h : Local false n r r') (h' : ∀ a, Local closing n (f a) (f' a)) :
    Local closing n (r >>= f) (r' >>= f') := by
  intro cur b cur' hb
  cases hr : r cur with
  | error fault =>
    rw [bind_error hr] at hb
    cases hb
  | ok p =>
    obtain ⟨a, mid⟩ := p
    rw [bind_ok hr] at hb
    obtain ⟨hfirst, -, hread⟩ := h cur a mid hr
    obtain ⟨hsecond, htaken, hread'⟩ := h' a mid b cur' hb
    refine ⟨hsecond.trans hfirst, fun hc => (htaken hc).of_suffix hfirst, ?_⟩
    intro x y w hx hy hleft hn
    -- what is left in between ends with what is left in the end
    obtain ⟨p, hp⟩ := hsecond
    have hmid : mid.rest = (p ++ y) ++ w := by rw [← hp, hy, List.append_assoc]
    have hlen : (p ++ y).length ≤ x.length := by
      have := hfirst.length_le
      rw [hmid, hx] at this
      simp only [List.length_append] at this ⊢
      omega
    have hne : p ++ y ≠ [] := by
      rcases hleft with hc | hy'
      · have := (htaken hc).length_lt
        rw [hmid, hy] at this
        intro he
        rw [he, List.nil_append, List.length_append] at this
        omega
      · simp [hy']
    exact (hread x _ w hx hmid (.inr hne) (by rw [List.length_append] at hlen ⊢; omega)).bind
      (hread' _ y w hmid hy hleft (by omega))

theorem Local.check (h : Local closing n r r') (hf : ∀ a, (∃ b, f a = pure b) ∨ Refuses (f a)) :
    Local closing n (r >>= f) (r' >>= f) := by
  intro cur b cur' hb
  cases hr : r cur with
  | error fault =>
    rw [bind_error hr] at hb
    cases hb
  | ok p =>
    obtain ⟨a, mid⟩ := p
    rw [bind_ok hr] at hb
    rcases hf a with ⟨b', hpure⟩ | hrefuses
    · rw [hpure] at hb
      obtain ⟨rfl, rfl⟩ : b' = b ∧ mid = cur' := by simpa using Except.ok.inj hb
      obtain ⟨hfirst, htaken, hread⟩ := h cur a mid hr
      refine ⟨hfirst, htaken, fun x y w hx hy hleft hn => (hread x y w hx hy hleft hn).bind ?_⟩
      rw [hpure]
      exact reads_pure _ y
    · obtain ⟨fault, he⟩ := hrefuses mid
      rw [he] at hb
      cases hb

theorem Local.map (h : Local closing n r r') (g : α → β) :
    Local closing n (r >>= fun a => pure (g a)) (r' >>= fun a => pure (g a)) :=
  h.check fun a => .inl ⟨g a, rfl⟩

theorem Refuses.local (h : Refuses r) : Local closing n r r' := by
  intro cur a cur' hr
  obtain ⟨fault, he⟩ := h cur
  rw [he] at hr
  cases hr

theorem local_pure (a : α) : Local false n (pure a : Reader α) (pure a) := by
  intro cur b cur' hb
  obtain ⟨rfl, rfl⟩ : a = b ∧ cur = cur' := by simpa using Except.ok.inj hb
  refine ⟨List.suffix_rfl, nofun, fun x y w hx hy _ _ => ?_⟩
  rw [List.append_cancel_right (hx.symm.trans hy)]
  exact reads_pure a y

/-- A closing reader is local in any case. -/
theorem Local.weaken (h : Local true n r r') : Local false n r r' := by
  intro cur a cur' hr
  obtain ⟨hsuffix, -, hread⟩ := h cur a cur' hr
  exact ⟨hsuffix, nofun, fun x y w hx hy _ hn => hread x y w hx hy (.inl rfl) hn⟩

/-- What nothing is asked of may be any reader: a closing one takes a character. -/
theorem Local.any {r'' : Reader α} (h : Local closing n r r') :
    Local closing closing.toNat r r'' := by
  intro cur a cur' hr
  obtain ⟨hsuffix, htaken, -⟩ := h cur a cur' hr
  refine ⟨hsuffix, htaken, fun x y w hx hy _ hn => ?_⟩
  have hle := hsuffix.length_le
  rw [hx, hy, List.length_append, List.length_append] at hle
  cases closing with
  | false =>
    rw [Bool.toNat_false] at hn
    omega
  | true =>
    have := (htaken rfl).length_lt
    rw [hx, hy, List.length_append, List.length_append] at this
    rw [Bool.toNat_true] at hn
    omega

theorem Local.mono {m : Nat} (h : Local closing n r r') (hm : m ≤ n) : Local closing m r r' := by
  intro cur a cur' hr
  obtain ⟨hsuffix, htaken, hread⟩ := h cur a cur' hr
  exact ⟨hsuffix, htaken, fun x y w hx hy hleft hn => hread x y w hx hy hleft (by omega)⟩

end Sequences

/-! ## Characters -/

section Characters

variable {closing : Bool} {n : Nat}

theorem local_peek : Local false n peek peek := by
  intro cur a cur' h
  obtain ⟨rfl, rfl⟩ : cur.rest.head? = a ∧ cur = cur' := by simpa [peek] using h
  refine ⟨List.suffix_rfl, nofun, fun x y w hx hy hne _ => ?_⟩
  have hne : y ≠ [] := hne.resolve_left nofun
  rw [hx, List.append_cancel_right (hx.symm.trans hy), List.head?_append_of_ne_nil y hne]
  exact reads_peek y

theorem local_skip {f f' : Unit → Reader β} (h : Local closing (n - 1) (f ()) (f' ())) :
    Local closing n (skip >>= f) (skip >>= f') := by
  intro cur b cur' hb
  rw [bind_ok (rfl : skip cur = .ok ((), cur.next))] at hb
  obtain ⟨hsuffix, htaken, hread⟩ := h cur.next b cur' hb
  have hnext : cur.next.rest <:+ cur.rest := List.tail_suffix cur.rest
  refine ⟨hsuffix.trans hnext, fun hc => (htaken hc).of_suffix hnext, ?_⟩
  intro x y w hx hy hleft hn
  cases x with
  | nil =>
    -- nothing could be taken, so nothing is left and the reader is not closing
    have hlen : (y ++ w).length ≤ w.tail.length := by
      rw [← hy, show w = cur.rest from hx.symm]
      exact hsuffix.length_le
    rw [List.length_append, List.length_tail] at hlen
    rcases hleft with hc | hne
    · have := (htaken hc).length_lt
      rw [hy, show cur.next.rest = cur.rest.tail from rfl, hx, List.nil_append, List.length_append,
        List.length_tail] at this
      omega
    · exact absurd (List.length_eq_zero_iff.1 (by omega)) hne
  | cons c x =>
    have hrest : cur.next.rest = x ++ w := by
      show cur.rest.tail = _
      rw [hx]
      rfl
    have hle := hsuffix.length_le
    rw [hy, hrest, List.length_append, List.length_append] at hle
    refine (reads_skip c x).bind (hread x y w hrest hy hleft ?_)
    rw [List.length_cons] at hn
    omega

theorem local_next : Local false n skip skip := by
  have h : Local false n (skip >>= pure) (skip >>= pure) := local_skip (local_pure ())
  rwa [bind_pure] at h

theorem drop_length_takeWhile (p : Char → Bool) (cs : List Char) :
    cs.drop (cs.takeWhile p).length = cs.dropWhile p := by
  calc cs.drop (cs.takeWhile p).length
      = (cs.takeWhile p ++ cs.dropWhile p).drop (cs.takeWhile p).length := by
        rw [List.takeWhile_append_dropWhile]
    _ = cs.dropWhile p := List.drop_left ..

/-- A run of characters that ends before the text behind is the same without that text. -/
theorem dropWhile_of_append {p : Char → Bool} {x y w : List Char}
    (h : (x ++ w).dropWhile p = y ++ w) (hne : y ≠ []) :
    x.dropWhile p = y ∧ (x ++ w).takeWhile p = x.takeWhile p := by
  have hdrop : x.dropWhile p = y := by
    rw [List.dropWhile_append] at h
    split at h
    · have hlen := (List.dropWhile_suffix p : w.dropWhile p <:+ w).length_le
      rw [h, List.length_append] at hlen
      exact absurd (List.length_eq_zero_iff.1 (by omega)) hne
    · exact List.append_cancel_right h
  refine ⟨hdrop, ?_⟩
  have hx : x = x.takeWhile p ++ y := by rw [← hdrop, List.takeWhile_append_dropWhile]
  have hxw : (x ++ w).takeWhile p ++ (y ++ w) = x ++ w := by
    rw [← h, List.takeWhile_append_dropWhile]
  have hsplit : x ++ w = x.takeWhile p ++ (y ++ w) := by rw [← List.append_assoc, ← hx]
  exact List.append_cancel_right (hxw.trans hsplit)

theorem reads_peekToken_dropWhile (x : List Char) :
    Reads peekToken x (some (x.dropWhile Cursor.isBlank).head?) (x.dropWhile Cursor.isBlank) := by
  intro cur hx
  have hrest : cur.skipBlanks.rest = x.dropWhile Cursor.isBlank := by
    rw [← hx, ← drop_length_takeWhile]
    rfl
  exact ⟨cur.skipBlanks, by rw [← hrest]; rfl, hrest⟩

theorem local_peekToken : Local false n peekToken peekToken := by
  intro cur a cur' h
  obtain ⟨cur'', hread, hrest⟩ := reads_peekToken_dropWhile cur.rest cur rfl
  rw [hread] at h
  obtain ⟨rfl, rfl⟩ : (cur.rest.dropWhile Cursor.isBlank).head? = a ∧ cur'' = cur' := by
    simpa using h
  refine ⟨hrest ▸ List.dropWhile_suffix _, nofun, fun x y w hx hy hne _ => ?_⟩
  have hne : y ≠ [] := hne.resolve_left nofun
  have hy : (x ++ w).dropWhile Cursor.isBlank = y ++ w := by rw [← hx, ← hrest, hy]
  obtain ⟨rfl, -⟩ := dropWhile_of_append hy hne
  rw [hx, hy, List.head?_append_of_ne_nil _ hne]
  exact reads_peekToken_dropWhile x

/-- Steps that are counted down from what is left: there are enough of them. -/
theorem local_remaining {F : Nat → Reader β}
    (h : ∀ m j, Local closing (j + closing.toNat) (F m) (F j)) :
    Local closing n (remaining >>= F) (remaining >>= F) := by
  intro cur b cur' hb
  rw [bind_ok (rfl : remaining cur = .ok (cur.left, cur))] at hb
  obtain ⟨hsuffix, hcloses, -⟩ := h cur.left 0 cur b cur' hb
  refine ⟨hsuffix, hcloses, fun x y w hx hy hleft _ => ?_⟩
  obtain ⟨-, -, hread⟩ := h cur.left x.length cur b cur' hb
  refine (reads_remaining x).bind (hread x y w hx hy hleft ?_)
  rcases hleft with rfl | hne
  · rw [Bool.toNat_true]
    omega
  · have := List.length_pos_iff.2 hne
    omega

/-- Steps that each take a character: as many are enough as characters are taken. -/
theorem local_steps {ι : Type} (F : Nat → ι → Reader β) (hzero : ∀ i, Refuses (F 0 i))
    (hstep : ∀ m j n, (∀ i, Local closing n (F m i) (F j i)) →
      ∀ i, Local closing (n + 1) (F (m + 1) i) (F (j + 1) i)) (m j : Nat) (i : ι) :
    Local closing (j + closing.toNat) (F m i) (F j i) := by
  induction m generalizing j i with
  | zero => exact (hzero i).local
  | succ m ih =>
    cases j with
    | zero =>
      rw [Nat.zero_add]
      exact (hstep m 0 _ (ih 0) i).any
    | succ j => exact (hstep m j _ (ih j) i).mono (by omega)

end Characters

end ContentVisibility.Json.Reader
