import ContentVisibility.Json.Tagged
import ContentVisibility.Proofs.Json.HeldBack

/-!
# Kinds of values and of their texts

The kind of a value and its rest, once as found in the value and once as found in its text. Both come
down to one split of the value, with the rest held back in one way or the other.

* `Kinds.split`: the kind that a value names, and its rest held back;
* `Kinds.ofValue_toOption`: what is found in a value;
* `Kinds.reads_text`: what is found in the text of a value.
-/

namespace ContentVisibility.Json

namespace Kinds

variable {κ : Type} (kinds : Kinds κ)

/-! ## The split of a value -/

/-- The kind that a value names, if it names one. -/
def kind? (v : Value) : Option κ := (kinds.kindOf v).toOption

/-- The members of an object that do not name the kind. -/
def rest (members : List (String × Value)) : List (String × Value) :=
  members.filter fun m => m.1 ≠ kinds.key

/-- The kind that an object or a list names. -/
def named : Value → Option κ
  | .object members => (Members.get? kinds.key members).bind kinds.kind?
  | .array (first :: _) => kinds.kind? first
  | .array [] | .null | .bool _ | .number _ | .string _ => none

/-- An object or a list without what names the kind. -/
def remainder : Value → Value
  | .object members => .object (kinds.rest members)
  | .array items => .array items.tail
  | value => value

/-- The kind of a value and its rest, held back by the builder. -/
def split (b : Builder Held) (v : Value) : Option (κ × Held) :=
  (kinds.named v).map fun kind => (kind, b.ofValue (kinds.remainder v))

/-! ## Members one by one -/

/-- Take a member whose content passes a test. -/
def step (test : Value → Bool) (b : Builder Held) (parts : Parts κ) (m : String × Value) :
    Option (Parts κ) :=
  if m.1 = kinds.key then
    if parts.1.isSome then none else (kinds.kind? m.2).map fun kind => (some kind, parts.2)
  else if test m.2 then some (parts.1, (m.1, b.ofValue m.2) :: parts.2) else none

section Step

variable {kinds} {test : Value → Bool} {b : Builder Held}

theorem foldlM_step_of_rest {ms : List (String × Value)} (h : ∀ m ∈ ms, m.1 ≠ kinds.key)
    (parts : Parts κ) :
    ms.foldlM (kinds.step test b) parts = if ms.all fun m => test m.2 then
      some (parts.1, (ms.map fun m => (m.1, b.ofValue m.2)).reverse ++ parts.2) else none := by
  induction ms generalizing parts with
  | nil => rfl
  | cons m ms ih =>
    have hrest := ih fun n hn => h n (List.mem_cons_of_mem m hn)
    rw [List.foldlM_cons, step, if_neg (h m (List.mem_cons_self ..)), List.all_cons]
    by_cases hm : test m.2 = true
    · rw [hm, Bool.true_and, if_pos rfl]
      refine (hrest _).trans ?_
      simp
    · simp [hm]

theorem foldlM_step {ms : List (String × Value)} (hnodup : (ms.map Prod.fst).Nodup)
    (before : List (String × Held)) :
    ((ms.foldlM (kinds.step test b) (none, before)).bind fun parts =>
        parts.1.map fun kind => (kind, Held.map parts.2.reverse)) =
      if (kinds.rest ms).all fun m => test m.2 then
        ((Members.get? kinds.key ms).bind kinds.kind?).map fun kind =>
          (kind, .map (before.reverse ++ (kinds.rest ms).map fun m => (m.1, b.ofValue m.2)))
      else none := by
  induction ms generalizing before with
  | nil => simp [rest, Members.get?]
  | cons m ms ih =>
    rw [List.map_cons, List.nodup_cons] at hnodup
    rw [List.foldlM_cons]
    -- keys differ: behind the member for the kind all others belong to the rest
    by_cases hkey : m.1 = kinds.key
    · have hothers : ∀ n ∈ ms, n.1 ≠ kinds.key := fun n hn he =>
        hnodup.1 (hkey ▸ he ▸ List.mem_map_of_mem hn)
      have hrest : kinds.rest (m :: ms) = ms := by
        simpa [rest, hkey] using hothers
      rw [hrest, Members.get?_cons, if_pos hkey, step, if_pos hkey]
      cases hkind : kinds.kind? m.2 with
      | none => simp [hkind]
      | some kind =>
        have hfold : ms.foldlM (kinds.step test b) (some kind, before) = _ :=
          foldlM_step_of_rest hothers _
        simp only [hkind, Option.isSome_none, Bool.false_eq_true, if_false, Option.map_some,
          Option.bind_eq_bind, Option.bind_some, hfold]
        split <;> simp
    · have hrest : kinds.rest (m :: ms) = m :: kinds.rest ms := by simp [rest, hkey]
      rw [hrest, Members.get?_cons, if_neg hkey, step, if_neg hkey, List.all_cons]
      by_cases hm : test m.2 = true
      · rw [hm, Bool.true_and, if_pos rfl]
        refine (ih hnodup.2 _).trans ?_
        simp
      · simp [hm]

/-- The members come down to the split of the object, if the content of the rest passes the test. -/
theorem foldlM_step_eq_split (hb : b.object = .map) {ms : List (String × Value)}
    (hnodup : (ms.map Prod.fst).Nodup) :
    ((ms.foldlM (kinds.step test b) (none, [])).bind fun parts =>
        parts.1.map fun kind => (kind, Held.map parts.2.reverse)) =
      if (kinds.rest ms).all fun m => test m.2 then kinds.split b (.object ms) else none := by
  rw [foldlM_step hnodup [], split, remainder, Builder.ofValue, Builder.ofMembers_eq_map, hb]
  rfl

end Step

/-! ## Values -/

theorem memberOf_toOption (parts : Parts κ) (m : String × Value) :
    (kinds.memberOf parts m).toOption = kinds.step Value.narrow Held.presenter parts m := by
  rw [memberOf, step]
  by_cases hkey : m.1 = kinds.key
  · rw [if_pos hkey, if_pos hkey]
    by_cases hkind : parts.1.isSome = true
    · rw [if_pos hkind, if_pos hkind]
      rfl
    · rw [if_neg hkind, if_neg hkind, toOption_bind, kind?]
      cases kinds.kindOf m.2 <;> rfl
  · rw [if_neg hkey, if_neg hkey, toOption_bind, Value.held_toOption]
    split <;> rfl

/-- Only a string names a kind, and a string is narrow. -/
theorem narrow_of_kind? {v : Value} {kind : κ} (h : kinds.kind? v = some kind) : v.narrow = true := by
  cases v with
  | string s => rfl
  | null | bool _ | number _ | array _ | object _ => cases h

theorem all_narrow_rest {ms : List (String × Value)} (hnodup : (ms.map Prod.fst).Nodup) {kind : κ}
    (h : (Members.get? kinds.key ms).bind kinds.kind? = some kind) :
    (ms.all fun m => m.2.narrow) = (kinds.rest ms).all fun m => m.2.narrow := by
  obtain ⟨value, hget, hkind⟩ := Option.bind_eq_some_iff.1 h
  rw [Bool.eq_iff_iff, List.all_eq_true, List.all_eq_true]
  refine ⟨fun hall m hm => hall m (List.mem_of_mem_filter hm), fun hall m hm => ?_⟩
  by_cases hkey : m.1 = kinds.key
  · have hvalue : Members.get? kinds.key ms = some m.2 :=
      hkey ▸ Members.get?_eq_some_of_mem hnodup hm
    rw [hget] at hvalue
    exact kinds.narrow_of_kind? (Option.some.inj hvalue ▸ hkind)
  · exact hall m (List.mem_filter.2 ⟨hm, by simpa using hkey⟩)

/-- An object that names its kind and is narrow comes down to its split. -/
theorem ofValue_object {ms : List (String × Value)} (hnodup : (ms.map Prod.fst).Nodup) :
    (kinds.ofValue (.object ms)).toOption =
      if (Value.object ms).narrow then kinds.split Held.presenter (.object ms) else none := by
  have hread : (kinds.ofValue (.object ms)).toOption =
      (ms.foldlM (kinds.step Value.narrow Held.presenter) (none, [])).bind fun parts =>
        parts.1.map fun kind => (kind, .map parts.2.reverse) := by
    have hstep : (fun parts m => (kinds.memberOf parts m).toOption) =
        kinds.step Value.narrow Held.presenter :=
      funext fun parts => funext fun m => kinds.memberOf_toOption parts m
    rw [ofValue, toOption_bind, toOption_foldlM, hstep]
    congr 1
    funext ⟨kind, held⟩
    cases kind <;> rfl
  rw [hread, foldlM_step_eq_split rfl hnodup, split, named, Value.narrow, Value.narrowMembers_eq_all]
  cases hkind : (Members.get? kinds.key ms).bind kinds.kind? with
  | none => simp
  | some kind => rw [kinds.all_narrow_rest hnodup hkind]

theorem ofValue_array (items : List Value) :
    (kinds.ofValue (.array items)).toOption =
      if (Value.array items).narrow then kinds.split Held.presenter (.array items) else none := by
  cases items with
  | nil => rfl
  | cons first others =>
    have hothers : (Value.heldItems others).toOption =
        if others.all Value.narrow then some (others.map Held.presenter.ofValue) else none :=
      Value.heldItems_toOption fun v _ => v.held_toOption
    have hread : (kinds.ofValue (.array (first :: others))).toOption =
        (kinds.kind? first).bind fun kind => (Value.heldItems others).toOption.map fun rest =>
          (kind, .sequence rest) := by
      rw [ofValue, toOption_bind]
      simp only [toOption_bind]
      congr 1
      funext kind
      cases Value.heldItems others <;> rfl
    rw [hread, hothers, split, named, remainder, List.tail_cons, Value.narrow,
      Value.narrowItems_eq_all, List.all_cons, Builder.ofValue, Builder.ofItems_eq_map]
    cases hkind : kinds.kind? first with
    | none => simp
    | some kind =>
      rw [kinds.narrow_of_kind? hkind, Bool.true_and]
      split <;> rfl

/-- What is found in an object or a list: its split, if it is narrow. -/
theorem ofValue_toOption {v : Value} (hv : v.WellFormed) (hshape : v.IsContainer) :
    (kinds.ofValue v).toOption = if v.narrow then kinds.split Held.presenter v else none := by
  cases v with
  | array items => exact kinds.ofValue_array items
  | object members => exact kinds.ofValue_object hv.1
  | null | bool _ | number _ | string _ => exact hshape.elim

/-! ## Texts of values -/

section Texts

open Reader

theorem refuses_mismatch {α : Type} (expected : String) : Refuses (mismatch expected : Reader α) := by
  refine refuses_bind fun token => ?_
  split
  · exact refuses_failHere _
  · exact refuses_bind fun _ => refuses_bind fun _ => refuses_reject _
  · exact refuses_bind fun _ => refuses_bind fun _ => refuses_reject _
  · exact refuses_bind fun _ => refuses_bind fun _ => refuses_reject _
  · exact refuses_bind fun _ => refuses_bind fun _ => refuses_reject _
  · exact refuses_reject _
  · exact refuses_reject _
  · split
    · exact refuses_bind fun _ => refuses_reject _
    · exact refuses_failAhead _

/-- The word for the kind is read from a string that is such a word, and from nothing else. -/
theorem reads_kind {α : Type} {f : κ → Reader α} {v : Value} {x y : List Char} {g : κ → Option α}
    (h : ∀ kind, kinds.kind? v = some kind → Reads (f kind) x (g kind) y) :
    Reads (do let kind ← Reader.checked (kinds.vocabulary.find (← Reader.string expected)); f kind)
      (v.chars ++ x) ((kinds.kind? v).bind g) y := by
  obtain ⟨c, cs, hchars, hblank, -, hquote | ⟨s, rfl⟩⟩ := v.exists_chars_eq_cons
  · have hnone : kinds.kind? v = none := by
      cases v with
      | string s => exact absurd (List.cons.inj hchars).1.symm hquote
      | null | bool _ | number _ | array _ | object _ => rfl
    rw [hnone, hchars]
    refine Reads.bind_none (y := x) ((reads_token _ hblank).bind ?_)
    split
    · next heq => exact absurd (Option.some.inj heq) hquote
    · exact (refuses_mismatch _).reads
  · have htext : (Value.string s).chars ++ x = '"' :: (s.toList.flatMap charEscaped ++ '"' :: x) := by
      simp [Value.chars, stringChars]
    rw [htext]
    refine Reads.bind (a := s) (y := x) ?_ ?_
    · exact (reads_token _ (by decide)).bind ((reads_skip _ _).bind (reads_stringRest s x))
    · have hkind : kinds.kind? (.string s) = (kinds.vocabulary.find s).toOption := rfl
      rw [hkind] at h ⊢
      cases hfind : kinds.vocabulary.find s with
      | error problem => exact (refuses_reject problem).bind.reads
      | ok kind => exact (reads_pure kind x).bind (h kind (by rw [hfind]; rfl))

theorem reads_member (parts : Parts κ) (m : String × Value) {x : List Char} (hx : Closed x)
    (hm : m.2.Fits (nestingLimit - 1)) :
    Reads (kinds.member parts m.1) (':' :: (m.2.chars ++ x))
      (kinds.step (fun _ => true) Held.builder parts m) x := by
  rw [member, step]
  by_cases hkey : m.1 = kinds.key
  · rw [if_pos hkey, if_pos hkey]
    by_cases hkind : parts.1.isSome = true
    · rw [if_pos hkind, if_pos hkind]
      exact (refuses_rejectClosing _ _).reads
    · rw [if_neg hkind, if_neg hkind]
      rw [Option.map_eq_bind]
      exact (reads_colon _).bind (kinds.reads_kind fun kind _ => reads_pure _ x)
  · rw [if_neg hkey, if_neg hkey, if_pos rfl]
    refine (reads_colon _).bind ?_
    exact (reads_document Held.builder _ m.2 hm.1 hm.2 x hx).bind (reads_pure _ x)

theorem reads_object {ms : List (String × Value)} (h : (Value.object ms).Fits nestingLimit)
    (x : List Char) :
    Reads kinds.read ((Value.object ms).chars ++ x) (kinds.split Held.builder (.object ms)) x := by
  obtain ⟨hnodup, hmembers⟩ := Value.Fits.members h
  have htext : (Value.object ms).chars ++ x =
      '{' :: (commaSeparated (Value.membersChars ms) ++ '}' :: x) := by simp [Value.chars]
  have hparts : Reads (foldMembers kinds.member true (none, []))
      (commaSeparated (Value.membersChars ms) ++ '}' :: x)
      (ms.foldlM (kinds.step (fun _ => true) Held.builder) (none, [])) ('}' :: x) :=
    reads_foldMembers (fun m hm parts y hy => kinds.reads_member parts m hy (hmembers m hm)) _ x
  have hsplit : ((ms.foldlM (kinds.step (fun _ => true) Held.builder) (none, [])).bind fun parts =>
      parts.1.map fun kind => (kind, Held.map parts.2.reverse)) = _ := foldlM_step_eq_split rfl hnodup
  rw [if_pos (by simp)] at hsplit
  rw [htext, ← hsplit]
  refine (reads_token _ (by decide)).bind ((reads_skip _ _).bind ?_)
  rcases hread : ms.foldlM (kinds.step (fun _ => true) Held.builder) (none, []) with _ | ⟨kind, held⟩
  · rw [hread] at hparts
    exact hparts.bind_none
  · rw [hread] at hparts
    refine hparts.bind ?_
    cases kind with
    | none => exact (refuses_rejectClosing _ _).reads
    | some kind => exact (reads_endObject x).bind (reads_pure _ x)

theorem reads_array {items : List Value} (h : (Value.array items).Fits nestingLimit)
    (x : List Char) :
    Reads kinds.read ((Value.array items).chars ++ x) (kinds.split Held.builder (.array items)) x := by
  have htext : (Value.array items).chars ++ x =
      '[' :: (commaSeparated (Value.itemsChars items) ++ ']' :: x) := by simp [Value.chars]
  rw [htext]
  refine (reads_token _ (by decide)).bind ((reads_skip _ _).bind ?_)
  cases items with
  | nil =>
    refine (reads_moreItems_end true x).bind ?_
    exact (refuses_rejectClosing _ _).reads
  | cons first others =>
    obtain ⟨c, cs, hchars, hblank, hclose, -⟩ := first.exists_chars_eq_cons
    have hitems : ∀ v ∈ others, ∀ y, Closed y →
        Reads (Reader.held 1) (v.chars ++ y) (some (Held.builder.ofValue v)) y := by
      intro v hv y hy
      obtain ⟨hwf, hdepth⟩ := h
      rw [Value.WellFormed, Value.wellFormedItems_iff] at hwf
      rw [Value.depth, nestingLimit, Nat.add_le_add_iff_right, Value.itemsDepth_le_iff] at hdepth
      have hm := List.mem_cons_of_mem first hv
      exact reads_document Held.builder _ v (hwf v hm) (hdepth v hm) y hy
    rw [Value.commaSeparated_itemsChars, List.append_assoc]
    have hmore := reads_moreItems_first (cs ++ (Value.furtherItems others ++ ']' :: x)) hblank hclose
    rw [← List.cons_append, ← hchars] at hmore
    refine hmore.bind ?_
    simp only [if_true]
    rw [split, named, Option.map_eq_bind, remainder, List.tail_cons, Builder.ofValue,
      Builder.ofItems_eq_map]
    refine kinds.reads_kind fun kind _ => ?_
    refine (reads_remaining _).bind ((reads_itemsSteps_further hitems ?_ x).bind (reads_pure _ x))
    have := Value.length_le_furtherItems others
    simp only [List.length_append]
    omega

/-- What is found in the text of an object or a list: its split. -/
theorem reads_text {v : Value} (h : v.Fits nestingLimit) (hshape : v.IsContainer) (x : List Char) :
    Reads kinds.read (v.chars ++ x) (kinds.split Held.builder v) x := by
  cases v with
  | array items => exact kinds.reads_array h x
  | object members => exact kinds.reads_object h x
  | null | bool _ | number _ | string _ => exact hshape.elim

end Texts

end Kinds

end ContentVisibility.Json
