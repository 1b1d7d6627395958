import ContentVisibility.Json.Record
import ContentVisibility.Proofs.Json.Steady

/-!
# Lists and records are read the same way wherever they stand

* `Steady.reads_itemsSteps`, `Decoder.readText_list`: a list is read as its items are, each by
  itself;
* `exists_reads_foldMembersSteps`: what is done with members does not depend on what follows them;
* `Decoder.steady_record`: a record is steady if its fields are.
-/

namespace ContentVisibility.Json

namespace Reader

variable {α β σ : Type}

/-! ## Lists -/

section Lists

/-- Items in a list; the first of the list has no comma before it. -/
def listed (first : Bool) : List (List Char) → List Char
  | [] => []
  | cs :: items => (if first then [] else [',']) ++ (cs ++ further items)

theorem listed_false (items : List (List Char)) : listed false items = further items := by
  cases items with
  | nil => rfl
  | cons cs items => simp [listed, further]

theorem listed_true (items : List (List Char)) : listed true items = commaSeparated items := by
  cases items with
  | nil => rfl
  | cons cs items => rw [Value.commaSeparated_cons]; rfl

theorem length_le_listed (items : List (List Char)) (h : ∀ cs ∈ items, cs ≠ []) :
    items.length ≤ (listed true items).length := by
  cases items with
  | nil => exact Nat.le_refl _
  | cons cs items =>
    have hcs := List.length_pos_iff.2 (h cs (List.mem_cons_self ..))
    have := length_le_further items
    simp only [listed, List.length_append, List.length_cons]
    omega

/-- Where an item follows, its value is next. -/
theorem reads_moreItems_some (first : Bool) {before : List Char} (hbefore : Blank before) {c : Char}
    (hc : c ∈ valueStarts) (x : List Char) :
    Reads (moreItems first) ((if first then [] else [',']) ++ (before ++ c :: x)) (some true)
      (c :: x) := by
  obtain ⟨hblank, hclose, -⟩ := not_close_of_mem_valueStarts hc
  cases first with
  | true =>
    refine (reads_token_behind hbefore hblank x).bind ?_
    split
    · next heq => cases heq
    · next heq => exact absurd (Option.some.inj heq) hclose
    · exact reads_pure _ _
  | false =>
    refine (reads_token _ (by decide)).bind ((reads_skip _ _).bind ?_)
    refine (reads_token_behind hbefore hblank x).bind ?_
    split
    · next heq => cases heq
    · next heq => exact absurd (Option.some.inj heq) hclose
    · exact reads_pure _ _

section Items

variable {item : Reader α}

/-- What an item is read as by itself. -/
def itemOf (item : Reader α) (cs : List Char) : Option α :=
  (item.readText (String.ofList cs)).toOption

/-- **Items are read as each is by itself**, and none is if one of them is refused. -/
theorem Steady.reads_itemsSteps (h : Steady item) {items : List (List Char)}
    (hitems : ∀ cs ∈ items, IsText cs) {steps : Nat} (hsteps : items.length < steps) (first : Bool)
    {blanks : List Char} (hblanks : Blank blanks) (x : List Char) :
    Reads (itemsSteps item steps first) (blanks ++ (listed first items ++ ']' :: x))
      (items.mapM (itemOf item)) x := by
  induction items generalizing steps first blanks with
  | nil =>
    obtain ⟨steps, rfl⟩ := Nat.exists_eq_add_one.2 hsteps
    have hignores : IgnoresBlanks (itemsSteps item (steps + 1) first) :=
      (ignoresBlanks_token _).bind _
    refine hignores.reads hblanks ?_
    exact (reads_moreItems_end first x).bind ((reads_endList x).bind (reads_pure _ x))
  | cons cs items ih =>
    obtain ⟨steps, rfl⟩ := Nat.exists_eq_add_one.2 (Nat.lt_of_le_of_lt (Nat.zero_le _) hsteps)
    have hignores : IgnoresBlanks (itemsSteps item (steps + 1) first) :=
      (ignoresBlanks_token _).bind _
    obtain ⟨before, c, rest, rfl, hbefore, hrest, hc⟩ :=
      (hitems cs (List.mem_cons_self ..)).exists_token
    obtain ⟨after, hafter, hitem⟩ := h.reads hrest
    have hsame : itemOf item (before ++ c :: rest) = itemOf item (c :: rest) :=
      h.readText_behind hbefore hrest
    have hfew : items.length < steps := by simpa using hsteps
    have hothers := ih (fun cs hcs => hitems cs (List.mem_cons_of_mem _ hcs)) hfew false hafter
    have hnext := hitem (further items ++ ']' :: x) (ended_further (by decide) items x)
    have htext : listed first ((before ++ c :: rest) :: items) ++ ']' :: x =
        (if first then [] else [',']) ++ (before ++ c :: (rest ++ (further items ++ ']' :: x))) := by
      simp [listed]
    rw [listed_false] at hothers
    rw [List.mapM_cons, hsame, htext]
    refine hignores.reads hblanks ((reads_moreItems_some first hbefore hc _).bind ?_)
    rw [if_pos rfl]
    exact Reads.bind_answer hnext fun a => hothers.bind_answer fun as => reads_pure (a :: as) x

theorem Steady.reads_items (h : Steady item) {items : List (List Char)}
    (hitems : ∀ cs ∈ items, IsText cs) {blanks : List Char} (hblanks : Blank blanks)
    (x : List Char) :
    Reads (Reader.items item) ('[' :: (blanks ++ (listed true items ++ ']' :: x)))
      (items.mapM (itemOf item)) x := by
  refine (reads_skip _ _).bind ((reads_remaining _).bind ?_)
  refine h.reads_itemsSteps hitems ?_ true hblanks x
  have hfew := length_le_listed items fun cs hcs => (hitems cs hcs).ne_nil
  simp only [List.length_append, List.length_cons]
  omega

end Items

end Lists

/-! ## Objects -/

section Members

variable {member : σ → String → Reader σ}

/-- Where a member follows, the quote that opens its key is next. -/
theorem reads_moreMembers_some (first : Bool) {before : List Char} (hbefore : Blank before)
    (x : List Char) :
    Reads (moreMembers first) ((if first then [] else [',']) ++ (before ++ '"' :: x)) (some true)
      ('"' :: x) := by
  cases first with
  | true => exact (reads_token_behind hbefore (by decide) x).bind (reads_pure _ _)
  | false =>
    refine (reads_token _ (by decide)).bind ((reads_skip _ _).bind ?_)
    exact (reads_token_behind hbefore (by decide) x).bind (reads_pure _ _)

/-- What is done with one member does not depend on what stands behind it. -/
theorem settled_member {s : σ}
    (hmember : ∀ key {blanks cs : List Char}, Blank blanks → IsText cs →
      Settled (member s key) (blanks ++ ':' :: cs))
    {body after value : List Char} (hbody : StringBody body) (hafter : Blank after)
    (hvalue : IsText value) :
    Settled (stringRest >>= member s) (body ++ '"' :: (after ++ ':' :: value)) := by
  obtain ⟨key, hkey⟩ := exists_reads_stringRest hbody
  have htext : ∀ x, body ++ '"' :: (after ++ ':' :: value) ++ x =
      body ++ '"' :: (after ++ ':' :: value ++ x) := by simp
  cases key with
  | none =>
    refine ⟨none, [], blank_nil, fun x _ => ?_⟩
    rw [htext]
    exact (hkey _).bind_none
  | some key =>
    obtain ⟨answer, left, hleft, hread⟩ := hmember key hafter hvalue
    refine ⟨answer, left, hleft, fun x hx => ?_⟩
    rw [htext]
    exact (hkey _).bind (hread x hx)

theorem reads_foldMembersSteps_member {s : σ} {steps : Nat} {blanks before : List Char}
    (hblanks : Blank blanks) (hbefore : Blank before) (first : Bool) {x y : List Char}
    {answer : Option σ}
    (h : Reads (stringRest >>= member s >>= foldMembersSteps member steps false) x answer y) :
    Reads (foldMembersSteps member (steps + 1) first s)
      (blanks ++ ((if first then [] else [',']) ++ (before ++ '"' :: x))) answer y := by
  have hignores : IgnoresBlanks (foldMembersSteps member (steps + 1) first s) :=
    (ignoresBlanks_token _).bind _
  rw [bind_assoc] at h
  refine hignores.reads hblanks ((reads_moreMembers_some first hbefore x).bind ?_)
  exact (reads_skip _ _).bind h

/-- So is what is done with all members, up to the closing brace. -/
theorem exists_reads_foldMembersSteps
    (hmember : ∀ s key {blanks cs : List Char}, Blank blanks → IsText cs →
      Settled (member s key) (blanks ++ ':' :: cs))
    {ms : List (List Char × List Char)} (hkeys : ∀ m ∈ ms, IsKey m.1)
    (hvalues : ∀ m ∈ ms, IsText m.2) (first : Bool) (s : σ) :
    ∃ answer, ∀ steps blanks x, ms.length < steps → Blank blanks →
      Reads (foldMembersSteps member steps first s)
        (blanks ++ (listed first (ms.map memberChars) ++ '}' :: x)) answer ('}' :: x) := by
  induction ms generalizing first s with
  | nil =>
    refine ⟨some s, fun steps blanks x hsteps hblanks => ?_⟩
    obtain ⟨steps, rfl⟩ := Nat.exists_eq_add_one.2 hsteps
    have hignores : IgnoresBlanks (foldMembersSteps member (steps + 1) first s) :=
      (ignoresBlanks_token _).bind _
    refine hignores.reads hblanks ?_
    exact (reads_moreMembers_end first x).bind (reads_pure s _)
  | cons m ms ih =>
    obtain ⟨key, value⟩ := m
    have hkey : IsKey key := hkeys (key, value) (List.mem_cons_self ..)
    have hvalue : IsText value := hvalues (key, value) (List.mem_cons_self ..)
    have hothers := ih (fun m hm => hkeys m (List.mem_cons_of_mem _ hm))
      (fun m hm => hvalues m (List.mem_cons_of_mem _ hm)) false
    -- the facts about all members would stand in the way of taking the key apart
    clear hkeys hvalues ih
    obtain @⟨before, body, after, hbefore, hbody, hafter⟩ := hkey
    obtain ⟨answer, left, hleft, hread⟩ := settled_member (hmember s) hbody hafter hvalue
    have htext : ∀ x, listed first ((before ++ '"' :: (body ++ '"' :: after), value) :: ms |>.map
        memberChars) ++ '}' :: x = (if first then [] else [',']) ++ (before ++ '"' ::
          (body ++ '"' :: (after ++ ':' :: value) ++ (further (ms.map memberChars) ++ '}' :: x))) := by
      simp [listed, memberChars]
    have hmembers : ∀ x, Reads (stringRest >>= member s)
        (body ++ '"' :: (after ++ ':' :: value) ++ (further (ms.map memberChars) ++ '}' :: x)) answer
        (left ++ (further (ms.map memberChars) ++ '}' :: x)) :=
      fun x => hread _ (ended_further (by decide) _ x)
    cases answer with
    | none =>
      refine ⟨none, fun steps blanks x hsteps hblanks => ?_⟩
      obtain ⟨steps, rfl⟩ := Nat.exists_eq_add_one.2 (Nat.lt_of_le_of_lt (Nat.zero_le _) hsteps)
      rw [htext]
      exact reads_foldMembersSteps_member hblanks hbefore first (hmembers x).bind_none
    | some s' =>
      obtain ⟨answer, hrest⟩ := hothers s'
      refine ⟨answer, fun steps blanks x hsteps hblanks => ?_⟩
      obtain ⟨steps, rfl⟩ := Nat.exists_eq_add_one.2 (Nat.lt_of_le_of_lt (Nat.zero_le _) hsteps)
      have hrest := hrest steps left x (by simpa using hsteps) hleft
      rw [listed_false] at hrest
      rw [htext]
      exact reads_foldMembersSteps_member hblanks hbefore first ((hmembers x).bind hrest)

theorem exists_reads_foldMembers
    (hmember : ∀ s key {blanks cs : List Char}, Blank blanks → IsText cs →
      Settled (member s key) (blanks ++ ':' :: cs))
    {ms : List (List Char × List Char)} (hkeys : ∀ m ∈ ms, IsKey m.1)
    (hvalues : ∀ m ∈ ms, IsText m.2) (s : σ) {blanks : List Char} (hblanks : Blank blanks) :
    ∃ answer, ∀ x, Reads (foldMembers member true s)
      (blanks ++ (listed true (ms.map memberChars) ++ '}' :: x)) answer ('}' :: x) := by
  obtain ⟨answer, hread⟩ := exists_reads_foldMembersSteps hmember hkeys hvalues true s
  refine ⟨answer, fun x => (reads_remaining _).bind (hread _ blanks x ?_ hblanks)⟩
  have hfew := length_le_listed (ms.map memberChars) fun cs hcs => by
    obtain ⟨m, -, rfl⟩ := List.mem_map.1 hcs
    simp [memberChars]
  simp only [List.length_append, List.length_cons, List.length_map] at hfew ⊢
  omega

end Members

/-! ## Lists and objects among values -/

theorem exists_items_of_isValue {cs : List Char} (h : IsValue ('[' :: cs)) :
    ∃ blanks items, Blank blanks ∧ (∀ item ∈ items, IsText item) ∧
      cs = blanks ++ (listed true items ++ [']']) := by
  generalize htext : '[' :: cs = ds at h
  cases h with
  | @noItems blanks hblanks => exact ⟨blanks, [], hblanks, by simp, (List.cons.inj htext).2⟩
  | @items first others hfirst hothers =>
    refine ⟨[], first :: others, blank_nil, List.forall_mem_cons.2 ⟨hfirst, hothers⟩, ?_⟩
    rw [listed_true]
    exact (List.cons.inj htext).2
  | number hnumber =>
    obtain ⟨c, rest, rfl, -, hother⟩ := exists_start_of_isNumber hnumber
    exact absurd (by simp [← (List.cons.inj htext).1]) hother
  | null | true | false | string _ | noMembers _ | members _ _ _ _ =>
    exact absurd (List.cons.inj htext).1 (by decide)

theorem exists_members_of_isValue {cs : List Char} (h : IsValue ('{' :: cs)) :
    ∃ blanks, ∃ ms : List (List Char × List Char), Blank blanks ∧ (∀ m ∈ ms, IsKey m.1) ∧
      (∀ m ∈ ms, IsText m.2) ∧ cs = blanks ++ (listed true (ms.map memberChars) ++ ['}']) := by
  generalize htext : '{' :: cs = ds at h
  cases h with
  | @noMembers blanks hblanks =>
    exact ⟨blanks, [], hblanks, by simp, by simp, (List.cons.inj htext).2⟩
  | @members first others hkey hvalue hkeys hvalues =>
    refine ⟨[], first :: others, blank_nil, List.forall_mem_cons.2 ⟨hkey, hkeys⟩,
      List.forall_mem_cons.2 ⟨hvalue, hvalues⟩, ?_⟩
    rw [listed_true]
    exact (List.cons.inj htext).2
  | number hnumber =>
    obtain ⟨c, rest, rfl, -, hother⟩ := exists_start_of_isNumber hnumber
    exact absurd (by simp [← (List.cons.inj htext).1]) hother
  | null | true | false | string _ | noItems _ | items _ _ =>
    exact absurd (List.cons.inj htext).1 (by decide)

end Reader

/-! ## Decoders -/

open Reader

namespace Decoder

variable {α β : Type}

theorem steady_map {d : Decoder α} (h : Steady d.text) (f : α → β) : Steady (d.map f).text := by
  show Steady (f <$> d.text)
  rw [map_eq_pure_bind]
  exact h.map f

theorem steady_checkedString (expected : String) (check : String → Except Problem α) :
    Steady (checkedString expected check).text :=
  (steady_string expected).check fun s => checked_cases (check s)

theorem steady_optional {d : Decoder α} (h : Steady d.text) : Steady (optional d).text := by
  refine .of_values (ignoresBlanks_token _) fun {cs} hvalue => ?_
  have hsome : Settled (some <$> d.text) cs := by
    rw [map_eq_pure_bind]
    exact (h.settled hvalue.isText).map some
  cases hvalue with
  | null =>
    exact settled_token (by decide) (settled_skip ((settled_literalRest _).map fun _ => none))
  | number hnumber =>
    obtain ⟨c, rest, rfl, hblank, hother⟩ := exists_start_of_isNumber hnumber
    refine settled_token hblank ?_
    split
    · next heq => exact absurd (by simp [Option.some.inj heq]) hother
    · exact hsome
  | true | false | string _ | noItems _ | items _ _ | noMembers _ | members _ _ _ _ =>
    exact settled_token (by decide) hsome

theorem steady_list {d : Decoder α} (h : Steady d.text) : Steady (list d).text := by
  refine .of_values (ignoresBlanks_token _) fun hvalue => ?_
  obtain ⟨c, rest, rfl, hc⟩ := hvalue.exists_cons
  refine settled_token (not_close_of_mem_valueStarts hc).1 ?_
  split
  · next heq =>
    obtain rfl := Option.some.inj heq
    obtain ⟨blanks, items, hblanks, hitems, rfl⟩ := exists_items_of_isValue hvalue
    refine settled_of_exists ⟨items.mapM (itemOf d.text), fun x => ?_⟩
    simpa using h.reads_items hitems hblanks x
  · exact (Kinds.refuses_mismatch _).settled

/-- **The text of a list is read as its items are**, each by itself. If one of them is refused, so
is the text. -/
theorem readText_list {d : Decoder α} (h : Steady d.text) {texts : List String}
    (htexts : ∀ t ∈ texts, IsText t.toList) {before after : List Char} (hbefore : Blank before)
    (hafter : Blank after) :
    ((list d).text.readText (String.ofList (before ++
        '[' :: (commaSeparated (texts.map String.toList) ++ ']' :: after)))).toOption =
      texts.mapM fun t => (d.text.readText t).toOption := by
  have hitems : ∀ cs ∈ texts.map String.toList, IsText cs := by
    intro cs hcs
    obtain ⟨t, ht, rfl⟩ := List.mem_map.1 hcs
    exact htexts t ht
  have halone : (texts.map String.toList).mapM (itemOf d.text) =
      texts.mapM fun t => (d.text.readText t).toOption := by
    rw [List.mapM_map]
    congr 1
    funext t
    exact congrArg (fun s => (d.text.readText s).toOption) String.ofList_toList
  have hread := h.reads_items hitems blank_nil after
  rw [halone, listed_true] at hread
  refine readText_of_reads hafter ?_
  rw [String.toList_ofList]
  exact (ignoresBlanks_token _).reads hbefore ((reads_token _ (by decide)).bind hread)

end Decoder

/-! ## Records -/

namespace Fields

/-- All decoders of the fields are steady. -/
def Steady : Fields τ → Prop
  | done => True
  | field spec others => Reader.Steady spec.decoder.text ∧ others.Steady

theorem settled_takeText {fields : Fields τ} (h : fields.Steady) (slots : fields.Slots)
    (key : String) {blanks cs : List Char} (hblanks : Blank blanks) (hcs : IsText cs) :
    Settled (fields.takeText slots key) (blanks ++ ':' :: cs) := by
  have hcolon : ∀ {γ : Type} {r : Reader γ}, Settled r cs →
      Settled (colon >>= fun _ => r) (blanks ++ ':' :: cs) := by
    rintro γ r ⟨answer, after, hafter, hread⟩
    refine ⟨answer, after, hafter, fun x hx => ?_⟩
    rw [List.append_assoc]
    refine ((ignoresBlanks_token _).bind _).reads hblanks ?_
    exact (reads_colon _).bind (hread x hx)
  induction fields with
  | done =>
    have hskip : Settled skipValue cs := by
      obtain @⟨before, cs, after, hbefore, hvalue, hafter⟩ := hcs
      refine ⟨some (), after, hafter, fun x hx => ?_⟩
      rw [List.append_assoc, List.append_assoc]
      exact reads_skipValue hbefore hvalue (ended_blank_append hafter hx)
    exact hcolon (hskip.map fun _ => slots)
  | field spec others ih =>
    obtain ⟨slot, slots⟩ := slots
    obtain ⟨hspec, hothers⟩ := h
    cases hkey : spec.answersTo key with
    | true =>
      cases hslot : slot.isSome with
      | true =>
        simp only [takeText, hkey, hslot, if_true]
        exact (refuses_rejectClosing _ _).settled
      | false =>
        simp only [takeText, hkey, hslot, if_true, Bool.false_eq_true, if_false]
        exact hcolon ((hspec.settled hcs).map fun a => (some a, slots))
    | false =>
      simp only [takeText, hkey, Bool.false_eq_true, if_false]
      exact (ih hothers slots).map fun slots => (slot, slots)

theorem positionalText_bind (spec : FieldSpec α) (others : Fields β) (k : α × β → Reader γ)
    (expected : String) (index : Nat) (first : Bool) :
    (field spec others).positionalText expected index first >>= k =
      moreItems first >>= fun more =>
        if more then do
          let a ← spec.decoder.text
          others.positionalText expected (index + 1) false >>= fun rest => k (a, rest)
        else match spec.absent with
          | some a => others.positionalText expected (index + 1) first >>= fun rest => k (a, rest)
          | none => rejectClosing ']' (.wrongLength index expected) >>= k := by
  rw [positionalText, bind_assoc]
  congr 1
  funext more
  cases more with
  | true => simp only [if_true, bind_assoc, pure_bind]
  | false =>
    cases spec.absent with
    | none => rfl
    | some a => simp only [Bool.false_eq_true, if_false, bind_assoc, pure_bind]

/-- What is read from the items of a list in order does not depend on what stands behind the list,
if what follows on the values does not. -/
theorem exists_reads_positionalText {fields : Fields τ} (h : fields.Steady) {k : τ → Reader γ}
    (hk : ∀ values first {items : List (List Char)}, (∀ cs ∈ items, IsText cs) →
      ∃ answer, ∀ blanks x, Blank blanks →
        Reads (k values) (blanks ++ (listed first items ++ ']' :: x)) answer x)
    (expected : String) (index : Nat) (first : Bool) {items : List (List Char)}
    (hitems : ∀ cs ∈ items, IsText cs) :
    ∃ answer, ∀ blanks x, Blank blanks →
      Reads (fields.positionalText expected index first >>= k)
        (blanks ++ (listed first items ++ ']' :: x)) answer x := by
  -- field by field; what follows on the values is handed on with each value that has been read
  induction fields generalizing index first items with
  | done => exact hk () first hitems
  | @field α β spec others ih =>
    obtain ⟨hspec, hothers⟩ := h
    have hignores : IgnoresBlanks ((field spec others).positionalText expected index first >>= k) :=
      ((ignoresBlanks_token _).bind _).bind k
    have hrest : ∀ a first {items : List (List Char)}, (∀ cs ∈ items, IsText cs) →
        ∃ answer, ∀ blanks x, Blank blanks →
          Reads (others.positionalText expected (index + 1) first >>= fun rest => k (a, rest))
            (blanks ++ (listed first items ++ ']' :: x)) answer x :=
      fun a first _ hitems => ih hothers (fun rest => hk (a, rest)) (index + 1) first hitems
    rw [positionalText_bind] at hignores ⊢
    cases items with
    | nil =>
      cases habsent : spec.absent with
      | none =>
        refine ⟨none, fun blanks x hblanks => ?_⟩
        rw [habsent] at hignores
        refine hignores.reads hblanks ((reads_moreItems_end first x).bind ?_)
        exact (refuses_rejectClosing _ _).bind.reads
      | some a =>
        obtain ⟨answer, hread⟩ := hrest a first hitems
        refine ⟨answer, fun blanks x hblanks => ?_⟩
        rw [habsent] at hignores
        refine hignores.reads hblanks ((reads_moreItems_end first x).bind ?_)
        exact hread [] x blank_nil
    | cons cs items =>
      obtain ⟨before, c, rest, rfl, hbefore, htext, hc⟩ :=
        (hitems cs (List.mem_cons_self ..)).exists_token
      obtain ⟨item, after, hafter, hitem⟩ := hspec.settled htext
      have hlisted : ∀ x, listed first ((before ++ c :: rest) :: items) ++ ']' :: x =
          (if first then [] else [',']) ++
            (before ++ c :: (rest ++ (further items ++ ']' :: x))) := by simp [listed]
      have hfirst : ∀ x, Reads spec.decoder.text (c :: (rest ++ (further items ++ ']' :: x))) item
          (after ++ (further items ++ ']' :: x)) :=
        fun x => hitem _ (ended_further (by decide) items x)
      cases item with
      | none =>
        refine ⟨none, fun blanks x hblanks => ?_⟩
        rw [hlisted]
        refine hignores.reads hblanks ((reads_moreItems_some first hbefore hc _).bind ?_)
        exact (hfirst x).bind_none
      | some a =>
        obtain ⟨answer, hread⟩ :=
          hrest a false fun cs hcs => hitems cs (List.mem_cons_of_mem _ hcs)
        refine ⟨answer, fun blanks x hblanks => ?_⟩
        have hread := hread after x hafter
        rw [listed_false] at hread
        rw [hlisted]
        refine hignores.reads hblanks ((reads_moreItems_some first hbefore hc _).bind ?_)
        exact (hfirst x).bind hread

end Fields

namespace Decoder

/-- Items in a list start with a comma or with a value. -/
theorem exists_start_of_listed (first : Bool) {cs : List Char} (hcs : IsText cs)
    (items : List (List Char)) : ∃ before c rest, Blank before ∧ Cursor.isBlank c = false ∧
      c ≠ ']' ∧ listed first (cs :: items) = before ++ c :: rest := by
  cases first with
  | true =>
    obtain ⟨before, c, rest, rfl, hbefore, -, hc⟩ := hcs.exists_token
    obtain ⟨hblank, hclose, -⟩ := not_close_of_mem_valueStarts hc
    exact ⟨before, c, rest ++ further items, hbefore, hblank, hclose, by simp [listed]⟩
  | false => exact ⟨[], ',', cs ++ further items, blank_nil, by decide, by decide, by simp [listed]⟩

/-- Behind the last value of a record nothing else may stand in its list. -/
theorem exists_reads_endList (first : Bool) {items : List (List Char)}
    (hitems : ∀ cs ∈ items, IsText cs) (a : α) : ∃ answer, ∀ blanks x, Blank blanks →
      Reads (endList >>= fun _ => pure a) (blanks ++ (listed first items ++ ']' :: x)) answer x := by
  have hignores : IgnoresBlanks (endList >>= fun _ => pure a) := (ignoresBlanks_token _).bind _
  cases items with
  | nil =>
    refine ⟨some a, fun blanks x hblanks => hignores.reads hblanks ?_⟩
    exact (reads_endList x).bind (reads_pure a x)
  | cons cs items =>
    refine ⟨none, fun blanks x hblanks => hignores.reads hblanks (Reads.bind_none (y := x) ?_)⟩
    obtain ⟨before, c, rest, hbefore, hblank, hclose, htext⟩ :=
      exists_start_of_listed first (hitems cs (List.mem_cons_self ..)) items
    rw [htext, List.append_assoc]
    refine (reads_token_behind hbefore hblank _).bind ?_
    split
    · next heq => cases heq
    · next heq => exact absurd (Option.some.inj heq) hclose
    · refine (refuses_bind fun _ => refuses_bind fun token => ?_).reads
      split
      · exact refuses_failAhead _
      · exact refuses_failAhead _
    · exact (refuses_failAhead _).reads

/-- **A record is steady if its fields are.** -/
theorem steady_record {title : String} {fields : Fields τ} {build : τ → α} (h : fields.Steady) :
    Steady (record title fields build).text := by
  refine .of_values (ignoresBlanks_token _) fun hvalue => ?_
  obtain ⟨c, rest, rfl, hc⟩ := hvalue.exists_cons
  refine settled_token (not_close_of_mem_valueStarts hc).1 ?_
  split
  · next heq =>
    obtain rfl := Option.some.inj heq
    obtain ⟨blanks, items, hblanks, hitems, rfl⟩ := exists_items_of_isValue hvalue
    obtain ⟨answer, hread⟩ := Fields.exists_reads_positionalText h
      (fun values first _ hitems => exists_reads_endList first hitems (build values))
      s!"{title} with {elements fields.count}" 0 true hitems
    refine settled_skip (settled_of_exists ⟨answer, fun x => ?_⟩)
    simpa using hread blanks x hblanks
  · next heq =>
    obtain rfl := Option.some.inj heq
    obtain ⟨blanks, ms, hblanks, hkeys, hvalues, rfl⟩ := exists_members_of_isValue hvalue
    obtain ⟨slots, hread⟩ := exists_reads_foldMembers
      (fun slots key _ _ hblanks hcs => Fields.settled_takeText h slots key hblanks hcs)
      hkeys hvalues fields.empty hblanks
    refine settled_skip (settled_of_exists ?_)
    simp only [List.append_assoc, List.cons_append, List.nil_append]
    refine exists_reads_bind hread fun slots => ?_
    cases fields.complete slots with
    | ok values => exact ⟨_, fun x => (reads_endObject x).bind (reads_pure (build values) x)⟩
    | error problem => exact ⟨none, fun x => (refuses_rejectClosing _ _).reads⟩
  · exact (Kinds.refuses_mismatch _).settled

end Decoder

end ContentVisibility.Json
