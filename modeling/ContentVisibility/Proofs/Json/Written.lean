import ContentVisibility.Proofs.Json.Brackets
import ContentVisibility.Proofs.Json.Members
import ContentVisibility.Widget.Tree

/-!
# Written values are read back

* `Builder.ofValue`: what a builder of documents makes of a value;
* `Value.WellFormed`: the values that a text can hold;
* `reads_document`: a written value is read as what the builder makes of it;
* `Value.parse_text`: the text of a value that fits is read as that value;
* `Value.fits_of_parse`: what a text holds fits.
-/

namespace ContentVisibility.Json

/-! ## Induction on values -/

/-- What holds of a list when it holds of its items, and of an object when it holds of the values of
its members, holds of all values. -/
@[elab_as_elim]
theorem Value.ind {motive : Value → Prop} (null : motive .null) (bool : ∀ b, motive (.bool b))
    (number : ∀ n, motive (.number n)) (string : ∀ s, motive (.string s))
    (array : ∀ items, (∀ v ∈ items, motive v) → motive (.array items))
    (object : ∀ members, (∀ m ∈ members, motive m.2) → motive (.object members)) (v : Value) :
    motive v :=
  @Value.rec motive (fun vs => ∀ v ∈ vs, motive v) (fun ms => ∀ m ∈ ms, motive m.2)
    (fun m => motive m.2) null bool number string array object (by simp)
    (fun _ _ hv hvs => List.forall_mem_cons.2 ⟨hv, hvs⟩) (by simp)
    (fun _ _ hm hms => List.forall_mem_cons.2 ⟨hm, hms⟩) (fun _ _ h => h) v

/-! ## What builders make of values -/

namespace Builder

variable {α : Type} (b : Builder α)

mutual

/-- What the builder makes of a document that holds the value. -/
def ofValue : Value → α
  | .null => b.null
  | .bool value => b.bool value
  | .number n => b.number n
  | .string s => b.string s
  | .array items => b.array (ofItems items)
  | .object members => b.object (ofMembers members)

/-- What the builder makes of each item. -/
def ofItems : List Value → List α
  | [] => []
  | item :: items => ofValue item :: ofItems items

/-- What the builder makes of each member. -/
def ofMembers : List (String × Value) → List (String × α)
  | [] => []
  | (key, value) :: members => (key, ofValue value) :: ofMembers members

end

theorem ofItems_eq_map (vs : List Value) : b.ofItems vs = vs.map b.ofValue := by
  induction vs with
  | nil => rfl
  | cons v vs ih => simp [ofItems, ih]

theorem ofMembers_eq_map (ms : List (String × Value)) :
    b.ofMembers ms = ms.map fun m => (m.1, b.ofValue m.2) := by
  induction ms with
  | nil => rfl
  | cons m ms ih => simp [ofMembers, ih]

end Builder

/-! ## Values that a text can hold -/

namespace Value

/-- The value is an object or a list. -/
def IsContainer : Value → Prop
  | .array _ | .object _ => True
  | .null | .bool _ | .number _ | .string _ => False

mutual

/-- No object in the value has two members with one key, and none starts with the key that marks
numbers. -/
def WellFormed : Value → Prop
  | .null | .bool _ | .number _ | .string _ => True
  | .array items => WellFormedItems items
  | .object members =>
    (members.map Prod.fst).Nodup ∧ (members.map Prod.fst).head? ≠ some numberKey ∧
      WellFormedMembers members

/-- All items are well formed. -/
def WellFormedItems : List Value → Prop
  | [] => True
  | item :: items => item.WellFormed ∧ WellFormedItems items

/-- The values of all members are well formed. -/
def WellFormedMembers : List (String × Value) → Prop
  | [] => True
  | (_, value) :: members => value.WellFormed ∧ WellFormedMembers members

end

theorem wellFormedItems_iff (vs : List Value) : WellFormedItems vs ↔ ∀ v ∈ vs, v.WellFormed := by
  induction vs with
  | nil => simp [WellFormedItems]
  | cons v vs ih => simp [WellFormedItems, ih]

theorem wellFormedMembers_iff (ms : List (String × Value)) :
    WellFormedMembers ms ↔ ∀ m ∈ ms, m.2.WellFormed := by
  induction ms with
  | nil => simp [WellFormedMembers]
  | cons m ms ih =>
    obtain ⟨key, value⟩ := m
    simp only [WellFormedMembers, ih, List.forall_mem_cons]

theorem itemsDepth_le_iff (vs : List Value) (d : Nat) :
    itemsDepth vs ≤ d ↔ ∀ v ∈ vs, v.depth ≤ d := by
  induction vs with
  | nil => simp [itemsDepth]
  | cons v vs ih => simp [itemsDepth, ih]

theorem membersDepth_le_iff (ms : List (String × Value)) (d : Nat) :
    membersDepth ms ≤ d ↔ ∀ m ∈ ms, m.2.depth ≤ d := by
  induction ms with
  | nil => simp [membersDepth]
  | cons m ms ih =>
    obtain ⟨key, value⟩ := m
    simp only [membersDepth, Nat.max_le, ih, List.forall_mem_cons]

/-- The value is well formed and has at most `depth` containers inside one another. -/
def Fits (depth : Nat) (v : Value) : Prop := v.WellFormed ∧ v.depth ≤ depth

theorem Fits.items {items : List Value} {depth : Nat} (h : (array items).Fits depth) :
    ∀ v ∈ items, v.Fits depth := by
  obtain ⟨hwf, hdepth⟩ := h
  rw [WellFormed, wellFormedItems_iff] at hwf
  have hitems : itemsDepth items ≤ depth := Nat.le_of_succ_le hdepth
  exact fun v hv => ⟨hwf v hv, (itemsDepth_le_iff items depth).1 hitems v hv⟩

theorem Fits.members {members : List (String × Value)} {depth : Nat}
    (h : (object members).Fits (depth + 1)) :
    (members.map Prod.fst).Nodup ∧ ∀ m ∈ members, m.2.Fits depth := by
  obtain ⟨⟨hnodup, -, hwf⟩, hdepth⟩ := h
  rw [wellFormedMembers_iff] at hwf
  rw [Value.depth, Nat.add_le_add_iff_right, membersDepth_le_iff] at hdepth
  exact ⟨hnodup, fun m hm => ⟨hwf m hm, hdepth m hm⟩⟩

theorem fits_itemsDepth {items : List Value} {depth : Nat} (h : ∀ v ∈ items, v.Fits depth) :
    ∀ v ∈ items, v.Fits (itemsDepth items) :=
  fun v hv => ⟨(h v hv).1, (itemsDepth_le_iff items _).1 (Nat.le_refl _) v hv⟩

end Value

/-! ## Reading written values -/

namespace Reader

variable {α : Type} (b : Builder α)

theorem reads_documentWith_number (list object : Reader α) (n : Number) {x : List Char}
    (h : Closed x) : Reads (documentWith b list object) (n.chars ++ x) (some (b.number n)) x := by
  have hread : Reads (number >>= fun n => pure (b.number n)) (n.chars ++ x) (some (b.number n)) x :=
    (reads_number n h).bind (reads_pure _ x)
  obtain ⟨c, cs, hchars, hblank, hother, hstart⟩ := Value.exists_numberChars_eq_cons n
  rw [hchars] at hread ⊢
  refine (reads_token _ hblank).bind ?_
  simp only [List.mem_cons, not_or] at hother
  obtain ⟨h₁, h₂, h₃, h₄, h₅, h₆, -⟩ := hother
  simp only [hstart, if_true]
  exact hread

/-- The scalars are read the same way at every depth. -/
theorem reads_documentWith_scalar (list object : Reader α) {v : Value} (hv : ¬ v.IsContainer)
    {x : List Char} (h : Closed x) : Reads (documentWith b list object) (v.chars ++ x) (some (b.ofValue v)) x := by
  cases v with
  | null =>
    refine (reads_token _ (by decide)).bind ((reads_skip _ _).bind ?_)
    exact (reads_literalRest "ull".toList x).bind (reads_pure b.null x)
  | bool value =>
    cases value with
    | true =>
      refine (reads_token _ (by decide)).bind ((reads_skip _ _).bind ?_)
      exact (reads_literalRest "rue".toList x).bind (reads_pure (b.bool true) x)
    | false =>
      refine (reads_token _ (by decide)).bind ((reads_skip _ _).bind ?_)
      exact (reads_literalRest "alse".toList x).bind (reads_pure (b.bool false) x)
  | number n => exact reads_documentWith_number b list object n h
  | string s =>
    have htext : (Value.string s).chars ++ x = '"' :: (s.toList.flatMap charEscaped ++ '"' :: x) := by
      simp [Value.chars, stringChars]
    rw [htext]
    refine (reads_token _ (by decide)).bind ((reads_skip _ _).bind ?_)
    exact (reads_stringRest s x).bind (reads_pure (b.string s) x)
  | array _ | object _ => exact absurd trivial hv

theorem reads_list {document : Reader α} {vs : List Value}
    (h : ∀ v ∈ vs, ∀ x, Closed x → Reads document (v.chars ++ x) (some (b.ofValue v)) x)
    (x : List Char) :
    Reads (list b document) ((Value.array vs).chars ++ x) (some (b.ofValue (.array vs))) x := by
  refine (reads_items h x).bind ?_
  rw [Builder.ofValue, Builder.ofItems_eq_map]
  exact reads_pure _ x

theorem foldlM_cons_eq_some (f : Value → α) (ms : List (String × Value)) (read : List (String × α)) :
    (ms.foldlM (fun read m => some ((m.1, f m.2) :: read)) read) =
      some ((ms.map fun m => (m.1, f m.2)).reverse ++ read) := by
  induction ms generalizing read with
  | nil => rfl
  | cons m ms ih =>
    rw [List.foldlM_cons]
    refine (ih _).trans ?_
    simp

theorem reads_object {document : Reader α} {ms : List (String × Value)}
    (h : ∀ m ∈ ms, ∀ x, Closed x → Reads document (m.2.chars ++ x) (some (b.ofValue m.2)) x)
    (hkey : (ms.map Prod.fst).head? ≠ some numberKey) (x : List Char) :
    Reads (object b document) ((Value.object ms).chars ++ x) (some (b.ofValue (.object ms))) x := by
  have htext : (Value.object ms).chars ++ x =
      '{' :: (commaSeparated (Value.membersChars ms) ++ '}' :: x) := by simp [Value.chars]
  rw [htext]
  refine (reads_skip _ _).bind ?_
  cases ms with
  | nil =>
    refine (reads_moreMembers_end true x).bind ?_
    exact (reads_skip _ _).bind (reads_pure (b.object []) x)
  | cons m ms =>
    obtain ⟨key, value⟩ := m
    have hmark : (b.marksNumbers && key == numberKey) = false := by
      have : key ≠ numberKey := fun he => hkey (by simp [he])
      simp [this]
    have hmembers : commaSeparated (Value.membersChars ((key, value) :: ms)) ++ '}' :: x =
        '"' :: (key.toList.flatMap charEscaped ++
          '"' :: ':' :: (value.chars ++ (Value.furtherMembers ms ++ '}' :: x))) := by
      simp [Value.commaSeparated_membersChars, stringChars]
    have hfirst := h (key, value) (by simp) _ (closed_furtherMembers ms x)
    rw [hmembers]
    refine (reads_moreMembers_first _).bind ?_
    refine (reads_skip _ _).bind ((reads_stringRest key _).bind ?_)
    simp only [hmark, Bool.false_eq_true, if_false]
    refine Reads.bind (a := [(key, b.ofValue value)]) ?_ ?_ (y := Value.furtherMembers ms ++ '}' :: x)
    · exact (reads_colon _).bind (hfirst.bind (reads_pure _ _))
    refine Reads.bind (y := '}' :: x)
      (a := (ms.map fun m => (m.1, b.ofValue m.2)).reverse ++ [(key, b.ofValue value)]) ?_ ?_
    -- the members come in reverse, as they were put before one another
    · rw [← foldlM_cons_eq_some]
      refine (reads_remaining _).bind (reads_foldMembersSteps ?_ ?_ _ x)
      · intro n hn s y hy
        refine (reads_colon _).bind ?_
        exact (h n (List.mem_cons_of_mem _ hn) y hy).bind (reads_pure _ y)
      · have := Value.length_le_furtherMembers ms
        simp only [List.length_append]
        omega
    · refine (reads_endObject x).bind ?_
      rw [Builder.ofValue, Builder.ofMembers_eq_map]
      simpa using reads_pure (b.object ((key, b.ofValue value) ::
        ms.map fun m => (m.1, b.ofValue m.2))) x

theorem reads_document (depth : Nat) (v : Value) (hv : v.WellFormed) (hdepth : v.depth ≤ depth)
    (x : List Char) (h : Closed x) :
    Reads (document b depth) (v.chars ++ x) (some (b.ofValue v)) x := by
  induction depth generalizing v x with
  | zero =>
    refine reads_documentWith_scalar b _ _ (fun hshape => ?_) h
    cases v with
    | array _ | object _ => simp [Value.depth] at hdepth
    | null | bool _ | number _ | string _ => exact hshape
  | succ depth ih =>
    match v with
    | .array items =>
      rw [Value.WellFormed, Value.wellFormedItems_iff] at hv
      rw [Value.depth, Nat.add_le_add_iff_right, Value.itemsDepth_le_iff] at hdepth
      have hlist : Reads (list b (document b depth)) ((Value.array items).chars ++ x)
          (some (b.ofValue (.array items))) x :=
        reads_list b (fun v hm y hy => ih v (hv v hm) (hdepth v hm) y hy) x
      have htext : (Value.array items).chars ++ x =
        '[' :: (commaSeparated (Value.itemsChars items) ++ ']' :: x) := by simp [Value.chars]
      rw [htext] at hlist ⊢
      exact (reads_token _ (by decide)).bind hlist
    | .object members =>
      rw [Value.WellFormed, Value.wellFormedMembers_iff] at hv
      rw [Value.depth, Nat.add_le_add_iff_right, Value.membersDepth_le_iff] at hdepth
      have hobject : Reads (object b (document b depth)) ((Value.object members).chars ++ x)
          (some (b.ofValue (.object members))) x :=
        reads_object b (fun m hm y hy => ih m.2 (hv.2.2 m hm) (hdepth m hm) y hy) hv.2.1 x
      have htext : (Value.object members).chars ++ x =
        '{' :: (commaSeparated (Value.membersChars members) ++ '}' :: x) := by simp [Value.chars]
      rw [htext] at hobject ⊢
      exact (reads_token _ (by decide)).bind hobject
    | .null | .bool _ | .number _ | .string _ =>
      exact reads_documentWith_scalar b _ _ id h

/-! ## Whole texts -/

theorem reads_finished : Reads finished [] (some ()) [] :=
  (reads_peekToken (by simp)).bind (reads_pure () [])

section Text

variable {β : Type} {r : Reader β} {s : String}

theorem readText_eq (r : Reader β) (s : String) :
    r.readText s = (r >>= fun a => finished >>= fun _ => pure a) (Cursor.ofText s) >>=
      fun p => pure p.1 := rfl

theorem readText_eq_ok {a : β} (h : Reads r s.toList (some a) []) : r.readText s = .ok a := by
  obtain ⟨cur, hr, -⟩ := h.bind (f := fun a => finished >>= fun _ => pure a)
    (reads_finished.bind (reads_pure a [])) (Cursor.ofText s) rfl
  rw [readText_eq, hr]
  rfl

theorem readText_eq_error {y : List Char} (h : Reads r s.toList none y) :
    ∃ fault, r.readText s = .error fault := by
  obtain ⟨fault, hr⟩ := h.bind_none (f := fun a => finished >>= fun _ => pure a) (z := [])
    (Cursor.ofText s) rfl
  refine ⟨fault, ?_⟩
  rw [readText_eq, hr]
  rfl

theorem Reads.readText {answer : Option β} (h : Reads r s.toList answer []) :
    (r.readText s).toOption = answer := by
  cases answer with
  | some a => rw [readText_eq_ok h]; rfl
  | none =>
    obtain ⟨fault, hr⟩ := readText_eq_error h
    rw [hr]
    rfl

theorem Ensures.readText {P : β → Prop} {a : β} (h : Ensures r P) (hs : r.readText s = .ok a) : P a := by
  have hread : Ensures (r >>= fun a => finished >>= fun _ => pure a) P :=
    h.bind fun a ha => ensures_bind fun _ => ensures_pure ha
  rw [readText_eq] at hs
  cases hr : (r >>= fun a => finished >>= fun _ => pure a) (Cursor.ofText s) with
  | error fault => rw [hr] at hs; cases hs
  | ok p =>
    rw [hr] at hs
    cases hs
    exact hread _ _ _ hr

end Text

/-! ## What a text can hold -/

section Ensures

variable {β σ : Type}

theorem ensures_itemsSteps {item : Reader β} {P : β → Prop} (h : Ensures item P) (steps : Nat)
    (first : Bool) : Ensures (itemsSteps item steps first) fun items => ∀ a ∈ items, P a := by
  induction steps generalizing first with
  | zero => exact (refuses_failHere _).ensures
  | succ steps ih =>
    refine ensures_bind fun more => ?_
    cases more with
    | false => exact ensures_bind fun _ => ensures_pure (by simp)
    | true =>
      refine h.bind fun a ha => (ih false).bind fun others hothers => ensures_pure ?_
      exact List.forall_mem_cons.2 ⟨ha, hothers⟩

theorem ensures_foldMembersSteps {member : σ → String → Reader σ} {P : σ → Prop}
    (h : ∀ s key, P s → Ensures (member s key) P) (steps : Nat) (first : Bool) (s : σ) (hs : P s) :
    Ensures (foldMembersSteps member steps first s) P := by
  induction steps generalizing first s with
  | zero => exact (refuses_failHere _).ensures
  | succ steps ih =>
    refine ensures_bind fun more => ?_
    cases more with
    | false => exact ensures_pure hs
    | true =>
      refine ensures_bind fun _ => ensures_bind fun key => ?_
      exact (h s key hs).bind fun s' hs' => ih false s' hs'

end Ensures

section Fits

variable {list object : Reader Value}

theorem fits_scalar {depth : Nat} {v : Value} (h : ¬ v.IsContainer) : v.Fits depth := by
  cases v with
  | array _ | object _ => exact absurd trivial h
  | null | bool _ | number _ | string _ => exact ⟨trivial, Nat.zero_le _⟩

theorem ensures_documentWith {depth : Nat} (hlist : Ensures list (Value.Fits depth))
    (hobject : Ensures object (Value.Fits depth)) :
    Ensures (documentWith Value.builder list object) (Value.Fits depth) := by
  have hliteral : ∀ (cs : List Char) (v : Value), ¬ v.IsContainer →
      Ensures (do skip; literalRest cs; pure v) (Value.Fits depth) := fun _ _ hv =>
    ensures_bind fun _ => ensures_bind fun _ => ensures_pure (fits_scalar hv)
  refine ensures_bind fun c => ?_
  split
  · exact (refuses_failHere _).ensures
  · exact hliteral _ _ id
  · exact hliteral _ _ id
  · exact hliteral _ _ id
  · exact ensures_bind fun _ => ensures_bind fun _ => ensures_pure (fits_scalar id)
  · exact hlist
  · exact hobject
  · split
    · exact ensures_bind fun _ => ensures_pure (fits_scalar id)
    · exact (refuses_failAhead _).ensures

theorem ensures_list {document : Reader Value} {depth : Nat}
    (h : Ensures document (Value.Fits depth)) :
    Ensures (Reader.list Value.builder document) (Value.Fits (depth + 1)) := by
  have hitems : Ensures (items document) fun vs => ∀ v ∈ vs, Value.Fits depth v :=
    ensures_bind fun _ => ensures_bind fun _ => ensures_itemsSteps h _ _
  refine hitems.bind fun vs hvs => ensures_pure ⟨?_, ?_⟩
  · exact (Value.wellFormedItems_iff vs).2 fun v hv => (hvs v hv).1
  · exact Nat.succ_le_succ ((Value.itemsDepth_le_iff vs depth).2 fun v hv => (hvs v hv).2)

/-- The members read behind the first one, whose key is not the one that marks numbers, make up a
well-formed object. -/
theorem fits_object {depth : Nat} {read : List (String × Value)}
    (hvalues : ∀ m ∈ read, m.2.Fits depth) {first : String × Value} {front : List (String × Value)}
    (hread : read = front ++ [first]) (hkey : first.1 ≠ numberKey) :
    (Value.object (Members.ofList read.reverse)).Fits (depth + 1) := by
  have hmem : ∀ m ∈ Members.ofList read.reverse, m.2.Fits depth := fun m hm =>
    hvalues m (List.mem_reverse.1 (Members.mem_of_mem_ofList hm))
  refine ⟨⟨Members.nodup_ofList _, ?_, ?_⟩, ?_⟩
  · rw [hread, List.reverse_append, List.reverse_singleton, List.singleton_append,
      Members.head?_ofList]
    exact fun he => hkey (Option.some.inj he)
  · exact (Value.wellFormedMembers_iff _).2 fun m hm => (hmem m hm).1
  · exact Nat.succ_le_succ ((Value.membersDepth_le_iff _ depth).2 fun m hm => (hmem m hm).2)

theorem ensures_object {document : Reader Value} {depth : Nat}
    (h : Ensures document (Value.Fits depth)) :
    Ensures (Reader.object Value.builder document) (Value.Fits (depth + 1)) := by
  refine ensures_bind fun _ => ensures_bind fun more => ?_
  cases more with
  | false =>
    refine ensures_bind fun _ => ensures_pure ?_
    exact ⟨⟨List.nodup_nil, by simp [Members.ofList], trivial⟩, Nat.succ_le_succ (Nat.zero_le _)⟩
  | true =>
    refine ensures_bind fun _ => ensures_bind fun key => ?_
    by_cases hkey : key = numberKey
    · have hmark : (Value.builder.marksNumbers && key == numberKey) = true := by
        simp [Value.builder, hkey]
      simp only [if_true, hmark]
      exact ensures_bind fun n => ensures_pure (fits_scalar id)
    · have hmark : (Value.builder.marksNumbers && key == numberKey) = false := by simp [hkey]
      simp only [hmark, Bool.false_eq_true, if_false]
      -- every member read is added in front, so the first one stays at the end
      have hadd : ∀ (read : List (String × Value)) (k : String), (∀ m ∈ read, m.2.Fits depth) →
          Ensures (do colon; let a ← document; pure ((k, a) :: read)) fun read' =>
            (∀ m ∈ read', m.2.Fits depth) ∧ ∃ v, read' = (k, v) :: read := by
        intro read k hread
        refine ensures_bind fun _ => h.bind fun a ha => ensures_pure ⟨?_, a, rfl⟩
        exact List.forall_mem_cons.2 ⟨ha, hread⟩
      refine (hadd [] key (by simp)).bind fun first hfirst => ?_
      obtain ⟨hvalues, v, rfl⟩ := hfirst
      refine Ensures.bind (P := fun read => (∀ m ∈ read, m.2.Fits depth) ∧
        ∃ front, read = front ++ [(key, v)]) ?_ ?_
      · refine ensures_bind fun n => ensures_foldMembersSteps ?_ _ _ _ ⟨hvalues, [], rfl⟩
        rintro read k ⟨hread, front, rfl⟩ cur read' cur' hr
        obtain ⟨hread', a, rfl⟩ := hadd _ k hread cur read' cur' hr
        exact ⟨hread', (k, a) :: front, rfl⟩
      · rintro read ⟨hread, front, rfl⟩
        exact ensures_bind fun _ => ensures_pure (fits_object hread rfl hkey)

/-- Whatever is read as a value with at most `depth` containers inside one another is one. -/
theorem ensures_document (depth : Nat) :
    Ensures (document Value.builder depth) (Value.Fits depth) := by
  induction depth with
  | zero => exact ensures_documentWith (refuses_failAhead _).ensures (refuses_failAhead _).ensures
  | succ depth ih => exact ensures_documentWith (ensures_list ih) (ensures_object ih)

end Fits

end Reader

/-! ## Texts of values -/

namespace Value

/-- As a document a well-formed value is itself. -/
theorem builder_ofValue {v : Value} (h : v.WellFormed) : builder.ofValue v = v := by
  induction v using Value.ind with
  | null | bool _ | number _ | string _ => rfl
  | array items ih =>
    rw [WellFormed, wellFormedItems_iff] at h
    have hitems : items.map builder.ofValue = items.map id :=
      List.map_congr_left fun v hv => ih v hv (h v hv)
    rw [Builder.ofValue, Builder.ofItems_eq_map, hitems, List.map_id]
    rfl
  | object members ih =>
    rw [WellFormed, wellFormedMembers_iff] at h
    have hmembers : members.map (fun m => (m.1, builder.ofValue m.2)) = members.map id :=
      List.map_congr_left fun m hm => by rw [ih m hm (h.2.2 m hm)]; rfl
    rw [Builder.ofValue, Builder.ofMembers_eq_map, hmembers, List.map_id]
    show object (Members.ofList members) = _
    rw [Members.ofList_eq_self h.1]

/-- **The text of a value that a text can hold is read as that value.** -/
theorem parse_text {v : Value} (h : v.Fits Reader.nestingLimit) : parse v.text = .ok v := by
  refine Reader.readText_eq_ok ?_
  have hread := Reader.reads_document builder Reader.nestingLimit v h.1 h.2 [] (by simp [Reader.Closed])
  rw [List.append_nil, builder_ofValue h.1] at hread
  rwa [text, String.toList_ofList]

/-- **What a text holds is well formed and not nested too deep.** -/
theorem fits_of_parse {s : String} {v : Value} (h : parse s = .ok v) : v.Fits Reader.nestingLimit :=
  (Reader.ensures_document Reader.nestingLimit).readText h

end Value

end ContentVisibility.Json
