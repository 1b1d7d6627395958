import ContentVisibility.Proofs.Identifier.Spelled
import ContentVisibility.Proofs.Json.LocalDocument
import ContentVisibility.Rule.Persisted
import ContentVisibility.Service.Gate

/-!
# Blank characters around a rule

Reading a rule passes over the blank characters of JSON around it, and only those. A service takes
away all blank characters first, so it reads every rule that can be read as it stands.

* `Rule.parse_trim`: a text that is read as a rule is read as the same rule without the blank
  characters around it;
* `Options.gateOfText_of_parse`: the gate of such a text is its rule.
-/

namespace ContentVisibility

namespace Text

theorem isBlank_of_isBlank {c : Char} (h : Json.Cursor.isBlank c = true) : isBlank c = true := by
  simp only [Json.Cursor.isBlank, Bool.or_eq_true, decide_eq_true_eq] at h
  obtain ((rfl | rfl) | rfl) | rfl := h <;> decide

/-- What stands between two characters that are not blank is left of a text with blank characters
around it. -/
theorem trimmed_between {before after : List Char} {first last : Char} (cs : List Char)
    (hbefore : ∀ c ∈ before, isBlank c = true) (hafter : ∀ c ∈ after, isBlank c = true)
    (hfirst : isBlank first = false) (hlast : isBlank last = false) :
    trimmed (before ++ first :: (cs ++ last :: after)) = first :: (cs ++ [last]) := by
  have hends : trimmed (first :: (cs ++ [last])) = first :: (cs ++ [last]) := by
    have hreverse : (first :: (cs ++ [last])).reverse = last :: (first :: cs).reverse := by simp
    rw [trimmed, List.dropWhile_cons_of_neg (by simp [hfirst]), hreverse,
      List.dropWhile_cons_of_neg (by simp [hlast]), ← hreverse, List.reverse_reverse]
  have hparts : before ++ first :: (cs ++ last :: after) =
      before ++ first :: (cs ++ [last]) ++ after := by simp
  rw [hparts, trimmed_padded _ hbefore hafter, hends]

end Text

namespace Json

open Reader

theorem Reader.exists_of_readText {α : Type} {r : Reader α} {s : String} {a : α}
    (h : r.readText s = .ok a) :
    ∃ cur, r (Cursor.ofText s) = .ok (a, cur) ∧ ∀ c ∈ cur.rest, Cursor.isBlank c = true := by
  rw [readText_eq] at h
  cases hr : r (Cursor.ofText s) with
  | error fault =>
    rw [bind_error hr] at h
    cases h
  | ok p =>
    obtain ⟨b, cur⟩ := p
    obtain ⟨mid, hpeek, -⟩ := reads_peekToken_dropWhile cur.rest cur rfl
    rw [bind_ok hr, finished, bind_assoc, bind_ok hpeek] at h
    cases hhead : (cur.rest.dropWhile Cursor.isBlank).head? with
    | none =>
      rw [hhead] at h
      obtain rfl : b = a := Except.ok.inj h
      exact ⟨cur, rfl, List.dropWhile_eq_nil_iff.1 (List.head?_eq_none_iff.1 hhead)⟩
    | some c =>
      rw [hhead] at h
      cases h

/-- A closing reader that starts at an opening bracket reads what stands between two brackets,
whatever follows. -/
theorem Reader.Local.exists_between {α : Type} {r : Reader α} (h : ∀ n, Local true n r r)
    {cur cur' : Cursor} {a : α} (hr : r cur = .ok (a, cur')) {first : Char}
    (hfirst : first = '[' ∨ first = '{') (hhead : cur.rest.head? = some first) :
    ∃ cs last, (last = ']' ∨ last = '}') ∧ cur.rest = first :: (cs ++ last :: cur'.rest) ∧
      Reads r (first :: (cs ++ [last])) (some a) [] := by
  obtain ⟨-, hcloses, halone⟩ := h (cur.rest.length + 1) cur a cur' hr
  obtain ⟨p, last, hlast, hrest⟩ := hcloses rfl
  obtain ⟨others, hothers⟩ := List.head?_eq_some_iff.1 hhead
  cases p with
  | nil =>
    -- no bracket both opens and closes
    obtain rfl : last = first := (List.cons.inj (hrest.symm.trans hothers)).1
    rcases hfirst with rfl | rfl <;> rcases hlast with hlast | hlast <;> cases hlast
  | cons c cs =>
    obtain rfl : c = first := (List.cons.inj (hrest.symm.trans hothers)).1
    refine ⟨cs, last, hlast, hrest, halone (c :: (cs ++ [last])) [] cur'.rest ?_ rfl (.inl rfl) ?_⟩
    · rw [hrest]
      simp
    · rw [hrest]
      simp only [List.length_cons, List.length_append, List.length_nil]
      omega

namespace Kinds

variable {κ : Type} (kinds : Kinds κ)

/-- Only objects and lists name their kind. -/
theorem read_eq_error {cur mid : Cursor} {c : Option Char} (hpeek : peekToken cur = .ok (c, mid))
    (hobject : c ≠ some '{') (hlist : c ≠ some '[') : ∃ fault, kinds.read cur = .error fault := by
  rw [read, bind_ok hpeek]
  refine (?_ : Refuses _) mid
  split
  · exact absurd rfl hobject
  · exact absurd rfl hlist
  · split
    · refine refuses_bind fun n => ?_
      split
      · exact refuses_reject _
      · exact refuses_reject _
    · exact refuses_mismatch _
  · exact refuses_mismatch _

theorem exists_of_read {cur cur' : Cursor} {a : κ × Held} (h : kinds.read cur = .ok (a, cur')) :
    ∃ blanks first cs last, (∀ c ∈ blanks, Cursor.isBlank c = true) ∧
      (first = '[' ∨ first = '{') ∧ (last = ']' ∨ last = '}') ∧
      cur.rest = blanks ++ first :: (cs ++ last :: cur'.rest) ∧
      Reads kinds.read (first :: (cs ++ [last])) (some a) [] := by
  obtain ⟨mid, hpeek, hmid⟩ := reads_peekToken_dropWhile cur.rest cur rfl
  have hcur : cur.rest = cur.rest.takeWhile Cursor.isBlank ++ mid.rest := by
    rw [hmid, List.takeWhile_append_dropWhile]
  have hblanks : ∀ c ∈ cur.rest.takeWhile Cursor.isBlank, Cursor.isBlank c = true :=
    fun c hc => List.mem_takeWhile_imp hc
  rw [← hmid] at hpeek
  by_cases hobject : mid.rest.head? = some '{'
  · rw [read, bind_ok hpeek, hobject] at h
    obtain ⟨cs, last, hlast, hrest, hread⟩ :=
      Local.exists_between (fun _ => kinds.local_readObject) h (.inr rfl) hobject
    exact ⟨_, '{', cs, last, hblanks, .inr rfl, hlast, by rw [← hrest, ← hcur],
      (reads_token _ (by decide)).bind hread⟩
  by_cases hlist : mid.rest.head? = some '['
  · rw [read, bind_ok hpeek, hlist] at h
    obtain ⟨cs, last, hlast, hrest, hread⟩ :=
      Local.exists_between (fun _ => kinds.local_readList) h (.inl rfl) hlist
    exact ⟨_, '[', cs, last, hblanks, .inl rfl, hlast, by rw [← hrest, ← hcur],
      (reads_token _ (by decide)).bind hread⟩
  · obtain ⟨fault, hfault⟩ := kinds.read_eq_error hpeek hobject hlist
    rw [hfault] at h
    cases h

end Kinds

end Json

open Json in
/-- A rule is read from between two brackets, and nothing but blank characters stands around them. -/
theorem Rule.exists_of_parse {text : String} {rule : Rule} (h : Rule.parse text = .ok rule) :
    ∃ first cs last, first ≠ 'n' ∧ Text.trimmed text.toList = first :: (cs ++ [last]) ∧
      Reader.Reads reader (first :: (cs ++ [last])) (some rule) [] := by
  obtain ⟨cur', hread, hafter⟩ := Reader.exists_of_readText h
  cases hkind : kinds.read (Cursor.ofText text) with
  | error fault =>
    rw [reader, Reader.bind_error hkind] at hread
    cases hread
  | ok p =>
    obtain ⟨⟨kind, rest⟩, mid⟩ := p
    obtain ⟨blanks, first, cs, last, hblanks, hfirst, hlast, htext, halone⟩ :=
      kinds.exists_of_read hkind
    rw [reader, Reader.bind_ok hkind] at hread
    cases hheld : ofHeld kind rest with
    | error problem =>
      simp only [hheld] at hread
      cases hread
    | ok rule' =>
      simp only [hheld] at hread
      obtain ⟨rfl, rfl⟩ : rule' = rule ∧ mid = cur' := by simpa using Except.ok.inj hread
      refine ⟨first, cs, last, ?_, ?_, ?_⟩
      · rcases hfirst with rfl | rfl <;> decide
      · rw [show text.toList = _ from htext]
        refine Text.trimmed_between cs (fun c hc => Text.isBlank_of_isBlank (hblanks c hc))
          (fun c hc => Text.isBlank_of_isBlank (hafter c hc)) ?_ ?_
        · rcases hfirst with rfl | rfl <;> decide
        · rcases hlast with rfl | rfl <;> decide
      · refine halone.bind ?_
        simp only [hheld]
        exact Reader.reads_pure _ []

theorem Rule.parse_trim {text : String} {rule : Rule} (h : Rule.parse text = .ok rule) :
    Rule.parse (Text.trim text) = .ok rule := by
  obtain ⟨first, cs, last, -, htrim, hread⟩ := exists_of_parse h
  refine Json.Reader.readText_eq_ok ?_
  rwa [Text.trim, htrim, String.toList_ofList]

theorem Options.gateOfText_of_parse (options : Options) {text : String} {rule : Rule}
    (h : Rule.parse text = .ok rule) : options.gateOfText (some text) = (.ruled rule, []) := by
  obtain ⟨first, cs, last, hnull, htrim, -⟩ := Rule.exists_of_parse h
  have hother : ¬ (Text.trim text = "" ∨ Text.trim text = "null") := by
    have hlist : (Text.trim text).toList = first :: (cs ++ [last]) := by
      rw [Text.trim, htrim, String.toList_ofList]
    rintro (he | he) <;> rw [he] at hlist
    · cases hlist
    · exact hnull (List.cons.inj hlist).1.symm
  rw [gateOfText, Option.map_some]
  simp only [hother, if_false, Rule.parse_trim h, gate]

end ContentVisibility
