import ContentVisibility.Text.Basic
import ContentVisibility.Text.CaseTable

/-!
# Case folding

Texts are compared after folding each to lower case, character by character. Two characters need
more than a table: the dotted capital i becomes two characters, and a capital sigma takes its final
form at the end of a word.

* `lower`: the lower-case form of a text;
* `foldsTo`: whether two texts have the same lower-case form.
-/

namespace ContentVisibility.Text

/-- The lower-case form of a character that has one of one character, and the character itself
otherwise. -/
def lowerChar (c : Char) : Char :=
  let n := c.toNat
  if n < 0x80 then (if 0x41 ≤ n && n ≤ 0x5A then Char.ofNat (n + 32) else c)
  else
    match lowercaseRuns.find? fun (first, last, step, _) =>
        first ≤ n && n ≤ last && (n - first) % step == 0 with
    | some (_, _, _, shift) => Char.ofNat (Int.toNat (n + shift))
    | none => c

/-- Whether the first character that is not case-ignorable is cased. -/
def meetsCased (cs : List Char) : Bool :=
  match cs.dropWhile (inRanges caseIgnorableRanges) with
  | c :: _ => inRanges casedRanges c
  | [] => false

/-- The lower-case form of a capital sigma with the given text before it, nearest character first,
and after it: final where a word ends. -/
def lowerSigma (before after : List Char) : Char :=
  if meetsCased before && !meetsCased after then 'ς' else 'σ'

/-- Lower-case forms of the characters, each seen with what stands before it (nearest first) and
after it. -/
def lowerFrom (before : List Char) : List Char → List Char
  | [] => []
  | c :: after =>
    (if c = 'Σ' then [lowerSigma before after]
     else if c = 'İ' then ['i', '\u0307']
     else [lowerChar c]) ++ lowerFrom (c :: before) after

def lower (s : String) : List Char := lowerFrom [] s.toList

/-- Whether two texts are equal once folded. -/
def foldsTo (s t : String) : Bool := s == t || lower s == lower t

/-- Whether `needle` stands somewhere in `hay`. -/
def occursIn (needle : List Char) : List Char → Bool
  | [] => needle.isEmpty
  | c :: hay => needle.isPrefixOf (c :: hay) || occursIn needle hay

end ContentVisibility.Text
