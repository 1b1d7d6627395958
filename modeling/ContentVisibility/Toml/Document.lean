import ContentVisibility.Numerals
import ContentVisibility.Toml.Scalar

/-!
# TOML documents

* `Scan`: takes characters from the front of a text, or gives up;
* `Scan.value`: a value of any kind;
* `Scan.document`: a document as a list of headers and entries;
* `parse?`: the table that a text writes.
-/

namespace ContentVisibility.Toml

/-- Takes characters from the front of a text, or gives up. -/
abbrev Scan := StateT (List Char) Option

namespace Scan

/-! ## Characters -/

def peek : Scan (Option Char) := fun cs => some (cs.head?, cs)

/-- How many characters are left, which bounds how many steps a scan can take. -/
def remaining : Scan Nat := fun cs => some (cs.length, cs)

def next : Scan Char
  | [] => none
  | c :: cs => some (c, cs)

/-- Take the given characters, and say whether they were there. -/
def skips (expected : List Char) : Scan Bool := fun cs =>
  if expected.isPrefixOf cs then some (true, cs.drop expected.length) else some (false, cs)

/-- Take the given characters, which have to be there. -/
def expect (expected : List Char) : Scan Unit := do
  if ← skips expected then pure () else failure

/-- Take characters as long as they are of a kind. -/
def run (kind : Char → Bool) : Scan (List Char) := fun cs =>
  some (cs.takeWhile kind, cs.dropWhile kind)

/-! ## Blanks, comments and ends of lines -/

/-- Whether the character can stand in comments and in strings: no control character but the
tabulator. -/
def isPlain (c : Char) : Bool := c = '\t' || (0x20 ≤ c.toNat && c.toNat != 0x7F)

def blanks : Scan Unit := do
  let _ ← run fun c => c = ' ' || c = '\t'

/-- Take the end of a line, and say whether there was one. -/
def lineEnd : Scan Bool := do
  if ← skips ['\n'] then pure true else skips ['\r', '\n']

/-- Take a comment, and say whether there was one. -/
def comment : Scan Bool := do
  if ← skips ['#'] then
    let _ ← run isPlain
    pure true
  else pure false

/-- Take blanks, comments and ends of lines, in at most `steps` steps. -/
def gapSteps : Nat → Scan Unit
  | 0 => pure ()
  | steps + 1 => do
    blanks
    if (← comment) || (← lineEnd) then gapSteps steps

/-- Take blanks, comments and ends of lines. -/
def gap : Scan Unit := do gapSteps (2 * (← remaining) + 1)

/-! ## Strings -/

/-- The character whose number the next `width` digits write. -/
def numbered (width : Nat) : Scan Char := fun cs =>
  let digits := cs.take width
  match Text.hexRead? digits with
  | some n => if digits.length = width && n.isValidChar then some (Char.ofNat n, cs.drop width) else none
  | none => none

/-- The character of an escape, behind the backslash. -/
def escape : Scan Char := do
  match ← next with
  | 'b' => pure '\x08'
  | 't' => pure '\t'
  | 'n' => pure '\n'
  | 'f' => pure '\x0c'
  | 'r' => pure '\r'
  | 'e' => pure '\x1b'
  | '"' => pure '"'
  | '\\' => pure '\\'
  | 'x' => numbered 2
  | 'u' => numbered 4
  | 'U' => numbered 8
  | _ => failure

/-- The characters of a string on one line, up to its closing quote. -/
def basicSteps : Nat → Scan (List Char)
  | 0 => failure
  | steps + 1 => do
    match ← next with
    | '"' => pure []
    | '\\' => do
      let c ← escape
      let cs ← basicSteps steps
      pure (c :: cs)
    | c => if isPlain c then do pure (c :: (← basicSteps steps)) else failure

/-- A string on one line, behind its opening quote. -/
def basic : Scan String := do
  let cs ← basicSteps (← remaining)
  pure (String.ofList cs)

/-- A string without escapes on one line, behind its opening apostrophe. -/
def literal : Scan String := do
  let cs ← run fun c => isPlain c && c != '\''
  expect ['\'']
  pure (String.ofList cs)

/-- The quotes at the end of a string on several lines: three close it, and up to two before them
belong to it. -/
def closing (quote : Char) : Scan (Option (List Char)) := fun cs =>
  let quotes := cs.takeWhile (· == quote)
  if quotes.length < 3 then some (none, cs)
  else if quotes.length ≤ 5 then some (some (quotes.drop 3), cs.drop quotes.length)
  else none

/-- A character of a string on several lines that stands for itself. -/
def multilineChar : Scan (List Char) := do
  if ← skips ['\r', '\n'] then pure ['\r', '\n']
  else
    let c ← next
    if c = '\n' || isPlain c then pure [c] else failure

/-- Take blanks and ends of lines, in at most `steps` steps. -/
def blankLines : Nat → Scan Unit
  | 0 => pure ()
  | steps + 1 => do
    blanks
    if ← lineEnd then blankLines steps

/-- An escape of a string on several lines, behind the backslash: at the end of a line it takes all
blanks and ends of lines that follow. -/
def multilineEscape : Scan (List Char) := do
  let c ← peek
  if c = some ' ' || c = some '\t' || c = some '\n' || c = some '\r' then
    blanks
    if ← lineEnd then
      blankLines (← remaining)
      pure []
    else failure
  else do pure [← escape]

/-- The characters of a string on several lines, up to its closing quotes. -/
def multilineSteps (quote : Char) : Nat → Scan (List Char)
  | 0 => failure
  | steps + 1 => do
    match ← closing quote with
    | some cs => pure cs
    | none => do
      let first ← if quote = '"' then (do if ← skips ['\\'] then multilineEscape else multilineChar)
        else multilineChar
      let others ← multilineSteps quote steps
      pure (first ++ others)

/-- A string on several lines, behind its opening quotes. The end of a line right behind them does
not belong to it. -/
def multiline (quote : Char) : Scan String := do
  let _ ← lineEnd
  let cs ← multilineSteps quote ((← remaining) + 1)
  pure (String.ofList cs)

/-! ## Keys -/

/-- Whether a key without quotes can hold the character. -/
def isKeyChar (c : Char) : Bool := c.isAlphanum || c = '_' || c = '-'

def keyPart : Scan String := do
  if ← skips ['"'] then basic
  else if ← skips ['\''] then literal
  else
    let cs ← run isKeyChar
    if cs.isEmpty then failure else pure (String.ofList cs)

def keyParts : Nat → Scan (List String)
  | 0 => failure
  | steps + 1 => do
    blanks
    if ← skips ['.'] then
      blanks
      let part ← keyPart
      let others ← keyParts steps
      pure (part :: others)
    else pure []

/-- How many parts a key may have, and how many lists and tables may stand inside one another. -/
def nestingLimit : Nat := 80

/-- A key, whose parts are divided by dots, and the blanks behind it. -/
def key : Scan Node.Path := do
  let first ← keyPart
  let others ← keyParts ((← remaining) + 1)
  let parts := first :: others
  if nestingLimit < parts.length then failure
  else pure ⟨parts.dropLast, parts.getLast?.getD first⟩

/-! ## Values -/

/-- A number, a truth value, a date or a time. -/
def plain : Scan Value := do
  let cs ← run isRunChar
  let digitAhead : Scan Bool := fun rest =>
    match rest with
    | ' ' :: c :: _ => some (isDigit c, rest)
    | _ => some (false, rest)
  let cs ← if isDate cs && (← digitAhead) then do
      let _ ← next
      pure (cs ++ ' ' :: (← run isRunChar))
    else pure cs
  match Value.ofRun? cs with
  | some value => pure value
  | none => failure

/-- The items of a list up to its closing bracket. -/
def itemSteps (value : Scan Value) : Nat → Scan (List Value)
  | 0 => failure
  | steps + 1 => do
    gap
    if ← skips [']'] then pure []
    else
      let item ← value
      gap
      if ← skips [','] then do pure (item :: (← itemSteps value steps))
      else
        expect [']']
        pure [item]

/-- An entry: a key, an equals sign and a value, with what may stand around the sign. -/
def entry (around : Scan Unit) (value : Scan Value) : Scan (Node.Path × Value) := do
  let path ← key
  around
  expect ['=']
  around
  let v ← value
  pure (path, v)

/-- The entries of a table up to its closing brace. -/
def entrySteps (value : Scan Value) : Nat → Scan (List (Node.Path × Value))
  | 0 => failure
  | steps + 1 => do
    gap
    if ← skips ['\x7d'] then pure []
    else
      let first ← entry gap value
      gap
      if ← skips [','] then do pure (first :: (← entrySteps value steps))
      else
        expect ['\x7d']
        pure [first]

/-- A value whose lists and tables are read as given. -/
def valueWith (list table : Scan Value) : Scan Value := do
  if ← skips ['"', '"', '"'] then .string <$> multiline '"'
  else if ← skips ['\'', '\'', '\''] then .string <$> multiline '\''
  else if ← skips ['"'] then .string <$> basic
  else if ← skips ['\''] then .string <$> literal
  else if ← skips ['['] then list
  else if ← skips ['\x7b'] then table
  else plain

/-- A value with at most `depth` lists and tables inside one another. -/
def valueSteps : Nat → Scan Value
  | 0 => valueWith failure failure
  | depth + 1 =>
    valueWith
      (do
        let items ← itemSteps (valueSteps depth) ((← remaining) + 1)
        pure (.array items))
      (do
        let entries ← entrySteps (valueSteps depth) ((← remaining) + 1)
        match Node.assignAll .strict [] entries with
        | some entries => pure (.table (Node.entryValues entries))
        | none => failure)

def value : Scan Value := valueSteps nestingLimit

/-! ## Documents -/

def endOfLine : Scan Unit := do
  blanks
  let _ ← comment
  if (← peek).isNone || (← lineEnd) then pure () else failure

/-- The entries up to the next header or the end. -/
def assignments : Nat → Scan (List (Node.Path × Value))
  | 0 => failure
  | steps + 1 => do
    gap
    match ← peek with
    | none | some '[' => pure []
    | some _ => do
      let first ← entry blanks value
      endOfLine
      let others ← assignments steps
      pure (first :: others)

/-- The headers up to the end, with the entries below them. -/
def sections : Nat → Scan (List Node.Section)
  | 0 => failure
  | steps + 1 => do
    if (← peek).isNone then pure []
    else
      expect ['[']
      let repeated ← skips ['[']
      blanks
      let path ← key
      expect (if repeated then [']', ']'] else [']'])
      endOfLine
      let below ← assignments ((← remaining) + 1)
      let others ← sections steps
      pure (⟨path, repeated, below⟩ :: others)

/-- A document: the entries without a header, and the headers. -/
def document : Scan (List (Node.Path × Value) × List Node.Section) := do
  let _ ← skips ['\ufeff']
  let top ← assignments ((← remaining) + 1)
  let others ← sections ((← remaining) + 1)
  pure (top, others)

end Scan

def parse? (dialect : Dialect) (s : String) : Option (List (String × Value)) := do
  let ((top, sections), _) ← Scan.document s.toList
  let entries ← Node.assignAll dialect [] top
  let entries ← sections.foldlM (Node.putSection dialect) entries
  some (Node.entryValues entries)

end ContentVisibility.Toml
