import Mathlib.Data.List.DropRight

/-!
# Operations on texts

The string operations of Python, on lists of characters.
-/

namespace PyStr

/-! ## White space -/

/-- The ranges of white space, by code point. -/
def spaceRanges : List (ℕ × ℕ) :=
  [(0x09, 0x0d), (0x1c, 0x20), (0x85, 0x85), (0xa0, 0xa0), (0x1680, 0x1680), (0x2000, 0x200a),
    (0x2028, 0x2029), (0x202f, 0x202f), (0x205f, 0x205f), (0x3000, 0x3000)]

def isSpace (c : Char) : Bool := spaceRanges.any fun r => r.1 ≤ c.toNat && c.toNat ≤ r.2

/-- `str.strip`. -/
def strip (s : List Char) : List Char := (s.dropWhile isSpace).rdropWhile isSpace

/-! ## Searching -/

/-- `sub in s`. -/
def contains (sub : List Char) : List Char → Bool
  | [] => sub.isEmpty
  | c :: s => sub.isPrefixOf (c :: s) || contains sub s

/-- **A text contains another iff it has it as a part.** -/
theorem contains_iff {sub s : List Char} : contains sub s = true ↔ sub <:+: s := by
  induction s with
  | nil => rw [contains, List.isEmpty_iff, List.infix_nil]
  | cons c s ih =>
    rw [contains, Bool.or_eq_true, List.isPrefixOf_iff_prefix, ih, List.infix_cons_iff]

/-! ## Splitting -/

/-- The fields of a text: `skip` characters of a separator are left, `field` is the current
field in reverse. -/
def splitFrom (sep : List Char) : ℕ → List Char → List Char → List (List Char)
  | _, field, [] => [field.reverse]
  | skip + 1, field, _ :: s => splitFrom sep skip field s
  | 0, field, c :: s =>
    if sep.isPrefixOf (c :: s) then field.reverse :: splitFrom sep (sep.length - 1) [] s
    else splitFrom sep 0 (c :: field) s

/-- `str.split` with a separator. -/
def split (sep s : List Char) : List (List Char) := splitFrom sep 0 [] s

/-- Add a character to the first line. -/
def consLine (c : Char) : List (List Char) → List (List Char)
  | [] => [[c]]
  | line :: lines => (c :: line) :: lines

/-- The lines of an open file, each with its newline. -/
def fileLines : List Char → List (List Char)
  | [] => []
  | c :: s => if c = '\n' then ['\n'] :: fileLines s else consLine c (fileLines s)

/-- The characters that end a line for `str.splitlines`. -/
def lineBreaks : List ℕ := [0x0a, 0x0b, 0x0c, 0x0d, 0x1c, 0x1d, 0x1e, 0x85, 0x2028, 0x2029]

/-- The lines of a text without their ends; after a carriage return a newline ends no
further line. -/
def splitlinesFrom : Bool → List Char → List (List Char)
  | _, [] => []
  | afterReturn, c :: s =>
    if afterReturn && c = '\n' then splitlinesFrom false s
    else if lineBreaks.contains c.toNat then [] :: splitlinesFrom (c = '\r') s
    else consLine c (splitlinesFrom false s)

/-- `str.splitlines`. -/
def splitlines (s : List Char) : List (List Char) := splitlinesFrom false s

end PyStr
