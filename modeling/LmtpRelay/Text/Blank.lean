/-
Blank characters and the text between them.

A character is blank when Unicode gives it the property White_Space. `trim` removes blanks at both ends, `words`
lists the maximal runs of other characters, and `splitBlank` cuts at the first blank. Each works on the characters
of a text, so that statements about them are statements about lists.
-/

namespace LmtpRelay.Text

/-- the characters with the property White_Space -/
def isBlank (c : Char) : Bool :=
  let n := c.toNat
  (9 ≤ n && n ≤ 13) || n == 0x20 || n == 0x85 || n == 0xA0 || n == 0x1680 || (0x2000 ≤ n && n ≤ 0x200A)
    || n == 0x2028 || n == 0x2029 || n == 0x202F || n == 0x205F || n == 0x3000

/-! ## Trimming -/

def trimStart (cs : List Char) : List Char := cs.dropWhile isBlank

/-- drop the blanks at the end: a blank stays only in front of a character that stays -/
def trimEnd : List Char → List Char
  | [] => []
  | c :: cs =>
    match trimEnd cs with
    | [] => if isBlank c then [] else [c]
    | kept => c :: kept

def trim (cs : List Char) : List Char := trimEnd (trimStart cs)

/-! ## Words -/

/-- put a character in front of the first word -/
def consWord (c : Char) : List (List Char) → List (List Char)
  | [] => [[c]]
  | w :: ws => (c :: w) :: ws

def startsWord (cs : List Char) : Bool := cs.head?.any fun c => !isBlank c

/-- the maximal runs of characters that are not blank, in order -/
def words : List Char → List (List Char)
  | [] => []
  | c :: cs =>
    if isBlank c then words cs
    else if startsWord cs then consWord c (words cs)
    else [c] :: words cs

/-- the text before the first blank, and the text after it when there is one -/
def splitBlank (cs : List Char) : List Char × List Char :=
  (cs.takeWhile (fun c => !isBlank c), (cs.dropWhile (fun c => !isBlank c)).drop 1)

/-- the text before the first `sep`, and the text after it; `none` where `sep` does not occur -/
def splitOnce (sep : Char) : List Char → Option (List Char × List Char)
  | [] => none
  | c :: cs =>
    if c = sep then some ([], cs)
    else (splitOnce sep cs).map fun (before, after) => (c :: before, after)

/-! ## On strings -/

def trimmed (s : String) : String := String.ofList (trim s.toList)

def isAllBlank (s : String) : Bool := s.toList.all isBlank

end LmtpRelay.Text
