/-
Blanks, ends of lines, comments and the four kinds of quoted text. A quoted text ends at the quote, or three quotes, it
began with. Only the kinds in double quotes have escapes, and only the kinds in three quotes hold ends of lines, of
which the first one after the quotes is left out. A backslash at the end of a line joins it with the next.
-/
import LmtpRelay.Text.Reader

namespace LmtpRelay.Toml

open LmtpRelay.Text

/-! ## Between values -/

/-- a space or a tab -/
def isSpace (c : Char) : Bool := c = ' ' || c = '\t'

def skipSpace (cs : List Char) : List Char := cs.dropWhile isSpace

def lineEnd : Reader Unit
  | '\n' :: rest => some ((), rest)
  | '\r' :: '\n' :: rest => some ((), rest)
  | _ => none

def isCommentChar (c : Char) : Bool :=
  let n := c.toNat
  n = 9 || (0x20 ≤ n && n ≤ 0x7E) || 0x80 ≤ n

def skipComment : List Char → List Char
  | '#' :: rest => rest.dropWhile isCommentChar
  | cs => cs

/-- what ends a line after its content: blanks, perhaps a comment, and the end of the line or of the text -/
def trailing (cs : List Char) : Option (List Char) :=
  match skipComment (skipSpace cs) with
  | [] => some []
  | rest => (lineEnd rest).map Prod.snd

/-! ## Escapes -/

/-- the character with a number written in hexadecimal -/
def scalar (digits : List Char) : Option Char := do
  let ds ← digits.mapM (digitOf? 16)
  let n := valueOf 16 ds
  if n.isValidChar then some (Char.ofNat n) else none

/-- the character that a letter after a backslash stands for -/
def escaped : Char → Option Char
  | 'b' => some (Char.ofNat 8)
  | 't' => some '\t'
  | 'n' => some '\n'
  | 'f' => some (Char.ofNat 12)
  | 'r' => some '\r'
  | '"' => some '"'
  | '\\' => some '\\'
  | _ => none

/-! ## Texts on one line -/

/-- a character that stands for itself in single quotes -/
def isLiteralChar (c : Char) : Bool := isCommentChar c && c ≠ '\''

/-- a character that stands for itself in double quotes -/
def isBasicChar (c : Char) : Bool := isCommentChar c && c ≠ '"' && c ≠ '\\'

/-- put a character in front of what was read -/
def consTo (c : Char) (r : Option (List Char × List Char)) : Option (List Char × List Char) :=
  r.map fun (text, rest) => (c :: text, rest)

def literalRest : Reader (List Char)
  | [] => none
  | '\'' :: rest => some ([], rest)
  | c :: rest => if isLiteralChar c then consTo c (literalRest rest) else none

def basicRest : Reader (List Char)
  | '"' :: rest => some ([], rest)
  | '\\' :: 'u' :: a :: b :: c :: d :: rest => (scalar [a, b, c, d]).bind fun x => consTo x (basicRest rest)
  | '\\' :: 'U' :: a :: b :: c :: d :: e :: f :: g :: h :: rest =>
    (scalar [a, b, c, d, e, f, g, h]).bind fun x => consTo x (basicRest rest)
  | '\\' :: c :: rest => (escaped c).bind fun x => consTo x (basicRest rest)
  | c :: rest => if isBasicChar c then consTo c (basicRest rest) else none
  | [] => none

/-! ## Texts on several lines -/

/-- three quotes and up to two more that belong to the text: those, and what follows; fails where there are fewer
than three -/
def closing (quote : Char) : Reader (List Char)
  | a :: b :: c :: rest =>
    if a = quote ∧ b = quote ∧ c = quote then
      let extra := (rest.take 2).takeWhile (· = quote)
      some (extra, rest.drop extra.length)
    else none
  | _ => none

/-- leave out the end of a line right after the opening quotes -/
def dropFirstLineEnd (cs : List Char) : List Char := ((lineEnd cs).map Prod.snd).getD cs

def longLiteralRest : Reader (List Char)
  | [] => none
  | '\r' :: '\n' :: rest => consTo '\n' (longLiteralRest rest)
  | c :: rest =>
    match closing '\'' (c :: rest) with
    | some found => some found
    | none => if c = '\n' || c = '\'' || isLiteralChar c then consTo c (longLiteralRest rest) else none

/-- whether a backslash in front of this joins two lines -/
def joinsLines (cs : List Char) : Bool := (lineEnd (skipSpace cs)).isSome

/-- the rest of a text in three double quotes; `joining` while blanks and ends of lines are passed over after a
backslash at the end of a line -/
def longBasicRest (joining : Bool) : Reader (List Char)
  | [] => none
  | '\r' :: '\n' :: rest => if joining then longBasicRest true rest else consTo '\n' (longBasicRest false rest)
  | '\\' :: 'u' :: a :: b :: c :: d :: rest =>
    (scalar [a, b, c, d]).bind fun x => consTo x (longBasicRest false rest)
  | '\\' :: 'U' :: a :: b :: c :: d :: e :: f :: g :: h :: rest =>
    (scalar [a, b, c, d, e, f, g, h]).bind fun x => consTo x (longBasicRest false rest)
  | '\\' :: rest =>
    if joinsLines rest then longBasicRest true rest
    else
      match rest with
      | c :: rest => (escaped c).bind fun x => consTo x (longBasicRest false rest)
      | [] => none
  | c :: rest =>
    if joining && (c = '\n' || isSpace c) then longBasicRest true rest
    else
      match closing '"' (c :: rest) with
      | some found => some found
      | none =>
        if c = '\n' || c = '"' || isBasicChar c then consTo c (longBasicRest false rest) else none

/-! ## Quoted texts -/

def shortText : Reader (List Char)
  | '"' :: rest => basicRest rest
  | '\'' :: rest => literalRest rest
  | _ => none

def anyText : Reader (List Char)
  | '"' :: '"' :: '"' :: rest => longBasicRest false (dropFirstLineEnd rest)
  | '\'' :: '\'' :: '\'' :: rest => longLiteralRest (dropFirstLineEnd rest)
  | cs => shortText cs

end LmtpRelay.Toml
