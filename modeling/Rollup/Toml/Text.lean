/-
Blanks, comments and strings of TOML.

Every reader takes the characters from where it stands and, if it succeeds, gives what it
read and the characters behind it.
-/

namespace Rollup
namespace Toml

def isSpace (c : Char) : Bool := c == ' ' || c == '\t'

/-- A control character other than the tab, which may stand nowhere but in a line end. -/
def isControl (c : Char) : Bool := (c.toNat < 0x20 && c != '\t') || c.toNat == 0x7F

def skipSpaces (cs : List Char) : List Char := cs.dropWhile isSpace

def newline? : List Char → Option (List Char)
  | '\n' :: rest => some rest
  | '\r' :: '\n' :: rest => some rest
  | _ => none

/-- The rest of a line that may hold only blanks and a comment; the end of the text ends a
line as well. -/
def lineEnd? (cs : List Char) : Option (List Char) :=
  let rest :=
    match skipSpaces cs with
    | '#' :: comment => comment.dropWhile fun c => !isControl c
    | other => other
  if rest.isEmpty then some [] else newline? rest

/-- Blanks, line ends and comments between the parts of an array. -/
def skipFill (comment : Bool) : List Char → Option (List Char)
  | [] => some []
  | '\n' :: rest => skipFill false rest
  | '\r' :: '\n' :: rest => skipFill false rest
  | c :: rest =>
      if comment then (if isControl c then none else skipFill true rest)
      else if isSpace c then skipFill false rest
      else if c == '#' then skipFill true rest
      else some (c :: rest)

/-! ## Strings -/

def hexValue? (c : Char) : Option Nat :=
  if '0' ≤ c && c ≤ '9' then some (c.toNat - '0'.toNat)
  else if 'a' ≤ c && c ≤ 'f' then some (c.toNat - 'a'.toNat + 10)
  else if 'A' ≤ c && c ≤ 'F' then some (c.toNat - 'A'.toNat + 10)
  else none

def hexNumber? : List Char → Nat → Option Nat
  | [], n => some n
  | c :: rest, n => (hexValue? c).bind fun d => hexNumber? rest (16 * n + d)

/-- The character of a code point written in hexadecimal; surrogates are none. -/
def codePoint? (digits : List Char) : Option Char :=
  (hexNumber? digits 0).bind fun n => if n.isValidChar then some (Char.ofNat n) else none

def shortEscape? (c : Char) : Option Char :=
  if c == 'b' then some '\x08'
  else if c == 't' then some '\t'
  else if c == 'n' then some '\n'
  else if c == 'f' then some '\x0c'
  else if c == 'r' then some '\r'
  else if c == '"' || c == '\\' then some c
  else none

def before (c : Char) (r : List Char × List Char) : List Char × List Char := (c :: r.1, r.2)

/-- A string in quotation marks, from behind the first of them. -/
def basic? : List Char → Option (List Char × List Char)
  | [] => none
  | '"' :: rest => some ([], rest)
  | '\\' :: 'u' :: a :: b :: c :: d :: rest =>
      (codePoint? [a, b, c, d]).bind fun e => (basic? rest).map (before e)
  | '\\' :: 'U' :: a :: b :: c :: d :: e :: f :: g :: h :: rest =>
      (codePoint? [a, b, c, d, e, f, g, h]).bind fun x => (basic? rest).map (before x)
  | '\\' :: c :: rest => (shortEscape? c).bind fun e => (basic? rest).map (before e)
  | c :: rest => if isControl c || c == '\\' then none else (basic? rest).map (before c)

/-- A string in apostrophes, from behind the first of them. -/
def literal? : List Char → Option (List Char × List Char)
  | [] => none
  | '\x27' :: rest => some ([], rest)
  | c :: rest => if isControl c then none else (literal? rest).map (before c)

/-- Whether a backslash here stands at the end of a line. -/
def endsLine (cs : List Char) : Bool := (newline? (skipSpaces cs)).isSome

/-- A string in threefold quotation marks.  While `skipping`, after a backslash at the end
of a line, blanks and line ends are dropped.  Up to two quotation marks may stand before
the closing three. -/
def basicLines? (skipping : Bool) : List Char → Option (List Char × List Char)
  | [] => none
  | '"' :: '"' :: '"' :: '"' :: '"' :: rest => some (['"', '"'], rest)
  | '"' :: '"' :: '"' :: '"' :: rest => some (['"'], rest)
  | '"' :: '"' :: '"' :: rest => some ([], rest)
  | '\r' :: '\n' :: rest =>
      if skipping then basicLines? true rest else (basicLines? false rest).map (before '\n')
  | '\n' :: rest =>
      if skipping then basicLines? true rest else (basicLines? false rest).map (before '\n')
  | '\\' :: 'u' :: a :: b :: c :: d :: rest =>
      (codePoint? [a, b, c, d]).bind fun e => (basicLines? false rest).map (before e)
  | '\\' :: 'U' :: a :: b :: c :: d :: e :: f :: g :: h :: rest =>
      (codePoint? [a, b, c, d, e, f, g, h]).bind fun x =>
        (basicLines? false rest).map (before x)
  | '\\' :: c :: rest =>
      if endsLine (c :: rest) then basicLines? true (c :: rest)
      else (shortEscape? c).bind fun e => (basicLines? false rest).map (before e)
  | c :: rest =>
      if skipping && isSpace c then basicLines? true rest
      else if isControl c || c == '\\' then none
      else (basicLines? false rest).map (before c)

/-- A string in threefold apostrophes. -/
def literalLines? : List Char → Option (List Char × List Char)
  | [] => none
  | '\x27' :: '\x27' :: '\x27' :: '\x27' :: '\x27' :: rest => some (['\x27', '\x27'], rest)
  | '\x27' :: '\x27' :: '\x27' :: '\x27' :: rest => some (['\x27'], rest)
  | '\x27' :: '\x27' :: '\x27' :: rest => some ([], rest)
  | '\r' :: '\n' :: rest => (literalLines? rest).map (before '\n')
  | '\n' :: rest => (literalLines? rest).map (before '\n')
  | c :: rest => if isControl c then none else (literalLines? rest).map (before c)

/-- A line end right behind the opening marks is no part of the string. -/
def afterNewline (cs : List Char) : List Char := (newline? cs).getD cs

/-- A string of any of the four forms. -/
def string? : List Char → Option (List Char × List Char)
  | '"' :: '"' :: '"' :: rest => basicLines? false (afterNewline rest)
  | '"' :: rest => basic? rest
  | '\x27' :: '\x27' :: '\x27' :: rest => literalLines? (afterNewline rest)
  | '\x27' :: rest => literal? rest
  | _ => none

end Toml
end Rollup
