import Rollup.Toml.Scalar

/-
Reading a TOML document.

Arrays and inline tables may lie inside each other up to a fixed depth, and keys may have
as many parts.
-/

namespace Rollup
namespace Toml

/-- The greatest depth of arrays and inline tables, and the greatest number of parts of a
key. -/
def maxDepth : Nat := 79

/-! ## Keys -/

def isBareKeyChar (c : Char) : Bool := c.isAlphanum || c == '_' || c == '-'

def simpleKey? (cs : List Char) : Option (String × List Char) :=
  match cs with
  | '"' :: rest => (basic? rest).map fun r => (String.ofList r.1, r.2)
  | '\x27' :: rest => (literal? rest).map fun r => (String.ofList r.1, r.2)
  | cs =>
      let name := cs.takeWhile isBareKeyChar
      if name.isEmpty then none else some (String.ofList name, cs.dropWhile isBareKeyChar)

/-- A key of at most the given number of parts, as the parts before the last and the last.
Blanks may surround every part. -/
def key? : Nat → List Char → Option ((List String × String) × List Char)
  | 0, _ => none
  | parts + 1, cs =>
      (simpleKey? (skipSpaces cs)).bind fun (name, rest) =>
        match skipSpaces rest with
        | '.' :: more =>
            (key? parts more).map fun ((path, last), rest) => ((name :: path, last), rest)
        | rest => some (([], name), rest)

/-! ## Values -/

abbrev Reader (α : Type) := List Char → Option (α × List Char)

/-- The items of an array from behind the bracket or a comma; the last one may have a comma
behind it.  Every round reads at least one character, so the count of characters bounds
the rounds. -/
def items? (value : Reader Item) : Nat → Reader (List Item)
  | 0, _ => none
  | rounds + 1, cs =>
      (skipFill false cs).bind fun cs =>
        match cs with
        | ']' :: rest => some ([], rest)
        | cs =>
            (value cs).bind fun (item, rest) =>
              (skipFill false rest).bind fun rest =>
                match rest with
                | ']' :: rest => some ([item], rest)
                | ',' :: rest =>
                    (items? value rounds rest).map fun (items, rest) => (item :: items, rest)
                | _ => none

/-- A key, an equals sign and a value. -/
def assignment? (value : Reader Item) : Reader Assignment := fun cs =>
  (key? maxDepth cs).bind fun ((path, key), rest) =>
    match rest with
    | '=' :: rest =>
        (value (skipSpaces rest)).map fun (item, rest) => (⟨path, key, item⟩, rest)
    | _ => none

/-- The entries of an inline table from behind the brace or a comma; none may be missing
behind a comma. -/
def inlineEntries? (value : Reader Item) : Nat → Reader (List Assignment)
  | 0, _ => none
  | rounds + 1, cs =>
      (assignment? value cs).bind fun (entry, rest) =>
        match skipSpaces rest with
        | '\x7d' :: rest => some ([entry], rest)
        | ',' :: rest =>
            (inlineEntries? value rounds rest).map fun (entries, rest) => (entry :: entries, rest)
        | _ => none

def inlineTable? (value : Reader Item) : Reader Item := fun cs =>
  match skipSpaces cs with
  | '\x7d' :: rest => some (.inline [], rest)
  | cs =>
      (inlineEntries? value (cs.length + 1) cs).bind fun (entries, rest) =>
        (fillAll entries []).map fun table => (.inline table, rest)

def plain? : Reader Item := fun cs =>
  match cs with
  | '"' :: _ | '\x27' :: _ => (string? cs).map fun (s, rest) => (.string (String.ofList s), rest)
  | cs => scalar? cs

/-- A value with at most the given depth of arrays and inline tables. -/
def value? : Nat → Reader Item
  | 0, cs => plain? cs
  | depth + 1, cs =>
      match cs with
      | '[' :: rest =>
          (items? (value? depth) (rest.length + 1) rest).map fun (items, rest) =>
            (.array items, rest)
      | '\x7b' :: rest => inlineTable? (value? depth) rest
      | cs => plain? cs

/-! ## Documents -/

inductive Line where
  | assignment (a : Assignment)
  | header (repeated : Bool) (path : List String) (key : String)

def header? (cs : List Char) : Option (Line × List Char) :=
  match cs with
  | '[' :: rest =>
      (key? maxDepth rest).bind fun ((path, key), rest) =>
        match rest with
        | ']' :: ']' :: rest => some (.header true path key, rest)
        | _ => none
  | cs =>
      (key? maxDepth cs).bind fun ((path, key), rest) =>
        match rest with
        | ']' :: rest => some (.header false path key, rest)
        | _ => none

/-- An assignment or a header with nothing but blanks and a comment behind it. -/
def line? (cs : List Char) : Option (Line × List Char) :=
  (match cs with
    | '[' :: rest => header? rest
    | cs => (assignment? (value? maxDepth) cs).map fun (a, rest) => (.assignment a, rest)).bind
    fun (line, rest) => (lineEnd? rest).map fun rest => (line, rest)

/-- The lines of a document without those that are empty.  Every round reads at least one
character. -/
def lines? : Nat → List Char → Option (List Line)
  | 0, _ => none
  | rounds + 1, cs =>
      match skipSpaces cs with
      | [] => some []
      | '#' :: rest => (lineEnd? ('#' :: rest)).bind (lines? rounds)
      | '\n' :: rest => lines? rounds rest
      | '\r' :: rest => (newline? ('\r' :: rest)).bind (lines? rounds)
      | cs =>
          (line? cs).bind fun (line, rest) => (lines? rounds rest).map (line :: ·)

/-- Every header takes the assignments up to the next one. -/
def outline : List Line → Outline
  | [] => ⟨[], []⟩
  | .assignment a :: rest =>
      let o := outline rest
      { o with top := a :: o.top }
  | .header repeated path key :: rest =>
      let o := outline rest
      ⟨[], ⟨repeated, path, key, o.top⟩ :: o.sections⟩

/-- The entries of a document; a byte order mark before it is passed over. -/
def read? (text : String) : Option Entries :=
  let cs :=
    match text.toList with
    | '\ufeff' :: rest => rest
    | cs => cs
  (lines? (cs.length + 1) cs).bind fun lines => (outline lines).document

end Toml
end Rollup
