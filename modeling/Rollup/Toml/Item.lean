import Rollup.Binary.Basic

/-
The content of a TOML document, and the rules by which its parts come together.

A document is a tree of tables.  A table can be spelled out only once: by one header, by
dotted keys below one header, or as one inline value.  What brought a table about is kept,
since it decides who may still add to it.
-/

namespace Rollup
namespace Toml

inductive Origin where
  /-- Named by a header of its own, or the document itself. -/
  | header
  /-- Named only as part of longer headers. -/
  | implied
  /-- Named by a dotted key. -/
  | dotted
deriving DecidableEq

inductive Item where
  | string (s : String)
  | integer (i : Int)
  | float (x : Double)
  | boolean (b : Bool)
  /-- A date, a time of day or both. -/
  | moment
  | array (items : List Item)
  | inline (entries : List (String × Item))
  | table (origin : Origin) (entries : List (String × Item))
  /-- Tables under a repeated header, the last one apart. -/
  | tables (earlier : List (List (String × Item))) (last : List (String × Item))

abbrev Entries := List (String × Item)

namespace Entries

def find? : Entries → String → Option Item
  | [], _ => none
  | (k, v) :: rest, key => if k == key then some v else find? rest key

/-- Gives a key a new value in its place, or a place at the end if it has none. -/
def put : Entries → String → Item → Entries
  | [], key, item => [(key, item)]
  | (k, v) :: rest, key, item => if k == key then (k, item) :: rest else (k, v) :: put rest key item

/-- Changes the table at the end of a path, making the tables on the way that are missing.
A path of a dotted key may not enter a table that has a header of its own, and no path
enters an inline table. -/
def within (byDots : Bool) (change : Origin → Entries → Option Entries) :
    List String → Origin → Entries → Option Entries
  | [], origin, entries => change origin entries
  | key :: path, _, entries =>
      match find? entries key with
      | none =>
          let origin := if byDots then .dotted else .implied
          (within byDots change path origin []).map fun sub => put entries key (.table origin sub)
      | some (.table origin sub) =>
          if byDots && origin == .header then none
          else
            (within byDots change path origin sub).map fun sub =>
              put entries key (.table origin sub)
      | some (.tables earlier last) =>
          (within byDots change path .header last).map fun last =>
            put entries key (.tables earlier last)
      | some _ => none

/-- Adds a value that no table has yet.  A key without dots goes into a table that dots did
not make, a key with dots into one that they did. -/
def assign (path : List String) (key : String) (item : Item) (entries : Entries) :
    Option Entries :=
  within true
    (fun origin sub =>
      if (origin == .dotted) == path.isEmpty || (find? sub key).isSome then none
      else some (put sub key item))
    path .header entries

/-- The table under a header, filled by `fill`.  Only a table named in passing may have
been there before. -/
def define (path : List String) (key : String) (fill : Entries → Option Entries)
    (entries : Entries) : Option Entries :=
  within false
    (fun _ sub =>
      match find? sub key with
      | none => (fill []).map fun t => put sub key (.table .header t)
      | some (.table .implied old) => (fill old).map fun t => put sub key (.table .header t)
      | some _ => none)
    path .header entries

/-- One more table under a repeated header. -/
def append (path : List String) (key : String) (fill : Entries → Option Entries)
    (entries : Entries) : Option Entries :=
  within false
    (fun _ sub =>
      match find? sub key with
      | none => (fill []).map fun t => put sub key (.tables [] t)
      | some (.tables earlier last) =>
          (fill []).map fun t => put sub key (.tables (earlier ++ [last]) t)
      | some _ => none)
    path .header entries

end Entries

/-! ## Documents from statements -/

structure Assignment where
  path : List String
  key : String
  item : Item

def fillAll : List Assignment → Entries → Option Entries
  | [], entries => some entries
  | a :: rest, entries => (entries.assign a.path a.key a.item).bind (fillAll rest)

/-- A header with the assignments below it. -/
structure Section where
  repeated : Bool
  path : List String
  key : String
  assignments : List Assignment

def addSections : List Section → Entries → Option Entries
  | [], entries => some entries
  | s :: rest, entries =>
      let fill := fillAll s.assignments
      (if s.repeated then entries.append s.path s.key fill
        else entries.define s.path s.key fill).bind (addSections rest)

/-- Assignments before the first header, then the sections. -/
structure Outline where
  top : List Assignment
  sections : List Section

def Outline.document (o : Outline) : Option Entries :=
  (fillAll o.top []).bind (addSections o.sections)

end Toml
end Rollup
