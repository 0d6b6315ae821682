import Rollup.Table.Group

/-
Group keys as the keys of an index.

An index finds a key by the hash of its contents, which are the same for equal keys.
-/

namespace Rollup

namespace Value.Content

/-- A number for the family, then one for what the content holds. -/
def hash : Content → UInt64
  | .boolean b => mixHash 0 (Hashable.hash b)
  | .integer i => mixHash 1 (Hashable.hash i)
  | .float x => mixHash 2 (Hashable.hash x.word)
  | .double x => mixHash 3 (Hashable.hash x.word)
  | .string s => mixHash 4 (Hashable.hash s)
  | .binary bytes => mixHash 5 (Hashable.hash bytes)
  | .decimal unscaled scale => mixHash 6 (Hashable.hash (unscaled, scale))
  | .date d => mixHash 7 (Hashable.hash d.day)
  | .timestamp t => mixHash 8 (Hashable.hash (t.date.day, t.second, t.nanos))

instance : Hashable Content := ⟨hash⟩

end Value.Content

def contents (key : List Cell) : List (Option Value.Content) := key.map (Option.map Value.content)

structure GroupKey where
  cells : List Cell

namespace GroupKey

instance : BEq GroupKey := ⟨fun a b => keysEqual a.cells b.cells⟩

instance : Hashable GroupKey := ⟨fun key => hash (contents key.cells)⟩

end GroupKey
end Rollup
