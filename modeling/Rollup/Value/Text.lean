import Rollup.Binary.Layout
import Rollup.Text.Quoted
import Rollup.Value.Basic

/-
Texts of values: as they appear in result rows, and as they appear in diagnostics.
-/

namespace Rollup
namespace Value

def joined (parts : List String) : String := ", ".intercalate parts

/-- A byte as the signed integer of the same bits. -/
def signedByte (b : UInt8) : Int := if b.toNat < 128 then b.toNat else (b.toNat : Int) - 256

def render : Value → String
  | .boolean true => "true"
  | .boolean false => "false"
  | .integer i => String.ofList (Text.ofInt i.toInt)
  | .float x => x.render .result
  | .double x => x.render .result
  | .string s => s
  | .binary bytes =>
      "[" ++ joined (bytes.map fun b => String.ofList (Text.ofInt (signedByte b))) ++ "]"
  | .decimal d => d.render
  | .date d => d.render
  | .timestamp t => t.render

/-- The family and all parts of a value, for messages about states. -/
def diagnose : Value → String
  | .boolean true => "Bool(true)"
  | .boolean false => "Bool(false)"
  | .integer i => s!"Int64({i.toInt})"
  | .float x => "Float32(" ++ x.render .diagnostic ++ ")"
  | .double x => "Float64(" ++ x.render .diagnostic ++ ")"
  | .string s => "Utf8(" ++ Text.quoted s ++ ")"
  | .binary bytes => "Binary([" ++ joined (bytes.map fun b => s!"{b.toNat}") ++ "])"
  | .decimal d =>
      s!"Decimal128 \x7b value: {d.unscaled.toInt}, precision: {d.precision}, scale: {d.scale} \x7d"
  | .date d => "Date(" ++ d.render ++ ")"
  | .timestamp t => "Timestamp(" ++ t.fullText 'T' ++ ")"

end Value
end Rollup
