import Rollup.Text.Blank
import Rollup.Toml.Reader

/-
Settings, as a TOML document gives them.

Settings that are left out have defaults and names that are not known are passed over, but
a known setting must have a value of its kind.
-/

namespace Rollup

structure Settings where
  logLevel : String := "info"
  /-- A filter that stands in for the level where it is not blank. -/
  logFilter? : Option String := none
  nativeEnabled : Bool := false
  initialCapacity : Nat := 1024

namespace Settings

/-- The filter that is in force. -/
def effectiveFilter (s : Settings) : String :=
  match s.logFilter?.map Text.trim with
  | some filter => if filter.isEmpty then s.logLevel else filter
  | none => s.logLevel

/-! ## Decoding -/

def text? : Toml.Item → Option String
  | .string s => some s
  | _ => none

def flag? : Toml.Item → Option Bool
  | .boolean b => some b
  | _ => none

def count? : Toml.Item → Option Nat
  | .integer (.ofNat n) => some n
  | _ => none

/-- A setting that may be left out but not be of another kind. -/
def orDefault {α : Type} (value? : Toml.Item → Option α) (default : α) :
    Option Toml.Item → Option α
  | none => some default
  | some item => value? item

/-- The enabling flag and the initial capacity. -/
def pair? (flag capacity : Option Toml.Item) : Option (Bool × Nat) :=
  let defaults : Settings := {}
  (orDefault flag? defaults.nativeEnabled flag).bind fun enabled =>
    (orDefault count? defaults.initialCapacity capacity).map fun n => (enabled, n)

/-- The settings of aggregation, by name in a table or in order in an array.  A date counts
as a table without any of the names. -/
def aggregation? : Option Toml.Item → Option (Bool × Nat)
  | none | some .moment => pair? none none
  | some (.table _ entries) | some (.inline entries) =>
      pair? (Toml.Entries.find? entries "native_agg_function_enabled")
        (Toml.Entries.find? entries "group_table_initial_capacity")
  | some (.array items) => pair? items[0]? items[1]?
  | some _ => none

def ofEntries? (entries : Toml.Entries) : Option Settings :=
  let defaults : Settings := {}
  (orDefault text? defaults.logLevel (entries.find? "log_level")).bind fun level =>
    (orDefault (fun item => (text? item).map some) none (entries.find? "log_filter")).bind
      fun filter =>
        (aggregation? (entries.find? "agg")).map fun (enabled, capacity) =>
          { logLevel := level, logFilter? := filter, nativeEnabled := enabled,
            initialCapacity := capacity }

end Settings

/-! ## Sources -/

inductive SettingsFault where
  /-- The text is no document, or a setting has a value of the wrong kind. -/
  | document
  | zeroCapacity
  | unreadable (path : String)
  | invalid (path : String)
  | missing

def SettingsFault.message : SettingsFault → String
  | .document => "invalid settings document"
  | .zeroCapacity => "agg.group_table_initial_capacity must be positive"
  | .unreadable path => "read config file: " ++ path
  | .invalid path => "parse toml: " ++ path
  | .missing => "missing config file: set $HIVEAGG_CONFIG or create ./hiveagg.toml"

namespace Settings

def ofText (text : String) : Except SettingsFault Settings :=
  match (Toml.read? text).bind ofEntries? with
  | none => .error .document
  | some s => if s.initialCapacity == 0 then .error .zeroCapacity else .ok s

/-- The settings in the contents of a file; without contents there is no such file. -/
def ofFile (path : String) (contents : Option ByteArray) : Except SettingsFault Settings :=
  match contents.bind String.fromUTF8? with
  | none => .error (.unreadable path)
  | some text =>
      match ofText text with
      | .ok s => .ok s
      | .error _ => .error (.invalid path)

/-- The file to read: the one an environment variable names, unless it is blank, or else
the default one if it exists. -/
def locate (named? : Option String) (hasDefault : Bool) : Except SettingsFault String :=
  match named?.map Text.trim with
  | some path =>
      if !path.isEmpty then .ok path
      else if hasDefault then .ok "hiveagg.toml" else .error .missing
  | none => if hasDefault then .ok "hiveagg.toml" else .error .missing

/-- Whether native aggregates are in use; they are not where settings cannot be had. -/
def nativeEnabledOf : Except SettingsFault Settings → Bool
  | .ok s => s.nativeEnabled
  | .error _ => false

end Settings
end Rollup
