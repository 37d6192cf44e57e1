import DataBinding.Error
import DataBinding.Json.Record
import DataBinding.Json.Reader
import DataBinding.Text.Alphanumeric
import DataBinding.Text.Blank

/-!
# Configuration

A binding system has a marker, the last character of the names of stream-typed properties, and a few switches. All of
them have defaults, so the empty record is a configuration.
-/

namespace DataBinding

structure Config where
  /-- The last character of a name whose property holds a stream. -/
  marker : Char := '$'
  /-- Observe only the last property of a chain of accesses. -/
  leafOnly : Bool := false
  /-- The number of entries from which a registry sweeps before it adds one. -/
  pruneThreshold : Nat := 64
  deriving DecidableEq

namespace Config

/-- A marker must not be a character of ordinary names and paths. -/
def isMarker (c : Char) : Bool := !(Text.isAlphanumeric c || Text.isBlank c || c == '.' || c == '_')

/-- Refuses values that no system can work with. -/
def validate (c : Config) : Except ConfigError Unit :=
  if !isMarker c.marker then .error (.marker c.marker)
  else if c.pruneThreshold = 0 then .error .pruneThreshold
  else .ok ()

def marker? : Json → Option Char
  | .string s =>
    match s.toList with
    | [c] => some c
    | _ => none
  | _ => none

def threshold? (default : Nat) (j : Json) : Option Nat :=
  match j.fields? ["prune_threshold"] with
  | some [threshold] => Json.orDefault default (Json.natBelow? UInt64.size) threshold
  | _ => none

/-- The configuration that a JSON record describes. -/
def ofJson? (j : Json) : Option Config :=
  let default : Config := {}
  match j.fields? ["stream_marker", "observe_leaf_properties_only", "registry"] with
  | some [marker, leafOnly, registry] => do
    let marker ← Json.orDefault default.marker marker? marker
    let leafOnly ← Json.orDefault default.leafOnly Json.bool? leafOnly
    let pruneThreshold ← Json.orDefault default.pruneThreshold (threshold? default.pruneThreshold) registry
    some { marker, leafOnly, pruneThreshold }
  | _ => none

/-- Reads and validates a configuration. -/
def parse (text : String) : Except ConfigError Config :=
  match (Json.parse? text).bind ofJson? with
  | none => .error .unparsable
  | some c => c.validate.map fun _ => c

def toJson (c : Config) : Json :=
  .object [("stream_marker", .string (String.ofList [c.marker])), ("observe_leaf_properties_only", .bool c.leafOnly),
    ("registry", .object [("prune_threshold", .nat c.pruneThreshold)])]

end Config

end DataBinding
