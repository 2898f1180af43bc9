import PlainSchema.Crf.Escape
import PlainSchema.Text.Split

/-!
# Collision resolution paths

A merged Plain field has a companion string that records which source path its value came
from: field names joined by `/`.  A segment may carry markers after a `?`, written
`key=value` and joined by `;`.

`Path.parse` reads any text, skipping empty segments; `Path.render` writes a path, and
`fieldNamesOf` reads the names alone.
-/

namespace PlainSchema.Crf

/-- One field name of a path, with its markers in the order they were attached. -/
structure Segment where
  /-- The field name. -/
  name : String
  /-- Keys and values; a key may repeat. -/
  markers : List (String × String) := []
  deriving DecidableEq, Repr, Inhabited

namespace Segment

/-- The segment with one more marker. -/
def withMarker (s : Segment) (key value : String) : Segment :=
  { s with markers := s.markers ++ [(key, value)] }

/-- The value of the first marker with the key. -/
def marker? (s : Segment) (key : String) : Option String :=
  s.markers.lookup key

/-- A marker from its text; one without `=` has an empty value. -/
def parseMarker (pair : List Char) : String × String :=
  let (key, value) := (Text.cutFirst? '=' pair).getD (pair, [])
  (unescape (String.ofList key), unescape (String.ofList value))

/-- A segment from its text.  Empty markers are skipped. -/
def parse (raw : List Char) : Segment :=
  match Text.cutFirst? '?' raw with
  | none => { name := unescape (String.ofList raw) }
  | some (name, markers) =>
    { name := unescape (String.ofList name)
      markers := ((Text.splitAll ';' markers).filter (!·.isEmpty)).map parseMarker }

/-- A marker as it is written, after its separator. -/
def renderMarker (marker : String × String) : String :=
  escape marker.1 ++ "=" ++ escape marker.2

/-- The segment as it is written. -/
def render (s : Segment) : String :=
  match s.markers with
  | [] => escape s.name
  | first :: rest =>
    escape s.name ++ "?" ++ renderMarker first
      ++ String.join (rest.map fun m => ";" ++ renderMarker m)

end Segment

/-- A collision resolution path. -/
structure Path where
  /-- The segments from the message root to the value. -/
  segments : List Segment := []
  deriving DecidableEq, Repr, Inhabited

namespace Path

/-- The path of field names without markers. -/
def ofNames (names : List String) : Path :=
  ⟨names.map fun name => { name }⟩

/-- The field names of the path. -/
def fieldNames (p : Path) : List String :=
  p.segments.map (·.name)

/-- Whether the path has no segment. -/
def isEmpty (p : Path) : Bool :=
  p.segments.isEmpty

/-- The path as it is written. -/
def render (p : Path) : String :=
  "/".intercalate (p.segments.map Segment.render)

/-- A path from its text.  Segments without a name are skipped. -/
def parse (s : String) : Path :=
  ⟨(((Text.splitAll '/' s.toList).filter (!·.isEmpty)).map Segment.parse).filter
    fun segment => !segment.name.isEmpty⟩

end Path

/-- The field names in the text of a path: markers are dropped and empty segments skipped. -/
def fieldNamesOf (s : String) : List String :=
  (Text.splitAll '/' s.toList).filterMap fun raw =>
    let name := ((Text.cutFirst? '?' raw).map (·.1)).getD raw
    if name.isEmpty then none else some (unescape (String.ofList name))

end PlainSchema.Crf
