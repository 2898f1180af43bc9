import PlainSchema.Text.Blank
import PlainSchema.Text.Quoted
import PlainSchema.Text.Words

/-!
# Settings of a derivation

The settings come as one parameter text, a comma-separated list of `key=value` pairs.  A later
pair overrides an earlier one; the first pair that is not understood is the error.
-/

namespace PlainSchema

/-- The layouts of Plain messages in JSON. -/
inductive JsonStyle where
  /-- Canonical names, 64-bit integers as strings. -/
  | protojson
  /-- Declared names, 64-bit integers as numbers. -/
  | jx
  deriving DecidableEq, Repr, Inhabited

namespace JsonStyle

/-- The word for a style. -/
def name : JsonStyle → String
  | protojson => "protojson"
  | jx => "jx"

/-- The style of a word in any letter case, or the text of the refusal. -/
def parse (word : String) : Except String JsonStyle :=
  match Text.lowerAscii word with
  | "protojson" | "proto" => .ok protojson
  | "jx" => .ok jx
  | _ => .error ("Unknown JSON style: " ++ word)

end JsonStyle

/-- The settings of a derivation. -/
structure Settings where
  /-- Appended to the names of Plain messages. -/
  suffix : String := "Plain"
  /-- Merge colliding fields instead of refusing them. -/
  enableCrf : Bool := false
  style : JsonStyle := .protojson
  deriving DecidableEq, Repr, Inhabited

/-- Why a parameter text is refused. -/
inductive SettingsError where
  | emptySuffix
  | notABoolean (key value : String)
  | unknownKey (key : String)
  deriving DecidableEq, Repr

/-- The message of a settings error. -/
def SettingsError.message : SettingsError → String
  | emptySuffix => "invalid parameter: plain_suffix must not be empty"
  | notABoolean key value =>
    "invalid parameter: " ++ key ++ " expects a boolean, got " ++ Text.quoted value
  | unknownKey key => "invalid parameter: unknown key " ++ Text.quoted key

namespace Settings

/-- The truth value of a setting; a key alone switches the setting on. -/
def parseBool (key : String) (value : Option String) : Except SettingsError Bool :=
  match value.map Text.trimBlank with
  | none | some "true" | some "1" => .ok true
  | some "false" | some "0" => .ok false
  | some other => .error (.notABoolean key other)

/-- The settings after one more pair. -/
def apply (settings : Settings) (pair : String) : Except SettingsError Settings := do
  let (key, value) :=
    match Text.splitOnce? pair '=' with
    | some (key, value) => (Text.trimBlank key, some value)
    | none => (pair, none)
  match key with
  | "plain_suffix" =>
    let suffix := (value.map Text.trimBlank).getD ""
    if suffix.isEmpty then .error .emptySuffix else .ok { settings with suffix }
  | "enable_crf" => return { settings with enableCrf := ← parseBool key value }
  | "json_jx" =>
    return { settings with style := if ← parseBool key value then .jx else .protojson }
  | _ => .error (.unknownKey key)

/-- The settings of a parameter text. -/
def parse (parameter : String) : Except SettingsError Settings :=
  let pairs := ((Text.split parameter ',').map Text.trimBlank).filter (!·.isEmpty)
  pairs.foldlM apply {}

end Settings

end PlainSchema
