import PlainSchema.Pool.Types
import PlainSchema.Text.Split
import PlainSchema.Text.Quoted

/-!
# Enum discriminators

A discriminated oneof is carried as a tag that names an enum value in full, such as
`pkg.Kind.KIND_CARD`, and a payload.  The tag is a text without leading dots.
-/

namespace PlainSchema

/-- A fully qualified enum value name. -/
structure Discriminator where
  text : String
  deriving DecidableEq, Repr, Inhabited

/-- Why a discriminator names no enum value. -/
inductive DiscriminatorError where
  /-- The text is not an enum name, a dot and a value name. -/
  | malformed (text : String)
  /-- The enum or the value does not exist. -/
  | unknown (text : String)
  deriving DecidableEq, Repr

/-- The message of a discriminator error. -/
def DiscriminatorError.message : DiscriminatorError → String
  | malformed text => "malformed enum discriminator: " ++ Text.quoted text
  | unknown text => "unknown enum discriminator: " ++ text

namespace Discriminator

/-- The discriminator of a name; leading dots are dropped. -/
def ofName (name : String) : Discriminator :=
  ⟨Text.trimFront name '.'⟩

/-- The discriminator of a value of an enum. -/
def ofValue (type : EnumType) (value : String) : Discriminator :=
  ⟨type.fullName ++ "." ++ value⟩

/-- Whether no value is named. -/
def isEmpty (d : Discriminator) : Bool :=
  d.text.isEmpty

/-- The names of the enum and of the value. -/
def parts (d : Discriminator) : Except DiscriminatorError (String × String) :=
  match Text.splitLast? d.text '.' with
  | some (enumName, value) =>
    if enumName.isEmpty || value.isEmpty then .error (.malformed d.text)
    else .ok (enumName, value)
  | none => .error (.malformed d.text)

/-- The enum, and the name and number of the value that the discriminator names. -/
def resolve (pool : Pool) (d : Discriminator) :
    Except DiscriminatorError (EnumType × String × Int) := do
  let (enumName, value) ← d.parts
  match pool.enum? enumName with
  | none => .error (.unknown d.text)
  | some type =>
    match type.number? value with
    | none => .error (.unknown d.text)
    | some number => .ok (type, value, number)

/-- Whether the discriminator names the same value as a text, leading dots aside. -/
def names (d : Discriminator) (other : String) : Bool :=
  d.text == Text.trimFront other '.'

end Discriminator

end PlainSchema
