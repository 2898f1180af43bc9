import PlainSchema.Schema.Basic
import PlainSchema.Text.Words

/-!
# Strategies for oneofs

Every oneof of a generated message is copied through or dissolved in one of three ways.  The
options decide: dispatch by an enum goes before embedding, embedding before a discriminator.
-/

namespace PlainSchema

/-- How a Plain message represents a oneof. -/
inductive Strategy where
  /-- The members are inlined; the values tell which one is populated. -/
  | embedOnly
  /-- The members are inlined, and an enum field names the populated one. -/
  | enumDispatch
  /-- A text names the populated member, and an opaque payload holds it. -/
  | discriminatorOnly
  /-- The oneof is copied. -/
  | untouched
  deriving DecidableEq, Repr, Inhabited

namespace Strategy

/-- The word for a strategy. -/
def name : Strategy → String
  | embedOnly => "embed_only"
  | enumDispatch => "enum_dispatch"
  | discriminatorOnly => "discriminator_only"
  | untouched => "untouched"

/-- The strategy of a word in any letter case, or the text of the refusal. -/
def parse (word : String) : Except String Strategy :=
  match Text.lowerAscii word with
  | "embed" | "embed_only" => .ok embedOnly
  | "enum_dispatch" | "dispatch" => .ok enumDispatch
  | "discriminator" | "discriminator_only" => .ok discriminatorOnly
  | "untouched" | "none" => .ok untouched
  | _ => .error ("Unknown oneof strategy: " ++ word)

/-- Whether the oneof is absent from the Plain message. -/
def flattens (strategy : Strategy) : Bool :=
  strategy != untouched

end Strategy

/-- Whether enum values select the member. -/
def SourceField.isTagged (field : SourceField) : Bool :=
  !field.options.withEnums.isEmpty

/-- The strategy for the oneof at an index. -/
def SourceMessage.strategy (m : SourceMessage) (index : Nat) : Strategy :=
  match m.oneof? index with
  | none => .untouched
  | some oneof =>
    if oneof.synthetic then .untouched
    else if oneof.options.dispatches then .enumDispatch
    else if oneof.options.embeds then .embedOnly
    else if (m.oneofFields index).any (·.isTagged) then .discriminatorOnly
    else .untouched

end PlainSchema
