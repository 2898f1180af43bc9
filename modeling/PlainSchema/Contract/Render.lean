import PlainSchema.Contract.Basic
import PlainSchema.Contract.TypeReader
import PlainSchema.Text.Quoted

/-!
# Rendered contracts

A contract is published as a pair of traits, one on the source message and one on the Plain
message, each with a lenient and a strict method.  Signatures and bounds are laid out in lines.
-/

namespace PlainSchema.Contract

open Text

/-! ## Documentation lines -/

/-- The words for a conversion. -/
def Conversion.describe : Conversion → String
  | copy => "copy"
  | path => "field path"
  | merged crfField sources =>
    "merged from " ++ ", ".intercalate sources ++ ", path in `" ++ crfField ++ "`"
  | serialized => "serialized message"
  | typeAlias field => "type alias over `" ++ field ++ "`"
  | enumFormat .asString => "enum value name"
  | enumFormat .asInt => "enum value number"
  | virtualField => "virtual"
  | role (.dispatchTag oneof) => "dispatch tag of `" ++ oneof ++ "`"
  | role (.discriminator oneof) => "discriminator of `" ++ oneof ++ "`"
  | role (.payload oneof) => "payload of `" ++ oneof ++ "`"
  | role (.crfPath field) => "populated path of `" ++ field ++ "`"

/-- The documentation line of a field. -/
def FieldContract.docLine (field : FieldContract) : String :=
  "`" ++ field.name ++ "`: " ++ field.conversion.describe
    ++ (if 1 < field.path.length then " (`" ++ ".".intercalate field.path ++ "`)" else "")
    ++ (match field.caster with
      | some caster => ", cast to `" ++ caster.targetType ++ "`"
      | none => "")

/-- Whether the comments that a text opens and closes are balanced, so that it can stand in a
comment in brackets. -/
def isCommentable : Nat → List Char → Bool
  | level, [] => level == 0
  | _, ['/'] => false
  | level, '/' :: '*' :: cs => isCommentable (level + 1) cs
  | 0, '*' :: '/' :: _ => false
  | level + 1, '*' :: '/' :: cs => !cs.isEmpty && isCommentable level cs
  | level, _ :: cs => isCommentable level cs

/-- A text whose lines have no blanks at their ends, the last line excepted. -/
def trimLines (s : String) : String :=
  let trim (line : String) : String :=
    String.ofList (line.toList.reverse.dropWhile (· == ' ')).reverse
  let lines := split s '\n'
  "\n".intercalate (lines.dropLast.map trim ++ [lines.getLast?.getD ""])

/-- A text that documents what follows it: a comment to the end of the line, a comment in
brackets if it has more lines than one, or an attribute if it could not be told from the end of
such a comment. -/
def doc (text : String) : String :=
  if text.isEmpty then "///"
  else if !text.contains '\n' then "/// " ++ text
  else if isCommentable 0 text.toList then "/** " ++ trimLines text ++ "*/"
  else "#[doc = " ++ quoted (" " ++ text) ++ "]"

/-! ## Types -/

/-- A path of names without arguments. -/
def TypeExpr.named (names : List String) : TypeExpr :=
  .path (.plain false (names.map (Segment.mk · .absent)))

/-- A name applied to types. -/
def TypeExpr.applied (name : String) (types : List TypeExpr) : TypeExpr :=
  .path (.plain false [.mk name (.generic (types.map .type))])

/-- The type of a strict result. -/
def fallible (type : TypeExpr) : TypeExpr :=
  .applied "Result" [type, .named ["Self", "Error"]]

/-- The type of an optional member of the trait. -/
def optionalMember (name : String) : TypeExpr :=
  .applied "Option" [.named ["Self", name]]

/-- A type as the result of a function in a bound.  Of several bounds only the first belongs to
the result, and the others bound the function itself; so the first has to be a trait. -/
def TypeExpr.inResult : TypeExpr → Option (TypeExpr × List Bound)
  | .object true starred (bound :: bounds) =>
    if bound.isTrait then some (.object true starred [bound], bounds) else none
  | .anonymous (bound :: bounds) =>
    if bound.isTrait then some (.anonymous [bound], bounds) else none
  | .object false starred (.trait inParens (some binder) relaxed name :: bounds) =>
    let type := .object false starred [.trait false (some binder) relaxed name]
    some (if inParens then .parens type else type, bounds)
  | .object false _ (.trait true none false name :: bounds) =>
    some (.parens (.path name), bounds)
  | .object false _ (.trait false none false name :: bounds) => some (.path name, bounds)
  | type => some (type, [])

/-- The bounds of a function with one parameter. -/
def functionBounds? (argument result : TypeExpr) : Option (List Bound) := do
  let (result, bounds) ← result.inResult
  let name := TypePath.plain false [.mk "Fn" (.call [argument] (some result))]
  some (.trait false none false name :: bounds)

/-! ## Signatures -/

/-- A caster whose types have been read. -/
structure TypedCaster where
  param : String
  generic : String
  wire : TypeExpr
  target : TypeExpr

/-- A method of a contract. -/
structure Method where
  name : String
  returns : TypeExpr
  /-- The argument and the result of a caster. -/
  signature : TypedCaster → TypeExpr × TypeExpr

/-- The first lines of a method: the name, its type parameters, its parameters and its
result, with the semicolon that ends a method without bounds. -/
def Method.head (m : Method) (casters : List TypedCaster) : String :=
  let params := "this: Option<&Self>" :: casters.map fun c => c.param ++ ": " ++ c.generic
  let generics := casters.map (·.generic)
  Doc.layout 4 8
    (.text ("fn " ++ m.name)
      :: (if generics.isEmpty then []
        else .text "<" :: Doc.listed 0 (generics.map ([.text ·])) ++ [.text ">"])
      ++ .text "(" :: .gap { unbroken := true } :: Doc.listed 0 (params.map ([.text ·]))
      ++ .text ")" :: .box true (-4) (.text " -> " :: m.returns.doc)
      :: (if casters.isEmpty then [.text ";"] else []))

/-- The lines of the bounds of a type parameter. -/
def boundLines (generic : String) (bounds : List Bound) (ending : String) : String :=
  Doc.layout 8 8
    [.text (generic ++ ":"),
      .box false (if bounds.length = 1 then 0 else 4) (.text " " :: Doc.summed (boundDocs bounds)),
      .text ending]

/-- The lines of the bounds of casters, the last one ending with a semicolon. -/
def Method.boundsFrom (m : Method) : List TypedCaster → Option (List String)
  | [] => some []
  | c :: cs => do
    let (argument, result) := m.signature c
    let bounds ← functionBounds? argument result
    let rest ← m.boundsFrom cs
    some (boundLines c.generic bounds (if cs.isEmpty then ";" else ",") :: rest)

/-- The lines of a method. -/
def Method.lines (m : Method) (casters : List TypedCaster) : Option (List String) := do
  if casters.isEmpty then some [m.head casters]
  else some (m.head casters :: "    where" :: (← m.boundsFrom casters))

/-! ## Traits -/

/-- The documentation of both traits of a contract. -/
def MessageContract.summary (contract : MessageContract) : String :=
  "Conversion between `" ++ trimFront contract.source '.' ++ "` and `"
    ++ trimFront contract.plain '.' ++ "`."

/-- The name of the trait on the source message. -/
def MessageContract.plainTraitName (contract : MessageContract) : String :=
  upperCamel (lastName contract.source) ++ "IntoPlain"

/-- The name of the trait on the Plain message. -/
def MessageContract.sourceTraitName (contract : MessageContract) : String :=
  upperCamel (lastName contract.plain) ++ "IntoPb"

/-- A method with the text that documents it. -/
def documented (text : String) (m : Method) (casters : List TypedCaster) :
    Option (List String) := do
  some (("    " ++ doc text) :: (← m.lines casters))

/-- The trait that flattens source messages. -/
def plainTrait (contract : MessageContract) (casters : List TypedCaster) :
    Option (List String) := do
  let lenient ← documented "Flatten, omitting fields that cannot be converted"
    { name := "into_plain"
      returns := optionalMember "Plain"
      signature := fun c => (c.wire, c.target) } casters
  let strict ← documented "Flatten, stopping at the first error"
    { name := "try_into_plain"
      returns := fallible (optionalMember "Plain")
      signature := fun c => (c.wire, fallible c.target) } casters
  return [doc contract.summary, doc ""]
    ++ contract.fields.map (fun field => doc ("- " ++ field.docLine))
    ++ ["pub trait " ++ contract.plainTraitName ++ ": Sized \x7b",
      "    /// Flattened counterpart",
      "    type Plain;",
      "    /// Error returned by the fallible conversion",
      "    type Error;"]
    ++ lenient ++ strict ++ ["\x7d"]

/-- The name of a JSON style in generated code. -/
def styleName : JsonStyle → String
  | .protojson => "Protojson"
  | .jx => "Jx"

/-- The trait that restores source messages. -/
def sourceTrait (contract : MessageContract) (casters : List TypedCaster) :
    Option (List String) := do
  let style := "plain_runtime::JsonStyle"
  let lenient ← documented
    "Restore the original message, omitting fields that cannot be converted"
    { name := "into_pb"
      returns := optionalMember "Pb"
      signature := fun c => (c.target, c.wire) } casters
  let strict ← documented "Restore the original message, stopping at the first error"
    { name := "try_into_pb"
      returns := fallible (optionalMember "Pb")
      signature := fun c => (c.target, fallible c.wire) } casters
  return [doc contract.summary,
      "pub trait " ++ contract.sourceTraitName ++ ": Sized \x7b",
      "    /// Original message",
      "    type Pb;",
      "    /// Error returned by the fallible conversion",
      "    type Error;",
      "    /// JSON layout of this message",
      "    const JSON_STYLE: " ++ style ++ " = " ++ style ++ "::" ++ styleName contract.style
        ++ ";"]
    ++ lenient ++ strict ++ ["\x7d"]

/-! ## Files -/

/-- Why a contract cannot be rendered. -/
inductive RenderError where
  /-- The name of a trait, a parameter or a type parameter is no word. -/
  | invalidName (name : String)
  /-- A type is not a type expression. -/
  | invalidType (type : String)
  /-- A type cannot stand where a signature needs it. -/
  | misplacedType
  deriving DecidableEq, Repr

/-- The message of a render error. -/
def RenderError.message : RenderError → String
  | invalidName name => quoted name ++ " is not a valid Ident"
  | invalidType type => "Invalid type " ++ quoted type ++ " in contract:"
  | misplacedType => "Failed to parse generated code:"

/-- The type that a text writes. -/
def readTypeText (type : String) : Except RenderError TypeExpr :=
  match TypeExpr.parse? type with
  | some expr => .ok expr
  | none => .error (.invalidType type)

/-- A name stands in generated code only if it is a word, be it a keyword or not. -/
def checkName (name : String) : Except RenderError Unit :=
  if isWord name then .ok () else .error (.invalidName name)

/-- A caster with its types read. -/
def Caster.typed (caster : Caster) : Except RenderError TypedCaster := do
  checkName caster.generic
  checkName caster.param
  return {
    param := caster.param
    generic := caster.generic
    wire := ← readTypeText caster.wireType
    target := ← readTypeText caster.targetType }

/-- The casters of a contract with their types read.  The names of the traits are formed first. -/
def MessageContract.typedCasters (contract : MessageContract) :
    Except RenderError (List TypedCaster) := do
  checkName contract.plainTraitName
  checkName contract.sourceTraitName
  contract.casters.mapM Caster.typed

/-- The lines of the two traits of a contract. -/
def MessageContract.render (contract : MessageContract) (casters : List TypedCaster) :
    Option (List String) := do
  some ((← plainTrait contract casters) ++ (← sourceTrait contract casters))

/-- The text of the contracts of a file.  The types of all contracts are read first. -/
def renderFile (contracts : List MessageContract) : Except RenderError String := do
  let typed ← contracts.mapM fun contract => do
    return (contract, ← contract.typedCasters)
  match typed.mapM fun (contract, casters) => contract.render casters with
  | none => .error .misplacedType
  | some traits =>
    let lines := "//! Conversion contracts generated by protoc-gen-plain." :: traits.flatten
    return String.join (lines.map (· ++ "\n"))

end PlainSchema.Contract
