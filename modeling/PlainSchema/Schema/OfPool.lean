import PlainSchema.Schema.Basic

/-!
# The source schema of a pool

Fields come in ascending order of their numbers and enum values too; options count only when
the pool declares the extension that carries them.  The first name of an enum number is its
main one and is listed behind the others.
-/

namespace PlainSchema

open Proto

/-- Which option extensions a pool declares. -/
structure OptionExtensions where
  file : Bool
  message : Bool
  field : Bool
  oneof : Bool
  deriving DecidableEq, Repr

/-- The option extensions of a pool. -/
def OptionExtensions.ofPool (pool : Pool) : OptionExtensions where
  file := (pool.extension? "plain.file").isSome
  message := (pool.extension? "plain.message").isSome
  field := (pool.extension? "plain.field").isSome
  oneof := (pool.extension? "plain.oneof").isSome

/-- The cardinality of a linked field.  Only explicit presence outside oneofs counts as
optional. -/
def Field.cardinality (field : Field) : Cardinality :=
  match field.label with
  | .repeated => .repeated
  | .required => .required
  | .optional =>
    let explicit := field.tracksPresence && field.oneof.isNone
      && (field.type.kind.isScalar || field.type.kind == .enum)
    if field.proto3Optional || explicit then .optional else .singular

/-- The source field of a linked field. -/
def SourceField.ofField (pool : Pool) (known : OptionExtensions) (field : Field) :
    SourceField where
  name := field.name
  number := field.number
  kind := field.type.kind
  cardinality := field.cardinality
  typeRef := field.type.typeName?.map ("." ++ ·)
  oneofIndex := field.oneof
  proto3Optional := field.proto3Optional
  isMap := pool.isMap field
  options := if known.field then field.options else {}

/-- The source oneof of a linked oneof of a message. -/
def SourceOneof.ofOneof (known : OptionExtensions) (type : MessageType) (oneof : Oneof) :
    SourceOneof where
  name := oneof.name
  members := oneof.members
  synthetic := oneof.members.all fun name => ((type.field? name).map (·.proto3Optional)).getD false
  options := if known.oneof then oneof.options else {}

/-- The source message of a linked message. -/
def SourceMessage.ofType (pool : Pool) (known : OptionExtensions) (type : MessageType) :
    SourceMessage where
  fullName := "." ++ type.fullName
  name := type.name
  file := type.file
  parent := type.parent.map ("." ++ ·)
  fields := type.fields.map (SourceField.ofField pool known)
  nested := type.nested.map ("." ++ ·)
  oneofs := type.oneofs.map (SourceOneof.ofOneof known type)
  isMapEntry := type.isMapEntry
  options := if known.message then type.options else {}

/-- Enum values in ascending order with one more.  Of the values of one number, the one that was
inserted first stays behind the others. -/
def insertEnumValue (value : String × Int) : List (String × Int) → List (String × Int)
  | [] => [value]
  | v :: vs =>
    let lastOfNumber := v.2 == value.2 && vs.head?.all (·.2 != value.2)
    if value.2 < v.2 || lastOfNumber then value :: v :: vs else v :: insertEnumValue value vs

/-- The source enum of a linked enum. -/
def SourceEnum.ofType (type : EnumType) : SourceEnum where
  fullName := "." ++ type.fullName
  values := type.values.foldl (fun values value => insertEnumValue value values) []

/-- The source file of a declared file. -/
def SourceFile.ofDecl (pool : Pool) (known : OptionExtensions) (file : FileDecl) :
    SourceFile where
  name := file.name
  package := file.package
  messages := (pool.messages.filter (·.file == file.name)).map ("." ++ ·.fullName)
  options := if known.file then file.options else {}

/-- The source schema of a pool. -/
def Schema.ofPool (pool : Pool) (filesToGenerate : List String) : Schema :=
  let known := OptionExtensions.ofPool pool
  { files := pool.files.map (SourceFile.ofDecl pool known)
    messages := pool.messages.map (SourceMessage.ofType pool known)
    enums := pool.enums.map SourceEnum.ofType
    filesToGenerate }

end PlainSchema
