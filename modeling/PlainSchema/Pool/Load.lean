import PlainSchema.Pool.Check
import PlainSchema.Pool.Types
import PlainSchema.Sorting

/-!
# Linking schema files

`Pool.load` checks a set of files, resolves their references and links their types.  The files
may come in any order.
-/

namespace PlainSchema

open Proto

/-! ## Linking declarations with resolved references -/

/-- The type of a field declaration. -/
def Proto.FieldDecl.type (field : FieldDecl) : FieldType :=
  let name := String.ofList ((field.typeRef.getD "").toList.drop 1)
  match field.kind with
  | .scalar type => .scalar type
  | .enum => .enum name
  | .message => .message name false
  | .group => .message name true

/-- Whether a field records that it was set. -/
def Proto.FieldDecl.tracksPresence (field : FieldDecl) (dialect : Dialect) : Bool :=
  field.proto3Optional || field.oneofIndex.isSome
    || (field.label != .repeated && (field.kind == .message || field.kind == .group
        || dialect == .proto2))

/-- A linked field of a message. -/
def linkField (dialect : Dialect) (scope : String) (field : FieldDecl) : Field where
  name := field.name
  fullName := qualify scope field.name
  jsonName := field.jsonNameOrDefault
  number := field.number.toNat
  type := field.type
  label := field.label
  oneof := field.oneofIndex.map Int.toNat
  proto3Optional := field.proto3Optional
  tracksPresence := field.tracksPresence dialect
  packed := field.label == .repeated && field.type.isPackable
    && field.packed.getD (dialect == .proto3)
  options := field.options

/-- The oneofs of a message with their members. -/
def linkOneofs (m : MessageDecl) : List Oneof :=
  m.oneofs.mapIdx fun i oneof =>
    { name := oneof.name
      members := (m.fields.filter (·.oneofIndex == some (Int.ofNat i))).map (·.name)
      options := oneof.options }

/-- A linked message of a file. -/
def linkMessage (file : FileDecl) (m : DeclaredMessage) : MessageType where
  fullName := m.fullName
  name := m.decl.name
  file := file.name
  parent := m.parent
  fields := sortBy (fun a b => a.number ≤ b.number)
    (m.decl.fields.map (linkField file.dialect m.fullName))
  nested := m.decl.messages.map (qualify m.fullName ·.name)
  oneofs := linkOneofs m.decl
  isMapEntry := m.decl.isMapEntry
  options := m.decl.options

/-- A linked extension of a scope.  It records that it was set unless it is a list. -/
def linkExtension (file : FileDecl) (scope : String) (field : FieldDecl) : Extension :=
  { extendee := String.ofList ((field.extendee.getD "").toList.drop 1)
    field := { linkField file.dialect scope field with
      tracksPresence := field.label != .repeated } }

/-- The linked types of a set of files whose references are resolved. -/
def Pool.link (files : List FileDecl) : Pool where
  files
  messages := files.flatMap fun file => file.declared.map (linkMessage file)
  enums := files.flatMap fun file =>
    file.enumDecls.map fun (fullName, e) => { fullName, values := e.values }
  extensions := files.flatMap fun file =>
    file.scopedExtensions.map fun (scope, field) => linkExtension file scope field

/-- Links a set of files, or says why they cannot be linked. -/
def Pool.load (files : List FileDecl) : Except PoolError Pool := do
  checkNames files
  files.forM checkFile
  let files ← resolveFiles files
  checkResolved files
  return Pool.link files

end PlainSchema
