import PlainSchema.Plan.Build
import PlainSchema.Proto.Declaration
import PlainSchema.Sorting

/-!
# Deriving Plain schema files

`SchemaPlan.derive` applies a plan to schema files: generated messages are replaced in place by
their Plain messages, and every type reference of every file is moved to its new name.
Everything else stays as it was declared.
-/

namespace PlainSchema

open Proto

/-- The full name of a package as a scope, with its leading dot. -/
def packageScope (package : String) : String :=
  if package.isEmpty then "" else "." ++ package

/-! ## Fields -/

/-- The declaration of a Plain field. -/
def FieldShape.declare (dialect : Dialect) (shape : FieldShape) : FieldDecl where
  name := shape.name
  number := shape.number
  kind := shape.kind
  label := shape.cardinality.label
  typeRef := shape.typeRef
  oneofIndex := shape.oneofIndex.map Int.ofNat
  proto3Optional := dialect == .proto3 && shape.proto3Optional && shape.oneofIndex.isNone

/-- A field declaration with its references renamed. -/
def Renames.retargetField (renames : Renames) (field : FieldDecl) : FieldDecl :=
  { field with
    typeRef := field.typeRef.map renames.rename
    extendee := field.extendee.map renames.rename }

/-! ## Map entries -/

mutual

/-- The map entries declared by a message of a scope, by their new full names. -/
def entriesOf (renames : Renames) (scope : String) : MessageDecl → List (String × MessageDecl)
  | decl@{ name, messages, isMapEntry, .. } =>
    let fullName := scope ++ "." ++ name
    (if isMapEntry then [(renames.rename fullName, decl)] else [])
      ++ entriesOfAll renames fullName messages

/-- The map entries declared by messages of a scope. -/
def entriesOfAll (renames : Renames) (scope : String) :
    List MessageDecl → List (String × MessageDecl)
  | [] => []
  | m :: ms => entriesOf renames scope m ++ entriesOfAll renames scope ms

end

/-- The map entries of a set of files, by their new full names. -/
def fileEntries (renames : Renames) (files : List FileDecl) : List (String × MessageDecl) :=
  files.flatMap fun file => entriesOfAll renames (packageScope file.package) file.messages

/-- The map entry with a new full name; of two with one name the last one counts. -/
def entryNamed? (entries : List (String × MessageDecl)) (name : String) : Option MessageDecl :=
  (entries.reverse.find? (·.1 == name)).map (·.2)

/-- The name of the entry message of a map field. -/
def entryName (field : String) : String :=
  Text.upperCamel field ++ "Entry"

/-- The entry type of a map field of a Plain message, with the nested messages.  An entry that
is declared elsewhere is copied into the Plain message. -/
def placeEntry (entries : List (String × MessageDecl)) (newFullName : String)
    (nested : List MessageDecl) (shape : FieldShape) : Option String × List MessageDecl :=
  let type := shape.typeRef.getD ""
  let name := entryName shape.name
  let placed := newFullName ++ "." ++ name
  if type = placed then (some type, nested)
  else
    match entryNamed? entries type with
    | none => (some type, nested)
    | some entry =>
      (some placed,
        if nested.any (·.name == name) then nested else nested ++ [{ entry with name }])

/-- The declarations of the Plain fields, with the nested messages. -/
def declareFields (dialect : Dialect) (entries : List (String × MessageDecl))
    (newFullName : String) : List MessageDecl → List FieldShape →
    List FieldDecl × List MessageDecl
  | nested, [] => ([], nested)
  | nested, shape :: shapes =>
    let field := shape.declare dialect
    let (typeRef, nested) :=
      if shape.isMap then placeEntry entries newFullName nested shape else (field.typeRef, nested)
    let (fields, nested) := declareFields dialect entries newFullName nested shapes
    ({ field with typeRef } :: fields, nested)

/-! ## Oneofs -/

/-- The names of the copied oneofs, by their positions. -/
def keptOneofs (plan : MessagePlan) : List String :=
  let kept := plan.oneofs.filterMap fun oneof => oneof.newIndex.map (·, oneof.name)
  (sortBy (fun a b => a.1 < b.1 || a.1 == b.1 && !(b.2 < a.2)) kept).map (·.2)

/-- A name with as many leading `X` as keep it apart from the names in use. -/
def freshOneof (used : List String) (name : String) : String :=
  let candidates := (List.range (used.length + 1)).map fun n =>
    String.ofList (List.replicate n 'X') ++ name
  (candidates.find? fun candidate => !used.contains candidate).getD name

/-- Fields with a oneof of its own for each one that is optional, and the names of all oneofs. -/
def placeOptionals : List String → List FieldDecl → List FieldDecl × List String
  | oneofs, [] => ([], oneofs)
  | oneofs, field :: fields =>
    if field.proto3Optional then
      let oneof := freshOneof oneofs ("_" ++ field.name)
      let (rest, all) := placeOptionals (oneofs ++ [oneof]) fields
      ({ field with oneofIndex := some (Int.ofNat oneofs.length) } :: rest, all)
    else
      let (rest, all) := placeOptionals oneofs fields
      (field :: rest, all)

/-! ## Messages -/

/-- The declaration of a generated enum. -/
def GeneratedEnum.declare (e : GeneratedEnum) : EnumDecl :=
  { name := e.name, values := e.values }

/-- The declaration of a virtual type. -/
def VirtualTypePlan.declare (dialect : Dialect) (type : VirtualTypePlan) : MessageDecl :=
  { name := type.name, fields := type.fields.map (·.declare dialect) }

/-- The Plain message that replaces a message with a plan. -/
def MessagePlan.declare (plan : MessagePlan) (dialect : Dialect)
    (entries : List (String × MessageDecl)) (m : MessageDecl) : MessageDecl :=
  let (fields, nested) :=
    declareFields dialect entries plan.newFullName m.messages (plan.fields.map (·.shape))
  let (fields, oneofs) := placeOptionals (keptOneofs plan) fields
  { m with
    name := plan.newName
    fields
    oneofs := oneofs.map fun name => { name }
    messages := nested ++ plan.virtualTypes.map (·.declare dialect)
    enums := m.enums ++ plan.enums.map (·.declare)
    reserved := []
    reservedNames := []
    extensionRanges := [] }

mutual

/-- A message of a scope with the generated messages in it replaced, inner ones first. -/
def replaceMessage (plan : SchemaPlan) (dialect : Dialect)
    (entries : List (String × MessageDecl)) (scope : String) : MessageDecl → MessageDecl
  | decl@{ name, messages, .. } =>
    let fullName := scope ++ "." ++ name
    let m := { decl with messages := replaceMessages plan dialect entries fullName messages }
    match plan.message? fullName with
    | some p => if p.generate then p.declare dialect entries m else m
    | none => m

/-- The messages of a scope with the generated messages in them replaced. -/
def replaceMessages (plan : SchemaPlan) (dialect : Dialect)
    (entries : List (String × MessageDecl)) (scope : String) :
    List MessageDecl → List MessageDecl
  | [] => []
  | m :: ms =>
    replaceMessage plan dialect entries scope m :: replaceMessages plan dialect entries scope ms

end

mutual

/-- A message with all references in it renamed. -/
def retargetMessage (renames : Renames) : MessageDecl → MessageDecl
  | decl@{ fields, messages, extensions, .. } =>
    { decl with
      fields := fields.map renames.retargetField
      messages := retargetMessages renames messages
      extensions := extensions.map renames.retargetField }

/-- Messages with all references in them renamed. -/
def retargetMessages (renames : Renames) : List MessageDecl → List MessageDecl
  | [] => []
  | m :: ms => retargetMessage renames m :: retargetMessages renames ms

end

/-! ## Files -/

/-- A service with its references renamed. -/
def Renames.retargetService (renames : Renames) (service : ServiceDecl) : ServiceDecl :=
  { service with
    methods := service.methods.map fun m =>
      { m with input := renames.rename m.input, output := renames.rename m.output } }

/-- The Plain schema file of a schema file. -/
def SchemaPlan.deriveFile (plan : SchemaPlan) (entries : List (String × MessageDecl))
    (file : FileDecl) : FileDecl :=
  let scope := packageScope file.package
  { file with
    messages := retargetMessages plan.renames
      (replaceMessages plan file.dialect entries scope file.messages)
    extensions := file.extensions.map plan.renames.retargetField
    services := file.services.map plan.renames.retargetService }

/-- The Plain schema files of a set of schema files. -/
def SchemaPlan.derive (plan : SchemaPlan) (files : List FileDecl) : List FileDecl :=
  files.map (plan.deriveFile (fileEntries plan.renames files))

end PlainSchema
