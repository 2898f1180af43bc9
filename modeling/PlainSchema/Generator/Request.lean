import PlainSchema.Generator.Options

/-!
# Generation requests

A request names the files to generate output for, carries the parameter text, and holds all
schema files.  It comes as the bytes of a message that the built-in schema files declare;
`Request.decode?` reads the message.  The schema files in it are declared before their Plain
options can be read, because it takes their pool to do so.
-/

namespace PlainSchema

open Proto

/-! ## Declarations -/

/-- The label with a number. -/
def labelOfNumber (n : Int) : Label :=
  if n = 3 then .repeated else if n = 2 then .required else .optional

/-- The field declaration that a message holds. -/
def FieldDecl.ofPart (read : OptionReader) (p : Part) : Option FieldDecl := do
  let options ← (read.inside (p.text "name")).plain? .field p
  return {
    name := p.text "name", number := p.int "number"
    kind := (Kind.ofNumber? (p.int "type").toNat).getD (.scalar .double)
    label := labelOfNumber (p.int "label")
    typeRef := p.text? "type_name", oneofIndex := p.int? "oneof_index"
    proto3Optional := p.flag "proto3_optional", extendee := p.text? "extendee"
    jsonName := p.text? "json_name", defaultText := p.text? "default_value"
    packed := (p.part? "options").map (·.flag "packed")
    options := FieldOptions.ofPart options }

/-- The extension declaration that a message holds; its Plain options do not count. -/
def FieldDecl.ofExtension (p : Part) : Option FieldDecl :=
  FieldDecl.ofPart none p

/-- The oneof declaration that a message holds. -/
def OneofDecl.ofPart (read : OptionReader) (p : Part) : Option OneofDecl := do
  let options ← (read.inside (p.text "name")).plain? .oneof p
  return { name := p.text "name", options := OneofOptions.ofPart options }

/-- The number range that a message holds. -/
def rangeOfPart (p : Part) : Int × Int :=
  (p.int "start", p.int "end")

/-- The enum declaration that a message holds. -/
def EnumDecl.ofPart (p : Part) : EnumDecl :=
  { name := p.text "name"
    values := (p.parts "value").map fun v => (v.text "name", v.int "number")
    allowAlias := (p.part "options").flag "allow_alias"
    reserved := (p.parts "reserved_range").map rangeOfPart }

/-- The message declaration that a message holds, with declarations nested down to a number of
levels. -/
def MessageDecl.ofPart : OptionReader → Nat → Part → Option MessageDecl
  | _, 0, p => some { name := p.text "name" }
  | read, levels + 1, p => do
    let read := read.inside (p.text "name")
    let fields ← (p.parts "field").mapM (FieldDecl.ofPart read)
    let oneofs ← (p.parts "oneof_decl").mapM (OneofDecl.ofPart read)
    let messages ← (p.parts "nested_type").mapM (MessageDecl.ofPart read levels)
    let extensions ← (p.parts "extension").mapM FieldDecl.ofExtension
    let options ← read.plain? .message p
    return {
      name := p.text "name", fields, oneofs, messages, extensions
      enums := (p.parts "enum_type").map EnumDecl.ofPart
      isMapEntry := (p.part "options").flag "map_entry"
      reserved := (p.parts "reserved_range").map rangeOfPart
      reservedNames := p.texts "reserved_name"
      extensionRanges := (p.parts "extension_range").map rangeOfPart
      options := MessageOptions.ofPart options }

/-- The service declaration that a message holds. -/
def ServiceDecl.ofPart (p : Part) : ServiceDecl :=
  { name := p.text "name"
    methods := (p.parts "method").map fun m =>
      { name := m.text "name", input := m.text "input_type", output := m.text "output_type" } }

/-- The schema file that a message holds.  Decoded messages are nested no deeper than the limit
of the wire format. -/
def FileDecl.ofPart (read : OptionReader) (p : Part) : Option FileDecl := do
  let messages ← (p.parts "message_type").mapM (MessageDecl.ofPart read Wire.nestingLimit)
  let extensions ← (p.parts "extension").mapM FieldDecl.ofExtension
  let options ← read.plain? .file p
  return {
    name := p.text "name", package := p.text "package", messages, extensions
    dialect := ((p.text? "syntax").map Dialect.ofName).getD .proto2
    dependencies := p.texts "dependency"
    publicDependencies := p.ints "public_dependency"
    weakDependencies := p.ints "weak_dependency"
    enums := (p.parts "enum_type").map EnumDecl.ofPart
    services := (p.parts "service").map ServiceDecl.ofPart
    options := FileOptions.ofPart options }

/-! ## Requests -/

/-- The schema files of a request. -/
inductive RequestFiles where
  /-- Declarations with their Plain options. -/
  | declared (files : List FileDecl)
  /-- Messages of the built-in schema files. -/
  | encoded (files : List Part)

/-- A request for generated output. -/
structure Request where
  filesToGenerate : List String
  parameter : String
  files : RequestFiles

/-- What the options of a file of a request are read by. -/
def fileScope (pool : Pool) (file : Part) : OptionScope :=
  let visible :=
    match pool.files.find? (·.name == file.text "name") with
    | some decl => Visibility.ofFile pool.files decl
    | none => ⟨[], []⟩
  { pool, visible, scope := file.text "package" }

/-- The pool of the files of a request. -/
def RequestFiles.load : RequestFiles → Except PoolError Pool
  | declared files => Pool.load files
  | encoded parts => do
    let pool ← Pool.load (parts.filterMap (FileDecl.ofPart none))
    parts.forM fun file => (fileScope pool file).check file
    return pool

/-- The declarations of the files of a request with their Plain options, which the pool of the
files tells how to read; nothing when some are malformed. -/
def RequestFiles.declarations? (pool : Pool) : RequestFiles → Option (List FileDecl)
  | declared files => some files
  | encoded parts => parts.mapM fun file => FileDecl.ofPart (some (fileScope pool file)) file

/-- The request that a byte sequence holds. -/
def Request.decode? (bytes : List UInt8) : Option Request := do
  let type := "google.protobuf.compiler.CodeGeneratorRequest"
  let message ← Wire.decode? generatorPool type bytes
  let part : Part := { pool := generatorPool, message }
  return {
    filesToGenerate := part.texts "file_to_generate"
    parameter := part.text "parameter"
    files := .encoded (part.parts "proto_file") }

end PlainSchema
