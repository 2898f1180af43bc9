import PlainSchema.Contract.Render
import PlainSchema.Derive
import PlainSchema.Generator.Request
import PlainSchema.Json.Printer
import PlainSchema.Plan.Json
import PlainSchema.Schema.OfPool
import PlainSchema.Wire.Encode

/-!
# Generation

`Request.generate` answers a request.  Each file to generate gives the plans of its messages as
JSON, and the contracts of its generated messages if there are any.  Problems of the schema and
of the parameter are part of the response; an error is returned when there is no response.
-/

namespace PlainSchema

/-- A generated file. -/
structure OutputFile where
  name : String
  content : String
  deriving DecidableEq, Repr, Inhabited

/-- The answer to a request. -/
structure Response where
  /-- Why nothing was generated. -/
  error : Option String := none
  files : List OutputFile := []
  deriving DecidableEq, Repr, Inhabited

/-- The features of the schema language that are supported: optional fields in proto3. -/
def supportedFeatures : Nat := 1

/-- Why there is no response. -/
inductive GenerateError where
  /-- The bytes hold no request. -/
  | malformedRequest
  /-- The Plain options of an element cannot be read. -/
  | malformedOptions
  /-- The schema files, or the Plain files derived from them, cannot be linked. -/
  | pool (error : PoolError)
  | fileNotFound (name : String)
  | contract (error : Contract.RenderError)
  deriving DecidableEq, Repr

/-- The message of a generate error. -/
def GenerateError.message : GenerateError → String
  | malformedRequest => "malformed request"
  | malformedOptions => "malformed options"
  | pool _ => "the schema files cannot be linked"
  | fileNotFound name => "File descriptor not found: " ++ name
  | contract error => error.message

/-- The name of a schema file without its ending. -/
def stem (name : String) : String :=
  let ending := ".proto".toList
  let text := name.toList
  if ending.isSuffixOf text then String.ofList (text.take (text.length - ending.length)) else name

/-- The plans of the messages of a file as JSON. -/
def SchemaPlan.fileJson (plan : SchemaPlan) (file : String) : Json :=
  .object [("file", .string file), ("suffix", .string plan.suffix),
    ("messages", .array ((plan.messages.filter (·.file == file)).map (·.toJson))),
    ("renames", plan.renames.toJson),
    ("diagnostics", .array (plan.diagnostics.map (·.toJson)))]

/-- The generated files of a schema file. -/
def SchemaPlan.generateFile (plan : SchemaPlan) (style : JsonStyle) (file : String) :
    Except GenerateError (List OutputFile) := do
  let generated := (plan.messages.filter (·.file == file)).filter (·.generate)
  let json : OutputFile :=
    { name := stem file ++ ".plain.ir.json", content := (plan.fileJson file).pretty }
  if generated.isEmpty then return [json]
  match Contract.renderFile (generated.map (Contract.MessageContract.ofPlan · style)) with
  | .ok content => return [json, { name := stem file ++ ".plain.rs", content }]
  | .error error => .error (.contract error)

/-- The pool of schema files, or why there is none as a generate error. -/
def linked : Except PoolError Pool → Except GenerateError Pool
  | .ok pool => .ok pool
  | .error error => .error (.pool error)

/-- The generated files of all files to generate of a schema. -/
def SchemaPlan.generate (plan : SchemaPlan) (schema : Schema) (style : JsonStyle) :
    Except GenerateError (List OutputFile) := do
  let files ← schema.filesToGenerate.mapM fun file =>
    if (schema.file? file).isNone then .error (.fileNotFound file)
    else plan.generateFile style file
  return files.flatten

/-- The response to a request. -/
def Request.generate (request : Request) : Except GenerateError Response := do
  let pool ← linked request.files.load
  match Settings.parse request.parameter with
  | .error error => return { error := some error.message }
  | .ok settings =>
    let some files := request.files.declarations? pool | .error .malformedOptions
    let schema := Schema.ofPool (← linked (Pool.load files)) request.filesToGenerate
    match schema.plan settings with
    | .error error => return { error := some error.message }
    | .ok plan =>
      let _ ← linked (Pool.load (plan.derive files))
      return { files := ← plan.generate schema settings.style }

/-! ## Bytes -/

/-- The bytes of a response. -/
def Response.encode (response : Response) : List UInt8 :=
  let text (number : Nat) (s : String) := Wire.writeRecord number (.bytes (Utf8.encode s))
  (response.error.map (text 1)).getD []
    ++ Wire.writeRecord 2 (.varint supportedFeatures.toUInt64)
    ++ response.files.flatMap fun file =>
      Wire.writeRecord 15 (.bytes (text 1 file.name ++ text 15 file.content))

/-- The response to the bytes of a request. -/
def generateFromBytes (bytes : List UInt8) : Except GenerateError Response :=
  match Request.decode? bytes with
  | some request => request.generate
  | none => .error .malformedRequest

end PlainSchema
