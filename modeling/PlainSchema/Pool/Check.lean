import PlainSchema.Decimal.Reading
import PlainSchema.Pool.Resolve
import PlainSchema.Proto.FieldNumber
import PlainSchema.Text.Integer

/-!
# Checking schema files

A set of files is refused when a name is declared twice in a scope, a number is not usable, a
default value does not fit its field, or an enum or oneof is malformed.
-/

namespace PlainSchema

open Proto

/-! ## Names -/

/-- The name of a field in JSON: underscores are dropped, and the character after one is in
upper case. -/
def camelName (afterUnderscore : Bool) : List Char → List Char
  | [] => []
  | c :: cs =>
    if c = '_' then camelName true cs
    else (if afterUnderscore then c.toUpper else c) :: camelName false cs

/-- The explicit name of a field in JSON, or the one made from its name. -/
def Proto.FieldDecl.jsonNameOrDefault (field : FieldDecl) : String :=
  field.jsonName.getD (String.ofList (camelName false field.name.toList))

/-- A name without underscores and in lower case. -/
def foldedName (name : String) : String :=
  String.ofList ((name.toList.filter (· != '_')).map Char.toLower)

/-- The first element of a list that occurs again later. -/
def firstRepeated? {α : Type} [BEq α] : List α → Option α
  | [] => none
  | x :: xs => if xs.contains x then some x else firstRepeated? xs

/-! ## Refusals -/

/-- Refuses with an error unless a condition holds. -/
def require (condition : Bool) (error : PoolError) : Except PoolError Unit :=
  if condition then .ok () else .error error

/-- Refuses with an error made from a finding, if there is one. -/
def refuseAny {α : Type} (finding : Option α) (error : α → PoolError) :
    Except PoolError Unit :=
  match finding with
  | some x => .error (error x)
  | none => .ok ()

/-! ## Files -/

/-- A file has a dialect that is known, and dependencies that exist. -/
def checkDependencies (names : List String) (file : FileDecl) : Except PoolError Unit := do
  match file.dialect with
  | .other dialect => .error (.unknownDialect file.name dialect)
  | _ => pure ()
  refuseAny (file.dependencies.find? (!names.contains ·)) (.unknownDependency file.name)
  refuseAny ((file.publicDependencies ++ file.weakDependencies).find? fun index =>
      index < 0 || Int.ofNat file.dependencies.length ≤ index)
    (.invalidDependencyIndex file.name)

/-- The names of all files and the names they declare are distinct, and dependencies exist. -/
def checkNames (files : List FileDecl) : Except PoolError Unit := do
  let names := files.map (·.name)
  refuseAny (firstRepeated? names) .duplicateFile
  files.forM (checkDependencies names)
  let symbols := files.flatMap (·.symbols)
  let packages := files.flatMap (·.packages)
  refuseAny (firstRepeated? symbols) .duplicateName
  refuseAny (packages.find? symbols.contains) .packageName

/-! ## Fields -/

/-- The number of a field is usable in the message that it belongs to or extends.  It lies in an
extension range exactly if the field is an extension. -/
def checkNumber (scope : String) (m : MessageDecl) (field : FieldDecl) :
    Except PoolError Unit := do
  let name := qualify scope field.name
  require (isFieldNumber field.number && !isInRanges m.reserved field.number)
    (.invalidNumber name field.number)
  let extends? := isInRanges m.extensionRanges field.number
  require (field.extendee.isSome || !extends?) (.invalidNumber name field.number)
  require (field.extendee.isNone || extends?) (.invalidExtensionNumber name field.number)

/-- A byte sequence that a text with escapes stands for can be made out: the escapes are those
of C, with up to three octal or exactly two hexadecimal digits. -/
def escapesAreValid : List Char → Bool
  | [] => true
  | '\\' :: c :: rest =>
    if c = 'x' ∨ c = 'X' then
      match rest with
      | a :: b :: rest => isHex a && isHex b && escapesAreValid rest
      | _ => false
    else ("abfnrtv\\?'\"01234567".toList.contains c) && escapesAreValid rest
  | '\\' :: [] => false
  | _ :: rest => escapesAreValid rest
where
  /-- Whether a character is a hexadecimal digit. -/
  isHex (c : Char) : Bool :=
    c.isDigit || 'a' ≤ c && c ≤ 'f' || 'A' ≤ c && c ≤ 'F'

/-- Whether a text is a default value of a scalar type. -/
def Proto.Scalar.hasDefault (type : Scalar) (text : String) : Bool :=
  match type with
  | .double | .float => (Decimal.readRounded? Decimal.double text.toList).isSome
  | .int32 | .sint32 | .sfixed32 => (Text.integer? (-2147483648) 2147483647 text).isSome
  | .int64 | .sint64 | .sfixed64 =>
    (Text.integer? (-9223372036854775808) 9223372036854775807 text).isSome
  | .uint32 | .fixed32 => (Text.integer? 0 4294967295 text).isSome
  | .uint64 | .fixed64 => (Text.integer? 0 18446744073709551615 text).isSome
  | .bool => text == "true" || text == "false"
  | .string => true
  | .bytes => escapesAreValid text.toList

/-- The enum declarations of a file by their full names. -/
def Proto.FileDecl.enumDecls (file : FileDecl) : List (String × EnumDecl) :=
  file.declared.flatMap (fun m => m.decl.enums.map fun e => (qualify m.fullName e.name, e))
    ++ file.enums.map fun e => (qualify file.package e.name, e)

/-- The default value of a field whose reference is resolved is one of its type: of an enum the
name of a value, and of a message none. -/
def checkDefault (enums : List (String × EnumDecl)) (scope : String) (field : FieldDecl) :
    Except PoolError Unit :=
  match field.defaultText with
  | none => .ok ()
  | some text =>
    let valid :=
      match field.kind with
      | .scalar type => type.hasDefault text
      | .enum =>
        let decl := enums.find? fun e => some ("." ++ e.1) == field.typeRef
        decl.any fun e => e.2.values.any (·.1 == text)
      | _ => false
    require valid (.invalidDefault (qualify scope field.name) text)

/-! ## Messages and enums -/

/-- The fields of a message have usable and distinct numbers, distinct names in JSON, and point
at oneofs that exist. -/
def checkMessage (dialect : Dialect) (m : DeclaredMessage) : Except PoolError Unit := do
  let fields := m.decl.fields
  fields.forM (checkNumber m.fullName m.decl)
  refuseAny (firstRepeated? (fields.map (·.number))) (.duplicateNumber m.fullName)
  if dialect == .proto3 then
    refuseAny (firstRepeated? (fields.map (foldedName ·.name))) (.similarNames m.fullName)
  refuseAny (firstRepeated? (fields.map (·.jsonNameOrDefault))) (.duplicateJsonName m.fullName)
  refuseAny (fields.find? fun field => field.oneofIndex.any fun i =>
      i < 0 || Int.ofNat m.decl.oneofs.length ≤ i)
    fun field => .invalidOneofIndex (qualify m.fullName field.name)

/-- An enum has values, the first one of a proto3 enum is zero, and numbers are not reserved and
distinct unless aliases are allowed. -/
def checkEnum (dialect : Dialect) (name : String) (e : EnumDecl) : Except PoolError Unit := do
  match e.values with
  | [] => .error (.emptyEnum name)
  | first :: _ => require (dialect == .proto2 || first.2 == 0) (.nonzeroDefault name)
  unless e.allowAlias do
    refuseAny (firstRepeated? (e.values.map (·.2))) (.duplicateEnumNumber name)
  refuseAny (e.values.find? fun value => e.reserved.any fun (low, high) =>
      low ≤ value.2 && value.2 ≤ high)
    fun value => .reservedEnumNumber name value.2

/-- The declarations of a file obey the rules that need no other file. -/
def checkFile (file : FileDecl) : Except PoolError Unit := do
  file.declared.forM (checkMessage file.dialect)
  file.enumDecls.forM fun (name, e) => checkEnum file.dialect name e

/-! ## Declarations with resolved references -/

/-- The extensions that a file declares, with their scopes. -/
def Proto.FileDecl.scopedExtensions (file : FileDecl) : List (String × FieldDecl) :=
  file.declared.flatMap (fun m => m.decl.extensions.map (m.fullName, ·))
    ++ file.extensions.map (file.package, ·)

/-- The number of an extension whose references are resolved is usable in the message that it
extends. -/
def checkExtension (messages : List DeclaredMessage) (scope : String) (field : FieldDecl) :
    Except PoolError Unit :=
  match messages.find? fun m => some ("." ++ m.fullName) == field.extendee with
  | some m => checkNumber scope m.decl field
  | none => .ok ()

/-- The extensions and the default values of a set of files whose references are resolved obey
the rules. -/
def checkResolved (files : List FileDecl) : Except PoolError Unit := do
  let messages := files.flatMap (·.declared)
  let enums := files.flatMap (·.enumDecls)
  let extensions := files.flatMap (·.scopedExtensions)
  extensions.forM fun (scope, field) => checkExtension messages scope field
  extensions.forM fun (scope, field) => checkDefault enums scope field
  messages.forM fun m => m.decl.fields.forM (checkDefault enums m.fullName)

end PlainSchema
