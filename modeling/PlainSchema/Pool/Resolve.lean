import PlainSchema.Pool.Names

/-!
# Resolving references

A file may refer to the types of its dependencies and of the files that these make public, by
absolute names, which start with a dot, or by names relative to the scope of the reference.
`Visibility.resolveFile` makes every reference of a file absolute.  The kind of a field follows
the type that it refers to.
-/

namespace PlainSchema

open Proto

/-- Why a set of files cannot be linked. -/
inductive PoolError where
  | duplicateFile (name : String)
  | unknownDialect (file dialect : String)
  | unknownDependency (file dependency : String)
  /-- A public or weak dependency is none of the dependencies. -/
  | invalidDependencyIndex (file : String) (index : Int)
  | duplicateName (name : String)
  /-- A declaration has the name of a package. -/
  | packageName (name : String)
  | unknownType (scope ref : String)
  | invalidNumber (field : String) (number : Int)
  | duplicateNumber (message : String) (number : Int)
  /-- The number of an extension is outside the extension ranges. -/
  | invalidExtensionNumber (extension : String) (number : Int)
  /-- Two fields differ only in letter case and underscores. -/
  | similarNames (message field : String)
  | duplicateJsonName (message name : String)
  | invalidDefault (field text : String)
  | emptyEnum (name : String)
  /-- The first value of a proto3 enum is not zero. -/
  | nonzeroDefault (name : String)
  | duplicateEnumNumber (name : String) (number : Int)
  | reservedEnumNumber (name : String) (number : Int)
  | invalidOneofIndex (field : String)
  /-- The options of an element do not fit their declaration. -/
  | invalidOptions (file : String)
  deriving DecidableEq, Repr

/-! ## What a file sees -/

/-- What a reference can name. -/
inductive Referent where
  | message | enum | extension
  deriving DecidableEq, Repr

/-- A full name with what it stands for. -/
structure Symbol where
  name : String
  sort : Referent
  deriving DecidableEq, Repr

/-- Whether a symbol is that of a type. -/
def Symbol.isType (symbol : Symbol) : Bool :=
  symbol.sort != .extension

/-- The types and extensions that a message declares directly, its own type included. -/
def DeclaredMessage.referents (m : DeclaredMessage) : List Symbol :=
  ⟨m.fullName, .message⟩ :: m.decl.enums.map (⟨qualify m.fullName ·.name, .enum⟩)
    ++ m.decl.extensions.map (⟨qualify m.fullName ·.name, .extension⟩)

/-- The types and extensions that a file declares. -/
def Proto.FileDecl.referents (file : FileDecl) : List Symbol :=
  file.declared.flatMap (·.referents) ++ file.enums.map (⟨qualify file.package ·.name, .enum⟩)
    ++ file.extensions.map (⟨qualify file.package ·.name, .extension⟩)

/-- The names of the public dependencies of a file. -/
def Proto.FileDecl.publicNames (file : FileDecl) : List String :=
  file.publicDependencies.filterMap fun index => file.dependencies[index.toNat]?

/-- The files whose types a file may refer to: itself, its dependencies and their public
dependencies. -/
def visibleFiles (files : List FileDecl) (file : FileDecl) : List String :=
  file.name :: file.dependencies
    ++ (files.filter (file.dependencies.contains ·.name)).flatMap (·.publicNames)

/-- What the references of a file can name. -/
structure Visibility where
  /-- The types and extensions that the file may refer to. -/
  symbols : List Symbol
  /-- Every package, message, enum and service of all files. -/
  holders : List String

/-- What the references of one of a set of files can name. -/
def Visibility.ofFile (files : List FileDecl) (file : FileDecl) : Visibility :=
  let visible := visibleFiles files file
  { symbols := (files.filter (visible.contains ·.name)).flatMap (·.referents)
    holders := files.flatMap fun file => file.packages ++ file.holders }

/-! ## References -/

/-- The visible symbol with a full name, if it is of a wanted sort. -/
def Visibility.symbol? (v : Visibility) (wanted : Symbol → Bool) (name : String) :
    Option Symbol :=
  v.symbols.find? fun symbol => symbol.name == name && wanted symbol

/-- The symbol of a reference.  A leading dot makes it absolute.  A simple name is looked for in
one scope after another, from the inside out; of a name with dots the first part decides on the
scope, and the whole name has to be found there. -/
def Visibility.find? (v : Visibility) (wanted : Symbol → Bool) (scope ref : String) :
    Option Symbol :=
  match ref.toList with
  | '.' :: name => v.symbol? wanted (String.ofList name)
  | name =>
    let first := String.ofList (name.takeWhile (· != '.'))
    if first = ref then
      (enclosingScopes scope).findSome? fun outer => v.symbol? wanted (qualify outer ref)
    else do
      let outer ← (enclosingScopes scope).find? fun outer =>
        v.holders.contains (qualify outer first)
      v.symbol? wanted (qualify outer ref)

/-- The symbol of a reference of a wanted sort. -/
def Visibility.resolve (v : Visibility) (wanted : Symbol → Bool) (scope ref : String) :
    Except PoolError Symbol :=
  match v.find? wanted scope ref with
  | some symbol => .ok symbol
  | none => .error (.unknownType scope ref)

/-- The absolute form of a reference to a message. -/
def Visibility.resolveMessage (v : Visibility) (scope ref : String) :
    Except PoolError String := do
  let type ← v.resolve (·.sort == .message) scope ref
  return "." ++ type.name

/-! ## Declarations -/

/-- The kind of a field that was declared with a kind and refers to a type. -/
def Symbol.kind (type : Symbol) (declared : Kind) : Kind :=
  if type.sort == .enum then .enum else if declared == .group then .group else .message

/-- A field with its reference resolved.  An empty reference is none, and only scalars can do
without one. -/
def Visibility.resolveField (v : Visibility) (scope : String) (field : FieldDecl) :
    Except PoolError FieldDecl :=
  match field.typeRef.filter (!·.isEmpty) with
  | some ref => do
    let type ← v.resolve (·.isType) scope ref
    return { field with kind := type.kind field.kind, typeRef := some ("." ++ type.name) }
  | none => if field.kind.isScalar then .ok field else .error (.unknownType scope "")

/-- An extension with its references resolved. -/
def Visibility.resolveExtension (v : Visibility) (scope : String) (field : FieldDecl) :
    Except PoolError FieldDecl := do
  let extendee ← v.resolveMessage scope (field.extendee.getD "")
  return { ← v.resolveField scope field with extendee := some extendee }

mutual

/-- A message of a scope with all its references resolved. -/
def Visibility.resolveDecl (v : Visibility) (scope : String) :
    MessageDecl → Except PoolError MessageDecl
  | decl@{ name, fields, messages, extensions, .. } => do
    let fullName := qualify scope name
    let fields ← fields.mapM (v.resolveField fullName)
    let extensions ← extensions.mapM (v.resolveExtension fullName)
    let messages ← v.resolveDecls fullName messages
    return { decl with fields, messages, extensions }

/-- Messages of a scope with all their references resolved. -/
def Visibility.resolveDecls (v : Visibility) (scope : String) :
    List MessageDecl → Except PoolError (List MessageDecl)
  | [] => .ok []
  | m :: ms => do
    let m ← v.resolveDecl scope m
    return m :: (← v.resolveDecls scope ms)

end

/-- A service of a scope with the references of its methods resolved. -/
def Visibility.resolveService (v : Visibility) (scope : String) (service : ServiceDecl) :
    Except PoolError ServiceDecl := do
  let inner := qualify scope service.name
  let methods ← service.methods.mapM fun method => do
    return { method with
      input := ← v.resolveMessage inner method.input
      output := ← v.resolveMessage inner method.output }
  return { service with methods }

/-- A file with all its references resolved. -/
def Visibility.resolveFile (v : Visibility) (file : FileDecl) : Except PoolError FileDecl := do
  let messages ← v.resolveDecls file.package file.messages
  let extensions ← file.extensions.mapM (v.resolveExtension file.package)
  let services ← file.services.mapM (v.resolveService file.package)
  return { file with messages, extensions, services }

/-- A set of files with all their references resolved. -/
def resolveFiles (files : List FileDecl) : Except PoolError (List FileDecl) :=
  files.mapM fun file => (Visibility.ofFile files file).resolveFile file

end PlainSchema
