import PlainSchema.Proto.Declaration
import PlainSchema.Text.Split

/-!
# Scopes and symbols

Every declaration has a full name: its scope, a dot and its own name.  Fields, oneofs, nested
messages and enums live in the scope of their message; the values of an enum live in the scope
that holds the enum.
-/

namespace PlainSchema

open Proto

/-- A name inside a scope; the outermost scope is empty. -/
def qualify (scope name : String) : String :=
  if scope.isEmpty then name else scope ++ "." ++ name

/-- A message declaration with its place in its file. -/
structure DeclaredMessage where
  fullName : String
  parent : Option String
  decl : MessageDecl
  deriving Repr, Inhabited

mutual

/-- A message and everything nested in it, parents before children. -/
def declaredMessage (scope : String) (parent : Option String) :
    MessageDecl → List DeclaredMessage
  | decl@{ name, messages, .. } =>
    let fullName := qualify scope name
    { fullName, parent, decl } :: declaredMessages fullName (some fullName) messages

/-- The messages of a scope and everything nested in them. -/
def declaredMessages (scope : String) (parent : Option String) :
    List MessageDecl → List DeclaredMessage
  | [] => []
  | m :: ms => declaredMessage scope parent m ++ declaredMessages scope parent ms

end

/-- The full names of an enum of a scope and of its values. -/
def enumSymbols (scope : String) (e : EnumDecl) : List String :=
  qualify scope e.name :: e.values.map fun value => qualify scope value.1

/-- The full names declared directly in a message, its own included. -/
def DeclaredMessage.symbols (m : DeclaredMessage) : List String :=
  m.fullName :: m.decl.fields.map (qualify m.fullName ·.name)
    ++ m.decl.oneofs.map (qualify m.fullName ·.name)
    ++ m.decl.enums.flatMap (enumSymbols m.fullName)
    ++ m.decl.extensions.map (qualify m.fullName ·.name)

namespace Proto.FileDecl

/-- The messages of a file, nested ones included. -/
def declared (file : FileDecl) : List DeclaredMessage :=
  declaredMessages file.package none file.messages

/-- Every full name that a file declares. -/
def symbols (file : FileDecl) : List String :=
  file.declared.flatMap DeclaredMessage.symbols
    ++ file.enums.flatMap (enumSymbols file.package)
    ++ file.extensions.map (qualify file.package ·.name)
    ++ file.services.flatMap fun s =>
      qualify file.package s.name
        :: s.methods.map fun m => qualify (qualify file.package s.name) m.name

/-- The full names of the messages, enums and services of a file: what else can hold names. -/
def holders (file : FileDecl) : List String :=
  file.declared.flatMap (fun m => m.fullName :: m.decl.enums.map (qualify m.fullName ·.name))
    ++ file.enums.map (qualify file.package ·.name)
    ++ file.services.map (qualify file.package ·.name)

/-- The packages a file lies in: `a`, `a.b` and `a.b.c` for `a.b.c`. -/
def packages (file : FileDecl) : List String :=
  if file.package.isEmpty then []
  else
    let parts := Text.split file.package '.'
    (List.range parts.length).map fun i => ".".intercalate (parts.take (i + 1))

end Proto.FileDecl

/-- The scopes of a place from the inside out, the outermost one last. -/
def enclosingScopes (scope : String) : List String :=
  if scope.isEmpty then [""]
  else
    let parts := Text.split scope '.'
    (List.range (parts.length + 1)).map fun i =>
      ".".intercalate (parts.take (parts.length - i))

end PlainSchema
