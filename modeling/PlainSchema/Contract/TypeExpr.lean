import PlainSchema.Contract.TokenTree

/-!
# Type expressions

The types of contracts: paths with generic arguments, tuples, references, functions, arrays and
the rest, with the bounds and the constant values that stand in them.  `TypeExpr.doc` is the
document of a type in canonical form.
-/

namespace PlainSchema.Contract

open Text

/-- A lifetime that a binder introduces, with the lifetimes that it outlives. -/
structure LifeParam where
  name : String
  bounds : List String
  deriving DecidableEq, Repr

/-- What stands in front of the parameters of a function type. -/
structure FunctionHead where
  /-- The lifetimes that the type introduces, if it has a binder. -/
  binder : Option (List LifeParam)
  isUnsafe : Bool
  /-- Whether the type names a calling convention, and the literal that does. -/
  convention : Option (Option String)
  deriving DecidableEq, Repr

mutual

/-- A type. -/
inductive TypeExpr where
  | path (path : TypePath)
  | tuple (items : List TypeExpr)
  /-- A single type in parentheses. -/
  | parens (inner : TypeExpr)
  | reference (life : Option String) (mutable : Bool) (target : TypeExpr)
  | pointer (mutable : Bool) (target : TypeExpr)
  | slice (item : TypeExpr)
  | array (item : TypeExpr) (length : ValueExpr)
  /-- A function.  `others` says whether more arguments follow, under which name. -/
  | function (head : FunctionHead) (params : List Param) (others : Option (Option String))
      (result : Option TypeExpr)
  /-- Any value that meets the bounds, behind a pointer.  The word for that may be left out, and
  a star may follow it. -/
  | object (named starred : Bool) (bounds : List Bound)
  /-- One type without a name that meets the bounds. -/
  | anonymous (bounds : List Bound)
  | never
  /-- A type that is left to be found. -/
  | inferred
  /-- What a macro makes of its arguments. -/
  | expansion (name : TypePath) (opening : Char) (items : List TokenTree)

/-- A parameter of a function type. -/
inductive Param where
  | mk (name : Option String) (type : TypeExpr)

/-- The name of a type, a bound or a constant. -/
inductive TypePath where
  /-- Names from the outside in; a `rooted` path begins with a separator. -/
  | plain (rooted : Bool) (segments : List Segment)
  /-- Names inside of a type, which may be seen as an implementation of a trait. -/
  | within (target : TypeExpr) (implemented : Option TypePath) (segments : List Segment)

/-- A name on a path with what it is applied to. -/
inductive Segment where
  | mk (name : String) (arguments : Arguments)

/-- What a name is applied to. -/
inductive Arguments where
  | absent
  | generic (items : List Argument)
  /-- The parameters and the result of a function trait. -/
  | call (params : List TypeExpr) (result : Option TypeExpr)

/-- A generic argument. -/
inductive Argument where
  | life (name : String)
  | type (type : TypeExpr)
  | value (value : ValueExpr)
  /-- A member of a trait that is the given type. -/
  | memberType (name : String) (arguments : Arguments) (type : TypeExpr)
  /-- A member of a trait that has the given value. -/
  | memberValue (name : String) (arguments : Arguments) (value : ValueExpr)
  /-- A member of a trait that meets bounds. -/
  | memberBounds (name : String) (arguments : Arguments) (bounds : List Bound)

/-- What a type has to meet. -/
inductive Bound where
  | life (name : String)
  /-- A trait.  A `relaxed` bound lifts a requirement that holds by default. -/
  | trait (inParens : Bool) (binder : Option (List LifeParam)) (relaxed : Bool) (path : TypePath)

/-- A constant in a type. -/
inductive ValueExpr where
  | literal (s : String)
  | path (path : TypePath)
  | unary (operator : String) (operand : ValueExpr)
  | binary (operator : String) (left right : ValueExpr)
  | cast (value : ValueExpr) (type : TypeExpr)
  | parens (inner : ValueExpr)
  | call (function : ValueExpr) (arguments : List ValueExpr)
  | block (body : Option ValueExpr)
  | expansion (name : TypePath) (opening : Char) (items : List TokenTree)

end

/-! ## Binders -/

/-- The text of a binder of lifetimes. -/
def binderText (binder : Option (List LifeParam)) : String :=
  match binder with
  | none => ""
  | some params =>
    let param (p : LifeParam) : String :=
      if p.bounds.isEmpty then p.name else p.name ++ ": " ++ " + ".intercalate p.bounds
    "for<" ++ ", ".intercalate (params.map param) ++ "> "

/-- The text of the head of a function type. -/
def FunctionHead.text (head : FunctionHead) : String :=
  binderText head.binder
    ++ (if head.isUnsafe then "unsafe " else "")
    ++ (match head.convention with
      | none => ""
      | some none => "extern "
      | some (some literal) => "extern " ++ literal ++ " ")
    ++ "fn("

/-- Whether an argument is a lifetime.  Lifetimes are written in front of other arguments. -/
def Argument.isLife : Argument → Bool
  | .life _ => true
  | _ => false

/-! ## Documents -/

/-- The document of a text that may be empty. -/
def optionalText (s : String) : Doc :=
  if s.isEmpty then [] else [.text s]

/-- A name with a colon in front of a type. -/
def nameText (name : Option String) : String :=
  match name with
  | none => ""
  | some name => name ++ ": "

/-- The items of a document in a box that is closed by a gap. -/
def closedBox (doc : Doc) : Piece :=
  .box true 4 (.gap {} :: doc ++ [.gap { offset := -4 }])

mutual

/-- The document of a type. -/
def TypeExpr.doc : TypeExpr → Doc
  | .path path => path.doc false
  | .tuple items =>
    match typeDocs items with
    | [item] => [.text "(", closedBox (item ++ [.text ","]), .text ")"]
    | items => .text "(" :: Doc.listed 4 items ++ [.text ")"]
  | .parens inner => .text "(" :: inner.doc ++ [.text ")"]
  | .reference life mutable target =>
    .text ("&" ++ (life.map (· ++ " ")).getD "" ++ if mutable then "mut " else "") :: target.doc
  | .pointer mutable target => .text (if mutable then "*mut " else "*const ") :: target.doc
  | .slice item => .text "[" :: item.doc ++ [.text "]"]
  | .array item length => .text "[" :: item.doc ++ .text "; " :: length.doc ++ [.text "]"]
  | .function head params others result =>
    let params := paramDocs params
    let list :=
      match others with
      | none => Doc.listed 4 params
      | some name =>
        [closedBox (params.flatMap (· ++ [.text ",", .gap { blanks := 1 }])
          ++ [.text (nameText name ++ "...")])]
    .text head.text :: list ++ .text ")" :: resultDoc result
  | .object _ starred bounds =>
    .text (if starred then "dyn* " else "dyn ") :: Doc.joined " + " (boundDocs bounds)
  | .anonymous bounds => .text "impl " :: Doc.joined " + " (boundDocs bounds)
  | .never => [.text "!"]
  | .inferred => [.text "_"]
  | .expansion name opening items => name.doc false ++ .text "!" :: groupDoc opening items

/-- The documents of types. -/
def typeDocs : List TypeExpr → List Doc
  | [] => []
  | type :: rest => type.doc :: typeDocs rest

/-- The document of the result of a function, nothing if there is none. -/
def resultDoc : Option TypeExpr → Doc
  | none => []
  | some type => .text " -> " :: type.doc

/-- The documents of parameters. -/
def paramDocs : List Param → List Doc
  | [] => []
  | .mk name type :: rest => (optionalText (nameText name) ++ type.doc) :: paramDocs rest

/-- The document of a path.  In a value a separator stands in front of generic arguments. -/
def TypePath.doc (inValue : Bool) : TypePath → Doc
  | .plain rooted segments =>
    optionalText (if rooted then "::" else "") ++ Doc.joined "::" (segmentDocs inValue segments)
  | .within target implemented segments =>
    .text "<" :: target.doc ++ implementedDoc implemented ++ .text ">::"
      :: Doc.joined "::" (segmentDocs inValue segments)

/-- The document of the trait through which a type is seen. -/
def implementedDoc : Option TypePath → Doc
  | none => []
  | some path => .text " as " :: path.doc false

/-- The documents of the segments of a path. -/
def segmentDocs (inValue : Bool) : List Segment → List Doc
  | [] => []
  | .mk name arguments :: rest =>
    (.text name :: arguments.doc inValue) :: segmentDocs inValue rest

/-- The document of what a name is applied to.  An empty list of generic arguments is left
out. -/
def Arguments.doc (inValue : Bool) : Arguments → Doc
  | .absent => []
  | .generic items =>
    let docs := argumentDocs true items ++ argumentDocs false items
    if items.isEmpty then []
    else .text (if inValue then "::<" else "<") :: Doc.listed 4 docs ++ [.text ">"]
  | .call params result =>
    [.box true 4
      (.text "(" :: .gap {} :: Doc.commaSeparated (typeDocs params) ++ .text ")"
        :: resultDoc result)]

/-- The documents of the arguments that are lifetimes, or of all others. -/
def argumentDocs (lives : Bool) : List Argument → List Doc
  | [] => []
  | argument :: rest =>
    if argument.isLife = lives then argument.doc :: argumentDocs lives rest
    else argumentDocs lives rest

/-- The document of a generic argument. -/
def Argument.doc : Argument → Doc
  | .life name => [.text name]
  | .type type => type.doc
  | .value value => value.doc
  | .memberType name arguments type =>
    .text name :: arguments.doc false ++ .text " = " :: type.doc
  | .memberValue name arguments value =>
    .text name :: arguments.doc false ++ .text " = " :: value.doc
  | .memberBounds name arguments bounds =>
    .text name :: arguments.doc false
      ++ (if bounds.isEmpty then [] else
        [.box false 4 (.text ": " :: Doc.summed (boundDocs bounds))])

/-- The documents of bounds. -/
def boundDocs : List Bound → List Doc
  | [] => []
  | bound :: rest => bound.doc :: boundDocs rest

/-- The document of a bound. -/
def Bound.doc : Bound → Doc
  | .life name => [.text name]
  | .trait inParens binder relaxed path =>
    optionalText
        ((if inParens then "(" else "") ++ binderText binder ++ if relaxed then "?" else "")
      ++ path.doc false ++ optionalText (if inParens then ")" else "")

/-- The document of a constant. -/
def ValueExpr.doc : ValueExpr → Doc
  | .literal s => [.text s]
  | .path path => path.doc true
  | .unary operator operand => .text operator :: operand.doc
  | .binary operator left right =>
    [.box false 4
      (.box false (-4) left.doc :: .gap { blanks := 1 } :: .text (operator ++ " ")
        :: right.doc)]
  | .cast value type =>
    [.box false 4
      (.box false (-4) value.doc :: .gap { blanks := 1 } :: .text "as " :: type.doc)]
  | .parens inner => .text "(" :: inner.doc ++ [.text ")"]
  | .call function [.block body] =>
    function.doc ++ .text "(" :: blockDoc body ++ [.text ")"]
  | .call function arguments =>
    function.doc ++ .text "(" :: Doc.listed 4 (valueDocs arguments) ++ [.text ")"]
  | .block body => blockDoc body
  | .expansion name opening items => name.doc false ++ .text "!" :: groupDoc opening items

/-- The document of a constant in braces. -/
def blockDoc : Option ValueExpr → Doc
  | none => [.text "\x7b\x7d"]
  | some body =>
    [.box true 4
      [.text "\x7b", .gap { blanks := 1 }, .box false 0 body.doc,
        .gap { blanks := 1, offset := -4 }, .text "\x7d"]]

/-- The documents of constants. -/
def valueDocs : List ValueExpr → List Doc
  | [] => []
  | value :: rest => value.doc :: valueDocs rest

end

end PlainSchema.Contract
