import PlainSchema.Contract.Token
import PlainSchema.Text.Layout

/-!
# Token trees

The arguments of a macro are tokens of any kind whose brackets are closed.  They are written with
one blank between them where a reader expects it: none in front of a comma or of the arguments of
a name, none around a point.
-/

namespace PlainSchema.Contract

open Text

/-- A token, or trees in brackets. -/
inductive TokenTree where
  | leaf (token : Token)
  | group (opening : Char) (items : List TokenTree)
  deriving Repr

/-- The bracket that closes what another one opens. -/
def closingBracket? : Char → Option Char
  | '(' => some ')'
  | '[' => some ']'
  | '\x7b' => some '\x7d'
  | _ => none

/-- Reads trees up to a closing bracket, which is not part of them. -/
def readTrees : Nat → List Token → Option (List TokenTree × List Token)
  | 0, _ => none
  | _ + 1, [] => some ([], [])
  | steps + 1, .mark c joint :: rest =>
    match closingBracket? c with
    | some closing => do
      let (items, rest) ← readTrees steps rest
      let .mark d _ :: rest := rest | none
      guard (d = closing)
      let (more, rest) ← readTrees steps rest
      some (.group c items :: more, rest)
    | none =>
      if [')', ']', '\x7d'].contains c then some ([], .mark c joint :: rest)
      else do
        let (more, rest) ← readTrees steps rest
        some (.leaf (.mark c joint) :: more, rest)
  | steps + 1, token :: rest => do
    let (more, rest) ← readTrees steps rest
    some (.leaf token :: more, rest)

/-- Reads a group: a bracket, trees, and the closing bracket. -/
def readGroup : List Token → Option (Char × List TokenTree × List Token)
  | .mark c _ :: rest => do
    let closing ← closingBracket? c
    let (items, rest) ← readTrees (rest.length + 1) rest
    let .mark d _ :: rest := rest | none
    guard (d = closing)
    some (c, items, rest)
  | _ => none

/-! ## Spacing -/

/-- What the trees behind a tree may depend on. -/
inductive Situation where
  | start
  | dollar
  /-- Behind a repetition, the separator of which may follow. -/
  | repetition
  | repetitionSeparator
  | pound
  | poundBang
  | point
  | colon
  | doubleColon
  | name
  | nameBang
  | brackets
  | other
  deriving DecidableEq, Repr

/-- The words that are written with blanks around them. -/
def spacedWords : List String :=
  ["as", "async", "await", "box", "break", "const", "continue", "crate", "dyn", "else", "enum",
    "extern", "fn", "for", "if", "impl", "in", "let", "loop", "macro", "match", "mod", "move",
    "mut", "pub", "ref", "return", "static", "struct", "trait", "type", "unsafe", "use", "where",
    "while", "yield"]

/-- Whether a blank stands in front of a token, and the situation behind it, in most
situations. -/
def Situation.stepToken (situation : Situation) : Token → Bool × Situation
  | .word s =>
    if spacedWords.contains s then (true, .other)
    else (situation != .point && situation != .doubleColon, .name)
  | .number _ | .quote _ _ => (situation != .point, .name)
  | .life s => (true, if spacedWords.contains (s.drop 1).toString then .other else .name)
  | .mark ',' _ | .mark ';' _ => (false, .other)
  | .mark '.' _ => (situation != .name && situation != .brackets, .point)
  | .mark ':' true => (situation != .name, .colon)
  | .mark '$' _ => (true, .dollar)
  | .mark '#' _ => (true, .pound)
  | .mark _ _ => (true, .other)

/-- Whether a blank stands in front of a tree, and the situation behind it. -/
def Situation.step (situation : Situation) (tree : TokenTree) : Bool × Situation :=
  match situation, tree with
  | .dollar, .leaf (.word _) => (false, .other)
  | .dollar, .group '(' _ => (false, .repetition)
  | .repetition, .leaf (.mark '+' false) | .repetition, .leaf (.mark '*' false)
  | .repetition, .leaf (.mark '?' false) => (false, .other)
  | .repetition, .leaf (.mark _ true) => (false, .repetition)
  | .repetition, .leaf _ => (false, .repetitionSeparator)
  | .repetitionSeparator, .leaf (.mark '+' _) | .repetitionSeparator, .leaf (.mark '*' _) =>
    (false, .other)
  | .pound, .leaf (.mark '!' _) => (false, .poundBang)
  | .pound, .group '[' _ | .poundBang, .group '[' _ => (false, .other)
  | .name, .group '(' _ | .name, .group '[' _ => (false, .brackets)
  | .name, .leaf (.mark '!' false) => (false, .nameBang)
  | .nameBang, .group '(' _ | .nameBang, .group '[' _ => (false, .other)
  | .colon, .leaf (.mark ':' _) => (false, .doubleColon)
  | _, .group c _ => (true, if c = '(' ∨ c = '[' then .brackets else .other)
  | situation, .leaf token => situation.stepToken token

/-- Whether the next tree follows a tree directly. -/
def TokenTree.isJoint : TokenTree → Bool
  | .leaf (.mark '$' _) => true
  | .leaf (.mark _ joint) => joint
  | _ => false

/-- Whether a tree is a point, in front of which a line may end. -/
def TokenTree.isPoint : TokenTree → Bool
  | .leaf (.mark '.' _) => true
  | _ => false

/-- The text of a token. -/
def Token.text : Token → String
  | .word s | .life s | .number s | .quote s _ => s
  | .mark c _ => String.singleton c

/-- The gap in front of a tree. -/
def TokenTree.gapBefore (tree : TokenTree) (joined spaced : Bool) : Doc :=
  if joined then []
  else if spaced then [.gap { blanks := 1 }]
  else if tree.isPoint then [.gap {}]
  else []

mutual

/-- The document of a tree. -/
def TokenTree.doc : TokenTree → Doc
  | .leaf token => [.text token.text]
  | .group c items =>
    let blank : Doc := if c = '\x7b' ∧ !items.isEmpty then [.gap { blanks := 1 }] else []
    .text (String.singleton c) :: blank ++ treesDoc .start true items ++ blank
      ++ [.text (String.ofList (closingBracket? c).toList)]

/-- The document of trees in a situation, the first of which follows directly or not. -/
def treesDoc (situation : Situation) (joined : Bool) : List TokenTree → Doc
  | [] => []
  | tree :: rest =>
    let (spaced, next) := situation.step tree
    tree.gapBefore joined spaced ++ tree.doc ++ treesDoc next tree.isJoint rest

end

/-- The document of the arguments of a macro.  Arguments in braces stand on lines of their
own. -/
def groupDoc (opening : Char) (items : List TokenTree) : Doc :=
  let edge : Gap := { blanks := if opening = '\x7b' then Doc.endless else 0 }
  .text (if opening = '\x7b' then " \x7b" else String.singleton opening)
    :: (if items.isEmpty then [] else
      [.box true 4
        [.gap edge, .box false 0 (treesDoc .start true items), .gap { edge with offset := -4 }]])
    ++ [.text (String.ofList (closingBracket? opening).toList)]

end PlainSchema.Contract
