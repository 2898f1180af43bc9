import PlainSchema.Contract.Token
import PlainSchema.Contract.TypeExpr

/-!
# Reading type expressions

`TypeExpr.parse?` is the type that a text writes.  A plus sign separates the bounds of a type; where
the reader is told that no plus may follow (`plus` is false), a type ends in front of it.
-/

namespace PlainSchema.Contract

/-! ## Parts of one token or two -/

/-- The words that begin a path in relation to something and take no arguments. -/
def relativeRoots : List String :=
  ["super", "self", "crate"]

/-- Whether a type may begin with the word of a path. -/
def beginsPath (word : String) : Bool :=
  isName word || word == "Self" || relativeRoots.contains word

/-- Whether a bound may begin with a token. -/
def beginsBound : List Token → Bool
  | .word _ :: _ | .life _ :: _ | .mark '?' _ :: _ | .mark '(' _ :: _ => true
  | .mark ':' true :: .mark ':' _ :: _ => true
  | _ => false

/-- What follows a separator, if there is one. -/
def afterSeparator? : List Token → Option (List Token)
  | .mark ':' true :: .mark ':' _ :: rest => some rest
  | _ => none

/-- What follows a mark, if there is one. -/
def afterMark? (c : Char) : List Token → Option (List Token)
  | .mark d _ :: rest => if c = d then some rest else none
  | _ => none

/-- What follows a word, if there is one. -/
def afterWord? (w : String) : List Token → Option (List Token)
  | .word v :: rest => if w = v then some rest else none
  | _ => none

/-- Whether a word is at hand, and what follows it. -/
def skipWord (w : String) (ts : List Token) : Bool × List Token :=
  match afterWord? w ts with
  | some rest => (true, rest)
  | none => (false, ts)

/-- What follows the three points that stand for more arguments. -/
def afterPoints? : List Token → Option (List Token)
  | .mark '.' true :: .mark '.' true :: .mark '.' _ :: rest => some rest
  | _ => none

/-- A literal.  The sign of a number belongs to it. -/
def readLiteral : List Token → Option (String × List Token)
  | .number s :: rest | .quote s _ :: rest => some (s, rest)
  | .mark '-' _ :: .number s :: rest => some ("-" ++ s, rest)
  | .word "true" :: rest => some ("true", rest)
  | .word "false" :: rest => some ("false", rest)
  | _ => none

/-! ## Binders -/

/-- Lifetimes with plus signs between them. -/
def readLifeSum : List Token → List String × List Token
  | .life name :: .mark '+' _ :: rest =>
    let (names, rest) := readLifeSum rest
    (name :: names, rest)
  | .life name :: rest => ([name], rest)
  | rest => ([], rest)

/-- The lifetimes of a binder up to its closing bracket. -/
def readLifeParams : Nat → List Token → Option (List LifeParam × List Token)
  | _ + 1, .mark '>' _ :: rest => some ([], rest)
  | steps + 1, .life name :: rest => do
    let (bounds, rest) :=
      match rest with
      | .mark ':' _ :: rest => readLifeSum rest
      | rest => ([], rest)
    match rest with
    | .mark '>' _ :: rest => some ([{ name, bounds }], rest)
    | .mark ',' _ :: rest =>
      let (params, rest) ← readLifeParams steps rest
      some ({ name, bounds } :: params, rest)
    | _ => none
  | _, _ => none

/-- A binder, if there is one. -/
def readBinder : List Token → Option (Option (List LifeParam) × List Token)
  | .word "for" :: .mark '<' _ :: rest => do
    let (params, rest) ← readLifeParams (rest.length + 1) rest
    some (some params, rest)
  | rest => some (none, rest)

/-! ## Operators -/

/-- The operator between two constants at hand, with how tightly it binds. -/
def operator? : List Token → Option (String × Nat × List Token)
  | .mark '|' true :: .mark '|' _ :: rest => some ("||", 1, rest)
  | .mark '&' true :: .mark '&' _ :: rest => some ("&&", 2, rest)
  | .mark '=' true :: .mark '=' _ :: rest => some ("==", 3, rest)
  | .mark '!' true :: .mark '=' _ :: rest => some ("!=", 3, rest)
  | .mark '<' true :: .mark '=' _ :: rest => some ("<=", 3, rest)
  | .mark '>' true :: .mark '=' _ :: rest => some (">=", 3, rest)
  | .mark '<' true :: .mark '<' _ :: rest => some ("<<", 7, rest)
  | .mark '>' true :: .mark '>' _ :: rest => some (">>", 7, rest)
  | .mark '<' _ :: rest => some ("<", 3, rest)
  | .mark '>' _ :: rest => some (">", 3, rest)
  | .mark '|' _ :: rest => some ("|", 4, rest)
  | .mark '^' _ :: rest => some ("^", 5, rest)
  | .mark '&' _ :: rest => some ("&", 6, rest)
  | .mark '+' _ :: rest => some ("+", 8, rest)
  | .mark '-' _ :: rest => some ("-", 8, rest)
  | .mark '*' _ :: rest => some ("*", 9, rest)
  | .mark '/' _ :: rest => some ("/", 9, rest)
  | .mark '%' _ :: rest => some ("%", 9, rest)
  | _ => none

/-- Whether a constant is a comparison.  Comparisons are not chained. -/
def ValueExpr.isComparison : ValueExpr → Bool
  | .binary operator _ _ => ["==", "!=", "<=", ">=", "<", ">"].contains operator
  | _ => false

/-! ## Bounds -/

/-- Whether a bound is a trait. -/
def Bound.isTrait : Bound → Bool
  | .trait .. => true
  | .life _ => false

/-- Whether a path can be applied to the parameters of a function: nothing else is at its end. -/
def TypePath.isBare : TypePath → Bool
  | .within .. => false
  | .plain _ segments =>
    match segments.getLast? with
    | some (.mk _ .absent) | some (.mk _ (.generic [])) => true
    | _ => false

/-- A path whose last name is applied to the parameters of a function. -/
def TypePath.apply (path : TypePath) (params : List TypeExpr) (result : Option TypeExpr) :
    TypePath :=
  match path with
  | .within target implemented segments => .within target implemented segments
  | .plain rooted segments =>
    match segments.getLast? with
    | some (.mk name _) => .plain rooted (segments.dropLast ++ [.mk name (.call params result)])
    | none => .plain rooted segments

/-- A type in parentheses as a bound, if it can be one. -/
def TypeExpr.bound? : TypeExpr → Option Bound
  | .path (.plain rooted segments) => some (.trait true none false (.plain rooted segments))
  | .object false false [.trait false (some binder) relaxed named] =>
    some (.trait true (some binder) relaxed named)
  | _ => none

/-- Whether a path consists of names alone. -/
def TypePath.isModuleStyle : TypePath → Bool
  | .within .. => false
  | .plain _ segments =>
    segments.all fun segment =>
      match segment with
      | .mk _ .absent => true
      | _ => false

/-- The arguments of a macro behind its name, if there are any. -/
def readExpansion? (name : TypePath) : List Token → Option (Char × List TokenTree × List Token)
  | .mark '!' joint :: rest =>
    if name.isModuleStyle && !(joint && (afterMark? '=' rest).isSome) then readGroup rest
    else none
  | _ => none

/-! ## The grammar -/

mutual

/-- Reads a type.  The number bounds the depth of the calls, which is less than twelve for each
token. -/
def readType : Nat → Bool → List Token → Option (TypeExpr × List Token)
  | 0, _, _ => none
  | steps + 1, plus, ts =>
    match ts with
    | .mark '(' _ :: rest => readParens steps plus rest
    | .mark '[' _ :: rest => do
      let (item, rest) ← readType steps true rest
      match rest with
      | .mark ']' _ :: rest => some (.slice item, rest)
      | .mark ';' _ :: rest =>
        let (length, rest) ← readValue steps 0 rest
        some (.array item length, ← afterMark? ']' rest)
      | _ => none
    | .mark '*' _ :: .word "const" :: rest => do
      let (target, rest) ← readType steps false rest
      some (.pointer false target, rest)
    | .mark '*' _ :: .word "mut" :: rest => do
      let (target, rest) ← readType steps false rest
      some (.pointer true target, rest)
    | .mark '&' _ :: .life life :: rest => do
      let (mutable, rest) := skipWord "mut" rest
      let (target, rest) ← readType steps false rest
      some (.reference (some life) mutable target, rest)
    | .mark '&' _ :: rest => do
      let (mutable, rest) := skipWord "mut" rest
      let (target, rest) ← readType steps false rest
      some (.reference none mutable target, rest)
    | .mark '!' _ :: rest => some (.never, rest)
    | .word "_" :: rest => some (.inferred, rest)
    | .word "dyn" :: rest => do
      let (starred, rest) :=
        match rest with
        | .mark '*' _ :: rest => (true, rest)
        | rest => (false, rest)
      let (bounds, rest) ← readBounds steps plus rest
      some (.object true starred bounds, rest)
    | .word "impl" :: rest => do
      let (bounds, rest) ← readBounds steps plus rest
      some (.anonymous bounds, rest)
    | .life _ :: _ => do
      let (bounds, rest) ← readBounds steps true ts
      some (.object false false bounds, rest)
    | ts => do
      let (binder, rest) ← readBinder ts
      match rest with
      | .word word :: _ =>
        if ["fn", "unsafe", "extern"].contains word then readFunction steps binder rest
        else if beginsPath word then readNamed steps plus binder rest
        else none
      | rest => if binder.isNone then readNamed steps plus none rest else none

/-- Reads what stands behind an opening parenthesis. -/
def readParens : Nat → Bool → List Token → Option (TypeExpr × List Token)
  | 0, _, _ => none
  | steps + 1, plus, ts =>
    match ts with
    | .mark ')' _ :: rest => some (.tuple [], rest)
    | .life _ :: _ => do
      let (bounds, rest) ← readBounds steps true ts
      some (.parens (.object false false bounds), ← afterMark? ')' rest)
    | .mark '?' _ :: _ => do
      let (bound, rest) ← readTrait steps true ts
      let (bounds, rest) ← readMoreBounds steps true (← afterMark? ')' rest)
      some (.object false false (bound :: bounds), rest)
    | ts => do
      let (first, rest) ← readType steps true ts
      match rest with
      | .mark ',' _ :: rest =>
        let (items, rest) ← readTypes steps rest
        some (.tuple (first :: items), rest)
      | .mark ')' _ :: rest =>
        match first.bound?, plus && (afterMark? '+' rest).isSome with
        | some bound, true =>
          let (bounds, rest) ← readMoreBounds steps true rest
          some (.object false false (bound :: bounds), rest)
        | _, _ => some (.parens first, rest)
      | _ => none

/-- Reads a type that begins with a path. -/
def readNamed :
    Nat → Bool → Option (List LifeParam) → List Token → Option (TypeExpr × List Token)
  | 0, _, _, _ => none
  | steps + 1, plus, binder, ts => do
    let (path, rest) ← readPath steps false ts
    match path, readExpansion? path rest with
    | .within .., _ => some (.path path, rest)
    | .plain .., some (opening, items, rest) => some (.expansion path opening items, rest)
    | .plain .., none =>
      if plus && (afterMark? '+' rest).isSome then
        let (bounds, rest) ← readMoreBounds steps false rest
        some (.object false false (.trait false binder false path :: bounds), rest)
      else if binder.isSome then some (.object false false [.trait false binder false path], rest)
      else some (.path path, rest)

/-- Reads types with commas between them up to a closing parenthesis. -/
def readTypes : Nat → List Token → Option (List TypeExpr × List Token)
  | 0, _ => none
  | steps + 1, ts =>
    match ts with
    | .mark ')' _ :: rest => some ([], rest)
    | ts => do
      let (item, rest) ← readType steps true ts
      match rest with
      | .mark ')' _ :: rest => some ([item], rest)
      | .mark ',' _ :: rest =>
        let (items, rest) ← readTypes steps rest
        some (item :: items, rest)
      | _ => none

/-- Reads the result of a function, if it has one. -/
def readResult : Nat → List Token → Option (Option TypeExpr × List Token)
  | 0, _ => none
  | steps + 1, .mark '-' true :: .mark '>' _ :: rest => do
    let (type, rest) ← readType steps false rest
    some (some type, rest)
  | _ + 1, rest => some (none, rest)

/-- Reads the type of a function behind its binder. -/
def readFunction : Nat → Option (List LifeParam) → List Token → Option (TypeExpr × List Token)
  | 0, _, _ => none
  | steps + 1, binder, ts => do
    let (isUnsafe, rest) := skipWord "unsafe" ts
    let (convention, rest) :=
      match rest with
      | .word "extern" :: .quote s true :: rest => (some (some s), rest)
      | .word "extern" :: rest => (some none, rest)
      | rest => (none, rest)
    let rest ← afterMark? '(' (← afterWord? "fn" rest)
    let (params, others, rest) ← readParams steps true rest
    let (result, rest) ← readResult steps rest
    some (.function { binder, isUnsafe, convention } params others result, rest)

/-- Reads the parameters of a function, the first one of which may be the value itself, and
whether more arguments follow. -/
def readParams :
    Nat → Bool → List Token → Option (List Param × Option (Option String) × List Token)
  | 0, _, _ => none
  | steps + 1, isFirst, ts =>
    let (name, rest) :=
      match ts with
      | .word name :: .mark ':' joint :: rest =>
        if (isName name || name == "_" || isFirst && name == "self")
            && !(joint && (afterMark? ':' rest).isSome) then (some name, rest)
        else (none, ts)
      | ts => (none, ts)
    match rest, afterPoints? rest with
    | _, some rest => do
      guard (name != some "self")
      some ([], some name, ← afterMark? ')' ((afterMark? ',' rest).getD rest))
    | .mark ')' _ :: rest, none => if name.isNone then some ([], none, rest) else none
    | rest, none => do
      let (type, rest) ← readType steps true rest
      match rest with
      | .mark ')' _ :: rest => some ([.mk name type], none, rest)
      | .mark ',' _ :: rest =>
        let (params, others, rest) ← readParams steps false rest
        some (.mk name type :: params, others, rest)
      | _ => none

/-- Reads bounds, of which one has to be a trait. -/
def readBounds : Nat → Bool → List Token → Option (List Bound × List Token)
  | 0, _, _ => none
  | steps + 1, plus, ts => do
    let (bound, rest) ← readBound steps ts
    let (bounds, rest) ← if plus then readMoreBounds steps false rest else some ([], rest)
    guard ((bound :: bounds).any (·.isTrait))
    some (bound :: bounds, rest)

/-- Reads more bounds, each behind a plus sign.  Unless every plus has to be followed by a bound,
the last one may stand alone. -/
def readMoreBounds : Nat → Bool → List Token → Option (List Bound × List Token)
  | 0, _, _ => none
  | steps + 1, strict, .mark '+' _ :: rest =>
    if strict || beginsBound rest then do
      let (bound, rest) ← readBound steps rest
      let (bounds, rest) ← readMoreBounds steps strict rest
      some (bound :: bounds, rest)
    else some ([], rest)
  | _ + 1, _, rest => some ([], rest)

/-- Reads a bound. -/
def readBound : Nat → List Token → Option (Bound × List Token)
  | 0, _ => none
  | _ + 1, .life name :: rest => some (.life name, rest)
  | steps + 1, .mark '(' _ :: rest => do
    let (bound, rest) ← readTrait steps true rest
    some (bound, ← afterMark? ')' rest)
  | steps + 1, ts => readTrait steps false ts

/-- Reads a trait as a bound. -/
def readTrait : Nat → Bool → List Token → Option (Bound × List Token)
  | 0, _, _ => none
  | steps + 1, inParens, ts => do
    let (binder, rest) ← readBinder ts
    let (relaxed, rest) :=
      match rest with
      | .mark '?' _ :: rest => (true, rest)
      | rest => (false, rest)
    guard !(relaxed && binder.isSome)
    let (path, rest) ← readPlain steps false rest
    match afterMark? '(' ((afterSeparator? rest).getD rest), path.isBare with
    | some rest, true =>
      let (params, rest) ← readTypes steps rest
      let (result, rest) ← readResult steps rest
      some (.trait inParens binder relaxed (path.apply params result), rest)
    | _, _ => some (.trait inParens binder relaxed path, rest)

/-- Reads a path. -/
def readPath : Nat → Bool → List Token → Option (TypePath × List Token)
  | 0, _, _ => none
  | steps + 1, inValue, .mark '<' _ :: rest => do
    let (target, rest) ← readType steps true rest
    let (implemented, rest) ←
      match rest with
      | .word "as" :: rest =>
        (readPlain steps false rest).map fun (path, rest) => (some path, rest)
      | rest => some (none, rest)
    let (segments, rest) ← readSegments steps inValue (← afterSeparator? (← afterMark? '>' rest))
    some (.within target implemented segments, rest)
  | steps + 1, inValue, ts => readPlain steps inValue ts

/-- Reads a path of names. -/
def readPlain : Nat → Bool → List Token → Option (TypePath × List Token)
  | 0, _, _ => none
  | steps + 1, inValue, ts => do
    let (rooted, rest) :=
      match afterSeparator? ts with
      | some rest => (true, rest)
      | none => (false, ts)
    let (segments, rest) ← readSegments steps inValue rest
    some (.plain rooted segments, rest)

/-- Reads the segments of a path, which does not go on with a separator in front of a
parenthesis. -/
def readSegments : Nat → Bool → List Token → Option (List Segment × List Token)
  | steps + 1, inValue, .word name :: rest => do
    let (arguments, rest) ←
      if relativeRoots.contains name || name == "try" then some (.absent, rest)
      else if isName name || name == "Self" then readArguments steps inValue rest
      else none
    match afterSeparator? rest with
    | some (.mark '(' _ :: _) | none => some ([.mk name arguments], rest)
    | some rest =>
      let (segments, rest) ← readSegments steps inValue rest
      some (.mk name arguments :: segments, rest)
  | _, _, _ => none

/-- Reads the generic arguments behind a name, if there are any.  In a value they stand behind a
separator, elsewhere they may. -/
def readArguments : Nat → Bool → List Token → Option (Arguments × List Token)
  | 0, _, _ => none
  | steps + 1, inValue, ts =>
    match ts with
    | .mark ':' true :: .mark ':' _ :: .mark '<' _ :: rest =>
      (readGeneric steps rest).map fun (items, rest) => (.generic items, rest)
    | .mark '<' true :: .mark '=' _ :: _ => some (.absent, ts)
    | .mark '<' _ :: rest =>
      if inValue then some (.absent, ts)
      else (readGeneric steps rest).map fun (items, rest) => (.generic items, rest)
    | ts => some (.absent, ts)

/-- Reads generic arguments up to the closing bracket. -/
def readGeneric : Nat → List Token → Option (List Argument × List Token)
  | 0, _ => none
  | _ + 1, .mark '>' _ :: rest => some ([], rest)
  | steps + 1, ts => do
    let (item, rest) ← readArgument steps ts
    match rest with
    | .mark '>' _ :: rest => some ([item], rest)
    | .mark ',' _ :: rest =>
      let (items, rest) ← readGeneric steps rest
      some (item :: items, rest)
    | _ => none

/-- Reads a generic argument. -/
def readArgument : Nat → List Token → Option (Argument × List Token)
  | 0, _ => none
  | steps + 1, ts =>
    match ts, readConstant steps ts with
    | _, some (value, rest) => some (.value value, rest)
    | .life name :: rest, none =>
      if (afterMark? '+' rest).isNone then some (.life name, rest)
      else (readType steps true ts).map fun (type, rest) => (.type type, rest)
    | ts, none => do
      let (type, rest) ← readType steps true ts
      match type, rest with
      | .path (.plain false [.mk name arguments]), .mark '=' _ :: rest =>
        match readConstant steps rest with
        | some (value, rest) => some (.memberValue name arguments value, rest)
        | none =>
          let (type, rest) ← readType steps true rest
          some (.memberType name arguments type, rest)
      | .path (.plain false [.mk name arguments]), .mark ':' _ :: rest =>
        let (bounds, rest) ← readMemberBounds steps rest
        some (.memberBounds name arguments bounds, rest)
      | type, rest => some (.type type, rest)

/-- Reads a constant that may be a generic argument: a literal or a block. -/
def readConstant : Nat → List Token → Option (ValueExpr × List Token)
  | 0, _ => none
  | steps + 1, ts =>
    match readLiteral ts, ts with
    | some (s, rest), _ => some (.literal s, rest)
    | none, .mark '\x7b' _ :: _ => readPrimary steps ts
    | none, _ => none

/-- Reads the bounds of a member, of which there may be none. -/
def readMemberBounds : Nat → List Token → Option (List Bound × List Token)
  | 0, _ => none
  | steps + 1, ts =>
    match ts with
    | .mark ',' _ :: _ | .mark '>' _ :: _ => some ([], ts)
    | ts => do
      let (bound, rest) ← readBound steps ts
      match rest with
      | .mark '+' _ :: rest =>
        let (bounds, rest) ← readMemberBounds steps rest
        some (bound :: bounds, rest)
      | rest => some ([bound], rest)

/-- Reads a constant whose operators bind at least as tightly as the given level. -/
def readValue : Nat → Nat → List Token → Option (ValueExpr × List Token)
  | 0, _, _ => none
  | steps + 1, level, ts => do
    let (first, rest) ← readUnary steps ts
    readOperations steps level first rest

/-- Reads the operators behind a constant. -/
def readOperations : Nat → Nat → ValueExpr → List Token → Option (ValueExpr × List Token)
  | 0, _, _, _ => none
  | steps + 1, level, left, ts =>
    match ts, operator? ts with
    | .word "as" :: rest, _ => do
      let (type, rest) ← readType steps false rest
      readOperations steps level (.cast left type) rest
    | _, some (operator, strength, rest) =>
      if strength < level then some (left, ts)
      else do
        guard !(strength == 3 && left.isComparison)
        let (right, rest) ← readValue steps (strength + 1) rest
        readOperations steps level (.binary operator left right) rest
    | _, none => some (left, ts)

/-- Reads a constant with the signs in front of it. -/
def readUnary : Nat → List Token → Option (ValueExpr × List Token)
  | 0, _ => none
  | steps + 1, ts =>
    match ts with
    | .mark '&' _ :: rest => do
      let (mutable, rest) := skipWord "mut" rest
      let (operand, rest) ← readUnary steps rest
      some (.unary (if mutable then "&mut " else "&") operand, rest)
    | .mark c _ :: rest =>
      if c = '-' ∨ c = '!' ∨ c = '*' then do
        let (operand, rest) ← readUnary steps rest
        some (.unary (String.singleton c) operand, rest)
      else do
        let (value, rest) ← readPrimary steps ts
        readCalls steps value rest
    | ts => do
      let (value, rest) ← readPrimary steps ts
      readCalls steps value rest

/-- Reads the arguments that a constant is applied to. -/
def readCalls : Nat → ValueExpr → List Token → Option (ValueExpr × List Token)
  | 0, _, _ => none
  | steps + 1, value, .mark '(' _ :: rest => do
    let (arguments, rest) ← readValues steps rest
    readCalls steps (.call value arguments) rest
  | _ + 1, value, rest => some (value, rest)

/-- Reads constants with commas between them up to a closing parenthesis. -/
def readValues : Nat → List Token → Option (List ValueExpr × List Token)
  | 0, _ => none
  | steps + 1, ts =>
    match ts with
    | .mark ')' _ :: rest => some ([], rest)
    | ts => do
      let (item, rest) ← readValue steps 0 ts
      match rest with
      | .mark ')' _ :: rest => some ([item], rest)
      | .mark ',' _ :: rest =>
        let (items, rest) ← readValues steps rest
        some (item :: items, rest)
      | _ => none

/-- Reads a literal, a name, or a constant in parentheses or braces. -/
def readPrimary : Nat → List Token → Option (ValueExpr × List Token)
  | 0, _ => none
  | steps + 1, ts =>
    match ts with
    | .mark '(' _ :: rest => do
      let (value, rest) ← readValue steps 0 rest
      some (.parens value, ← afterMark? ')' rest)
    | .mark '\x7b' _ :: .mark '\x7d' _ :: rest => some (.block none, rest)
    | .mark '\x7b' _ :: rest => do
      let (value, rest) ← readValue steps 0 rest
      some (.block (some value), ← afterMark? '\x7d' rest)
    | ts =>
      match readLiteral ts with
      | some (s, rest) => some (.literal s, rest)
      | none => do
        let (path, rest) ← readPath steps true ts
        match readExpansion? path rest with
        | some (opening, items, rest) => some (.expansion path opening items, rest)
        | none => some (.path path, rest)

end

/-- The type that a text writes. -/
def TypeExpr.parse? (s : String) : Option TypeExpr := do
  let tokens ← tokens? s
  match ← readType (12 * tokens.length + 12) true tokens with
  | (type, []) => some type
  | _ => none

end PlainSchema.Contract
