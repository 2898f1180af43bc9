/-!
# Layout of long lines

A document is a row of texts, gaps and boxes.  A gap is written as blanks or ends the line; a box
is written on one line if what it holds, and all that follows up to the next gap outside of it,
fits into the rest of the line.  In a box that does not fit, the gaps of a `consistent` box all
end the line, and a gap of any other box ends it when what follows the gap does not fit.
-/

namespace PlainSchema.Text

/-- The number of columns of a line. -/
def lineWidth : Nat := 89

/-- The number of columns that a line offers behind its indentation, however deep that is. -/
def leastWidth : Nat := 60

/-- A number of blanks that fits into no line: a gap as wide as that always ends the line. -/
def Doc.endless : Nat := 65535

/-- A place where a line may end. -/
structure Gap where
  /-- The number of blanks, where the line does not end. -/
  blanks : Nat := 0
  /-- How much deeper than its box the next line is indented. -/
  offset : Int := 0
  /-- Whether a line that ends here gets a comma. -/
  comma : Bool := false
  /-- Whether the line never ends here.  Such a gap only bounds what is measured. -/
  unbroken : Bool := false
  deriving DecidableEq, Repr

/-- A part of a document. -/
inductive Piece where
  | text (s : String)
  | gap (g : Gap)
  /-- A box whose lines are indented by `offset` more than the lines around it. -/
  | box (consistent : Bool) (offset : Int) (items : List Piece)
  deriving Repr

/-- A document. -/
abbrev Doc := List Piece

namespace Doc

/-! ## Widths -/

mutual

/-- The width of a part that is written on one line. -/
def pieceWidth : Piece → Nat
  | .text s => s.utf8ByteSize
  | .gap g => g.blanks
  | .box _ _ items => width items

/-- The width of a document that is written on one line. -/
def width : Doc → Nat
  | [] => 0
  | piece :: rest => pieceWidth piece + width rest

end

/-- The width of a document up to its first gap, those in boxes excepted.  If there is none, the
given width of what follows the document is added. -/
def leadWidth (after : Nat) : Doc → Nat
  | [] => after
  | .gap _ :: _ => 0
  | piece :: rest => pieceWidth piece + leadWidth after rest

/-! ## Pages -/

/-- A text with a line under construction at its end. -/
structure Page where
  text : String
  /-- The blanks in front of the next word.  They are not written at the end of a line. -/
  blanks : Nat
  /-- The columns that are left on the line. -/
  space : Int
  deriving Repr, Inhabited

/-- Writes a word. -/
def Page.write (page : Page) (word : String) : Page where
  text := page.text ++ "".pushn ' ' page.blanks ++ word
  blanks := 0
  space := page.space - word.utf8ByteSize

/-- Leaves blanks. -/
def Page.skip (page : Page) (blanks : Nat) : Page :=
  { page with blanks := page.blanks + blanks, space := page.space - blanks }

/-- Ends the line and indents the next one. -/
def Page.newLine (page : Page) (indent : Int) : Page where
  text := page.text ++ "\n"
  blanks := indent.toNat
  space := max (lineWidth - indent) leastWidth

/-- How the gaps of a box are treated. -/
inductive Mode where
  /-- No gap ends the line. -/
  | flat
  /-- Every gap ends the line. -/
  | broken
  /-- A gap ends the line if what follows it does not fit. -/
  | filled
  deriving DecidableEq, Repr

/-- Whether a gap ends the line, given the width up to the next gap. -/
def Gap.endsLine (g : Gap) (mode : Mode) (ahead : Nat) (space : Int) : Bool :=
  !g.unbroken &&
    match mode with
    | .flat => false
    | .broken => true
    | .filled => decide (space < g.blanks + ahead)

/-- Writes a gap. -/
def Page.gap (page : Page) (g : Gap) (endsLine : Bool) (indent : Int) : Page :=
  if endsLine then (if g.comma then page.write "," else page).newLine (indent + g.offset)
  else page.skip g.blanks

mutual

/-- Writes a part, of which `ahead` is the width of all that follows up to the next gap. -/
def Page.piece (mode : Mode) (indent : Int) (ahead : Nat) : Piece → Page → Page
  | .text s, page => page.write s
  | .gap g, page => page.gap g (Gap.endsLine g mode ahead page.space) indent
  | .box consistent offset items, page =>
    if page.space < (width items + ahead : Nat) then
      page.doc (if consistent then .broken else .filled) (indent + offset) ahead items
    else page.doc .flat indent ahead items

/-- Writes a document, of which `after` is the width of all that follows up to the next gap. -/
def Page.doc (mode : Mode) (indent : Int) (after : Nat) : Doc → Page → Page
  | [], page => page
  | piece :: rest, page =>
    Page.doc mode indent after rest (Page.piece mode indent (leadWidth after rest) piece page)

end

/-- The text of a document whose first line is indented by `first` and whose other lines are
indented by `others`, up to their offsets. -/
def layout (first others : Nat) (doc : Doc) : String :=
  let page : Page := { text := "", blanks := first, space := lineWidth - first }
  (page.doc .broken others 0 doc).text

/-! ## Lists -/

/-- Documents with commas and gaps between them, the last one closed by a gap that returns to the
indentation of the lines around a list. -/
def commaSeparated : List Doc → Doc
  | [] => [.gap { offset := -4 }]
  | [doc] => doc ++ [.gap { offset := -4, comma := true }]
  | doc :: rest => doc ++ .text "," :: .gap { blanks := 1 } :: commaSeparated rest

/-- A list in a box of its own, one item a line unless all fit on one.  An empty list has no
box. -/
def listed (offset : Int) (docs : List Doc) : Doc :=
  if docs.isEmpty then [] else [.box true offset (.gap {} :: commaSeparated docs)]

/-- Documents with a text between them. -/
def joined (separator : String) : List Doc → Doc
  | [] => []
  | [doc] => doc
  | doc :: rest => doc ++ .text separator :: joined separator rest

/-- Documents with a plus sign between them, which may begin a line. -/
def summed : List Doc → Doc
  | [] => []
  | [doc] => doc
  | doc :: rest => doc ++ .gap { blanks := 1 } :: .text "+ " :: summed rest

end Doc

end PlainSchema.Text
