import PlainSchema.Text.Layout

/-!
# How a layout begins

A layout writes from the front on: what is on the page stays there, `Doc.Page.prefix_doc`.  So a
document that begins with a word is laid out with the indentation of the first line and the word in
front, `Doc.prefix_layout`.
-/

namespace PlainSchema.Text.Doc

theorem Page.prefix_write (page : Page) (word : String) :
    page.text.toList <+: (page.write word).text.toList := by
  rw [Page.write, String.toList_append, String.toList_append, List.append_assoc]
  exact List.prefix_append _ _

theorem Page.prefix_newLine (page : Page) (indent : Int) :
    page.text.toList <+: (page.newLine indent).text.toList := by
  rw [Page.newLine, String.toList_append]
  exact List.prefix_append _ _

theorem Page.prefix_gap (page : Page) (g : Gap) (endsLine : Bool) (indent : Int) :
    page.text.toList <+: (page.gap g endsLine indent).text.toList := by
  rw [Page.gap]
  split
  · split
    · exact (page.prefix_write ",").trans (Page.prefix_newLine _ _)
    · exact page.prefix_newLine _
  · exact List.prefix_rfl

mutual

/-- Writing a part changes nothing that is on the page. -/
theorem Page.prefix_piece (mode : Mode) (indent : Int) (ahead : Nat) :
    ∀ (piece : Piece) (page : Page),
      page.text.toList <+: (Page.piece mode indent ahead piece page).text.toList
  | .text s, page => page.prefix_write s
  | .gap _, page => page.prefix_gap _ _ _
  | .box consistent offset items, page => by
    rw [Page.piece]
    split
    · exact Page.prefix_doc _ _ _ items page
    · exact Page.prefix_doc _ _ _ items page

/-- Writing a document changes nothing that is on the page. -/
theorem Page.prefix_doc (mode : Mode) (indent : Int) (after : Nat) :
    ∀ (doc : Doc) (page : Page),
      page.text.toList <+: (Page.doc mode indent after doc page).text.toList
  | [], _ => List.prefix_rfl
  | piece :: rest, page =>
    (Page.prefix_piece mode indent _ piece page).trans (Page.prefix_doc mode indent after rest _)

end

/-- Blanks as a list. -/
theorem toList_blanks (n : Nat) : ("".pushn ' ' n).toList = List.replicate n ' ' := by
  induction n with
  | zero => rfl
  | succ n ih =>
    rw [List.replicate_succ', ← ih, ← String.toList_push]
    rfl

/-- A document that begins with a word has the indentation and the word in front. -/
theorem prefix_layout (first others : Nat) (word : String) (rest : Doc) :
    List.replicate first ' ' ++ word.toList <+: (layout first others (.text word :: rest)).toList := by
  have hword : List.replicate first ' ' ++ word.toList = (Page.write
      { text := "", blanks := first, space := lineWidth - first } word).text.toList := by
    rw [Page.write, String.empty_append, String.toList_append, toList_blanks]
  rw [hword, layout, Page.doc]
  exact Page.prefix_doc _ _ _ rest _

end PlainSchema.Text.Doc
