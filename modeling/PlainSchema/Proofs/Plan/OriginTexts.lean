import PlainSchema.Proofs.Crf.RoundTrip
import PlainSchema.Proofs.Plan.OwnPaths

/-!
# Reading the names of a path

There are two readers of a path.  One reads all of it and skips the segments whose decoded name is
empty; the other reads the names alone and skips the segments in which nothing stands in front of the
markers.  As decoding makes nothing of something, both skip the same segments.

The origin of a planned field is written with a marker for its oneof.  It is read back as the source path
of the field, so that fields from different places never have one origin text.
-/

namespace PlainSchema

namespace Crf

/-- What the reader of names reads in a segment is the name of the segment, if it has one. -/
theorem name_of_segment (raw : List Char) :
    (if (((Text.cutFirst? '?' raw).map (·.1)).getD raw).isEmpty then none
      else some (unescape (String.ofList (((Text.cutFirst? '?' raw).map (·.1)).getD raw))))
      = if (Segment.parse raw).name = "" then none else some (Segment.parse raw).name := by
  rw [Segment.name_parse]
  generalize ((Text.cutFirst? '?' raw).map (·.1)).getD raw = name
  have hempty : unescape (String.ofList name) = "" ↔ name.isEmpty := by
    rw [unescape_eq_empty_iff, ← String.toList_inj]
    simp
  by_cases hname : name.isEmpty
  · rw [if_pos hname, if_pos (hempty.mpr hname)]
  · rw [if_neg hname, if_neg fun heq => hname (hempty.mp heq)]

/-- The reader of names reads the names that the reader of paths reads. -/
theorem fieldNamesOf_eq_fieldNames_parse (text : String) :
    fieldNamesOf text = (Path.parse text).fieldNames := by
  rw [fieldNamesOf, Path.parse, Path.fieldNames]
  induction Text.splitAll '/' text.toList with
  | nil => rfl
  | cons raw pieces ih =>
    rw [List.filterMap_cons]
    dsimp only at ih ⊢
    rw [name_of_segment raw]
    by_cases hraw : raw = []
    · -- A segment without any text has no name either.
      subst hraw
      exact ih
    · have hfull : (!raw.isEmpty) = true := by simpa using hraw
      rw [List.filter_cons, if_pos hfull, List.map_cons, List.filter_cons]
      by_cases hname : (Segment.parse raw).name = ""
      · simpa [hname] using ih
      · simpa [hname] using ih

end Crf

/-- A plan says where its values come from: its source path has names, and none of them is empty. -/
structure FieldPlan.HasSource (plan : FieldPlan) : Prop where
  path : plan.origin.sourcePath ≠ []
  names : ∀ name ∈ plan.origin.sourcePath, name ≠ ""

/-- **Both readers of paths agree, and origins are faithful.**  They read the same names in every text.
Both read the source path of a field in its origin text, whatever oneof the field is marked with, so that
two fields have one origin text only if they have one source path. -/
theorem origin_texts_are_faithful :
    (∀ text, Crf.fieldNamesOf text = (Crf.Path.parse text).fieldNames) ∧
    (∀ plan : FieldPlan, plan.HasSource → Crf.fieldNamesOf plan.originPath = plan.origin.sourcePath ∧
      (Crf.Path.parse plan.originPath).fieldNames = plan.origin.sourcePath) ∧
    ∀ plan other : FieldPlan, plan.HasSource → other.HasSource →
      plan.originPath = other.originPath → plan.origin.sourcePath = other.origin.sourcePath := by
  have hread : ∀ plan : FieldPlan, plan.HasSource →
      Crf.fieldNamesOf plan.originPath = plan.origin.sourcePath :=
    fun plan hplan => fieldNamesOf_originPath hplan.path hplan.names
  refine ⟨Crf.fieldNamesOf_eq_fieldNames_parse, fun plan hplan => ⟨hread plan hplan, ?_⟩,
    fun plan other hplan hother heq => ?_⟩
  · rw [← Crf.fieldNamesOf_eq_fieldNames_parse]
    exact hread plan hplan
  · rw [← hread plan hplan, ← hread other hother, heq]

/-- A number of a card, with separators in the names on its path. -/
def cardNumberPlan : FieldPlan where
  shape := { name := "number", kind := .scalar .string }
  origin := { sourcePath := ["card/1", "number?"], oneofGroup := some "pay;ment=" }

/-- A number that is read from two fields deep, with the same letters on its path. -/
def deepNumberPlan : FieldPlan where
  shape := { name := "number", kind := .scalar .string }
  origin := { sourcePath := ["card", "1", "number?"] }

/-- Separators in names do not lead from one path to another. -/
theorem cardNumber_origin_is_faithful :
    cardNumberPlan.HasSource ∧ deepNumberPlan.HasSource ∧
      Crf.fieldNamesOf cardNumberPlan.originPath = ["card/1", "number?"] ∧
      cardNumberPlan.originPath ≠ deepNumberPlan.originPath := by
  have hcard : cardNumberPlan.HasSource := ⟨by decide, by decide⟩
  have hdeep : deepNumberPlan.HasSource := ⟨by decide, by decide⟩
  obtain ⟨-, hread, hfaithful⟩ := origin_texts_are_faithful
  refine ⟨hcard, hdeep, (hread cardNumberPlan hcard).1, fun heq => ?_⟩
  exact absurd (hfaithful cardNumberPlan deepNumberPlan hcard hdeep heq) (by decide)

end PlainSchema
