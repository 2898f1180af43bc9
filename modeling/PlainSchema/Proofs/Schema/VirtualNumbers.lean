import PlainSchema.Proofs.Schema.Valid

/-!
# The numbers of virtual fields

What a schema without errors says about the numbers that virtual fields ask for: they are not negative,
and no two virtual fields of one message, or of one virtual type, ask for the same one.  A virtual field
of a message asks for no number of its source fields either.  Nothing bounds the numbers from above.
-/

namespace PlainSchema

open Proto

/-- No errors are among some findings. -/
def NoErrors (findings : List Diagnostic) : Prop :=
  ∀ finding ∈ findings, ¬ finding.isError

theorem NoErrors.of_subset {findings others : List Diagnostic} (h : NoErrors findings)
    (hsub : others ⊆ findings) : NoErrors others :=
  fun finding hfinding => h finding (hsub hfinding)

/-- Without errors about the elements of a list there is none about the element at an index. -/
theorem NoErrors.of_mapIdx {α : Type} {xs : List α} {f : Nat → α → List Diagnostic}
    (h : NoErrors (xs.mapIdx f).flatten) {i : Nat} (hi : i < xs.length) : NoErrors (f i xs[i]) :=
  fun finding hfinding => h finding
    (List.mem_flatten.mpr ⟨_, List.mem_mapIdx.mpr ⟨i, hi, rfl⟩, hfinding⟩)

theorem NoErrors.left {first second : List Diagnostic} (h : NoErrors (first ++ second)) :
    NoErrors first :=
  h.of_subset (List.subset_append_left _ _)

theorem NoErrors.right {first second : List Diagnostic} (h : NoErrors (first ++ second)) :
    NoErrors second :=
  h.of_subset (List.subset_append_right _ _)

/-- Positive numbers that no earlier element has are distinct. -/
theorem nodup_positive_of_take {α : Type} {xs : List α} {f : α → Int}
    (h : ∀ i (hi : i < xs.length), 0 < f xs[i] → (xs.take i).any (f · == f xs[i]) = false) :
    ((xs.map f).filter (0 < ·)).Nodup := by
  rw [List.Nodup, List.pairwise_filter, List.pairwise_map, List.pairwise_iff_getElem]
  intro i j hi hj hij _ hpos heq
  have hnone := h j hj (by simpa using hpos)
  rw [List.any_eq_false] at hnone
  exact hnone xs[i] (List.mem_take_iff_getElem.mpr ⟨i, by omega, rfl⟩) (by simpa using heq)

section Checked

variable {schema : Schema} {m : SourceMessage}

theorem nonneg_of_virtualFieldFindings {subject : String} {field : VirtualField}
    (h : NoErrors (virtualFieldFindings schema m subject field)) : 0 ≤ field.number := by
  have hnegative := not_of_errorIf h.left.right
  simpa using hnegative

/-- The numbers that the virtual fields of a message ask for. -/
theorem numbers_of_virtualFieldsFindings (h : NoErrors (m.virtualFieldsFindings schema)) :
    (∀ field ∈ m.options.virtualFields, 0 ≤ field.number) ∧
      ((m.options.virtualFields.map (·.number)).filter (0 < ·)).Nodup ∧
      ∀ field ∈ m.options.virtualFields, 0 < field.number →
        field.number ∉ m.fields.map (·.number) := by
  have htaken : ∀ i (hi : i < m.options.virtualFields.length),
      0 < m.options.virtualFields[i].number →
        m.fields.any (·.number == m.options.virtualFields[i].number) = false := by
    intro i hi hpos
    have htaken := not_of_errorIf (h.of_mapIdx hi).left.left.right
    simpa [hpos] using htaken
  refine ⟨fun field hfield => ?_, nodup_positive_of_take fun i hi hpos => ?_,
    fun field hfield hpos hmem => ?_⟩
  · obtain ⟨i, hi, rfl⟩ := List.mem_iff_getElem.mp hfield
    exact nonneg_of_virtualFieldFindings (h.of_mapIdx hi).left.left.left
  · have hrepeated := not_of_errorIf (h.of_mapIdx hi).left.right
    rw [htaken i hi hpos] at hrepeated
    simpa [hpos] using hrepeated
  · obtain ⟨i, hi, rfl⟩ := List.mem_iff_getElem.mp hfield
    obtain ⟨other, hother, heq⟩ := List.mem_map.mp hmem
    have hnone := htaken i hi hpos
    rw [List.any_eq_false] at hnone
    exact hnone other hother (by simpa using heq)

/-- The numbers that the fields of a virtual type ask for. -/
theorem numbers_of_virtualTypesFindings (h : NoErrors (m.virtualTypesFindings schema))
    {type : VirtualType} (htype : type ∈ m.options.virtualTypes) :
    (∀ field ∈ type.fields, 0 ≤ field.number) ∧
      ((type.fields.map (·.number)).filter (0 < ·)).Nodup := by
  obtain ⟨i, hi, rfl⟩ := List.mem_iff_getElem.mp htype
  have hfields := (h.of_mapIdx hi).right
  refine ⟨fun field hfield => ?_, nodup_positive_of_take fun j hj hpos => ?_⟩
  · obtain ⟨j, hj, rfl⟩ := List.mem_iff_getElem.mp hfield
    exact nonneg_of_virtualFieldFindings (hfields.of_mapIdx hj).left
  · have hrepeated := not_of_errorIf (hfields.of_mapIdx hj).right
    simpa [hpos] using hrepeated

/-- In a schema without errors the virtual types and fields of a generated message have none. -/
theorem Schema.noErrors_of_virtual (hfindings : NoErrors schema.findings) (hm : m ∈ schema.messages)
    (hgenerate : m.options.generate) :
    NoErrors (m.virtualTypesFindings schema) ∧ NoErrors (m.virtualFieldsFindings schema) := by
  have hadditions : NoErrors (m.virtualTypesFindings schema ++ m.virtualFieldsFindings schema) := by
    intro finding hfinding
    refine hfindings finding (Schema.mem_findings hm ?_)
    rw [SourceMessage.findings, if_pos hgenerate]
    exact List.mem_append_left _ (List.mem_append_left _ (List.mem_append_right _ hfinding))
  exact ⟨hadditions.left, hadditions.right⟩

end Checked

end PlainSchema
