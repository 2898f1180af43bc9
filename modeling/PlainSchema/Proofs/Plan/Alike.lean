import PlainSchema.Proofs.Plan.OwnPaths
import PlainSchema.Proofs.Plan.Shapes

/-!
# Fields that are merged alike

Merging keeps the first of the plans of a name, and with it the way in which the first one carries its
value.  The test for compatible plans compares what they make of the Plain field and not the way that
they carry values into it:

```text
incompatibility?        kind, reference, map or not, list or not, override
FieldPlan.SameFacets    serialized, unwrapped, with the format of an enum
```

Plans that pass both carry values alike, `FieldPlan.CarriesLike`.  If all candidates of a name have the
same facets, a merged field carries a value from each of its paths like the candidate of the path,
`SourceMessage.IsPlanOf.exists_alike`.  Without merged fields there is one candidate of a name,
`SourceMessage.IsPlanOf.mergesAlike_of_crf`.
-/

namespace PlainSchema

open Proto

/-! ## Plans that carry alike -/

/-- Two plans carry values in the same way. -/
structure FieldPlan.SameFacets (plan other : FieldPlan) : Prop where
  isSerialized : plan.origin.isSerialized = other.origin.isSerialized
  aliasType : plan.origin.aliasType.isSome = other.origin.aliasType.isSome
  enumFormat : plan.origin.enumFormat = other.origin.enumFormat
  aliasField : plan.aliasField = other.aliasField

instance (plan other : FieldPlan) : Decidable (plan.SameFacets other) :=
  decidable_of_iff (_ ∧ _ ∧ _ ∧ _)
    ⟨fun ⟨hserialized, halias, hformat, hfield⟩ => ⟨hserialized, halias, hformat, hfield⟩,
      fun h => ⟨h.isSerialized, h.aliasType, h.enumFormat, h.aliasField⟩⟩

/-- Two plans make one field of a value, and carry values into it in the same way. -/
structure FieldPlan.CarriesLike (plan other : FieldPlan) : Prop extends plan.SameFacets other where
  kind : plan.shape.kind = other.shape.kind
  typeRef : plan.shape.typeRef = other.shape.typeRef
  isMap : plan.shape.isMap = other.shape.isMap
  repeated : plan.shape.cardinality = .repeated ↔ other.shape.cardinality = .repeated

/-- A plan that carries like the plan of a field carries what the field holds. -/
theorem FieldPlan.CarriesLike.carries {ctx : PlanContext} {ref : String → String} {leaf : SourceField}
    {plan other : FieldPlan} (h : plan.CarriesLike other) (hcarries : other.Carries ctx ref leaf) :
    plan.Carries ctx ref leaf := by
  cases hcarries with
  | serialized hserialized hoption hshape =>
    exact .serialized (h.isSerialized ▸ hserialized) hoption
      ⟨h.kind.trans hshape.kind, h.typeRef.trans hshape.typeRef⟩
  | unwrapped hserialized halias hwrapper hfield hkind href =>
    exact .unwrapped (h.isSerialized ▸ hserialized) (h.aliasType ▸ halias) hwrapper
      (h.aliasField.trans hfield) (h.kind.trans hkind) (h.typeRef.trans href)
  | asString hserialized halias hformat hkind hshape =>
    exact .asString (h.isSerialized ▸ hserialized) (h.aliasType ▸ halias)
      (h.enumFormat.trans hformat) hkind ⟨h.kind.trans hshape.kind, h.typeRef.trans hshape.typeRef⟩
  | asInt hserialized halias hformat hkind hshape =>
    exact .asInt (h.isSerialized ▸ hserialized) (h.aliasType ▸ halias)
      (h.enumFormat.trans hformat) hkind ⟨h.kind.trans hshape.kind, h.typeRef.trans hshape.typeRef⟩
  | copied hserialized halias hformat hkind href =>
    exact .copied (h.isSerialized ▸ hserialized) (h.aliasType ▸ halias) (h.enumFormat.trans hformat)
      (h.kind.trans hkind) (h.typeRef.trans href)

/-- Compatible plans with the same facets carry alike. -/
theorem FieldPlan.SameFacets.carriesLike {plan other : FieldPlan} (h : plan.SameFacets other)
    (hcompatible : incompatibility? plan other = none) : plan.CarriesLike other := by
  rw [incompatibility?] at hcompatible
  split at hcompatible
  · cases hcompatible
  · split at hcompatible
    · cases hcompatible
    · next htypes =>
      split at hcompatible
      · cases hcompatible
      · next hlists =>
        rw [not_or, not_or, not_not, not_not, not_not] at htypes
        exact { h with
          kind := htypes.1
          typeRef := htypes.2.1
          isMap := htypes.2.2
          repeated := iff_of_eq (not_not.mp hlists) }

theorem aliasField_retargetPlan (renames : Renames) (plan : FieldPlan) :
    (renames.retargetPlan plan).aliasField = plan.aliasField := by
  rw [Renames.retargetPlan]
  split
  · next old new _ => exact aliasField_addStep (show Step.IsNeutral (.rename old new) from ⟨rfl, rfl⟩)
  · rfl

/-- Renaming the references of plans that carry alike leaves them alike. -/
theorem FieldPlan.CarriesLike.retarget {plan other : FieldPlan} (h : plan.CarriesLike other)
    (renames : Renames) : (renames.retargetPlan plan).CarriesLike (renames.retargetPlan other) := by
  have hshape := shape_retargetPlan renames plan
  have hshape' := shape_retargetPlan renames other
  have horigin := (sameOrigin_retargetPlan renames plan).origin
  have horigin' := (sameOrigin_retargetPlan renames other).origin
  refine ⟨⟨?_, ?_, ?_, ?_⟩, ?_, ?_, ?_, ?_⟩
  · rw [← horigin, ← horigin', h.isSerialized]
  · rw [← horigin, ← horigin', h.aliasType]
  · rw [← horigin, ← horigin', h.enumFormat]
  · rw [aliasField_retargetPlan, aliasField_retargetPlan, h.aliasField]
  all_goals rw [hshape, hshape']
  · exact h.kind
  · exact congrArg (Option.map renames.rename) h.typeRef
  · exact h.isMap
  · exact h.repeated

/-! ## Candidates of one name -/

/-- The candidates of a name carry their values in the same way. -/
def SourceMessage.MergesAlike (m : SourceMessage) (schema : Schema) (settings : Settings)
    (newFullName : String) : Prop :=
  ∀ plan ∈ m.candidates schema settings newFullName,
    ∀ other ∈ m.candidates schema settings newFullName,
      plan.shape.name = other.shape.name → plan.isReversible → plan.SameFacets other

instance (m : SourceMessage) (schema : Schema) (settings : Settings) (newFullName : String) :
    Decidable (m.MergesAlike schema settings newFullName) :=
  inferInstanceAs (Decidable (∀ _ ∈ _, ∀ _ ∈ _, _ → _ → _))

namespace SourceMessage.IsPlanOf

variable {schema : Schema} {settings : Settings} {renames : Renames} {m : SourceMessage}
  {mp : MessagePlan}

/-- Without merged fields there is one candidate of a name. -/
theorem mergesAlike_of_crf (h : m.IsPlanOf schema settings renames mp) (hgenerate : mp.generate)
    (hcrf : mp.crf = []) : m.MergesAlike schema settings mp.newFullName := by
  intro plan hplan other hother hname _
  obtain ⟨_, _, hmerges, -⟩ := h.exists_merges hgenerate
  have hlength : (plansNamed (m.candidates schema settings mp.newFullName) plan.shape.name).length
      ≤ 1 := by
    by_contra hmany
    obtain ⟨entry, hentry, -⟩ := hmerges.merged plan.shape.name (by omega)
    rw [hcrf] at hentry
    cases hentry
  have hmem : ∀ candidate ∈ m.candidates schema settings mp.newFullName,
      candidate.shape.name = plan.shape.name →
        candidate ∈ plansNamed (m.candidates schema settings mp.newFullName) plan.shape.name :=
    fun candidate hcandidate hsame => List.mem_filter.mpr ⟨hcandidate, by simpa using hsame⟩
  have hone := hmem plan hplan rfl
  obtain ⟨only, honly⟩ := List.length_eq_one_iff.mp
    (Nat.le_antisymm hlength (List.length_pos_of_mem hone))
  rw [honly] at hmem hone
  rw [List.mem_singleton.mp hone, List.mem_singleton.mp (hmem other hother hname.symm)]
  exact ⟨rfl, rfl, rfl, rfl⟩

/-- **A planned field carries what is at each of its paths like the candidate of the path.** -/
theorem exists_alike (h : m.IsPlanOf schema settings renames mp) (hgenerate : mp.generate)
    (hm : m ∈ schema.messages)
    (hnames : ∀ m ∈ schema.messages, ∀ field ∈ m.fields, field.name ≠ "")
    (halike : m.MergesAlike schema settings mp.newFullName) {plan : FieldPlan}
    (hplan : plan ∈ mp.fields) (hreversible : plan.isReversible) {path : List String}
    (hpath : path ∈ mp.ownPaths plan) :
    ∃ candidate ∈ m.candidates schema settings mp.newFullName, candidate.isReversible ∧
      candidate.origin.sourcePath = path ∧
      plan.CarriesLike (renames.retargetPlan candidate) := by
  obtain ⟨hown, -, hall⟩ := h.mem_ownPaths hgenerate hm hnames hplan hreversible
  obtain ⟨candidate, hcandidate, hname, hsource⟩ := (hown path).mp hpath
  refine ⟨candidate, hcandidate, hall candidate hcandidate hname, hsource, ?_⟩
  obtain ⟨kept, groups, hmerges, -, hgroups, hfields⟩ := h.exists_finished hgenerate
  obtain ⟨before, hbefore, number, rfl⟩ := exists_left_of_forall₂ hfields hplan
  -- The plan was made of the first candidate of its name, which is compatible with the others.
  have hsame := sameOrigin_retargetPlan renames { before with shape := { before.shape with number } }
  have hkept : before ∈ kept := by
    have hmem : before ∈ groups.flatten.filter (·.isReversible) :=
      List.mem_filter.mpr ⟨hbefore, hsame.isReversible ▸ hreversible⟩
    rw [filter_isReversible_flatten hgroups] at hmem
    exact (List.mem_filter.mp hmem).1
  obtain ⟨first, rest, hnamed, hfrom, hrest⟩ := hmerges.kept before hkept
  have hmem : ∀ other, other ∈ first :: rest ↔
      other ∈ m.candidates schema settings mp.newFullName ∧ other.shape.name = before.shape.name := by
    intro other
    rw [← hnamed, plansNamed, List.mem_filter, beq_iff_eq]
  have hfirst := (hmem first).mp List.mem_cons_self
  have hfirstReversible : first.isReversible :=
    hall first hfirst.1 (hfirst.2.trans hsame.name)
  have hlike : first.CarriesLike candidate := by
    have hsameName : candidate.shape.name = before.shape.name := hname.trans hsame.name.symm
    rcases List.mem_cons.mp ((hmem candidate).mpr ⟨hcandidate, hsameName⟩) with rfl | hother
    · exact ⟨⟨rfl, rfl, rfl, rfl⟩, rfl, rfl, rfl, Iff.rfl⟩
    · exact (halike first hfirst.1 candidate hcandidate (hfirst.2.trans hsameName.symm)
        hfirstReversible).carriesLike (hrest candidate hother)
  have hbeforeLike : FieldPlan.CarriesLike { before with shape := { before.shape with number } }
      candidate := by
    refine ⟨⟨?_, ?_, ?_, ?_⟩, ?_, ?_, ?_, ?_⟩
    · exact hfrom.origin ▸ hlike.isSerialized
    · exact hfrom.origin ▸ hlike.aliasType
    · exact hfrom.origin ▸ hlike.enumFormat
    · exact hfrom.aliasField.trans hlike.aliasField
    · exact hfrom.shape ▸ hlike.kind
    · exact hfrom.shape ▸ hlike.typeRef
    · exact hfrom.shape ▸ hlike.isMap
    · exact hfrom.shape ▸ hlike.repeated
  exact hbeforeLike.retarget renames

end SourceMessage.IsPlanOf

end PlainSchema
