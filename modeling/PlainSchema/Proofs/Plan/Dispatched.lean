import PlainSchema.Proofs.Plan.Oneofs

/-!
# Dispatched oneofs in a plan

A oneof that is dissolved is expanded when the first of its members is met, and the fold over the fields
records the expansion under its index, `Expanding.Records`.  So **the plan of a message has every
dissolved oneof with a member in its place**, and with it the enum that dispatches the oneof, if there
is one: `SourceMessage.IsPlanOf.getElem?_oneofs_of_flattens`.
-/

namespace PlainSchema

open Proto

section Recorded

variable {ctx : PlanContext} {m : SourceMessage} {newFullName : String}

/-- The dissolved oneofs of the fields met so far are recorded as they are expanded. -/
structure Expanding.Records (ctx : PlanContext) (m : SourceMessage) (newFullName : String)
    (met : List SourceField) (e : Expanding) : Prop where
  recorded : ∀ index, (m.strategy index).flattens → ∀ plan, e.oneofs.lookup index = some plan →
    plan = (ctx.expand m index (m.strategy index) newFullName).plan ∧
      ∀ enum ∈ (ctx.expand m index (m.strategy index) newFullName).generatedEnum, enum ∈ e.enums
  known : ∀ field ∈ met, ∀ index, field.oneofIndex = some index → (m.strategy index).flattens →
    (e.oneofs.lookup index).isSome

namespace Expanding.Records

variable {met : List SourceField} {e : Expanding} {field : SourceField}

/-- After a field that is not in a dissolved oneof. -/
theorem addDirect (h : e.Records ctx m newFullName met)
    (hkept : ∀ index, field.oneofIndex = some index → (m.strategy index).flattens = false)
    {plans : List FieldPlan} {oneofs : List (Nat × OneofPlan)}
    (honeofs : ∀ index, (m.strategy index).flattens → oneofs.lookup index = e.oneofs.lookup index) :
    Expanding.Records ctx m newFullName (met ++ [field]) ⟨plans, e.enums, oneofs⟩ := by
  refine ⟨fun index hflattens plan hplan => ?_, fun other hother index hindex hflattens => ?_⟩
  · rw [honeofs index hflattens] at hplan
    exact h.recorded index hflattens plan hplan
  · rcases List.mem_append.mp hother with hother | hother
    · rw [honeofs index hflattens]
      exact h.known other hother index hindex hflattens
    · rw [List.mem_singleton.mp hother] at hindex
      rw [hkept index hindex] at hflattens
      exact absurd hflattens Bool.false_ne_true

/-- After a later field of a oneof that is dissolved. -/
theorem addKnown (h : e.Records ctx m newFullName met) {index : Nat}
    (hindex : field.oneofIndex = some index) (hknown : (e.oneofs.lookup index).isSome) :
    e.Records ctx m newFullName (met ++ [field]) := by
  refine ⟨h.recorded, fun other hother i hi hflattens => ?_⟩
  rcases List.mem_append.mp hother with hother | hother
  · exact h.known other hother i hi hflattens
  · rw [List.mem_singleton.mp hother, hindex] at hi
    exact Option.some.inj hi ▸ hknown

/-- After the first field of a oneof that is dissolved. -/
theorem addDissolved (h : e.Records ctx m newFullName met) {index : Nat}
    (hindex : field.oneofIndex = some index) (hnew : e.oneofs.lookup index = none)
    (plans : List FieldPlan) : Expanding.Records ctx m newFullName (met ++ [field])
      ⟨plans, e.enums ++ (ctx.expand m index (m.strategy index) newFullName).generatedEnum.toList,
        e.oneofs ++ [(index, (ctx.expand m index (m.strategy index) newFullName).plan)]⟩ := by
  refine ⟨fun i hflattens plan hplan => ?_, fun other hother i hi hflattens => ?_⟩
  · rw [lookup_concat] at hplan
    by_cases hsame : i = index
    · rw [hsame] at hplan ⊢
      rw [hnew, Option.none_or, if_pos rfl] at hplan
      exact ⟨(Option.some.inj hplan).symm, fun enum henum =>
        List.mem_append_right _ (Option.mem_toList.mpr henum)⟩
    · rw [if_neg hsame, Option.or_none] at hplan
      obtain ⟨hexpanded, henums⟩ := h.recorded i hflattens plan hplan
      exact ⟨hexpanded, fun enum henum => List.mem_append_left _ (henums enum henum)⟩
  · rcases List.mem_append.mp hother with hother | hother
    · exact isSome_lookup_concat.mpr (Or.inl (h.known other hother i hi hflattens))
    · rw [List.mem_singleton.mp hother, hindex] at hi
      exact isSome_lookup_concat.mpr (Or.inr (Option.some.inj hi).symm)

/-- After one more field. -/
theorem addField (h : e.Records ctx m newFullName met) (field : SourceField) :
    (e.addField ctx m newFullName field).Records ctx m newFullName (met ++ [field]) := by
  refine Expanding.addField_cases e field (fun _ oneofs hkept honeofs => ?copied)
    (fun index hindex _ hknown => ?known) (fun index hindex _ hnew => ?dissolved)
  case copied =>
    refine h.addDirect hkept fun i hi => ?_
    rcases honeofs with rfl | ⟨index, newIndex, hindex, rfl⟩
    · rfl
    · have hne : i ≠ index := by
        rintro rfl
        rw [hkept i hindex] at hi
        exact Bool.false_ne_true hi
      rw [lookup_concat, if_neg hne, Option.or_none]
  case known => exact h.addKnown hindex hknown
  case dissolved => exact h.addDissolved hindex hnew _

end Expanding.Records

/-- All dissolved oneofs of a message are recorded. -/
theorem records_expandFields (ctx : PlanContext) (m : SourceMessage) (newFullName : String) :
    (expandFields ctx m newFullName).Records ctx m newFullName m.fields :=
  expandFields_induction (Expanding.Records ctx m newFullName) ⟨by simp, by simp⟩
    fun _ field _ _ _ he => he.addField field

end Recorded

/-! ## The plan of a message -/

/-- A oneof is planned to be dispatched by an enum that numbers its members from one on, in the order of
some fields. -/
structure OneofPlan.DispatchedBy (planned : OneofPlan) (enum : GeneratedEnum)
    (fields : List SourceField) : Prop where
  dispatch : planned.dispatch.map (·.enumFullName) = some enum.fullName
  members : planned.members.map (·.name) = fields.map (·.name)
  values : enum.values = (Text.upperSnake enum.name ++ "_UNSPECIFIED", 0)
    :: fields.mapIdx fun i field =>
      (Text.upperSnake enum.name ++ "_" ++ Text.upperSnake field.name, Int.ofNat i + 1)

/-- The enum of a dispatched oneof follows the fields of the message that point at the oneof. -/
theorem dispatchedBy_expand {ctx : PlanContext} {m : SourceMessage} {index : Nat}
    (newFullName : String) :
    ∃ enum ∈ (ctx.expand m index .enumDispatch newFullName).generatedEnum,
      (ctx.expand m index .enumDispatch newFullName).plan.DispatchedBy enum (m.oneofFields index) := by
  refine ⟨_, rfl, rfl, ?_, ?_⟩
  · exact List.map_map ..
  · have hunspecified : "_" ++ "UNSPECIFIED" = "_UNSPECIFIED" := by decide
    rw [dispatchEnum, SourceMessage.oneofMembers]
    dsimp only
    rw [String.append_assoc, hunspecified]
    refine congrArg _ (List.ext_getElem (by simp) fun i hi hi' => ?_)
    simp only [List.getElem_mapIdx, List.getElem_map]

namespace SourceMessage.IsPlanOf

variable {schema : Schema} {settings : Settings} {renames : Renames} {m : SourceMessage}
  {mp : MessagePlan} {index : Nat}

/-- The plan of a dissolved oneof with a member stands in its place, and its enum is there too. -/
theorem getElem?_oneofs_of_flattens (h : m.IsPlanOf schema settings renames mp)
    (hgenerate : mp.generate) (hflattens : (m.strategy index).flattens)
    (hmembers : m.oneofFields index ≠ []) :
    mp.oneofs[index]? = some ((PlanContext.ofFile schema m.file).expand m index (m.strategy index)
        mp.newFullName).plan ∧
      ∀ enum ∈ ((PlanContext.ofFile schema m.file).expand m index (m.strategy index)
        mp.newFullName).generatedEnum, enum ∈ mp.enums := by
  obtain ⟨field, hfield⟩ := List.exists_mem_of_ne_nil _ hmembers
  obtain ⟨hfield, hindex⟩ := List.mem_filter.mp hfield
  have hrecords := records_expandFields (PlanContext.ofFile schema m.file) m mp.newFullName
  have hknown := hrecords.known field hfield index (by simpa using hindex) hflattens
  obtain ⟨planned, hplanned⟩ := Option.isSome_iff_exists.mp hknown
  obtain ⟨rfl, henums⟩ := hrecords.recorded index hflattens planned hplanned
  have hdissolved : m.strategy index ≠ .untouched := by simpa [Strategy.flattens] using hflattens
  obtain ⟨oneof, honeof⟩ := m.exists_oneof_of_strategy hdissolved
  have hgenerates := h.outlines.generate
  have hname := h.outlines.newFullName
  obtain ⟨outlined, houtlined, rfl⟩ := h
  rw [SourceMessage.IsOutlinedAs, if_pos (hgenerates ▸ hgenerate)] at houtlined
  -- The parts of an entry are stated with the name in its outline, which renaming keeps.
  have hsame : (MessagePlan.outline renames m).newFullName = (outlined.rename renames).newFullName :=
    hname.symm
  have honeofs := houtlined.oneofs
  have henums' := houtlined.enums
  rw [hsame] at honeofs henums'
  constructor
  · change outlined.oneofs[index]? = _
    rw [honeofs, List.getElem?_mapIdx, show m.oneofs[index]? = some oneof from honeof, Option.map_some,
      hplanned, Option.getD_some]
  · change ∀ enum ∈ _, enum ∈ outlined.enums
    rw [henums']
    exact henums

end SourceMessage.IsPlanOf

end PlainSchema
