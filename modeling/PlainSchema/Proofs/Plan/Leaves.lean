import PlainSchema.Proofs.Plan.Numbers
import PlainSchema.Proofs.Plan.Planned

/-!
# Where planned fields come from

A Plain field either has no source, and then no way back, or it stands for a field that its path
leads to: through fields of the messages in between, one hop after another.  Every step of planning
keeps this, so it holds of all fields of a plan, `SchemaPlan.Plans.traces`.
-/

namespace PlainSchema

open Proto

/-- A chain of field names leads from a message to a field, through the messages that the fields
before it refer to. -/
inductive Leads (schema : Schema) : SourceMessage → List String → SourceMessage → SourceField → Prop
  | leaf {m : SourceMessage} {field : SourceField} (hfield : field ∈ m.fields) :
      Leads schema m [field.name] m field
  | hop {m next owner : SourceMessage} {field leaf : SourceField} {path : List String}
      (hfield : field ∈ m.fields) (hnext : field.typeRef.bind schema.message? = some next)
      (hpath : Leads schema next path owner leaf) :
      Leads schema m (field.name :: path) owner leaf

theorem Leads.leaf_mem {schema : Schema} {m owner : SourceMessage} {leaf : SourceField}
    {path : List String} (h : Leads schema m path owner leaf) : leaf ∈ owner.fields := by
  induction h with
  | leaf hfield => exact hfield
  | hop _ _ _ ih => exact ih

theorem Leads.owner_mem {schema : Schema} {m owner : SourceMessage} {leaf : SourceField}
    {path : List String} (h : Leads schema m path owner leaf) (hm : m ∈ schema.messages) :
    owner ∈ schema.messages := by
  induction h with
  | leaf hfield => exact hm
  | hop _ hnext _ ih =>
    obtain ⟨ref, -, href⟩ := Option.bind_eq_some_iff.mp hnext
    exact ih (List.mem_reverse.mp (List.mem_of_find?_eq_some href))

/-! ## Plans that stand for a field -/

/-- A step that changes neither the override nor the alias of a plan. -/
def Step.IsNeutral (step : Step) : Prop :=
  step.override? = none ∧ step.aliasField? = none

/-- A plan carries the value of a field the way the field asks for, with its type reference taken
through a function. -/
structure FieldPlan.StandsFor (ctx : PlanContext) (ref : String → String) (owner : SourceMessage)
    (leaf : SourceField) (plan : FieldPlan) : Prop where
  source : plan.source = some (owner.refTo leaf)
  kind : plan.shape.kind = (ctx.valuePlan owner leaf {}).shape.kind
  typeRef : plan.shape.typeRef = (ctx.valuePlan owner leaf {}).shape.typeRef.map ref
  isMap : plan.shape.isMap = leaf.isMap
  cardinality : plan.shape.cardinality = leaf.cardinality ∨ plan.shape.cardinality = .optional
  isVirtual : plan.origin.isVirtual = false
  role : plan.origin.role = none
  isSerialized : plan.origin.isSerialized = (ctx.valuePlan owner leaf {}).origin.isSerialized
  aliasType : plan.origin.aliasType = (ctx.valuePlan owner leaf {}).origin.aliasType
  enumFormat : plan.origin.enumFormat = (ctx.valuePlan owner leaf {}).origin.enumFormat
  aliasField : plan.aliasField = (ctx.valuePlan owner leaf {}).aliasField
  override : plan.override? = ctx.override? owner leaf

/-- A plan has no source and no way back, or it stands for the field that its path leads to. -/
def FieldPlan.Traces (ctx : PlanContext) (ref : String → String) (m : SourceMessage)
    (plan : FieldPlan) : Prop :=
  (plan.source = none ∧ ¬ plan.isReversible) ∨
    ∃ owner leaf, Leads ctx.schema m plan.origin.sourcePath owner leaf ∧
      plan.StandsFor ctx ref owner leaf

theorem aliasField_addStep {plan : FieldPlan} {step : Step} (hstep : step.IsNeutral) :
    (plan.addStep step).aliasField = plan.aliasField := by
  rw [FieldPlan.aliasField, FieldPlan.addStep, List.findSome?_append, List.findSome?_cons, hstep.2]
  simp [FieldPlan.aliasField]

theorem override?_addStep {plan : FieldPlan} {step : Step} (hstep : step.IsNeutral) :
    (plan.addStep step).override? = plan.override? := by
  rw [FieldPlan.override?, FieldPlan.addStep, List.filterMap_append, List.filterMap_cons, hstep.1]
  simp [FieldPlan.override?]

section Keeping

variable {ctx : PlanContext} {ref : String → String} {m owner : SourceMessage}
  {leaf : SourceField} {plan : FieldPlan}

theorem FieldPlan.StandsFor.addStep (h : plan.StandsFor ctx ref owner leaf) {step : Step}
    (hstep : step.IsNeutral) : (plan.addStep step).StandsFor ctx ref owner leaf :=
  { h with
    aliasField := (aliasField_addStep hstep).trans h.aliasField
    override := (override?_addStep hstep).trans h.override }

theorem FieldPlan.StandsFor.tracked (h : plan.StandsFor ctx ref owner leaf) :
    plan.tracked.StandsFor ctx ref owner leaf :=
  { h with cardinality := Or.inr rfl }

theorem FieldPlan.Traces.addStep (h : plan.Traces ctx ref m) {step : Step}
    (hstep : step.IsNeutral) : (plan.addStep step).Traces ctx ref m := by
  rcases h with h | ⟨owner, leaf, hleads, h⟩
  · exact Or.inl h
  · exact Or.inr ⟨owner, leaf, hleads, h.addStep hstep⟩

theorem FieldPlan.Traces.withNumber (h : plan.Traces ctx ref m) (number : Int) :
    { plan with shape := { plan.shape with number } }.Traces ctx ref m := by
  rcases h with h | ⟨owner, leaf, hleads, h⟩
  · exact Or.inl h
  · exact Or.inr ⟨owner, leaf, hleads, { h with }⟩

theorem FieldPlan.Traces.withOneofIndex (h : plan.Traces ctx ref m) (oneofIndex : Option Nat) :
    { plan with shape := { plan.shape with oneofIndex } }.Traces ctx ref m := by
  rcases h with h | ⟨owner, leaf, hleads, h⟩
  · exact Or.inl h
  · exact Or.inr ⟨owner, leaf, hleads, { h with }⟩

theorem FieldPlan.Traces.tracked (h : plan.Traces ctx ref m) : plan.tracked.Traces ctx ref m := by
  rcases h with h | ⟨owner, leaf, hleads, h⟩
  · exact Or.inl h
  · exact Or.inr ⟨owner, leaf, hleads, h.tracked⟩

/-- Renaming takes the reference of a plan to its new name. -/
theorem FieldPlan.Traces.retarget (h : plan.Traces ctx id m) (renames : Renames) :
    (renames.retargetPlan plan).Traces ctx renames.rename m := by
  have hshape : renames.retargetPlan plan
      = { plan with
        shape := { plan.shape with typeRef := plan.shape.typeRef.map renames.rename }
        steps := (renames.retargetPlan plan).steps } := by
    rw [Renames.retargetPlan]
    cases href : plan.shape.typeRef with
    | none => rw [Option.bind_none, Option.map_none, ← href]
    | some old =>
      rw [Option.bind_some, Option.map_some]
      cases hnew : renames.resolve? old with
      | none => rw [Option.map_none, Renames.rename, hnew, Option.getD_none, ← href]
      | some new =>
        rw [Option.map_some, Renames.rename, hnew]
        rfl
  have hsteps : (renames.retargetPlan plan).aliasField = plan.aliasField ∧
      (renames.retargetPlan plan).override? = plan.override? := by
    rw [Renames.retargetPlan]
    split
    · next old new _ =>
      exact ⟨aliasField_addStep (show Step.IsNeutral (.rename old new) from ⟨rfl, rfl⟩),
        override?_addStep (show Step.IsNeutral (.rename old new) from ⟨rfl, rfl⟩)⟩
    · exact ⟨rfl, rfl⟩
  rcases h with h | ⟨owner, leaf, hleads, h⟩
  · rw [hshape]
    exact Or.inl h
  · refine Or.inr ⟨owner, leaf, by rw [hshape]; exact hleads, ?_⟩
    have halias := hsteps.1.trans h.aliasField
    have hoverride := hsteps.2.trans h.override
    rw [hshape] at halias hoverride ⊢
    exact { h with
      typeRef := by
        have href := h.typeRef
        rw [Option.map_id, id] at href
        exact congrArg (Option.map renames.rename) href
      aliasField := halias
      override := hoverride }

end Keeping

/-! ## Flattening -/

section Flattening

variable {ctx : PlanContext} {m : SourceMessage} {field : SourceField} {scope : Scope}
  {plan : FieldPlan}

theorem sourcePath_valuePlan (ctx : PlanContext) (m : SourceMessage) (field : SourceField)
    (scope : Scope) :
    (ctx.valuePlan m field scope).origin.sourcePath = scope.path ++ [field.name] := by
  rw [PlanContext.valuePlan]
  split
  · rfl
  · split
    · rfl
    · split <;> rfl

theorem override?_valuePlan (ctx : PlanContext) (m : SourceMessage) (field : SourceField)
    (scope : Scope) : (ctx.valuePlan m field scope).override? = none := by
  rw [PlanContext.valuePlan]
  split
  · rfl
  · split
    · rfl
    · split <;> rfl

theorem standsFor_planField (ctx : PlanContext) (m : SourceMessage) (field : SourceField)
    (scope : Scope) : (ctx.planField m field scope).StandsFor ctx id m field := by
  have hfacets : ∀ scope, (ctx.valuePlan m field scope).source = some (m.refTo field) ∧
      (ctx.valuePlan m field scope).shape.isMap = field.isMap ∧
      (ctx.valuePlan m field scope).shape.cardinality = field.cardinality ∧
      (ctx.valuePlan m field scope).origin.isVirtual = false ∧
      (ctx.valuePlan m field scope).origin.role = none := by
    intro scope
    rw [PlanContext.valuePlan]
    split
    · exact ⟨rfl, rfl, rfl, rfl, rfl⟩
    · split
      · exact ⟨rfl, rfl, rfl, rfl, rfl⟩
      · split <;> exact ⟨rfl, rfl, rfl, rfl, rfl⟩
  have hscope : ∀ scope scope', (ctx.valuePlan m field scope).shape.kind
        = (ctx.valuePlan m field scope').shape.kind ∧
      (ctx.valuePlan m field scope).shape.typeRef = (ctx.valuePlan m field scope').shape.typeRef ∧
      (ctx.valuePlan m field scope).origin.isSerialized
        = (ctx.valuePlan m field scope').origin.isSerialized ∧
      (ctx.valuePlan m field scope).origin.aliasType
        = (ctx.valuePlan m field scope').origin.aliasType ∧
      (ctx.valuePlan m field scope).origin.enumFormat
        = (ctx.valuePlan m field scope').origin.enumFormat ∧
      (ctx.valuePlan m field scope).steps = (ctx.valuePlan m field scope').steps := by
    intro scope scope'
    rw [PlanContext.valuePlan, PlanContext.valuePlan]
    split
    · exact ⟨rfl, rfl, rfl, rfl, rfl, rfl⟩
    · split
      · exact ⟨rfl, rfl, rfl, rfl, rfl, rfl⟩
      · split <;> exact ⟨rfl, rfl, rfl, rfl, rfl, rfl⟩
  obtain ⟨hsource, hmap, hcardinality, hvirtual, hrole⟩ := hfacets scope
  obtain ⟨hkind, href, hserialized, halias, hformat, hsteps⟩ := hscope scope {}
  have haliasField : (ctx.valuePlan m field scope).aliasField
      = (ctx.valuePlan m field {}).aliasField := by
    rw [FieldPlan.aliasField, FieldPlan.aliasField, hsteps]
  rw [PlanContext.planField]
  cases htarget : ctx.override? m field with
  | none =>
    exact ⟨hsource, hkind, by rw [Option.map_id, id, href], hmap, Or.inl hcardinality, hvirtual,
      hrole, hserialized, halias, hformat, haliasField,
      by rw [htarget]; exact override?_valuePlan ctx m field scope⟩
  | some target =>
    have hfield : ((ctx.valuePlan m field scope).addStep (.override target)).aliasField
        = (ctx.valuePlan m field {}).aliasField := by
      rw [← haliasField]
      simp [FieldPlan.aliasField, FieldPlan.addStep, Step.aliasField?]
    have hoverride : ((ctx.valuePlan m field scope).addStep (.override target)).override?
        = some target := by
      simp [FieldPlan.override?, FieldPlan.addStep, Step.override?]
    exact ⟨hsource, hkind, by rw [Option.map_id, id]; exact href, hmap, Or.inl hcardinality,
      hvirtual, hrole, hserialized, halias, hformat, hfield, by rw [htarget]; exact hoverride⟩

theorem sourcePath_planField (ctx : PlanContext) (m : SourceMessage) (field : SourceField)
    (scope : Scope) :
    (ctx.planField m field scope).origin.sourcePath = scope.path ++ [field.name] := by
  rw [PlanContext.planField]
  split
  · exact sourcePath_valuePlan ctx m field scope
  · exact sourcePath_valuePlan ctx m field scope

/-- A plan stands for a field below a scope. -/
def FieldPlan.TracesBelow (ctx : PlanContext) (m : SourceMessage) (scope : Scope)
    (plan : FieldPlan) : Prop :=
  ∃ path owner leaf, plan.origin.sourcePath = scope.path ++ path ∧
    Leads ctx.schema m path owner leaf ∧ plan.StandsFor ctx id owner leaf

theorem FieldPlan.TracesBelow.traces (h : plan.TracesBelow ctx m scope) (hscope : scope.path = []) :
    plan.Traces ctx id m := by
  obtain ⟨path, owner, leaf, hpath, hleads, hstands⟩ := h
  rw [hscope, List.nil_append] at hpath
  exact Or.inr ⟨owner, leaf, hpath ▸ hleads, hstands⟩

theorem tracesBelow_planField (hfield : field ∈ m.fields) :
    (ctx.planField m field scope).TracesBelow ctx m scope :=
  ⟨[field.name], m, field, sourcePath_planField ctx m field scope, .leaf hfield,
    standsFor_planField ctx m field scope⟩

theorem tracesBelow_embedWithin {levels : Nat} {isPrefixed : Bool} (hfield : field ∈ m.fields)
    (hplan : plan ∈ ctx.embedWithin levels m field scope isPrefixed) :
    plan.TracesBelow ctx m scope := by
  induction levels generalizing m field scope isPrefixed plan with
  | zero => simp [PlanContext.embedWithin] at hplan
  | succ levels ih =>
    rw [PlanContext.embedWithin] at hplan
    split at hplan
    · simp at hplan
    · next target htarget =>
      obtain ⟨f, hf, hplan⟩ := List.mem_flatMap.mp hplan
      obtain ⟨inner, hinner, rfl⟩ := List.mem_map.mp hplan
      have hbelow : inner.TracesBelow ctx target (PlanContext.innerScope m field scope isPrefixed) := by
        split at hinner
        · exact ih hf hinner
        · rw [List.mem_singleton.mp hinner]
          exact tracesBelow_planField hf
      obtain ⟨path, owner, leaf, hpath, hleads, hstands⟩ := hbelow
      refine ⟨field.name :: path, owner, leaf, ?_, .hop hfield htarget hleads,
        hstands.addStep ⟨rfl, rfl⟩⟩
      change inner.origin.sourcePath = _
      rw [hpath]
      change (scope.path ++ [field.name]) ++ path = _
      rw [List.append_assoc]
      rfl

theorem tracesBelow_flattenField (hfield : field ∈ m.fields)
    (hplan : plan ∈ ctx.flattenField m field scope) : plan.TracesBelow ctx m scope := by
  rw [PlanContext.flattenField] at hplan
  split at hplan
  · exact tracesBelow_embedWithin hfield hplan
  · rw [List.mem_singleton.mp hplan]
    exact tracesBelow_planField hfield

theorem traces_memberPlans {oneof namePrefix : String} (hfield : field ∈ m.fields)
    (hplan : plan ∈ ctx.memberPlans m oneof namePrefix field) : plan.Traces ctx id m := by
  rw [PlanContext.memberPlans] at hplan
  split at hplan
  · exact (tracesBelow_embedWithin hfield hplan).traces rfl
  · obtain ⟨inner, hinner, rfl⟩ := List.mem_map.mp hplan
    exact ((tracesBelow_flattenField hfield hinner).traces rfl).tracked

/-- A field that serves a oneof as a whole has no way back. -/
theorem traces_oneofFieldPlan (name : String) (kind : Kind) (oneof : String) (role : Role)
    (step : Step) (typeRef : Option String) (enums : List String) (ref : String → String) :
    (oneofFieldPlan name kind oneof role step typeRef enums).Traces ctx ref m :=
  Or.inl ⟨rfl, by simp [FieldPlan.isReversible, oneofFieldPlan]⟩

theorem traces_expand {index : Nat} {strategy : Strategy} {newFullName : String}
    (hplan : plan ∈ (ctx.expand m index strategy newFullName).fields) : plan.Traces ctx id m := by
  refine expand_forall (P := fun plan => plan.Traces ctx id m) (fun _ _ _ _ _ _ _ => ?_)
    (fun member hmember _ _ _ hplan => ?_) plan hplan
  · exact traces_oneofFieldPlan ..
  · exact traces_memberPlans (List.mem_filter.mp hmember).1 hplan

theorem traces_expandFields {newFullName : String}
    (hplan : plan ∈ (expandFields ctx m newFullName).plans) : plan.Traces ctx id m :=
  expandFields_forall
    (fun _ hfield _ hplan oneofIndex =>
      ((tracesBelow_flattenField hfield hplan).traces rfl).withOneofIndex oneofIndex)
    (fun _ _ _ hplan => traces_expand hplan) plan hplan

end Flattening

/-! ## Merging and numbering -/

/-- What holds of all candidates and companions, and is kept by merging, holds of what is left when
collisions are resolved. -/
theorem resolveCollisions_forall {message : String} {plans merged : List FieldPlan}
    {enableCrf : Bool} {entries : List CrfEntry} {P : FieldPlan → Prop}
    (hmerge : ∀ plan origin, P plan → P (plan.addStep (.merge origin)))
    (hcompanion : ∀ field, P (companionPlan field)) (hall : ∀ plan ∈ plans, P plan)
    (h : resolveCollisions message plans enableCrf = .ok (merged, entries)) :
    ∀ plan ∈ merged, P plan := by
  rw [resolveCollisions] at h
  split at h
  · obtain ⟨merging, hmerging, h⟩ := bind_eq_ok.mp h
    obtain ⟨out, hout, h⟩ := bind_eq_ok.mp h
    obtain ⟨rfl, -⟩ := Prod.mk.inj (Except.ok.inj h)
    have hsteps : ∀ name origin (kept : List FieldPlan), (∀ plan ∈ kept, P plan) →
        ∀ plan ∈ Merging.addStepTo name (.merge origin) kept, P plan := by
      intro name origin kept hkept
      induction kept with
      | nil => exact hkept
      | cons first rest ih =>
        rw [Merging.addStepTo]
        rw [List.forall_mem_cons] at hkept
        split
        · exact List.forall_mem_cons.mpr ⟨hmerge first origin hkept.1, hkept.2⟩
        · exact List.forall_mem_cons.mpr ⟨hkept.1, ih hkept.2⟩
    have hkept : ∀ plan ∈ merging.kept, P plan := by
      refine foldlM_invariant (fun merging : Merging => ∀ plan ∈ merging.kept, P plan) (by simp)
        (fun before plan after hplan hbefore hadd => ?_) hmerging
      rw [Merging.add] at hadd
      split at hadd
      · rw [← Except.ok.inj hadd]
        intro other hother
        rcases List.mem_append.mp hother with hother | hother
        · exact hbefore other hother
        · exact List.mem_singleton.mp hother ▸ hall plan hplan
      · split at hadd
        · exact absurd hadd (by simp)
        · rw [← Except.ok.inj hadd]
          exact hsteps _ _ _ hbefore
    intro plan hplan
    obtain ⟨group, hgroup, hplan⟩ := List.mem_flatten.mp hplan
    obtain ⟨first, hfirst, hwith⟩ := exists_left_of_forall₂ (mapM_eq_ok.mp hout) hgroup
    rw [Merging.withCompanion] at hwith
    split at hwith
    · rw [← Except.ok.inj hwith, List.mem_singleton] at hplan
      exact hplan ▸ hkept first hfirst
    · split at hwith
      · exact absurd hwith (by simp)
      · rw [← Except.ok.inj hwith, List.mem_cons, List.mem_singleton] at hplan
        rcases hplan with rfl | rfl
        · exact hkept plan hfirst
        · exact hcompanion _
  · split at h
    · obtain ⟨rfl, -⟩ := Prod.mk.inj (Except.ok.inj h)
      exact hall
    · exact absurd h (by simp)

/-- What holds of all plans whatever their numbers holds of them with numbers assigned. -/
theorem assignNumbers_forall {plans : List FieldPlan} {P : FieldPlan → Prop}
    (hnumber : ∀ plan number, P plan → P { plan with shape := { plan.shape with number } })
    (hall : ∀ plan ∈ plans, P plan) : ∀ plan ∈ assignNumbers plans, P plan := by
  intro numbered hnumbered
  obtain ⟨plan, hplan, ⟨number, rfl⟩, -⟩ :=
    exists_left_of_forall₂ (forall₂_assignNumbers plans) hnumbered
  exact hnumber plan number (hall plan hplan)

theorem SourceMessage.IsPlannedAs.forall_fields {m : SourceMessage} {schema : Schema}
    {settings : Settings} {outline mp : MessagePlan}
    (h : m.IsPlannedAs schema settings outline mp) {P : FieldPlan → Prop}
    (hmerge : ∀ plan origin, P plan → P (plan.addStep (.merge origin)))
    (hcompanion : ∀ field, P (companionPlan field))
    (hnumber : ∀ plan number, P plan → P { plan with shape := { plan.shape with number } })
    (hall : ∀ plan ∈ m.candidates schema settings outline.newFullName, P plan) :
    ∀ plan ∈ mp.fields, P plan := by
  obtain ⟨merged, hmerged, hfields⟩ := h.collisions
  rw [hfields]
  exact assignNumbers_forall hnumber (resolveCollisions_forall hmerge hcompanion hall hmerged)

theorem traces_candidates {m : SourceMessage} {schema : Schema} {settings : Settings}
    {newFullName : String} {plan : FieldPlan}
    (hplan : plan ∈ m.candidates schema settings newFullName) :
    plan.Traces (PlanContext.ofFile schema m.file) id m := by
  rcases List.mem_append.mp hplan with hplan | hplan
  · exact traces_expandFields hplan
  · obtain ⟨field, -, rfl⟩ := List.mem_map.mp hplan
    exact Or.inl ⟨rfl, by simp [FieldPlan.isReversible, virtualFieldPlan]⟩

/-- Every field of a plan traces back to a field of the source, or has no way back. -/
theorem SourceMessage.IsPlanOf.traces {m : SourceMessage} {schema : Schema} {settings : Settings}
    {renames : Renames} {mp : MessagePlan} (h : m.IsPlanOf schema settings renames mp) :
    ∀ plan ∈ mp.fields, plan.Traces (PlanContext.ofFile schema m.file) renames.rename m := by
  obtain ⟨outlined, houtlined, rfl⟩ := h
  intro plan hplan
  obtain ⟨before, hbefore, rfl⟩ := List.mem_map.mp hplan
  rw [IsOutlinedAs] at houtlined
  split at houtlined
  · refine FieldPlan.Traces.retarget (houtlined.forall_fields ?_ ?_ ?_ ?_ before hbefore) renames
    · exact fun plan origin htraces => htraces.addStep ⟨rfl, rfl⟩
    · exact fun field => Or.inl ⟨rfl, by simp [FieldPlan.isReversible, companionPlan]⟩
    · exact fun plan number htraces => htraces.withNumber number
    · exact fun plan hplan => traces_candidates hplan
  · rw [houtlined] at hbefore
    simp [MessagePlan.outline] at hbefore

end PlainSchema
