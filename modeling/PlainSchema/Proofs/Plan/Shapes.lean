import PlainSchema.Proofs.Plan.Leaves
import PlainSchema.Proofs.Plan.OwnPaths
import PlainSchema.Proofs.Schema.Valid

/-!
# The shapes of planned fields

What the Plain field of a plan can hold is decided by its shape.  There are three things to know
about it.

```text
the way of carrying   bytes, the scalar of an alias, a text or a number, or the type of the source
                      field itself: FieldPlan.Carries
lists                 a source field with a list gives a Plain field with a list, unless it is a
                      member of a oneof, and then it holds no list: FieldPlan.KeepsList
roles                 a tag is of an enum that the plan makes, a discriminator is a text and a
                      payload is bytes: FieldPlan.RoleShaped
```
-/

namespace PlainSchema

open Proto

/-! ## The way of carrying -/

/-- A shape of a scalar type. -/
structure FieldShape.IsScalar (shape : FieldShape) (type : Scalar) : Prop where
  kind : shape.kind = .scalar type
  typeRef : shape.typeRef = none

/-- How a plan carries the value of a field, and the shape that goes with it. -/
inductive FieldPlan.Carries (ctx : PlanContext) (ref : String → String) (leaf : SourceField)
    (plan : FieldPlan) : Prop
  | serialized (hserialized : plan.origin.isSerialized) (hoption : leaf.options.serialize)
      (hshape : plan.shape.IsScalar .bytes)
  | unwrapped {wrapper : Alias} (hserialized : ¬ plan.origin.isSerialized)
      (halias : plan.origin.aliasType.isSome) (hwrapper : ctx.aliasOf? leaf = some wrapper)
      (hfield : plan.aliasField = wrapper.field) (hkind : plan.shape.kind = wrapper.kind)
      (href : plan.shape.typeRef = none)
  | asString (hserialized : ¬ plan.origin.isSerialized) (halias : ¬ plan.origin.aliasType.isSome)
      (hformat : plan.origin.enumFormat = some .asString) (hkind : leaf.kind = .enum)
      (hshape : plan.shape.IsScalar .string)
  | asInt (hserialized : ¬ plan.origin.isSerialized) (halias : ¬ plan.origin.aliasType.isSome)
      (hformat : plan.origin.enumFormat = some .asInt) (hkind : leaf.kind = .enum)
      (hshape : plan.shape.IsScalar .int32)
  | copied (hserialized : ¬ plan.origin.isSerialized) (halias : ¬ plan.origin.aliasType.isSome)
      (hformat : plan.origin.enumFormat = none) (hkind : plan.shape.kind = leaf.kind)
      (href : plan.shape.typeRef = leaf.typeRef.map ref)

theorem PlanContext.kind_of_enumFormat? {field : SourceField} {format : EnumFormat}
    (h : PlanContext.enumFormat? field = some format) : field.kind = .enum := by
  rw [PlanContext.enumFormat?] at h
  split at h
  · exact absurd h nofun
  · next hkind => exact not_not.mp hkind

theorem FieldPlan.StandsFor.carries {ctx : PlanContext} {ref : String → String}
    {owner : SourceMessage} {leaf : SourceField} {plan : FieldPlan}
    (h : plan.StandsFor ctx ref owner leaf) : plan.Carries ctx ref leaf := by
  have hkind := h.kind
  have href := h.typeRef
  have hserialized := h.isSerialized
  have halias := h.aliasType
  have hformat := h.enumFormat
  have hfield := h.aliasField
  rw [PlanContext.valuePlan] at hkind href hserialized halias hformat hfield
  by_cases hoption : leaf.options.serialize
  · rw [if_pos hoption] at hkind href hserialized
    exact .serialized (by rw [hserialized]; rfl) hoption ⟨hkind, href⟩
  · rw [if_neg hoption] at hkind href hserialized halias hformat hfield
    cases hwrapper : ctx.aliasOf? leaf with
    | some wrapper =>
      rw [hwrapper] at hkind href hserialized halias hfield
      exact .unwrapped (by rw [hserialized]; exact Bool.false_ne_true) (by rw [halias]; rfl) hwrapper
        hfield hkind href
    | none =>
      rw [hwrapper] at hkind href hserialized halias hformat
      have hser : ¬ plan.origin.isSerialized := by
        rw [hserialized]
        cases PlanContext.enumFormat? leaf <;> exact Bool.false_ne_true
      have hal : ¬ plan.origin.aliasType.isSome := by
        rw [halias]
        cases PlanContext.enumFormat? leaf <;> exact Bool.false_ne_true
      cases hcase : PlanContext.enumFormat? leaf with
      | none =>
        rw [hcase] at hkind href hformat
        exact .copied hser hal hformat hkind href
      | some format =>
        rw [hcase] at hkind href hformat
        have henum := PlanContext.kind_of_enumFormat? hcase
        cases format with
        | asString => exact .asString hser hal hformat henum ⟨hkind, href⟩
        | asInt => exact .asInt hser hal hformat henum ⟨hkind, href⟩

/-! ## Lists -/

/-- Messages and fields of a schema can be found by their names. -/
structure Schema.FindsAll (schema : Schema) : Prop where
  messages : ∀ m ∈ schema.messages, schema.message? m.fullName = some m
  fields : ∀ m ∈ schema.messages, ∀ field ∈ m.fields, m.field? field.name = some field

theorem Schema.FindsAll.refTo_injective {schema : Schema} (h : schema.FindsAll)
    {m owner : SourceMessage} (hm : m ∈ schema.messages) (howner : owner ∈ schema.messages)
    {field leaf : SourceField} (hfield : field ∈ m.fields) (hleaf : leaf ∈ owner.fields)
    (heq : m.refTo field = owner.refTo leaf) : m = owner ∧ field = leaf := by
  have hmessage : m.fullName = owner.fullName := congrArg FieldRef.message heq
  have hname : field.name = leaf.name := congrArg FieldRef.name heq
  have hsame := (h.messages m hm).symm.trans (hmessage ▸ h.messages owner howner)
  obtain rfl := Option.some.inj hsame
  have hsame := (h.fields m hm field hfield).symm.trans (hname ▸ h.fields m hm leaf hleaf)
  exact ⟨rfl, Option.some.inj hsame⟩

/-- Map entries are what a compiler makes for map fields: they are not generated, and every field of
an entry type is a list of entries. -/
structure Schema.EntriesOfMaps (schema : Schema) : Prop where
  kept : ∀ m ∈ schema.messages, m.isMapEntry → ¬ m.options.generate
  fields : ∀ m ∈ schema.messages, ∀ field ∈ m.fields,
    ∀ entry ∈ field.typeRef.bind schema.message?, entry.isMapEntry → field.isRepeated

instance (schema : Schema) : Decidable schema.EntriesOfMaps :=
  decidable_of_iff ((∀ m ∈ schema.messages, m.isMapEntry → ¬ m.options.generate) ∧
      ∀ m ∈ schema.messages, ∀ field ∈ m.fields,
        ∀ entry ∈ field.typeRef.bind schema.message?, entry.isMapEntry → field.isRepeated)
    ⟨fun h => ⟨h.1, h.2⟩, fun h => ⟨h.kept, h.fields⟩⟩

/-- A plan for a field with a list, which is no member of a oneof, has a list. -/
def FieldPlan.KeepsList (schema : Schema) (plan : FieldPlan) : Prop :=
  ∀ owner ∈ schema.messages, ∀ leaf ∈ owner.fields, plan.source = some (owner.refTo leaf) →
    leaf.isRepeated → leaf.oneofIndex = none → plan.shape.cardinality = .repeated

theorem cardinality_planField (ctx : PlanContext) (m : SourceMessage) (field : SourceField)
    (scope : Scope) : (ctx.planField m field scope).shape.cardinality = field.cardinality := by
  have hvalue : (ctx.valuePlan m field scope).shape.cardinality = field.cardinality := by
    rw [PlanContext.valuePlan]
    split
    · rfl
    · split
      · rfl
      · split <;> rfl
  rw [PlanContext.planField]
  split <;> exact hvalue

section KeepsList

variable {ctx : PlanContext} {m : SourceMessage} {field : SourceField} {scope : Scope}
  {plan : FieldPlan} (hfinds : ctx.schema.FindsAll) (hm : m ∈ ctx.schema.messages)
  (hfield : field ∈ m.fields)

include hfinds hm hfield

theorem keepsList_planField (scope : Scope) :
    (ctx.planField m field scope).KeepsList ctx.schema := by
  intro owner howner leaf hleaf hsource hrepeated _
  rw [(standsFor_planField ctx m field scope).source] at hsource
  obtain ⟨rfl, rfl⟩ := hfinds.refTo_injective hm howner hfield hleaf (Option.some.inj hsource)
  rw [cardinality_planField]
  exact eq_of_beq hrepeated

/-- Every plan of an inlined field is that of a field of its message, or of one that is inlined
further. -/
theorem keepsList_embedWithin {levels : Nat} {isPrefixed : Bool}
    (hplan : plan ∈ ctx.embedWithin levels m field scope isPrefixed) :
    plan.KeepsList ctx.schema := by
  induction levels generalizing m field scope isPrefixed plan with
  | zero => simp [PlanContext.embedWithin] at hplan
  | succ levels ih =>
    rw [PlanContext.embedWithin] at hplan
    split at hplan
    · simp at hplan
    · next target htarget =>
      obtain ⟨ref, -, htarget⟩ := Option.bind_eq_some_iff.mp htarget
      have htarget := Schema.message?_mem htarget
      obtain ⟨f, hf, hplan⟩ := List.mem_flatMap.mp hplan
      obtain ⟨inner, hinner, rfl⟩ := List.mem_map.mp hplan
      have hkeeps : inner.KeepsList ctx.schema := by
        split at hinner
        · exact ih htarget hf hinner
        · rw [List.mem_singleton.mp hinner]
          exact keepsList_planField hfinds htarget hf _
      exact hkeeps

theorem keepsList_flattenField (hplan : plan ∈ ctx.flattenField m field scope) :
    plan.KeepsList ctx.schema := by
  rw [PlanContext.flattenField] at hplan
  split at hplan
  · exact keepsList_embedWithin hfinds hm hfield hplan
  · rw [List.mem_singleton.mp hplan]
    exact keepsList_planField hfinds hm hfield scope

omit hm hfield in
/-- A message that is inlined although it is an alias leaves the plan of its field. -/
theorem not_isRepeated_of_alias {wrapper : Alias} {ref : String} (href : field.typeRef = some ref)
    (halias : ctx.schema.alias? ref = some wrapper) {isPrefixed : Bool}
    (hplan : plan ∈ ctx.embedField m field scope isPrefixed) {owner : SourceMessage}
    (howner : owner ∈ ctx.schema.messages) {leaf : SourceField} (hleaf : leaf ∈ owner.fields)
    (hsource : plan.source = some (owner.refTo leaf)) : leaf.isRepeated = false := by
  obtain ⟨target, htarget, rfl, single, hwraps⟩ := Schema.exists_wrapsScalar halias
  rw [PlanContext.embedField, PlanContext.embedWithin, href, Option.bind_some,
    hfinds.messages target htarget] at hplan
  dsimp only at hplan
  rw [hwraps.fields, List.flatMap_singleton, if_neg] at hplan
  · obtain ⟨inner, hinner, rfl⟩ := List.mem_map.mp hplan
    rw [List.mem_singleton.mp hinner] at hsource
    have hmem : single ∈ target.fields := hwraps.fields ▸ List.mem_singleton_self single
    obtain ⟨-, rfl⟩ := hfinds.refTo_injective htarget howner hmem hleaf
      (Option.some.inj ((standsFor_planField ctx target single _).source.symm.trans hsource))
    exact hwraps.single
  · have hscalar := hwraps.scalar
    intro hinlined
    rw [PlanContext.isInlined, Bool.and_eq_true, beq_iff_eq] at hinlined
    rw [hinlined.2] at hscalar
    exact absurd hscalar (by decide)

variable (hentries : ctx.schema.EntriesOfMaps)
  (hvalid : ∀ m ∈ ctx.schema.messages, ∀ field ∈ m.fields, field.Valid ctx.schema m)

include hentries hvalid

/-- A member whose plan is made to track presence is a member itself, or the only field of an alias:
a map entry is not inlined. -/
theorem keepsList_memberPlans {oneof namePrefix : String} (honeof : field.oneofIndex.isSome)
    (hplan : plan ∈ ctx.memberPlans m oneof namePrefix field) : plan.KeepsList ctx.schema := by
  rw [PlanContext.memberPlans] at hplan
  split at hplan
  · exact keepsList_embedWithin hfinds hm hfield hplan
  · next hembeddable =>
    obtain ⟨inner, hinner, rfl⟩ := List.mem_map.mp hplan
    intro owner howner leaf hleaf hsource hrepeated hnone
    rw [PlanContext.flattenField] at hinner
    split at hinner
    · next hinlined =>
      rw [PlanContext.isInlined, Bool.and_eq_true, Bool.and_eq_true, beq_iff_eq] at hinlined
      obtain ⟨⟨hembeds, hserialize⟩, hkind⟩ := hinlined
      obtain ⟨-, hsingle, target, htarget⟩ := (hvalid m hm field hfield).embedded hembeds
      obtain ⟨ref, href, hfound⟩ := Option.bind_eq_some_iff.mp htarget
      have hplain : target.isMapEntry = false := by
        by_contra hentry
        have hlist := hentries.fields m hm field hfield target htarget (by simpa using hentry)
        exact absurd (hsingle.symm.trans hlist) Bool.false_ne_true
      cases halias : ctx.schema.alias? ref with
      | some wrapper =>
        have hsingle := not_isRepeated_of_alias hfinds href halias hinner howner hleaf hsource
        exact absurd (hsingle.symm.trans hrepeated) Bool.false_ne_true
      | none =>
        refine absurd ?_ hembeddable
        simp [hkind, hserialize, href, PlanContext.isEmbeddable, halias, hfound, hplain]
    · rw [List.mem_singleton.mp hinner] at hsource
      obtain ⟨-, rfl⟩ := hfinds.refTo_injective hm howner hfield hleaf
        (Option.some.inj ((standsFor_planField ctx m field _).source.symm.trans hsource))
      rw [hnone] at honeof
      exact absurd honeof Bool.false_ne_true

omit hfield in
theorem keepsList_expand {index : Nat} {newFullName : String}
    (hplan : plan ∈ (ctx.expand m index (m.strategy index) newFullName).fields) :
    plan.KeepsList ctx.schema := by
  have hmembers : ∀ oneof isPrefixed, plan ∈ ctx.membersPlans m index oneof isPrefixed →
      plan.KeepsList ctx.schema := by
    intro oneof isPrefixed hplan
    obtain ⟨member, hmember, hplan⟩ := List.mem_flatMap.mp hplan
    obtain ⟨hmember, hindex⟩ := List.mem_filter.mp hmember
    exact keepsList_memberPlans hfinds hm hmember hentries hvalid (by simp [eq_of_beq hindex]) hplan
  -- A field that serves the oneof as a whole has no source.
  have hrole : plan.source = none → plan.KeepsList ctx.schema := by
    intro hnone owner _ leaf _ hsource
    exact absurd (hnone.symm.trans hsource) nofun
  generalize m.strategy index = strategy at hplan
  cases strategy with
  | untouched => simp [PlanContext.expand] at hplan
  | discriminatorOnly =>
    rcases List.mem_cons.mp hplan with rfl | hplan
    · exact hrole rfl
    · rw [List.mem_singleton.mp hplan] at hrole ⊢
      exact hrole rfl
  | embedOnly => exact hmembers _ _ hplan
  | enumDispatch =>
    rcases List.mem_cons.mp hplan with rfl | hplan
    · exact hrole rfl
    · exact hmembers _ _ hplan

end KeepsList

section Planned

variable {schema : Schema} {settings : Settings} {renames : Renames} {m : SourceMessage}
  {mp : MessagePlan}

theorem keepsList_of_source {plan : FieldPlan} (hnone : plan.source = none) : plan.KeepsList schema :=
  fun _ _ _ _ hsource => absurd (hnone.symm.trans hsource) nofun

theorem FieldPlan.KeepsList.retarget {plan : FieldPlan} (h : plan.KeepsList schema)
    (renames : Renames) : (renames.retargetPlan plan).KeepsList schema := by
  intro owner howner leaf hleaf hsource
  rw [source_retargetPlan] at hsource
  rw [shape_retargetPlan]
  exact h owner howner leaf hleaf hsource

/-- The candidates for planned fields keep lists. -/
theorem keepsList_candidates {newFullName : String} (hfinds : schema.FindsAll)
    (hm : m ∈ schema.messages) (hentries : schema.EntriesOfMaps)
    (hfindings : ∀ finding ∈ schema.findings, ¬ finding.isError) {plan : FieldPlan}
    (hplan : plan ∈ m.candidates schema settings newFullName) : plan.KeepsList schema := by
  have hfinds : (PlanContext.ofFile schema m.file).schema.FindsAll := hfinds
  rcases List.mem_append.mp hplan with hplan | hplan
  · refine expandFields_forall (fun field hfield other hother _ => ?_)
      (fun _ _ _ hplan => keepsList_expand hfinds hm hentries
        (fun _ hm _ hfield => Schema.valid_field hfindings hm hfield) hplan)
      plan hplan
    have hkeeps := keepsList_flattenField hfinds hm hfield hother
    exact hkeeps
  · obtain ⟨field, -, rfl⟩ := List.mem_map.mp hplan
    exact keepsList_of_source rfl

theorem SourceMessage.IsPlanOf.keepsList (h : m.IsPlanOf schema settings renames mp)
    (hfinds : schema.FindsAll) (hm : m ∈ schema.messages) (hentries : schema.EntriesOfMaps)
    (hfindings : ∀ finding ∈ schema.findings, ¬ finding.isError) {plan : FieldPlan}
    (hplan : plan ∈ mp.fields) : plan.KeepsList schema := by
  obtain ⟨outlined, houtlined, rfl⟩ := h
  obtain ⟨before, hbefore, rfl⟩ := List.mem_map.mp hplan
  refine FieldPlan.KeepsList.retarget ?_ renames
  rw [IsOutlinedAs] at houtlined
  split at houtlined
  · exact houtlined.forall_fields (fun _ _ h => h) (fun _ => keepsList_of_source rfl) (fun _ _ h => h)
      (fun plan hplan => keepsList_candidates hfinds hm hentries hfindings hplan) before hbefore
  · rw [houtlined] at hbefore
    simp [MessagePlan.outline] at hbefore

end Planned

/-! ## Roles -/

/-- A plan that serves a oneof has the shape that its role asks for.  A tag is of an enum that the
message makes, with the enum's name taken through a function. -/
structure FieldPlan.RoleShaped (ref : String → String) (newFullName : String)
    (enums : List GeneratedEnum) (plan : FieldPlan) : Prop where
  isMap : plan.origin.role.isSome → plan.shape.isMap = false
  dispatchTag : ∀ oneof, plan.origin.role = some (.dispatchTag oneof) → plan.shape.kind = .enum ∧
    ∃ e ∈ enums, plan.shape.typeRef = some (ref e.fullName) ∧ e.fullName = inScope newFullName e.name
  discriminator : ∀ oneof, plan.origin.role = some (.discriminator oneof) →
    plan.shape.IsScalar .string
  payload : ∀ oneof, plan.origin.role = some (.payload oneof) → plan.shape.IsScalar .bytes

section Roles

variable {ctx : PlanContext} {ref : String → String} {m : SourceMessage} {newFullName : String}
  {enums more : List GeneratedEnum} {plan : FieldPlan}

theorem roleShaped_of_none (h : plan.origin.role = none) : plan.RoleShaped ref newFullName enums := by
  constructor <;> simp [h]

theorem FieldPlan.RoleShaped.mono (h : plan.RoleShaped ref newFullName enums)
    (hsub : enums ⊆ more) : plan.RoleShaped ref newFullName more := by
  refine { h with dispatchTag := fun oneof hrole => ?_ }
  obtain ⟨hkind, e, he, href⟩ := h.dispatchTag oneof hrole
  exact ⟨hkind, e, hsub he, href⟩

theorem FieldPlan.RoleShaped.withNumber (h : plan.RoleShaped ref newFullName enums) (number : Int) :
    { plan with shape := { plan.shape with number } }.RoleShaped ref newFullName enums where
  isMap := h.isMap
  dispatchTag := h.dispatchTag
  discriminator := fun oneof hrole => ⟨(h.discriminator oneof hrole).kind,
    (h.discriminator oneof hrole).typeRef⟩
  payload := fun oneof hrole => ⟨(h.payload oneof hrole).kind, (h.payload oneof hrole).typeRef⟩

theorem role_flattenField {field : SourceField} {scope : Scope} (hfield : field ∈ m.fields)
    (hplan : plan ∈ ctx.flattenField m field scope) : plan.origin.role = none := by
  obtain ⟨_, _, _, -, -, hstands⟩ := tracesBelow_flattenField hfield hplan
  exact hstands.role

theorem role_memberPlans {field : SourceField} {oneof namePrefix : String} (hfield : field ∈ m.fields)
    (hplan : plan ∈ ctx.memberPlans m oneof namePrefix field) : plan.origin.role = none := by
  rw [PlanContext.memberPlans] at hplan
  split at hplan
  · obtain ⟨_, _, _, -, -, hstands⟩ := tracesBelow_embedWithin hfield hplan
    exact hstands.role
  · obtain ⟨inner, hinner, rfl⟩ := List.mem_map.mp hplan
    have hrole := role_flattenField hfield hinner
    exact hrole

theorem roleShaped_expand (index : Nat) (strategy : Strategy)
    (hplan : plan ∈ (ctx.expand m index strategy newFullName).fields) :
    plan.RoleShaped id newFullName (ctx.expand m index strategy newFullName).generatedEnum.toList := by
  have hmembers : ∀ oneof isPrefixed enums, plan ∈ ctx.membersPlans m index oneof isPrefixed →
      plan.RoleShaped id newFullName enums := by
    intro oneof isPrefixed enums hplan
    obtain ⟨member, hmember, hplan⟩ := List.mem_flatMap.mp hplan
    exact roleShaped_of_none (role_memberPlans (List.mem_filter.mp hmember).1 hplan)
  cases strategy with
  | untouched => simp [PlanContext.expand] at hplan
  | discriminatorOnly =>
    rcases List.mem_cons.mp hplan with rfl | hplan
    · exact ⟨fun _ => rfl, by rintro _ ⟨⟩, fun _ _ => ⟨rfl, rfl⟩, by rintro _ ⟨⟩⟩
    · rw [List.mem_singleton.mp hplan]
      exact ⟨fun _ => rfl, by rintro _ ⟨⟩, by rintro _ ⟨⟩, fun _ _ => ⟨rfl, rfl⟩⟩
  | embedOnly => exact hmembers _ _ _ hplan
  | enumDispatch =>
    rcases List.mem_cons.mp hplan with rfl | hplan
    · exact ⟨fun _ => rfl, fun _ _ => ⟨rfl, _, List.mem_singleton_self _, rfl, rfl⟩, by rintro _ ⟨⟩, by rintro _ ⟨⟩⟩
    · exact hmembers _ _ _ hplan

/-- The tags of the plans that a field adds are of the enums that it adds. -/
theorem roleShaped_addField {field : SourceField} (hfield : field ∈ m.fields) {e : Expanding}
    (he : ∀ plan ∈ e.plans, plan.RoleShaped id newFullName e.enums) :
    ∀ plan ∈ (e.addField ctx m newFullName field).plans,
      plan.RoleShaped id newFullName (e.addField ctx m newFullName field).enums := by
  refine Expanding.addField_cases e field (fun _ _ _ _ => ?copied) (fun _ _ _ _ => ?known)
    (fun index _ _ _ => ?dissolved)
  case copied =>
    refine List.forall_mem_append.mpr ⟨he, List.forall_mem_map.mpr fun inner hinner => ?_⟩
    have hrole := role_flattenField hfield hinner
    exact roleShaped_of_none hrole
  case known => exact he
  case dissolved =>
    refine List.forall_mem_append.mpr ⟨fun plan hplan => ?_, fun plan hplan => ?_⟩
    · exact (he plan hplan).mono (List.subset_append_left _ _)
    · exact (roleShaped_expand index _ hplan).mono (List.subset_append_right _ _)

theorem roleShaped_expandFields :
    ∀ plan ∈ (expandFields ctx m newFullName).plans,
      plan.RoleShaped id newFullName (expandFields ctx m newFullName).enums :=
  expandFields_induction (fun _ e => ∀ plan ∈ e.plans, plan.RoleShaped id newFullName e.enums)
    (by simp) fun _ _ _ hsplit _ he =>
      roleShaped_addField (hsplit ▸ List.mem_append_right _ List.mem_cons_self) he

theorem SourceMessage.IsPlanOf.roleShaped {schema : Schema} {settings : Settings}
    {renames : Renames} {mp : MessagePlan} (h : m.IsPlanOf schema settings renames mp)
    (hplan : plan ∈ mp.fields) : plan.RoleShaped renames.rename mp.newFullName mp.enums := by
  obtain ⟨outlined, houtlined, rfl⟩ := h
  obtain ⟨before, hbefore, rfl⟩ := List.mem_map.mp hplan
  rw [IsOutlinedAs] at houtlined
  split at houtlined
  · have hshaped : before.RoleShaped id outlined.newFullName outlined.enums := by
      refine houtlined.forall_fields (P := fun plan => plan.RoleShaped id outlined.newFullName
        outlined.enums) (fun _ _ h => { h with }) (fun field => ?_)
        (fun _ number h => h.withNumber number) ?_ before hbefore
      · exact ⟨fun _ => rfl, by rintro _ ⟨⟩, by rintro _ ⟨⟩, by rintro _ ⟨⟩⟩
      · intro plan hplan
        have hnew : outlined.newFullName = (MessagePlan.outline renames m).newFullName := by
          rw [houtlined.rest]
        rw [houtlined.enums, hnew]
        rcases List.mem_append.mp hplan with hplan | hplan
        · exact roleShaped_expandFields plan hplan
        · obtain ⟨field, -, rfl⟩ := List.mem_map.mp hplan
          exact roleShaped_of_none rfl
    have horigin := (sameOrigin_retargetPlan renames before).origin
    have hshape := shape_retargetPlan renames before
    have hscalar : ∀ {type : Scalar}, before.shape.IsScalar type →
        (renames.retargetPlan before).shape.IsScalar type := by
      intro type hscalar
      rw [hshape]
      exact ⟨hscalar.kind, by rw [Renames.retargetShape, hscalar.typeRef]; rfl⟩
    refine ⟨fun hrole => ?_, fun oneof hrole => ?_, fun oneof hrole => ?_, fun oneof hrole => ?_⟩
    · rw [hshape]
      exact hshaped.isMap (horigin ▸ hrole)
    · obtain ⟨hkind, e, he, href, hname⟩ := hshaped.dispatchTag oneof (horigin ▸ hrole)
      rw [hshape]
      exact ⟨hkind, e, he, by rw [Renames.retargetShape, href]; rfl, hname⟩
    · exact hscalar (hshaped.discriminator oneof (horigin ▸ hrole))
    · exact hscalar (hshaped.payload oneof (horigin ▸ hrole))
  · rw [houtlined] at hbefore
    simp [MessagePlan.outline] at hbefore

end Roles

end PlainSchema
