import PlainSchema.Plan.Build
import PlainSchema.Proofs.Data.Except
import PlainSchema.Proofs.Data.Lists
import PlainSchema.Proofs.Renames.Index

/-!
# The plan of a schema, message by message

A plan has one entry for each message of its schema: `IsPlanOf` says how the entry of a message is
made, from the outline of the message, its expanded fields with collisions resolved and numbers
assigned, and the renaming of the type references.

The fields of a message are expanded one after the other.  `Expanding.addField_cases` says what one more
field does, so what holds of all fields is shown by `expandFields_induction`, and what holds of every plan
that they are replaced by is shown by `expandFields_forall`.
-/

namespace PlainSchema

open Proto

/-! ## What fields are replaced by -/

section Expansion

variable {ctx : PlanContext} {m : SourceMessage} {newFullName : String}

/-- What holds of the plans of all members of a oneof, and of the fields that serve the oneof as a whole,
holds of all plans that the oneof is replaced by. -/
theorem expand_forall {index : Nat} {strategy : Strategy} {P : FieldPlan → Prop}
    (hrole : ∀ name kind oneof role step typeRef enums,
      P (oneofFieldPlan name kind oneof role step typeRef enums))
    (hmember : ∀ member ∈ m.oneofFields index, ∀ oneof namePrefix,
      ∀ plan ∈ ctx.memberPlans m oneof namePrefix member, P plan) :
    ∀ plan ∈ (ctx.expand m index strategy newFullName).fields, P plan := by
  have hmembers : ∀ oneof isPrefixed, ∀ plan ∈ ctx.membersPlans m index oneof isPrefixed, P plan := by
    intro oneof isPrefixed plan hplan
    obtain ⟨member, hmem, hplan⟩ := List.mem_flatMap.mp hplan
    exact hmember member hmem _ _ plan hplan
  cases strategy with
  | untouched => simp [PlanContext.expand]
  | discriminatorOnly =>
    exact List.forall_mem_cons.mpr ⟨hrole .., List.forall_mem_singleton.mpr (hrole ..)⟩
  | embedOnly => exact hmembers _ _
  | enumDispatch => exact List.forall_mem_cons.mpr ⟨hrole .., hmembers _ _⟩

/-- What one more field does.  Its plans are added, and a oneof that is copied may be met with it; or its
oneof was dissolved before; or the oneof is dissolved now. -/
@[elab_as_elim]
theorem Expanding.addField_cases {motive : Expanding → Prop} (e : Expanding) (field : SourceField)
    (copied : ∀ (place : FieldPlan → Option Nat) (oneofs : List (Nat × OneofPlan)),
      (∀ i, field.oneofIndex = some i → (m.strategy i).flattens = false) →
      (oneofs = e.oneofs ∨ ∃ index newIndex, field.oneofIndex = some index ∧
        oneofs = e.oneofs ++ [(index, m.untouchedPlan index newIndex)]) →
      motive ⟨e.plans ++ (ctx.flattenField m field {}).map fun plan =>
        { plan with shape := { plan.shape with oneofIndex := place plan } }, e.enums, oneofs⟩)
    (known : ∀ index, field.oneofIndex = some index → (m.strategy index).flattens →
      (e.oneofs.lookup index).isSome → motive e)
    (dissolved : ∀ index, field.oneofIndex = some index → (m.strategy index).flattens →
      e.oneofs.lookup index = none →
      motive ⟨e.plans ++ (ctx.expand m index (m.strategy index) newFullName).fields,
        e.enums ++ (ctx.expand m index (m.strategy index) newFullName).generatedEnum.toList,
        e.oneofs ++ [(index, (ctx.expand m index (m.strategy index) newFullName).plan)]⟩) :
    motive (e.addField ctx m newFullName field) := by
  have hdirect : (∀ i, field.oneofIndex = some i → (m.strategy i).flattens = false) →
      motive { e with plans := e.plans ++ ctx.flattenField m field {} } := fun hkept => by
    simpa using copied (·.shape.oneofIndex) e.oneofs hkept (Or.inl rfl)
  rw [Expanding.addField]
  split
  · next hnone => exact hdirect (by simp [hnone])
  · next index hindex =>
    split
    · next hflattens =>
      rw [Expanding.addDissolved]
      split
      · next hknown => exact known index hindex hflattens hknown
      · next hnew => exact dissolved index hindex hflattens (Option.not_isSome_iff_eq_none.mp hnew)
    · next hflattens =>
      have hkept : ∀ i, field.oneofIndex = some i → (m.strategy i).flattens = false := by
        intro i hi
        rw [hindex] at hi
        exact Option.some.inj hi ▸ Bool.not_eq_true _ ▸ hflattens
      split
      · refine copied (fun _ => some _) _ hkept ?_
        split
        · exact Or.inl rfl
        · exact Or.inr ⟨index, _, hindex, rfl⟩
      · exact hdirect hkept

/-- What holds before the first field, and stays with every field that is met, holds of all fields of a
message and what they are replaced by. -/
theorem expandFields_induction (motive : List SourceField → Expanding → Prop)
    (hinit : motive [] {})
    (hstep : ∀ met field rest, m.fields = met ++ field :: rest → ∀ e, motive met e →
      motive (met ++ [field]) (e.addField ctx m newFullName field)) :
    motive m.fields (expandFields ctx m newFullName) := by
  suffices h : ∀ rest met : List SourceField, m.fields = met ++ rest → ∀ e, motive met e →
      motive m.fields (rest.foldl (Expanding.addField ctx m newFullName) e) from
    h m.fields [] rfl {} hinit
  intro rest
  induction rest with
  | nil =>
    intro met hmet e he
    rw [hmet, List.append_nil]
    exact he
  | cons field rest ih =>
    intro met hmet e he
    rw [List.foldl_cons]
    exact ih (met ++ [field]) (by rw [hmet, List.append_cons]) _ (hstep met field rest hmet e he)

/-- What holds of the plans of every field and of every dissolved oneof holds of all plans that the
fields of a message are replaced by. -/
theorem expandFields_forall {P : FieldPlan → Prop}
    (hdirect : ∀ field ∈ m.fields, ∀ plan ∈ ctx.flattenField m field {}, ∀ oneofIndex,
      P { plan with shape := { plan.shape with oneofIndex } })
    (hexpand : ∀ index, (m.strategy index).flattens →
      ∀ plan ∈ (ctx.expand m index (m.strategy index) newFullName).fields, P plan) :
    ∀ plan ∈ (expandFields ctx m newFullName).plans, P plan := by
  refine expandFields_induction (fun _ e => ∀ plan ∈ e.plans, P plan) (by simp) ?_
  intro met field rest hsplit e he
  have hfield : field ∈ m.fields := hsplit ▸ List.mem_append_right _ List.mem_cons_self
  refine Expanding.addField_cases e field (fun place _ _ _ => ?copied) (fun _ _ _ _ => ?known)
    (fun index _ hflattens _ => ?dissolved)
  case copied =>
    refine List.forall_mem_append.mpr ⟨he, List.forall_mem_map.mpr fun plan hplan => ?_⟩
    exact hdirect field hfield plan hplan (place plan)
  case known => exact he
  case dissolved => exact List.forall_mem_append.mpr ⟨he, hexpand index hflattens⟩

end Expansion

/-! ## The entry of a message -/

/-- The expanded fields of a generated message with its virtual fields, before collisions are
resolved. -/
def SourceMessage.candidates (m : SourceMessage) (schema : Schema) (settings : Settings)
    (newFullName : String) : List FieldPlan :=
  (expandFields (PlanContext.ofFile schema m.file) m newFullName).plans
    ++ m.options.virtualFields.map (virtualFieldPlan m newFullName settings.suffix)

/-- The parts of the plan of a generated message, with type references not yet renamed. -/
structure SourceMessage.IsPlannedAs (m : SourceMessage) (schema : Schema) (settings : Settings)
    (outline mp : MessagePlan) : Prop where
  collisions : ∃ merged, resolveCollisions m.fullName
      (m.candidates schema settings outline.newFullName) settings.enableCrf = .ok (merged, mp.crf) ∧
    mp.fields = assignNumbers merged
  numbers : numberProblems mp.fields = []
  oneofs : mp.oneofs = m.oneofs.mapIdx fun i _ =>
    ((expandFields (PlanContext.ofFile schema m.file) m outline.newFullName).oneofs.lookup i).getD
      (m.untouchedPlan i none)
  enums : mp.enums = (expandFields (PlanContext.ofFile schema m.file) m outline.newFullName).enums
  rest : mp = { outline with
    fields := mp.fields
    oneofs := mp.oneofs
    virtualFields := (mp.fields.filter (·.origin.isVirtual)).map (·.shape.name)
    enums := mp.enums
    virtualTypes := m.options.virtualTypes.map
      (virtualTypePlan m outline.newFullName settings.suffix)
    crf := mp.crf }

theorem SourceMessage.plan_eq_ok {m : SourceMessage} {schema : Schema} {settings : Settings}
    {outline mp : MessagePlan} (h : m.plan schema settings outline = .ok mp) :
    m.IsPlannedAs schema settings outline mp := by
  rw [SourceMessage.plan] at h
  dsimp only at h
  split at h
  · exact absurd h (by simp)
  · next merged crf hcollisions =>
    split at h
    · exact absurd h (by simp)
    · next hproblems =>
      rw [← Except.ok.inj h]
      exact ⟨⟨merged, hcollisions, rfl⟩, by simpa using hproblems, rfl, rfl, rfl⟩

/-- The entry of a message before type references are renamed. -/
def SourceMessage.IsOutlinedAs (m : SourceMessage) (schema : Schema) (settings : Settings)
    (renames : Renames) (mp : MessagePlan) : Prop :=
  if m.options.generate then
    m.IsPlannedAs schema settings (MessagePlan.outline renames m) mp
  else mp = MessagePlan.outline renames m

/-- The entry of a message in the plan of its schema. -/
def SourceMessage.IsPlanOf (schema : Schema) (settings : Settings) (renames : Renames)
    (m : SourceMessage) (mp : MessagePlan) : Prop :=
  ∃ outlined, m.IsOutlinedAs schema settings renames outlined ∧ mp = outlined.rename renames

/-- What a plan is made of. -/
structure SchemaPlan.Plans (plan : SchemaPlan) (schema : Schema) (settings : Settings) : Prop where
  findings : ∀ finding ∈ schema.findings, ¬ finding.isError
  suffix : plan.suffix = settings.suffix
  renames : plan.renames = Renames.ofSchema schema settings.suffix
  messages : List.Forall₂ (SourceMessage.IsPlanOf schema settings plan.renames)
    schema.messages plan.messages

theorem Schema.plan_eq_ok {schema : Schema} {settings : Settings} {plan : SchemaPlan}
    (h : schema.plan settings = .ok plan) : plan.Plans schema settings := by
  rw [Schema.plan] at h
  dsimp only at h
  split at h
  · exact absurd h (by simp [bind, Except.bind])
  · next hfindings =>
    obtain ⟨messages, hmessages, h⟩ := bind_eq_ok.mp h
    rw [← Except.ok.inj h]
    refine ⟨fun finding hmem herror => hfindings (List.any_eq_true.mpr ⟨finding, hmem, herror⟩),
      rfl, rfl, ?_⟩
    refine List.forall₂_map_right_iff.mpr ((mapM_eq_ok.mp hmessages).imp fun m mp hmp => ?_)
    refine ⟨mp, ?_, rfl⟩
    rw [SourceMessage.IsOutlinedAs]
    split at hmp
    · next hgenerate =>
      rw [if_pos hgenerate]
      exact SourceMessage.plan_eq_ok hmp
    · next hgenerate =>
      rw [if_neg hgenerate]
      exact (Except.ok.inj hmp).symm

/-! ## The outline of an entry -/

/-- An entry keeps the outline of its message. -/
structure MessagePlan.Outlines (mp : MessagePlan) (renames : Renames) (m : SourceMessage) :
    Prop where
  fullName : mp.fullName = m.fullName
  newFullName : mp.newFullName = renames.rename m.fullName
  name : mp.name = m.name
  newName : mp.newName = lastName (renames.rename m.fullName)
  generate : mp.generate = m.options.generate

theorem SourceMessage.IsPlanOf.outlines {schema : Schema} {settings : Settings} {renames : Renames}
    {m : SourceMessage} {mp : MessagePlan} (h : m.IsPlanOf schema settings renames mp) :
    mp.Outlines renames m := by
  obtain ⟨outlined, houtlined, rfl⟩ := h
  rw [IsOutlinedAs] at houtlined
  split at houtlined
  · have hrest := houtlined.rest
    refine ⟨?_, ?_, ?_, ?_, ?_⟩ <;> rw [MessagePlan.rename, hrest] <;> rfl
  · rw [houtlined]
    exact ⟨rfl, rfl, rfl, rfl, rfl⟩

variable {schema : Schema} {settings : Settings} {plan : SchemaPlan}

/-- The plan finds the entry of a message by its full name. -/
theorem SchemaPlan.Plans.message? (h : plan.Plans schema settings) (hschema : schema.WellScoped)
    {m : SourceMessage} (hm : m ∈ schema.messages) :
    ∃ mp ∈ plan.messages, plan.message? m.fullName = some mp ∧
      m.IsPlanOf schema settings plan.renames mp := by
  obtain ⟨mp, hmp, hplan⟩ := exists_right_of_forall₂ h.messages hm
  have hnames : schema.messages.map (·.fullName) = plan.messages.map (·.fullName) :=
    map_eq_map_of_forall₂ h.messages fun _ _ hplan => hplan.outlines.fullName.symm
  have hnodup : (plan.messages.map (·.fullName)).Nodup := hnames ▸ hschema.distinct
  refine ⟨mp, hmp, ?_, hplan⟩
  rw [← hplan.outlines.fullName]
  exact find?_eq_some_of_nodup hnodup hmp

end PlainSchema
