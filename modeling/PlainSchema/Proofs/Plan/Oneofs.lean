import PlainSchema.Proofs.Plan.OwnPaths

/-!
# The oneofs of a plan

The plan of a oneof has the name and the members of the source oneof in its place,
`SourceMessage.PlansOneof`.  A payload stands in place of a oneof whose members are not inlined,
`SourceMessage.IsPlanOf.strategy_of_payload`, and no Plain field with a way back is read from such a
member, `SourceMessage.IsPlanOf.head_of_ownPath`.
-/

namespace PlainSchema

open Proto

/-- The plan of the oneof in a place: that of a dissolved oneof, or that of a copied one. -/
def SourceMessage.PlansOneof (m : SourceMessage) (ctx : PlanContext) (newFullName : String)
    (index : Nat) (plan : OneofPlan) : Prop :=
  ((m.strategy index).flattens ∧
      plan = (ctx.expand m index (m.strategy index) newFullName).plan) ∨
    ∃ newIndex, plan = m.untouchedPlan index newIndex

theorem SourceMessage.exists_oneof_of_strategy (m : SourceMessage) {index : Nat}
    (h : m.strategy index ≠ .untouched) : ∃ oneof, m.oneof? index = some oneof := by
  rw [SourceMessage.strategy] at h
  split at h
  · exact absurd rfl h
  · next oneof honeof => exact ⟨oneof, honeof⟩

section Oneofs

variable {ctx : PlanContext} {m : SourceMessage} {newFullName : String} {index : Nat}

theorem plan_expand (strategy : Strategy) :
    (ctx.expand m index strategy newFullName).plan.name
        = ((m.oneof? index).getD { name := "" }).name ∧
      (ctx.expand m index strategy newFullName).plan.members = m.oneofMembers index := by
  cases strategy <;> exact ⟨rfl, rfl⟩

namespace SourceMessage.PlansOneof

variable {plan : OneofPlan}

theorem name (h : m.PlansOneof ctx newFullName index plan) {oneof : SourceOneof}
    (honeof : m.oneof? index = some oneof) : plan.name = oneof.name := by
  rcases h with ⟨-, rfl⟩ | ⟨newIndex, rfl⟩
  · rw [(plan_expand _).1, honeof, Option.getD_some]
  · simp [SourceMessage.untouchedPlan, honeof]

theorem members (h : m.PlansOneof ctx newFullName index plan) :
    plan.members = m.oneofMembers index := by
  rcases h with ⟨-, rfl⟩ | ⟨newIndex, rfl⟩
  · exact (plan_expand _).2
  · rfl

/-- A member of the plan is a field of the oneof. -/
theorem exists_field (h : m.PlansOneof ctx newFullName index plan) {member : OneofMember}
    (hmember : member ∈ plan.members) :
    ∃ field ∈ m.fields, field.name = member.name ∧ field.oneofIndex = some index := by
  rw [h.members] at hmember
  obtain ⟨field, hfield, rfl⟩ := List.mem_map.mp hmember
  obtain ⟨hfield, hindex⟩ := List.mem_filter.mp hfield
  exact ⟨field, hfield, rfl, by simpa using hindex⟩

end SourceMessage.PlansOneof

/-! ## The oneofs that were met -/

theorem plansOneof_addField {e : Expanding} {field : SourceField}
    (h : ∀ pair ∈ e.oneofs, m.PlansOneof ctx newFullName pair.1 pair.2) :
    ∀ pair ∈ (e.addField ctx m newFullName field).oneofs,
      m.PlansOneof ctx newFullName pair.1 pair.2 := by
  refine Expanding.addField_cases e field (fun _ oneofs _ honeofs => ?copied) (fun _ _ _ _ => ?known)
    (fun index _ hflattens _ => ?dissolved)
  case copied =>
    rcases honeofs with rfl | ⟨index, newIndex, -, rfl⟩
    · exact h
    · exact List.forall_mem_append.mpr ⟨h, List.forall_mem_singleton.mpr (Or.inr ⟨newIndex, rfl⟩)⟩
  case known => exact h
  case dissolved =>
    exact List.forall_mem_append.mpr ⟨h, List.forall_mem_singleton.mpr (Or.inl ⟨hflattens, rfl⟩)⟩

theorem plansOneof_expandFields :
    ∀ pair ∈ (expandFields ctx m newFullName).oneofs,
      m.PlansOneof ctx newFullName pair.1 pair.2 :=
  expandFields_induction
    (fun _ e => ∀ pair ∈ e.oneofs, m.PlansOneof ctx newFullName pair.1 pair.2) (by simp)
    fun _ _ _ _ _ he => plansOneof_addField he

/-! ## Payloads -/

/-- A plan that serves a oneof as a payload stands in place of a oneof that is replaced by it. -/
def FieldPlan.ServesOneof (m : SourceMessage) (plan : FieldPlan) : Prop :=
  ∀ name, plan.origin.role = some (.payload name) → ∃ index oneof,
    m.oneof? index = some oneof ∧ oneof.name = name ∧ m.strategy index = .discriminatorOnly

theorem FieldPlan.TracesBelow.servesOneof {scope : Scope} {plan : FieldPlan} {owner : SourceMessage}
    (h : plan.TracesBelow ctx owner scope) : plan.ServesOneof m := by
  obtain ⟨_, _, _, -, -, hstands⟩ := h
  intro name hrole
  rw [hstands.role] at hrole
  exact absurd hrole (by simp)

theorem servesOneof_memberPlans {oneof namePrefix : String} {member : SourceField}
    (hmember : member ∈ m.fields) {plan : FieldPlan}
    (hplan : plan ∈ ctx.memberPlans m oneof namePrefix member) : plan.ServesOneof m := by
  rw [PlanContext.memberPlans] at hplan
  split at hplan
  · exact (tracesBelow_embedWithin hmember hplan).servesOneof
  · obtain ⟨inner, hinner, rfl⟩ := List.mem_map.mp hplan
    exact (tracesBelow_flattenField hmember hinner).servesOneof

theorem servesOneof_expand {plan : FieldPlan}
    (hplan : plan ∈ (ctx.expand m index (m.strategy index) newFullName).fields) :
    plan.ServesOneof m := by
  have hmembers : ∀ oneof isPrefixed, plan ∈ ctx.membersPlans m index oneof isPrefixed →
      plan.ServesOneof m := by
    intro oneof isPrefixed hplan
    obtain ⟨member, hmember, hplan⟩ := List.mem_flatMap.mp hplan
    exact servesOneof_memberPlans (List.mem_filter.mp hmember).1 hplan
  cases hstrategy : m.strategy index with
  | untouched => simp [hstrategy, PlanContext.expand] at hplan
  | embedOnly =>
    rw [hstrategy] at hplan
    exact hmembers _ _ hplan
  | enumDispatch =>
    rw [hstrategy] at hplan
    rcases List.mem_cons.mp hplan with rfl | hplan
    · intro name hrole
      simp [dispatchTagPlan, oneofFieldPlan] at hrole
    · exact hmembers _ _ hplan
  | discriminatorOnly =>
    have hdissolved : m.strategy index ≠ .untouched := by simp [hstrategy]
    obtain ⟨oneof, honeof⟩ := m.exists_oneof_of_strategy hdissolved
    rw [hstrategy] at hplan
    simp only [PlanContext.expand, discriminatorPlans, honeof, Option.getD_some, List.mem_cons,
      List.not_mem_nil, or_false] at hplan
    intro name hrole
    rcases hplan with rfl | rfl
    · simp [oneofFieldPlan] at hrole
    · refine ⟨index, oneof, honeof, ?_, hstrategy⟩
      simpa [oneofFieldPlan] using hrole

theorem servesOneof_expandFields :
    ∀ plan ∈ (expandFields ctx m newFullName).plans, plan.ServesOneof m :=
  expandFields_forall (fun _ hfield _ hplan _ => (tracesBelow_flattenField hfield hplan).servesOneof)
    (fun _ _ _ hplan => servesOneof_expand hplan)

end Oneofs

/-! ## The plan of a message -/

namespace SourceMessage.IsPlanOf

variable {schema : Schema} {settings : Settings} {renames : Renames} {m : SourceMessage}
  {mp : MessagePlan}

/-- The oneofs of a plan are those that were met, and those without fields. -/
theorem exists_met (h : m.IsPlanOf schema settings renames mp) (hgenerate : mp.generate)
    {plan : OneofPlan} (hplan : plan ∈ mp.oneofs) :
    ∃ index oneof, m.oneof? index = some oneof ∧
      ((index, plan) ∈ (expandFields (PlanContext.ofFile schema m.file) m mp.newFullName).oneofs ∨
        plan = m.untouchedPlan index none) := by
  have houtlines := h.outlines
  obtain ⟨outlined, houtlined, rfl⟩ := h
  rw [SourceMessage.IsOutlinedAs] at houtlined
  split at houtlined
  · have hname : (outlined.rename renames).newFullName
        = (MessagePlan.outline renames m).newFullName := houtlines.newFullName
    rw [hname]
    have hmem : plan ∈ outlined.oneofs := hplan
    rw [houtlined.oneofs] at hmem
    obtain ⟨index, hindex, rfl⟩ := List.mem_mapIdx.mp hmem
    have honeof : m.oneof? index = some m.oneofs[index] := List.getElem?_eq_getElem hindex
    refine ⟨index, m.oneofs[index], honeof, ?_⟩
    cases hlookup : (expandFields (PlanContext.ofFile schema m.file) m
        (MessagePlan.outline renames m).newFullName).oneofs.lookup index with
    | none => exact Or.inr rfl
    | some found =>
      rw [Option.getD_some]
      exact Or.inl (mem_of_lookup hlookup)
  · next hnot =>
    rw [houtlines.generate] at hgenerate
    exact absurd hgenerate hnot

/-- The oneofs of a plan are those of its message, in their places. -/
theorem exists_plansOneof (h : m.IsPlanOf schema settings renames mp) (hgenerate : mp.generate)
    {plan : OneofPlan} (hplan : plan ∈ mp.oneofs) :
    ∃ index oneof, m.oneof? index = some oneof ∧ plan.name = oneof.name ∧
      m.PlansOneof (PlanContext.ofFile schema m.file) mp.newFullName index plan := by
  obtain ⟨index, oneof, honeof, hmet⟩ := h.exists_met hgenerate hplan
  suffices hplans : m.PlansOneof (PlanContext.ofFile schema m.file) mp.newFullName index plan from
    ⟨index, oneof, honeof, hplans.name honeof, hplans⟩
  rcases hmet with hmem | huntouched
  · exact plansOneof_expandFields (index, plan) hmem
  · exact Or.inr ⟨none, huntouched⟩

/-- The origin of a planned field is that of a candidate, unless the field is a companion. -/
theorem exists_candidate (h : m.IsPlanOf schema settings renames mp) (hgenerate : mp.generate)
    {plan : FieldPlan} (hplan : plan ∈ mp.fields) :
    (∃ field, plan.origin.role = some (.crfPath field)) ∨
      ∃ candidate ∈ m.candidates schema settings mp.newFullName, candidate.origin = plan.origin := by
  obtain ⟨kept, groups, hmerges, hgroups, hfields⟩ := h.exists_merges hgenerate
  obtain ⟨before, hbefore, hsame⟩ := exists_left_of_forall₂ hfields hplan
  obtain ⟨group, hgroup, hbefore⟩ := List.mem_flatten.mp hbefore
  obtain ⟨first, hfirst, hcompanion⟩ := exists_left_of_forall₂ hgroups hgroup
  have hkept : before = first → ∃ candidate ∈ m.candidates schema settings mp.newFullName,
      candidate.origin = plan.origin := by
    rintro rfl
    obtain ⟨candidate, rest, hnamed, hfrom, -⟩ := hmerges.kept before hfirst
    have hmem : candidate ∈ plansNamed (m.candidates schema settings mp.newFullName)
        before.shape.name := hnamed ▸ List.mem_cons_self
    exact ⟨candidate, (List.mem_filter.mp hmem).1, hfrom.origin.symm.trans hsame.origin⟩
  rcases withCompanion_eq_ok hcompanion with rfl | ⟨entry, -, -, rfl⟩
  · exact Or.inr (hkept (List.mem_singleton.mp hbefore))
  · rcases List.mem_cons.mp hbefore with hbefore | hbefore
    · exact Or.inr (hkept hbefore)
    · refine Or.inl ⟨entry.field, ?_⟩
      rw [← hsame.origin, List.mem_singleton.mp hbefore]
      rfl

/-- A payload stands in place of a oneof that is replaced by a discriminator and a payload. -/
theorem strategy_of_payload (h : m.IsPlanOf schema settings renames mp) (hgenerate : mp.generate)
    {plan : FieldPlan} (hplan : plan ∈ mp.fields) : plan.ServesOneof m := by
  intro name hrole
  rcases h.exists_candidate hgenerate hplan with ⟨field, hcompanion⟩ | ⟨candidate, hmem, horigin⟩
  · rw [hcompanion] at hrole
    exact absurd hrole (by simp)
  · rw [← horigin] at hrole
    rcases List.mem_append.mp hmem with hmem | hmem
    · exact servesOneof_expandFields candidate hmem name hrole
    · obtain ⟨field, -, rfl⟩ := List.mem_map.mp hmem
      simp [virtualFieldPlan] at hrole

/-- A Plain field with a way back is read from below a field that belongs to no oneof with a
payload. -/
theorem head_of_ownPath (h : m.IsPlanOf schema settings renames mp) (hgenerate : mp.generate)
    (hm : m ∈ schema.messages) (hfields : schema.NamesFields)
    (hnames : ∀ m ∈ schema.messages, ∀ field ∈ m.fields, field.name ≠ "") {plan : FieldPlan}
    (hplan : plan ∈ mp.fields) (hreversible : plan.isReversible) {path : List String}
    (hpath : path ∈ mp.ownPaths plan) :
    ∃ field ∈ m.fields, [field.name] <+: path ∧
      ∀ i, field.oneofIndex = some i → m.strategy i ≠ .discriminatorOnly := by
  obtain ⟨candidate, hmem, hreversible, -, rfl⟩ :=
    (h.ownPaths_of_candidates hgenerate hm hnames hplan hreversible).2 path hpath
  rcases List.mem_append.mp hmem with hmem | hmem
  · have hsources : SeparatesFields _ _ (FieldPlan.IsReadFrom m) m.fields
        (expandFields (PlanContext.ofFile schema m.file) m mp.newFullName).plans :=
      separates_sources hfields hm mp.newFullName
    exact hsources.owned candidate hmem hreversible
  · obtain ⟨field, -, rfl⟩ := List.mem_map.mp hmem
    simp [FieldPlan.isReversible, virtualFieldPlan] at hreversible

end SourceMessage.IsPlanOf

end PlainSchema
