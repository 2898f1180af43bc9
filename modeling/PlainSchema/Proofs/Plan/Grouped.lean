import PlainSchema.Proofs.Plan.OwnPaths
import PlainSchema.Proofs.Plan.Oneofs

/-!
# The groups of planned fields

A plan that belongs to the group of a oneof is read from a member of that oneof,
`SourceMessage.IsPlanOf.readsMember`: the group is that of the scope that the plan was made in, and so
is the field that its path begins with.  Merging keeps both, but a merged field is read from the paths
of other plans as well; without merged fields there is one path, `MessagePlan.ownPaths_of_crf`.
-/

namespace PlainSchema

open Proto PlanContext

/-! ## Plans in a scope -/

/-- A plan is in the group of a scope, and is read from a field of the scope or from below it. -/
structure FieldPlan.GroupedBelow (scope : Scope) (field : SourceField) (plan : FieldPlan) : Prop where
  group : plan.origin.oneofGroup = scope.oneofMember.map (·.1)
  path : scope.path ++ [field.name] <+: plan.origin.sourcePath

section Flattening

variable {ctx : PlanContext} {m : SourceMessage} {field : SourceField} {scope : Scope}
  {plan : FieldPlan} {index : Nat} {newFullName : String}

theorem groupedBelow_planField (ctx : PlanContext) (m : SourceMessage) (field : SourceField)
    (scope : Scope) : (ctx.planField m field scope).GroupedBelow scope field := by
  have hvalue : (ctx.valuePlan m field scope).GroupedBelow scope field := by
    refine ⟨?_, by rw [sourcePath_valuePlan]⟩
    rw [valuePlan]
    split
    · rfl
    · split
      · rfl
      · split <;> rfl
  rw [planField]
  split
  · exact ⟨hvalue.group, hvalue.path⟩
  · exact hvalue

theorem groupedBelow_embedWithin {levels : Nat} {isPrefixed : Bool}
    (hplan : plan ∈ ctx.embedWithin levels m field scope isPrefixed) :
    plan.GroupedBelow scope field := by
  induction levels generalizing m field scope isPrefixed plan with
  | zero => simp [embedWithin] at hplan
  | succ levels ih =>
    rw [embedWithin] at hplan
    split at hplan
    · simp at hplan
    · next target _ =>
      obtain ⟨f, -, hplan⟩ := List.mem_flatMap.mp hplan
      obtain ⟨inner, hinner, rfl⟩ := List.mem_map.mp hplan
      -- The scope of the inlined message has the same group, and a longer path.
      have hbelow : inner.GroupedBelow (PlanContext.innerScope m field scope isPrefixed) f := by
        split at hinner
        · exact ih hinner
        · rw [List.mem_singleton.mp hinner]
          exact groupedBelow_planField ctx target f _
      exact ⟨hbelow.group, (List.prefix_append _ _).trans hbelow.path⟩

theorem groupedBelow_flattenField (hplan : plan ∈ ctx.flattenField m field scope) :
    plan.GroupedBelow scope field := by
  rw [flattenField] at hplan
  split at hplan
  · exact groupedBelow_embedWithin hplan
  · rw [List.mem_singleton.mp hplan]
    exact groupedBelow_planField ctx m field scope

/-- The plans of a member are in the group of its oneof, and are read from the member. -/
theorem group_memberPlans {oneof namePrefix : String}
    (hplan : plan ∈ ctx.memberPlans m oneof namePrefix field) :
    plan.origin.oneofGroup = some oneof ∧ plan.origin.sourcePath.head? = some field.name := by
  have hbelow : plan.GroupedBelow { Scope.member oneof field.name with namePrefix } field := by
    rw [memberPlans] at hplan
    split at hplan
    · exact groupedBelow_embedWithin hplan
    · obtain ⟨inner, hinner, rfl⟩ := List.mem_map.mp hplan
      exact ⟨(groupedBelow_flattenField hinner).group, (groupedBelow_flattenField hinner).path⟩
  obtain ⟨rest, hrest⟩ := hbelow.path
  refine ⟨hbelow.group, ?_⟩
  rw [← hrest]
  rfl

/-! ## Plans of a message -/

/-- A plan in the group of a oneof is read from a member of the oneof, if it has a way back. -/
def FieldPlan.ReadsMember (m : SourceMessage) (plan : FieldPlan) : Prop :=
  plan.isReversible → ∀ group, plan.origin.oneofGroup = some group →
    ∃ index oneof, m.oneof? index = some oneof ∧ oneof.name = group ∧
      ∃ field ∈ m.oneofFields index, plan.origin.sourcePath.head? = some field.name

/-- A field that serves a oneof as a whole has no way back. -/
theorem readsMember_of_role {role : Role} (hrole : plan.origin.role = some role) :
    plan.ReadsMember m :=
  fun hreversible => absurd hreversible (by simp [FieldPlan.isReversible, hrole])

theorem readsMember_expand (hflattens : (m.strategy index).flattens)
    (hplan : plan ∈ (ctx.expand m index (m.strategy index) newFullName).fields) :
    plan.ReadsMember m := by
  have hdissolved : m.strategy index ≠ .untouched := by simpa [Strategy.flattens] using hflattens
  obtain ⟨oneof, honeof⟩ := m.exists_oneof_of_strategy hdissolved
  have hmembers : ∀ isPrefixed, plan ∈ ctx.membersPlans m index oneof isPrefixed →
      plan.ReadsMember m := by
    intro isPrefixed hplan _ group hgroup
    obtain ⟨member, hmember, hplan⟩ := List.mem_flatMap.mp hplan
    obtain ⟨hof, hhead⟩ := group_memberPlans hplan
    exact ⟨index, oneof, honeof, Option.some.inj (hof.symm.trans hgroup), member, hmember, hhead⟩
  rw [expand.eq_def, honeof, Option.getD_some] at hplan
  cases hstrategy : m.strategy index with
  | untouched => exact absurd hstrategy hdissolved
  | discriminatorOnly =>
    rw [hstrategy] at hplan
    rcases List.mem_cons.mp hplan with rfl | hplan
    · exact readsMember_of_role rfl
    · rw [List.mem_singleton.mp hplan]
      exact readsMember_of_role rfl
  | embedOnly =>
    rw [hstrategy] at hplan
    exact hmembers _ hplan
  | enumDispatch =>
    rw [hstrategy] at hplan
    rcases List.mem_cons.mp hplan with rfl | hplan
    · exact readsMember_of_role rfl
    · exact hmembers _ hplan

theorem readsMember_candidates {schema : Schema} {settings : Settings}
    (hplan : plan ∈ m.candidates schema settings newFullName) : plan.ReadsMember m := by
  rcases List.mem_append.mp hplan with hplan | hplan
  · refine expandFields_forall (fun field _ plan hplan _ _ group hgroup => ?_)
      (fun _ hflattens _ hplan => readsMember_expand hflattens hplan) plan hplan
    -- A field outside of a dissolved oneof is in no group.
    have hnone : plan.origin.oneofGroup = none := (groupedBelow_flattenField hplan).group
    exact absurd (hnone.symm.trans hgroup) nofun
  · obtain ⟨field, -, rfl⟩ := List.mem_map.mp hplan
    intro hreversible
    simp [FieldPlan.isReversible, virtualFieldPlan] at hreversible

end Flattening

section Planned

variable {schema : Schema} {settings : Settings} {renames : Renames} {m : SourceMessage}
  {mp : MessagePlan} {plan : FieldPlan}

/-- **A planned field in the group of a oneof is read from a member of the oneof.** -/
theorem SourceMessage.IsPlanOf.readsMember (h : m.IsPlanOf schema settings renames mp)
    (hgenerate : mp.generate) (hplan : plan ∈ mp.fields) : plan.ReadsMember m := by
  intro hreversible
  rcases h.exists_candidate hgenerate hplan with ⟨field, hcompanion⟩ | ⟨candidate, hmem, horigin⟩
  · simp [FieldPlan.isReversible, hcompanion] at hreversible
  · have hsame : candidate.isReversible = plan.isReversible := by
      rw [FieldPlan.isReversible, FieldPlan.isReversible, horigin]
    have hreads := readsMember_candidates hmem (hsame ▸ hreversible)
    rwa [horigin] at hreads

/-- The planned field of a oneof of the plan begins its path with a member of the oneof. -/
theorem SourceMessage.IsPlanOf.exists_member_of_group (h : m.IsPlanOf schema settings renames mp)
    (hgenerate : mp.generate) (hnames : (m.oneofs.map (·.name)).Nodup) (hplan : plan ∈ mp.fields)
    (hreversible : plan.isReversible) {oneof : OneofPlan} (honeof : oneof ∈ mp.oneofs)
    (hgroup : plan.origin.oneofGroup = some oneof.name) :
    ∃ member ∈ oneof.members, plan.origin.sourcePath.head? = some member.name := by
  obtain ⟨index, found, hfound, hname, field, hfield, hhead⟩ :=
    h.readsMember hgenerate hplan hreversible _ hgroup
  obtain ⟨index', found', hfound', hname', hplans⟩ := h.exists_plansOneof hgenerate honeof
  obtain rfl : index = index' := by
    have hat : (m.oneofs.map (·.name))[index]? = some oneof.name := by
      rw [List.getElem?_map, show m.oneofs[index]? = some found from hfound, Option.map_some, hname]
    have hat' : (m.oneofs.map (·.name))[index']? = some oneof.name := by
      rw [List.getElem?_map, show m.oneofs[index']? = some found' from hfound', Option.map_some, hname']
    obtain ⟨hlt, -⟩ := List.getElem?_eq_some_iff.mp hat
    exact (List.getElem?_inj hlt hnames).mp (hat.trans hat'.symm)
  rw [hplans.members]
  exact ⟨_, List.mem_map_of_mem hfield, hhead⟩

/-- A field of a plan without merged fields is read from one path. -/
theorem MessagePlan.ownPaths_of_crf (hcrf : mp.crf = []) (plan : FieldPlan) :
    mp.ownPaths plan = [plan.origin.sourcePath] := by
  have hnone : mp.mergedField? plan.shape.name = none := by
    rw [mergedField?, hcrf]
    rfl
  rw [ownPaths, sourcePaths, hnone]
  rfl

end Planned

end PlainSchema
