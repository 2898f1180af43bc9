import PlainSchema.Proofs.Plan.Entries
import PlainSchema.Proofs.Plan.Members

/-!
# The fields of a discriminated oneof

A oneof whose members name enum values is replaced by two fields: a text that names the populated
member, `<oneof>_disc`, and the bytes of the message with that member alone, `<oneof>`.  Both are among
the planned fields, `SourceMessage.IsPlanOf.exists_discriminated`, whatever other fields there are.  A
role goes with a name, `SourceMessage.IsPlanOf.roleNamed`, so no third field serves the oneof.
-/

namespace PlainSchema

open Proto

/-! ## Roles and names -/

/-- A plan that serves a discriminated oneof has the name that goes with its role, and no plan that
serves a oneof stands in one. -/
structure FieldPlan.RoleNamed (plan : FieldPlan) : Prop where
  discriminator : ∀ oneof, plan.origin.role = some (.discriminator oneof) →
    plan.shape.name = oneof ++ "_disc"
  payload : ∀ oneof, plan.origin.role = some (.payload oneof) → plan.shape.name = oneof
  alone : plan.origin.role.isSome →
    plan.shape.oneofIndex = none ∧ plan.shape.proto3Optional = false

variable {ctx : PlanContext} {m : SourceMessage} {newFullName : String} {plan : FieldPlan}

theorem roleNamed_of_none (h : plan.origin.role = none) : plan.RoleNamed := by
  constructor <;> simp [h]

theorem roleNamed_expand {index : Nat} {strategy : Strategy}
    (hplan : plan ∈ (ctx.expand m index strategy newFullName).fields) : plan.RoleNamed := by
  have hmembers : ∀ oneof isPrefixed, plan ∈ ctx.membersPlans m index oneof isPrefixed →
      plan.RoleNamed := by
    intro oneof isPrefixed hplan
    obtain ⟨member, hmember, hplan⟩ := List.mem_flatMap.mp hplan
    exact roleNamed_of_none (role_memberPlans (List.mem_filter.mp hmember).1 hplan)
  cases strategy with
  | untouched => simp [PlanContext.expand] at hplan
  | discriminatorOnly =>
    rcases List.mem_cons.mp hplan with rfl | hplan
    · exact ⟨by rintro _ ⟨⟩; rfl, by rintro _ ⟨⟩, fun _ => ⟨rfl, rfl⟩⟩
    · rw [List.mem_singleton.mp hplan]
      exact ⟨by rintro _ ⟨⟩, by rintro _ ⟨⟩; rfl, fun _ => ⟨rfl, rfl⟩⟩
  | embedOnly => exact hmembers _ _ hplan
  | enumDispatch =>
    rcases List.mem_cons.mp hplan with rfl | hplan
    · exact ⟨by rintro _ ⟨⟩, by rintro _ ⟨⟩, fun _ => ⟨rfl, rfl⟩⟩
    · exact hmembers _ _ hplan

namespace SourceMessage.IsPlanOf

variable {schema : Schema} {settings : Settings} {renames : Renames} {mp : MessagePlan}
  {oneof : OneofPlan}

theorem roleNamed (h : m.IsPlanOf schema settings renames mp) (hplan : plan ∈ mp.fields) :
    plan.RoleNamed := by
  obtain ⟨outlined, houtlined, rfl⟩ := h
  obtain ⟨before, hbefore, rfl⟩ := List.mem_map.mp hplan
  rw [IsOutlinedAs] at houtlined
  split at houtlined
  · have hnamed : before.RoleNamed := by
      refine houtlined.forall_fields (fun _ _ h => { h with })
        (fun _ => ⟨by rintro _ ⟨⟩, by rintro _ ⟨⟩, fun _ => ⟨rfl, rfl⟩⟩)
        (fun _ _ h => { h with }) (fun plan hplan => ?_) before hbefore
      rcases List.mem_append.mp hplan with hplan | hplan
      · exact expandFields_forall
          (fun _ hfield _ hplan _ => roleNamed_of_none (by rw [← role_flattenField hfield hplan]))
          (fun _ _ _ hplan => roleNamed_expand hplan) plan hplan
      · obtain ⟨field, -, rfl⟩ := List.mem_map.mp hplan
        exact roleNamed_of_none rfl
    have horigin := (sameOrigin_retargetPlan renames before).origin
    have hshape := shape_retargetPlan renames before
    refine ⟨fun oneof hrole => ?_, fun oneof hrole => ?_, fun hrole => ?_⟩ <;> rw [hshape]
    · exact hnamed.discriminator oneof (horigin ▸ hrole)
    · exact hnamed.payload oneof (horigin ▸ hrole)
    · exact hnamed.alone (horigin ▸ hrole)
  · rw [houtlined] at hbefore
    simp [MessagePlan.outline] at hbefore

/-! ## Both fields -/

/-- A oneof with the strategy is replaced by a discriminator and a payload, and by no tag. -/
theorem exists_discriminated (h : m.IsPlanOf schema settings renames mp) (hgenerate : mp.generate)
    (honeof : oneof ∈ mp.oneofs) (hstrategy : oneof.strategy = .discriminatorOnly) :
    oneof.dispatch = none ∧
      (∃ plan ∈ mp.fields, plan.origin.role = some (.discriminator oneof.name)) ∧
      ∃ plan ∈ mp.fields, plan.origin.role = some (.payload oneof.name) := by
  have hdissolved : ∀ index newIndex, oneof ≠ m.untouchedPlan index newIndex := by
    rintro index newIndex rfl
    cases hstrategy
  obtain ⟨index, heq, hfields⟩ := h.exists_expand hgenerate honeof hdissolved
  have hexpand : m.strategy index = .discriminatorOnly := by
    rw [← hstrategy, heq, strategy_expand]
  rw [hexpand] at heq hfields
  subst heq
  refine ⟨rfl, ?_, ?_⟩
  · obtain ⟨plan, hplan, -, horigin⟩ := hfields _ List.mem_cons_self Bool.false_ne_true
    exact ⟨plan, hplan, by rw [horigin]; rfl⟩
  · obtain ⟨plan, hplan, -, horigin⟩ := hfields _
      (List.mem_cons_of_mem _ List.mem_cons_self) Bool.false_ne_true
    exact ⟨plan, hplan, by rw [horigin]; rfl⟩

end SourceMessage.IsPlanOf

end PlainSchema
