import PlainSchema.Proofs.Convert.Delivered
import PlainSchema.Proofs.Convert.PayloadPlaces

/-!
# What goes into a payload

A conversion to a Plain message puts the populated member of a oneof into its payload, alone and as it
is, `Flattening.fillField_payload`, and the first enum value of the member into the discriminator,
`Flattening.fillField_discriminator`.  Both are of the type of what is written to them, and stand in no
oneof, `GeneratedType.roleFields`.  So they hold it in the end, in both modes, as long as nothing is
merged: no other field of the plan is written to them, `Flattening.value?_run`.
-/

namespace PlainSchema

open Proto

/-- A message can be encoded and decoded again. -/
def Message.ReadsBack (pool : Pool) (m : Message) : Prop :=
  Wire.decode? pool m.type (Wire.encode pool m) = some m

namespace Flattening

variable {c : Flattening} {plan other : FieldPlan} {target : Field} {out out' p : Message}
  {found : Option Value}

/-! ## Steps in both modes -/

section Own

variable (hcrf : c.plan.crf = []) (hlinked : c.type.Linked)
  (htarget : c.type.field? plan.shape.name = some target) (honeof : target.oneof = none)

include hcrf hlinked htarget honeof

/-- A field that stands in no oneof is left alone by the steps of other names. -/
theorem value?_fillStep (hne : other.shape.name ≠ plan.shape.name)
    (h : c.fillStep out other = .ok out') : out'.value? target.number = out.value? target.number := by
  obtain ⟨written, rfl, hwritten⟩ := fillStep_eq_ok h
  obtain ⟨hmem, hname⟩ := MessageType.field?_mem htarget
  refine Message.value?_setAll_of_not_excludes hlinked hmem (fun w hw heq => ?_) ?_
  · obtain ⟨hwMem, hwName⟩ := hwritten w hw
    have hwName := hwName.resolve_right (by simp [hcrf])
    rw [hlinked.eq_of_number hwMem hmem heq, hname] at hwName
    exact hne hwName.symm
  · rintro w - ⟨-, i, -, hi⟩
    rw [honeof] at hi
    cases hi

theorem value?_foldlM_fillStep {plans : List FieldPlan}
    (hne : ∀ other ∈ plans, other.shape.name ≠ plan.shape.name)
    (h : plans.foldlM c.fillStep out = .ok out') :
    out'.value? target.number = out.value? target.number :=
  foldlM_invariant (fun next : Message => next.value? target.number = out.value? target.number) rfl
    (fun _ other _ hother hbefore hstep =>
      (value?_fillStep hcrf hlinked htarget honeof (hne other hother) hstep).trans hbefore) h

/-- **A field that stands in no oneof holds what its own step writes.** -/
theorem value?_run (hnodup : (c.plan.fields.map (·.shape.name)).Nodup) (hplan : plan ∈ c.plan.fields)
    (hfill : ∀ out, c.fillField out plan = .ok (found.elim out (out.set c.type target ·)))
    (h : c.run = .ok p) : p.value? target.number = found := by
  obtain ⟨before, after, hsplit⟩ := List.append_of_mem hplan
  rw [hsplit, List.map_append, List.map_cons, List.nodup_middle, List.nodup_cons, ← List.map_append]
    at hnodup
  have hne : ∀ other ∈ before ++ after, other.shape.name ≠ plan.shape.name := by
    intro other hother hname
    exact hnodup.1 (hname ▸ List.mem_map_of_mem hother)
  -- The run up to the step, the step, and the rest of the run.
  rw [run, hsplit] at h
  obtain ⟨first, hfirst, hrest⟩ := foldlM_append_eq_ok.mp h
  obtain ⟨second, hsecond, hthird⟩ := foldlM_cons_eq_ok.mp hrest
  rw [fillStep, hfill, Mode.settle_ok] at hsecond
  obtain rfl := Except.ok.inj hsecond
  rw [value?_foldlM_fillStep hcrf hlinked htarget honeof
    (fun other hother => hne other (List.mem_append_right _ hother)) hthird]
  cases found with
  | none =>
    exact value?_foldlM_fillStep hcrf hlinked htarget honeof
      (fun other hother => hne other (List.mem_append_left _ hother)) hfirst
  | some value => exact Message.value?_set_self _ _ _ _

end Own

/-! ## Roles -/

section Roles

variable {oneof : String} {index : Nat} {member : OneofMember}
  (hpopulated : c.populated? oneof = some (index, member))
  (htarget : c.type.field? plan.shape.name = some target)

include hpopulated htarget

theorem fillField_payload {type : MessageType} {field : Field}
    (hrole : plan.origin.role = some (.payload oneof)) (htype : c.source.type? c.pool = some type)
    (hfield : type.field? member.name = some field) (hbytes : target.type = .scalar .bytes)
    (out : Message) :
    c.fillField out plan = .ok (out.set c.type target (.bytes (c.payloadOf field type))) := by
  have haccepts : c.plain.accepts target (.bytes (c.payloadOf field type)) :=
    Pool.accepts_of_type (by rw [hbytes]; rfl)
  have htargetOf : c.populated? (Role.payload oneof).target = some (index, member) := hpopulated
  simp only [fillField, requireField, htarget, hrole, fillRole, htargetOf, fillPayload, htype, hfield,
    set, setField, Message.set?, haccepts, if_true, bind, Except.bind]

theorem fillField_discriminator (hrole : plan.origin.role = some (.discriminator oneof))
    (htext : target.type = .scalar .string) (out : Message) :
    c.fillField out plan
      = .ok (((discriminatorOf? member).map Value.string).elim out (out.set c.type target ·)) := by
  have haccepts : ∀ text, c.plain.accepts target (.string text) :=
    fun text => Pool.accepts_of_type (by rw [htext]; rfl)
  have htargetOf : c.populated? (Role.discriminator oneof).target = some (index, member) := hpopulated
  cases htag : discriminatorOf? member with
  | none => simp [fillField, requireField, htarget, hrole, fillRole, htargetOf, htag, bind, Except.bind]
  | some text =>
    simp [fillField, requireField, htarget, hrole, fillRole, htargetOf, htag, set, setField,
      Message.set?, haccepts, bind, Except.bind]

end Roles

end Flattening

/-! ## The Plain fields of roles -/

/-- The Plain fields of the roles of a oneof are of the type of what is written, and stand in no
oneof. -/
structure RoleFields (mp : MessagePlan) (type : MessageType) : Prop where
  payload : ∀ fp ∈ mp.fields, ∀ oneof, fp.origin.role = some (.payload oneof) →
    ∃ target, type.field? fp.shape.name = some target ∧ target.type = .scalar .bytes ∧
      target.oneof = none
  discriminator : ∀ fp ∈ mp.fields, ∀ oneof, fp.origin.role = some (.discriminator oneof) →
    ∃ target, type.field? fp.shape.name = some target ∧ target.type = .scalar .string ∧
      target.oneof = none

theorem GeneratedType.roleFields {files : List FileDecl} {settings : Settings} {plan : SchemaPlan}
    {plain : Pool} {mp : MessagePlan} {file : FileDecl} {scope : String} {m : MessageDecl}
    {d : DeclaredMessage} {type : MessageType} {schema : Schema} {renames : Renames}
    {source : SourceMessage} (hg : GeneratedType files plan plain mp file scope m d type)
    (hlinked : type.Linked) (hplan : source.IsPlanOf schema settings renames mp) :
    RoleFields mp type := by
  -- Both roles stand for a scalar field of their own.
  have hscalar : ∀ fp ∈ mp.fields, ∀ scalar, fp.origin.role.isSome → fp.shape.IsScalar scalar →
      ∃ target, type.field? fp.shape.name = some target ∧ target.type = .scalar scalar ∧
        target.oneof = none := by
    intro fp hfp scalar hrole hshape
    obtain ⟨_, target, -, htarget, -⟩ := hg.exists_target hlinked hfp
    have hmap : ¬ fp.shape.isMap := by
      rw [(hplan.roleShaped hfp).isMap hrole]
      exact Bool.false_ne_true
    exact ⟨target, htarget, hg.target_of_isScalar hlinked hfp htarget hshape hmap,
      hg.oneof_of_alone hlinked hfp htarget ((hplan.roleNamed hfp).alone hrole)⟩
  exact ⟨fun fp hfp oneof hrole => hscalar fp hfp .bytes (by rw [hrole]; rfl)
      ((hplan.roleShaped hfp).payload oneof hrole),
    fun fp hfp oneof hrole => hscalar fp hfp .string (by rw [hrole]; rfl)
      ((hplan.roleShaped hfp).discriminator oneof hrole)⟩

end PlainSchema
