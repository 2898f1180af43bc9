import PlainSchema.Proofs.Convert.Stored
import PlainSchema.Proofs.Convert.Tags
import PlainSchema.Proofs.Derive.Lookup

/-!
# Virtual fields

A virtual field is a field that only the Plain message has.  The conversion back looks its fields up by
name: the tags of oneofs, the discriminators of payloads and the companions of merged fields.  None of
these is a virtual field, `SourceMessage.IsPlanOf.namesNoTag_of_isVirtual` and
`SourceMessage.IsPlanOf.ignores_of_isVirtual`, because the names of a plan are distinct and a virtual
field serves nothing.  So the conversion back runs as it would without any of them,
`Restoring.run_withPlain`.

On the way to the Plain message every step writes its own field or a companion,
`Flattening.fillStep_eq_ok`, and the step of a virtual field writes nothing, so a virtual field stays
unset, `Flattening.value?_run_of_isVirtual`.
-/

namespace PlainSchema

open Proto

/-! ## Virtual fields of a plan -/

/-- A plan that is virtual is that of a virtual field of the message, and serves nothing else. -/
def FieldPlan.VirtualIn (m : SourceMessage) (plan : FieldPlan) : Prop :=
  plan.origin.isVirtual → plan.origin.role = none ∧
    ∃ field ∈ m.options.virtualFields, field.name = plan.shape.name

/-- A plan that stands for a field of the source is not virtual. -/
theorem FieldPlan.StandsFor.virtualIn {ctx : PlanContext} {ref : String → String}
    {owner m : SourceMessage} {leaf : SourceField} {plan : FieldPlan}
    (h : plan.StandsFor ctx ref owner leaf) : plan.VirtualIn m := by
  intro hvirtual
  rw [h.isVirtual] at hvirtual
  exact absurd hvirtual Bool.false_ne_true

theorem virtualIn_expandFields {ctx : PlanContext} {m : SourceMessage} {newFullName : String} :
    ∀ plan ∈ (expandFields ctx m newFullName).plans, plan.VirtualIn m := by
  refine expandFields_forall (fun field hfield plan hplan oneofIndex => ?_) fun index _ plan hplan => ?_
  · obtain ⟨_, _, _, -, -, hstands⟩ := tracesBelow_flattenField hfield hplan
    have hstands : FieldPlan.StandsFor _ _ _ _ { plan with shape := { plan.shape with oneofIndex } } :=
      { hstands with }
    exact hstands.virtualIn
  · refine expand_forall (P := (·.VirtualIn m)) (fun _ _ _ _ _ _ _ hvirtual => ?_) ?_ plan hplan
    · exact absurd hvirtual Bool.false_ne_true
    · intro member hmember oneof namePrefix plan hplan
      have hmember := (List.mem_filter.mp hmember).1
      rw [PlanContext.memberPlans] at hplan
      split at hplan
      · obtain ⟨_, _, _, -, -, hstands⟩ := tracesBelow_embedWithin hmember hplan
        exact hstands.virtualIn
      · obtain ⟨inner, hinner, rfl⟩ := List.mem_map.mp hplan
        obtain ⟨_, _, _, -, -, hstands⟩ := tracesBelow_flattenField hmember hinner
        exact hstands.tracked.virtualIn

namespace SourceMessage.IsPlanOf

variable {schema : Schema} {settings : Settings} {renames : Renames} {m : SourceMessage}
  {mp : MessagePlan} {plan : FieldPlan} {entry : CrfEntry}

theorem virtualIn (h : m.IsPlanOf schema settings renames mp) :
    ∀ plan ∈ mp.fields, plan.VirtualIn m := by
  obtain ⟨outlined, houtlined, rfl⟩ := h
  intro plan hplan
  obtain ⟨before, hbefore, rfl⟩ := List.mem_map.mp hplan
  have hsame := sameOrigin_retargetPlan renames before
  rw [IsOutlinedAs] at houtlined
  split at houtlined
  · have hvirtual : before.VirtualIn m := by
      refine houtlined.forall_fields ?merged ?companion ?numbered ?candidate before hbefore
      case merged => exact fun plan origin hvirtual => hvirtual
      case companion => exact fun field hvirtual => absurd hvirtual Bool.false_ne_true
      case numbered => exact fun plan number hvirtual => hvirtual
      case candidate =>
        intro plan hplan
        rcases List.mem_append.mp hplan with hplan | hplan
        · exact virtualIn_expandFields plan hplan
        · obtain ⟨field, hfield, rfl⟩ := List.mem_map.mp hplan
          exact fun _ => ⟨rfl, field, hfield, rfl⟩
    rw [FieldPlan.VirtualIn, ← hsame.origin, ← hsame.name]
    exact hvirtual
  · rw [houtlined] at hbefore
    simp [MessagePlan.outline] at hbefore

theorem virtualFields_eq (h : m.IsPlanOf schema settings renames mp) (hgenerate : mp.generate) :
    mp.virtualFields = (mp.fields.filter (·.origin.isVirtual)).map (·.shape.name) := by
  have hm := h.outlines.generate
  obtain ⟨outlined, houtlined, rfl⟩ := h
  rw [IsOutlinedAs, if_pos (hm ▸ hgenerate)] at houtlined
  have hrest := congrArg MessagePlan.virtualFields houtlined.rest
  change outlined.virtualFields = _
  rw [hrest]
  change _ = ((outlined.fields.map renames.retargetPlan).filter _).map _
  rw [List.filter_map, List.map_map]
  have horigin : (·.origin.isVirtual) ∘ renames.retargetPlan = fun plan => plan.origin.isVirtual :=
    funext fun plan => congrArg Origin.isVirtual (sameOrigin_retargetPlan renames plan).origin.symm
  have hname : (·.shape.name) ∘ renames.retargetPlan = fun plan : FieldPlan => plan.shape.name :=
    funext fun plan => (sameOrigin_retargetPlan renames plan).name.symm
  rw [horigin, hname]

/-- The virtual fields of a plan are those that the message declares. -/
theorem mem_virtualFields_iff (h : m.IsPlanOf schema settings renames mp) (hgenerate : mp.generate)
    {name : String} :
    name ∈ mp.virtualFields ↔ ∃ field ∈ m.options.virtualFields, field.name = name := by
  rw [h.virtualFields_eq hgenerate]
  constructor
  · intro hname
    obtain ⟨plan, hplan, rfl⟩ := List.mem_map.mp hname
    obtain ⟨hmem, hvirtual⟩ := List.mem_filter.mp hplan
    exact (h.virtualIn plan hmem hvirtual).2
  · rintro ⟨field, hfield, rfl⟩
    have hcandidate := List.mem_append_right
      (expandFields (PlanContext.ofFile schema m.file) m mp.newFullName).plans
      (List.mem_map_of_mem (f := virtualFieldPlan m mp.newFullName settings.suffix) hfield)
    obtain ⟨plan, hplan, hname, horigin⟩ := h.exists_plan_of_not_isReversible hgenerate hcandidate
      (by simp [FieldPlan.isReversible, virtualFieldPlan])
    refine List.mem_map.mpr ⟨plan, List.mem_filter.mpr ⟨hplan, ?_⟩, hname⟩
    rw [horigin]
    rfl

/-! ## What the conversion back looks at -/

variable (h : m.IsPlanOf schema settings renames mp) (hgenerate : mp.generate) (hplan : plan ∈ mp.fields)
  (hvirtual : plan.origin.isVirtual)

include h hgenerate hplan hvirtual

/-- Of the fields of a plan only a virtual one has its name, and it has no role. -/
theorem role_of_virtualName {other : FieldPlan} (hother : other ∈ mp.fields)
    (hname : other.shape.name = plan.shape.name) : other = plan ∧ other.origin.role = none := by
  have heq : other = plan := List.inj_on_of_nodup_map (h.names_nodup hgenerate) hother hplan hname
  exact ⟨heq, heq ▸ (h.virtualIn plan hplan hvirtual).1⟩

/-- No companion has the name of a virtual field. -/
theorem crfField_ne_of_isVirtual (hentry : entry ∈ mp.crf) : entry.crfField ≠ plan.shape.name := by
  intro heq
  have hrole := h.role_of_companionName hgenerate hentry hplan heq.symm
  rw [(h.virtualIn plan hplan hvirtual).1] at hrole
  exact absurd hrole (by simp)

theorem namesNoTag_of_isVirtual : NamesNoTag mp plan.shape.name where
  tags oneof honeof dispatch hdispatch heq := by
    obtain ⟨tag, htag, hname, hrole⟩ := h.exists_dispatchTag hgenerate honeof hdispatch
    have hnone := (h.role_of_virtualName hgenerate hplan hvirtual htag (hname.trans heq)).2
    rw [hrole] at hnone
    exact absurd hnone (by simp)
  discriminators other hother oneof hrole heq := by
    have hnone := (h.role_of_virtualName hgenerate hplan hvirtual hother heq).2
    rw [hrole] at hnone
    exact absurd hnone (by simp)

theorem ignores_of_isVirtual {other : FieldPlan} (hother : other ∈ mp.fields) :
    Ignores mp plan.shape.name other where
  reversible hreversible heq := by
    obtain ⟨rfl, -⟩ := h.role_of_virtualName hgenerate hplan hvirtual hother heq
    rw [FieldPlan.isReversible_iff, hvirtual] at hreversible
    exact absurd hreversible.1 (by simp)
  payload oneof hrole heq := by
    have hnone := (h.role_of_virtualName hgenerate hplan hvirtual hother heq).2
    rw [hrole] at hnone
    exact absurd hnone (by simp)
  companion _ entry hentry :=
    h.crfField_ne_of_isVirtual hgenerate hplan hvirtual (List.mem_of_find?_eq_some hentry)

end SourceMessage.IsPlanOf

/-! ## Back to the source message -/

namespace Restoring

variable {c : Restoring} {names : List String} {p' : Message}

/-- Two Plain messages that differ only where the conversion back looks at nothing are restored alike,
to the same message or with the same error. -/
theorem run_withPlain (hagree : c.plain.AgreeBut c.pool names p')
    (hnames : ∀ name ∈ names, NamesNoTag c.plan name)
    (hignores : ∀ other ∈ c.plan.fields, ∀ name ∈ names, Ignores c.plan name other) :
    (c.withPlain p').run = c.run := by
  have hselect : selectMembers (c.withPlain p').mode (c.withPlain p').pool (c.withPlain p').plain
        (c.withPlain p').plan.oneofs
      = selectMembers c.mode c.pool c.plain c.plan.oneofs := selectMembers_withPlain hagree hnames
  rw [run, run, hselect]
  refine bind_congr fun selection => ?_
  -- The members that are set behind the fields do not depend on the Plain message.
  have hfields : (c.withPlain p').plan.fields.foldlM ((c.withPlain p').restoreStep selection)
        { type := (c.withPlain p').type.fullName }
      = c.plan.fields.foldlM (c.restoreStep selection) { type := c.type.fullName } :=
    foldlM_congr (fun out other hother =>
      restoreStep_withPlain hagree hnames (hignores other hother) out) _
  rw [hfields]
  rfl

end Restoring

/-! ## To the Plain message -/

namespace Flattening

variable {c : Flattening} {plan : FieldPlan} {target : Field} {out out' p : Message}

/-- The step of a virtual field changes nothing, whether the Plain type has the field or not. -/
theorem fillStep_of_isVirtual (hvirtual : plan.origin.isVirtual) (hrole : plan.origin.role = none)
    (h : c.fillStep out plan = .ok out') : out' = out := by
  have hreversible : ¬ plan.isReversible := by simp [FieldPlan.isReversible, hvirtual]
  rcases Mode.settle_eq_ok h with rfl | h
  · rw [leftBehind]
    split
    · rw [if_neg hreversible]
    · rfl
  · obtain ⟨target, -, h⟩ := bind_eq_ok.mp h
    simp only [hrole, hvirtual, if_true] at h
    exact (Except.ok.inj h).symm

/-- **A virtual field stays unset**, in both modes. -/
theorem value?_run_of_isVirtual {schema : Schema} {settings : Settings} {renames : Renames}
    {m : SourceMessage} (hisPlan : m.IsPlanOf schema settings renames c.plan)
    (hgenerate : c.plan.generate) (hlinked : c.type.Linked) (hplan : plan ∈ c.plan.fields)
    (hvirtual : plan.origin.isVirtual) (htarget : c.type.field? plan.shape.name = some target)
    (h : c.run = .ok p) : p.value? target.number = none := by
  obtain ⟨hmem, hname⟩ := MessageType.field?_mem htarget
  refine foldlM_invariant (fun out : Message => out.value? target.number = none) rfl ?_ h
  intro out other next hother hbefore hstep
  by_cases hsame : other.shape.name = plan.shape.name
  · obtain ⟨rfl, hrole⟩ := hisPlan.role_of_virtualName hgenerate hplan hvirtual hother hsame
    rw [fillStep_of_isVirtual hvirtual hrole hstep]
    exact hbefore
  · obtain ⟨written, rfl, hwritten⟩ := fillStep_eq_ok hstep
    by_contra hsome
    obtain ⟨found, hfound⟩ := Option.ne_none_iff_exists'.mp hsome
    rcases Message.value?_of_setAll hfound with ⟨w, hw, hnumber, -⟩ | hheld
    · -- The write would be one of the virtual field, but it is that of a field of another name.
      obtain ⟨hwMem, hown | ⟨entry, hentry, hcompanion⟩⟩ := hwritten w hw
      · rw [hlinked.eq_of_number hwMem hmem hnumber, hname] at hown
        exact hsame hown.symm
      · rw [hlinked.eq_of_number hwMem hmem hnumber, hname] at hcompanion
        exact hisPlan.crfField_ne_of_isVirtual hgenerate hplan hvirtual hentry hcompanion.symm
    · rw [hbefore] at hheld
      exact absurd hheld (by simp)

end Flattening

/-! ## The main result -/

namespace Converter

variable {schema : Schema} {settings : Settings} {plan : SchemaPlan} {pool types : Pool}
  {c : Converter} {p p' x : Message} {mp : MessagePlan} {mode : Mode}

/-- The plan of a converter for a generated message is the plan of a message of the schema. -/
theorem exists_isPlanOf (hplan : schema.plan settings = .ok plan)
    (hconverter : Converter.ofPool pool plan = .ok c) (hmp : mp ∈ c.plan.messages) :
    ∃ m ∈ schema.messages, m.IsPlanOf schema settings plan.renames mp := by
  obtain ⟨plain, -, hc⟩ := bind_eq_ok.mp hconverter
  obtain rfl := Except.ok.inj hc
  exact exists_left_of_forall₂ (Schema.plan_eq_ok hplan).messages hmp

/-- The Plain types of a converter are linked. -/
theorem linked_plain (hconverter : Converter.ofPool pool plan = .ok c) : c.plain.Linked := by
  obtain ⟨plain, hload, hc⟩ := bind_eq_ok.mp hconverter
  obtain rfl := Except.ok.inj hc
  exact Pool.linked_of_load hload

theorem convert_eq_of_agreeBut (hplan : schema.plan settings = .ok plan)
    (hconverter : Converter.ofPool pool plan = .ok c)
    (hmp : c.planFor? p.type .toSource = some mp) (hagree : p.AgreeBut types mp.virtualFields p') :
    c.convert mode .toSource types p' = c.convert mode .toSource types p := by
  have hgenerate : mp.generate := by
    have hfound := List.find?_some hmp
    simp only [Bool.and_eq_true] at hfound
    exact hfound.1
  obtain ⟨m, -, hisPlan⟩ :=
    exists_isPlanOf hplan hconverter (List.mem_of_find?_eq_some hmp)
  have hvirtual : ∀ name ∈ mp.virtualFields, ∃ plan ∈ mp.fields, plan.origin.isVirtual ∧
      plan.shape.name = name := by
    intro name hname
    rw [hisPlan.virtualFields_eq hgenerate] at hname
    obtain ⟨plan, hplan, rfl⟩ := List.mem_map.mp hname
    obtain ⟨hmem, hvirtual⟩ := List.mem_filter.mp hplan
    exact ⟨plan, hmem, hvirtual, rfl⟩
  rw [convert, convert, hagree.type, hmp]
  dsimp only [byPlan]
  -- The messages inside are converted alike, since what is left for them depends on no message.
  refine bind_congr fun type => ?_
  refine Restoring.run_withPlain (c := { c.restoringIn mode
    (c.convertNested mode .toSource types (levels p)) p mp type with pool := types }) hagree ?_ ?_
  · intro name hname
    obtain ⟨plan, hmem, hisVirtual, rfl⟩ := hvirtual name hname
    exact hisPlan.namesNoTag_of_isVirtual hgenerate hmem hisVirtual
  · intro other hother name hname
    obtain ⟨plan, hmem, hisVirtual, rfl⟩ := hvirtual name hname
    exact hisPlan.ignores_of_isVirtual hgenerate hmem hisVirtual hother

theorem hasNamed_convert_eq_false (hplan : schema.plan settings = .ok plan)
    (hconverter : Converter.ofPool pool plan = .ok c)
    (hmp : c.planFor? x.type .toPlain = some mp) {name : String} (hname : name ∈ mp.virtualFields)
    (h : c.convert mode .toPlain types x = .ok p) : hasNamed c.plain p name = false := by
  obtain ⟨hfind, hgenerate⟩ := Option.filter_eq_some_iff.mp hmp
  obtain ⟨m, -, hisPlan⟩ :=
    exists_isPlanOf hplan hconverter (List.mem_of_find?_eq_some hfind)
  rw [hisPlan.virtualFields_eq hgenerate] at hname
  obtain ⟨plan, hmem, rfl⟩ := List.mem_map.mp hname
  obtain ⟨hmem, hvirtual⟩ := List.mem_filter.mp hmem
  rw [convert, hmp] at h
  obtain ⟨type, htype, hrun⟩ := bind_eq_ok.mp h
  obtain ⟨-, hfound⟩ := fullName_of_requireType htype
  have hlinked : type.Linked := linked_plain hconverter type (Pool.message?_mem hfound).1
  have hptype : p.type? c.plain = some type := by
    rw [Message.type?, Flattening.type_run hrun]
    exact hfound
  cases htarget : type.field? plan.shape.name with
  | none => simp [hasNamed, hptype, htarget]
  | some target =>
    rw [Restoring.hasNamed_eq hptype htarget, Message.has,
      Flattening.value?_run_of_isVirtual hisPlan hgenerate hlinked hmem hvirtual htarget hrun]

end Converter

/-- **Virtual fields never influence the source message, and conversions to the Plain message leave
them unset.**  Two Plain messages that differ only in virtual fields are converted back to the same
message, or with the same error, whatever the casters do with the other fields. -/
theorem virtual_fields_stay_apart {schema : Schema} {settings : Settings} {plan : SchemaPlan}
    {pool : Pool} {c : Converter} (hplan : schema.plan settings = .ok plan)
    (hconverter : Converter.ofPool pool plan = .ok c) :
    (∀ types p p' mp, c.planFor? p.type .toSource = some mp →
      p.AgreeBut types mp.virtualFields p' →
        (∀ casters, c.toSource casters types p' = c.toSource casters types p) ∧
          ∀ casters, c.toSource? casters types p' = c.toSource? casters types p) ∧
      ∀ types x mp, c.planFor? x.type .toPlain = some mp → ∀ name ∈ mp.virtualFields,
        (∀ casters p, c.toPlain casters types x = .ok p → hasNamed c.plain p name = false) ∧
          ∀ casters p, c.toPlain? casters types x = some p → hasNamed c.plain p name = false := by
  constructor
  · intro types p p' mp hmp hagree
    constructor
    · intro casters
      exact Converter.convert_eq_of_agreeBut hplan hconverter hmp hagree
    · intro casters
      rw [Converter.toSource?, Converter.toSource?,
        Converter.convert_eq_of_agreeBut hplan hconverter hmp hagree]
  · intro types x mp hmp name hname
    constructor
    · intro casters p h
      exact Converter.hasNamed_convert_eq_false hplan hconverter hmp hname h
    · intro casters p h
      exact Converter.hasNamed_convert_eq_false hplan hconverter hmp hname (eq_ok_of_toOption h)

/-! ## A payment with a mark -/

/-- A write of a field that stands in no oneof changes nothing else. -/
theorem Message.agreeBut_set {pool : Pool} {type : MessageType} {field : Field} {m : Message}
    {name : String} (hpool : pool.Linked) (htype : m.type? pool = some type)
    (hfield : type.field? name = some field) (honeof : field.oneof = none) (value : Value) :
    m.AgreeBut pool [name] (m.set type field value) where
  type := Message.type_set m type field value
  stored other hother := by
    refine stored?_set_of_ne hpool htype hfield (fun heq => hother (by simp [heq])) ?_ value
    rintro found - ⟨-, index, hindex, -⟩
    rw [honeof] at hindex
    exact absurd hindex (by simp)

/-- A payment whose members are dispatched and have a number each, with a mark that only the Plain
payment has. -/
def markedFile : FileDecl :=
  { name := "payment.proto", package := "p"
    messages :=
      [{ name := "Card", fields := [{ name := "number", number := 1, kind := .scalar .string }] },
        { name := "Bank", fields := [{ name := "number", number := 1, kind := .scalar .string }] },
        { name := "Payment"
          options := { generate := true, virtualFields := [{ name := "mark", kind := "string" }] }
          oneofs := [{ name := "method", options := { enumDispatched := true } }]
          fields :=
            [{ name := "card", number := 1, kind := .message, typeRef := some ".p.Card"
               oneofIndex := some 0 },
              { name := "bank", number := 2, kind := .message, typeRef := some ".p.Bank"
                oneofIndex := some 0 }] }] }

def markedFiles : List FileDecl :=
  [{ messageOptionsFile with
      extensions := messageOptionsFile.extensions ++
        [{ name := "oneof", number := 3, kind := .scalar .string
           extendee := some ".plain.Options" }] },
    markedFile]

def markedPool : Pool := (Pool.load markedFiles).toOption.getD {}

def markedPlan : SchemaPlan :=
  ((Schema.ofPool markedPool []).plan { enableCrf := true }).toOption.getD
    { suffix := "", messages := [], renames := {}, diagnostics := [] }

def markedConverter : Converter := (Converter.ofPool markedPool markedPlan).toOption.getD default

/-- The plan of a payment. -/
def markedEntry : MessagePlan := (markedConverter.planFor? "p.PaymentPlain" .toSource).getD default

/-- The type of a Plain payment. -/
def markedType : MessageType :=
  (Converter.requireType markedConverter.plain markedEntry.newFullName).toOption.getD default

/-- The field that holds the mark. -/
def markField : Field := (markedType.field? "mark").getD default

/-- A payment by card. -/
def paymentByCard : Message :=
  { type := "p.Payment", fields := [(1, .message { type := "p.Card", fields := [(1, .string "4")] })] }

/-- The Plain payment of a payment by card. -/
def plainMarkedPayment : Message :=
  (markedConverter.toPlain {} markedConverter.source paymentByCard).toOption.getD default

/-- What can be read off a payment, its files and their plan. -/
theorem marked_checks :
    ((Schema.ofPool markedPool []).plan { enableCrf := true }).isOk ∧
      (Converter.ofPool markedPool markedPlan).isOk ∧
      markedConverter.planFor? "p.Payment" .toPlain = some markedEntry ∧
      markedConverter.planFor? plainMarkedPayment.type .toSource = some markedEntry ∧
      markedEntry.virtualFields = ["mark"] ∧
      plainMarkedPayment.type? markedConverter.plain = some markedType ∧
      markedType.field? "mark" = some markField ∧ markField.oneof = none ∧
      (markedConverter.toPlain {} markedConverter.source paymentByCard).isOk ∧
      (markedConverter.toSource {} markedConverter.plain plainMarkedPayment).isOk := by
  decide +kernel

/-- The mark of a Plain payment is not set, and no mark changes what the payment is converted back
to. -/
theorem mark_stays_apart :
    markedConverter.planFor? plainMarkedPayment.type .toSource = some markedEntry ∧
      markedEntry.virtualFields = ["mark"] ∧
      (∀ text casters, markedConverter.toSource casters markedConverter.plain
          (plainMarkedPayment.set markedType markField (.string text))
        = markedConverter.toSource casters markedConverter.plain plainMarkedPayment) ∧
      (markedConverter.toSource {} markedConverter.plain plainMarkedPayment).isOk ∧
      hasNamed markedConverter.plain plainMarkedPayment "mark" = false := by
  obtain ⟨hplan, hconverter, hthere, hback, hnames, htype, hfield, honeof, hto, hfrom⟩ := marked_checks
  have hplan : (Schema.ofPool markedPool []).plan { enableCrf := true } = .ok markedPlan :=
    eq_ok_of_isOk hplan _
  have hconverter : Converter.ofPool markedPool markedPlan = .ok markedConverter :=
    eq_ok_of_isOk hconverter _
  obtain ⟨hignored, hunset⟩ := virtual_fields_stay_apart hplan hconverter
  refine ⟨hback, hnames, fun text casters => ?_, hfrom, ?_⟩
  · have hagree := Message.agreeBut_set (Converter.linked_plain hconverter) htype hfield honeof
      (.string text)
    exact (hignored _ _ _ markedEntry hback (hnames ▸ hagree)).1 casters
  · have hmem : "mark" ∈ markedEntry.virtualFields := hnames ▸ List.mem_singleton_self "mark"
    exact (hunset _ paymentByCard markedEntry hthere "mark" hmem).1 {} plainMarkedPayment
      (eq_ok_of_isOk hto _)

end PlainSchema
