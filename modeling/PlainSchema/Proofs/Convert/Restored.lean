import PlainSchema.Proofs.Data.Except
import PlainSchema.Proofs.Value.Conflicts
import PlainSchema.Proofs.Value.Hops

/-!
# What a restored message holds

A strict conversion back writes the fields of the plan one after another, and then makes sure that
the selected members are set.  A value that was written stays in its place until a later write goes
through the same place or displaces it, `at?_foldlM_restoreField`.  A write below the top level that
would put one member of a oneof beside another one is an error, `displaced_of_partsInside`.
-/

namespace PlainSchema

open Proto

theorem Mode.settle_strict {α : Type} (casters : Casters (Value → Except String Value)) (before : α)
    (result : Except ConvertError α) : (Mode.strict casters).settle before result = result := by
  rw [Mode.settle]
  simp

theorem Mode.settle_ok {α : Type} (mode : Mode) (before found : α) :
    mode.settle before (.ok found) = .ok found := by
  cases mode <;> rfl

/-- Where a step is settled, it does not fail once more. -/
theorem Mode.settle_settle {α : Type} (mode : Mode) (before left : α)
    (result : Except ConvertError α) :
    mode.settle before (mode.settle left result) = mode.settle left result := by
  cases mode with
  | strict casters => rw [settle_strict]
  | lenient casters => cases result <;> rfl

/-- A lenient step always ends well. -/
theorem Mode.exists_settle_lenient {α : Type} (casters : Casters (Value → Value)) (before : α)
    (result : Except ConvertError α) : ∃ after, (Mode.lenient casters).settle before result = .ok after := by
  cases result with
  | error e => exact ⟨before, rfl⟩
  | ok found => exact ⟨found, rfl⟩

/-- A step that ends well in some mode did nothing or ended well by itself. -/
theorem Mode.settle_eq_ok {α : Type} {mode : Mode} {before after : α}
    {result : Except ConvertError α} (h : mode.settle before result = .ok after) :
    after = before ∨ result = .ok after := by
  cases result with
  | ok found =>
    right
    cases mode <;> exact h
  | error e =>
    cases mode with
    | lenient casters => exact Or.inl (Except.ok.inj h).symm
    | strict casters => exact absurd h (by simp [Mode.settle])

/-- A plan with a way back has no role. -/
theorem FieldPlan.isReversible_iff {plan : FieldPlan} :
    plan.isReversible ↔ plan.origin.isVirtual = false ∧ plan.origin.role = none := by
  rw [isReversible, Bool.and_eq_true, Option.isNone_iff_eq_none, Bool.not_eq_true']

theorem FieldPlan.role_ne {plan : FieldPlan} (h : plan.isReversible) (role : Role) :
    plan.origin.role ≠ some role := by
  rw [(isReversible_iff.mp h).2]
  simp

namespace Restoring

variable {c : Restoring} {casters : Casters (Value → Except String Value)} {selection : Selection}
  {plan : FieldPlan} {out out' m : Message}

/-- The payload of a plan holds a member of a oneof. -/
def HoldsMember (c : Restoring) (plan : FieldPlan) (oneof : OneofPlan) (member : OneofMember) :
    Prop :=
  ∃ bytes payload index, valueNamed? c.pool c.plain plan.shape.name = some (.bytes bytes) ∧
    Wire.decode? c.source c.type.fullName bytes = some payload ∧
    populatedMember? c.source payload oneof = some index ∧ oneof.members[index]? = some member

/-- A plan writes through a path: that of its adapted value, or the member that its payload holds. -/
inductive WritesThrough (c : Restoring) (selection : Selection) (plan : FieldPlan) :
    List String → Prop
  | value {write : Write} (hreversible : plan.isReversible)
      (hadapted : c.adapted selection plan = .ok (some write)) :
      WritesThrough c selection plan write.path
  | payload {name : String} {oneof : OneofPlan} {member : OneofMember}
      (hrole : plan.origin.role = some (.payload name)) (honeof : c.plan.oneof? name = some oneof)
      (hmember : c.HoldsMember plan oneof member) : WritesThrough c selection plan [member.name]

/-! ## Single steps -/

theorem restoreStep_strict (hmode : c.mode = .strict casters) :
    c.restoreStep selection = c.restoreField selection := by
  funext out plan
  rw [restoreStep, hmode, Mode.settle_strict]

theorem run_eq_ok (hmode : c.mode = .strict casters) (h : c.run = .ok m) :
    ∃ selection out, selectMembers c.mode c.pool c.plain c.plan.oneofs = .ok selection ∧
      c.plan.fields.foldlM (c.restoreField selection) { type := c.type.fullName } = .ok out ∧
      selection.foldlM (fun out selected => c.ensureSelected out selected.2) out = .ok m := by
  rw [run] at h
  obtain ⟨selection, hselection, h⟩ := bind_eq_ok.mp h
  obtain ⟨out, hout, h⟩ := bind_eq_ok.mp h
  refine ⟨selection, out, hselection, ?_, ?_⟩
  · rwa [restoreStep_strict hmode] at hout
  · simpa only [hmode, Mode.settle_strict] using h

theorem setField_eq_ok {pool : Pool} {type : MessageType} {field : Field} {value : Value}
    (h : setField pool out type field value = .ok out') :
    pool.accepts field value ∧ out' = out.set type field value := by
  rw [setField, Message.set?] at h
  split at h
  · next hset =>
    split at hset
    · next haccepts =>
      rw [← Except.ok.inj h, ← Option.some.inj hset]
      exact ⟨haccepts, rfl⟩
    · exact absurd hset (by simp)
  · exact absurd h (by simp)

theorem commit_eq_ok {name : String} {write : Write} (h : c.commit name out write = .ok out') :
    pathConflict? c.source false out write.path = none ∧
      out.write? c.source write.path write.value = some out' := by
  rw [commit] at h
  split at h
  · exact absurd h (by simp)
  · next hconflict =>
    split at h
    · next hwrite => exact ⟨hconflict, Except.ok.inj h ▸ hwrite⟩
    · exact absurd h (by simp)

theorem restoreField_eq_restoreValue (hreversible : plan.isReversible) :
    c.restoreField selection out plan = c.restoreValue selection plan out := by
  obtain ⟨hvirtual, hrole⟩ := FieldPlan.isReversible_iff.mp hreversible
  rw [restoreField, hrole]
  dsimp only
  rw [hvirtual]
  rfl

/-- Restoring a plan with a way back writes its adapted value, if there is one. -/
theorem restoreField_of_isReversible (hreversible : plan.isReversible)
    (h : c.restoreField selection out plan = .ok out') :
    (c.adapted selection plan = .ok none ∧ out' = out) ∨
      ∃ write, c.adapted selection plan = .ok (some write) ∧
        pathConflict? c.source false out write.path = none ∧
        out.write? c.source write.path write.value = some out' := by
  rw [restoreField_eq_restoreValue hreversible, restoreValue] at h
  obtain ⟨write, hadapted, h⟩ := bind_eq_ok.mp h
  cases write with
  | none => exact Or.inl ⟨hadapted, (Except.ok.inj h).symm⟩
  | some write => exact Or.inr ⟨write, hadapted, commit_eq_ok h⟩

/-- A payload puts back the member that it holds, with the value there, if its discriminator allows
that. -/
theorem restorePayload_eq_ok {name : String} (h : c.restorePayload plan name out = .ok out') :
    out' = out ∨ ∃ oneof bytes payload index member field, c.plan.oneof? name = some oneof ∧
      valueNamed? c.pool c.plain plan.shape.name = some (.bytes bytes) ∧
      Wire.decode? c.source c.type.fullName bytes = some payload ∧
      populatedMember? c.source payload oneof = some index ∧ oneof.members[index]? = some member ∧
      (∀ tag, c.discriminator? oneof.name = some tag → checkDiscriminator oneof tag member = .ok ()) ∧
      c.type.field? member.name = some field ∧
      out' = out.set c.type field (payload.get c.source field) := by
  rw [restorePayload] at h
  dsimp only at h
  split at h
  · next b bytes hvalue =>
    split at h
    · exact absurd h (by simp)
    · next payload hpayload =>
      split at h
      · exact Or.inl (Except.ok.inj h).symm
      · next oneof member hpopulated =>
        simp only [Option.bind_eq_bind, Option.bind_eq_some_iff] at hpopulated
        obtain ⟨found, hfound, index, hindex, picked, hpicked, hpair⟩ := hpopulated
        obtain ⟨rfl, rfl⟩ := Prod.mk.inj (Option.some.inj hpair)
        have hset : (∀ tag, c.discriminator? found.name = some tag →
              checkDiscriminator found tag picked = .ok ()) ∧
            ∃ field, c.type.field? picked.name = some field ∧
              setField c.source out c.type field (payload.get c.source field) = .ok out' := by
          cases hfield : c.type.field? picked.name with
          | none =>
            simp only [hfield] at h
            split at h
            · obtain ⟨_, -, h⟩ := bind_eq_ok.mp h
              exact absurd h (by simp)
            · exact absurd h (by simp)
          | some field =>
            simp only [hfield] at h
            split at h
            · next tag htag =>
              obtain ⟨_, hcheck, h⟩ := bind_eq_ok.mp h
              refine ⟨fun other hother => ?_, field, rfl, h⟩
              obtain rfl := Option.some.inj (htag.symm.trans hother)
              exact hcheck
            · next hnone =>
              exact ⟨fun tag htag => absurd htag (hnone tag), field, rfl, h⟩
        obtain ⟨hcheck, field, hfield, hset⟩ := hset
        exact Or.inr ⟨found, _, payload, index, picked, field, hfound, hvalue, hpayload, hindex,
          hpicked, hcheck, hfield, (setField_eq_ok hset).2⟩
  · exact Or.inl (Except.ok.inj h).symm

/-- Restoring a plan without a way back changes nothing but the member that its payload holds. -/
theorem restoreField_of_not_isReversible (hreversible : ¬ plan.isReversible)
    (h : c.restoreField selection out plan = .ok out') :
    out' = out ∨ ∃ path field value, c.WritesThrough selection plan [path] ∧
      c.type.field? path = some field ∧ out' = out.set c.type field value := by
  rw [restoreField] at h
  split at h
  · next name hrole =>
    rcases restorePayload_eq_ok h with heq | ⟨oneof, bytes, payload, index, member, field, honeof,
      hvalue, hdecode, hindex, hmember, -, hfield, heq⟩
    · exact Or.inl heq
    · have hholds : c.HoldsMember plan oneof member :=
        ⟨bytes, payload, index, hvalue, hdecode, hindex, hmember⟩
      exact Or.inr ⟨member.name, field, _, .payload hrole honeof hholds, hfield, heq⟩
  · exact Or.inl (Except.ok.inj h).symm
  · next hrole =>
    split at h
    · exact Or.inl (Except.ok.inj h).symm
    · next hvirtual => exact absurd (by simp [FieldPlan.isReversible, hrole, hvirtual]) hreversible

/-! ## What a step leaves alone -/

/-- A write goes through the place of a value, or displaces it. -/
def Overwrites (c : Restoring) (written kept : List String) : Prop :=
  ¬ Apart kept written ∨ Displaces c.source c.type written kept

theorem type?_restoreField (htype : out.type? c.source = some c.type)
    (h : c.restoreField selection out plan = .ok out') : out'.type? c.source = some c.type := by
  by_cases hreversible : plan.isReversible
  · rcases restoreField_of_isReversible hreversible h with ⟨-, rfl⟩ | ⟨write, -, -, hwrite⟩
    · exact htype
    · obtain ⟨_, _, -, -, -, -, hwrite⟩ := Message.write?_eq_some hwrite
      rw [Message.type?, Message.type_writeIn? hwrite]
      exact htype
  · rcases restoreField_of_not_isReversible hreversible h with rfl | ⟨path, field, value, -, -, rfl⟩
    · exact htype
    · exact Message.type?_set htype field value

theorem at?_restoreField (hpool : c.source.Linked) (htype : out.type? c.source = some c.type)
    {path : List String} {value : Value} (hat : out.at? c.source path = some value)
    (hfree : ∀ written, c.WritesThrough selection plan written → ¬ c.Overwrites written path)
    (h : c.restoreField selection out plan = .ok out') : out'.at? c.source path = some value := by
  by_cases hreversible : plan.isReversible
  · rcases restoreField_of_isReversible hreversible h with ⟨-, rfl⟩ | ⟨write, hadapted, hconflict,
      hwrite⟩
    · exact hat
    · obtain ⟨_, _, -, -, -, -, hwrite⟩ := Message.write?_eq_some hwrite
      have hnot := not_or.mp (hfree write.path (.value hreversible hadapted))
      exact at?_writeIn?_of_noConflict hpool htype (not_not.mp hnot.1) hat hconflict hwrite hnot.2
  · rcases restoreField_of_not_isReversible hreversible h with rfl | ⟨name, field, written, hthrough,
      hfield, rfl⟩
    · exact hat
    · have hnot := not_or.mp (hfree [name] hthrough)
      exact at?_set_of_apart hpool htype hfield (not_not.mp hnot.1) hat hnot.2 written

theorem typedAlong_restoreField (hpool : c.source.Linked) {front : List String}
    (htyped : TypedAlong c.source c.type out front)
    (hfree : ∀ written, c.WritesThrough selection plan written → ¬ written <+: front)
    (h : c.restoreField selection out plan = .ok out') :
    TypedAlong c.source c.type out' front := by
  by_cases hreversible : plan.isReversible
  · rcases restoreField_of_isReversible hreversible h with ⟨-, rfl⟩ | ⟨write, hadapted, -, hwrite⟩
    · exact htyped
    · obtain ⟨_, _, -, -, -, -, hwrite⟩ := Message.write?_eq_some hwrite
      exact htyped.writeIn? hpool (hfree write.path (.value hreversible hadapted)) hwrite
  · rcases restoreField_of_not_isReversible hreversible h with rfl | ⟨name, field, written, hthrough,
      hfield, rfl⟩
    · exact htyped
    · exact htyped.set hpool hfield (hfree [name] hthrough) written

theorem at?_ensureSelected (hpool : c.source.Linked) (htype : out.type? c.source = some c.type)
    {member : OneofMember}
    (hpresence : ∀ field, c.type.field? member.name = some field → field.tracksPresence)
    {first : String} {rest : List String} {value : Value}
    (hat : out.at? c.source (first :: rest) = some value)
    (hfree : ¬ Displaces c.source c.type [member.name] (first :: rest))
    (h : c.ensureSelected out member = .ok out') :
    out'.type? c.source = some c.type ∧ out'.at? c.source (first :: rest) = some value := by
  rw [ensureSelected] at h
  split at h
  · exact Except.ok.inj h ▸ ⟨htype, hat⟩
  · next field hfield =>
    split at h
    · exact Except.ok.inj h ▸ ⟨htype, hat⟩
    · next hhas =>
      obtain ⟨-, rfl⟩ := setField_eq_ok h
      refine ⟨Message.type?_set htype field _, ?_⟩
      have hne : first ≠ member.name := by
        rintro rfl
        obtain ⟨found, hstored⟩ := Message.exists_stored hat
        rw [Message.stored?_eq htype hfield] at hstored
        rw [Message.has_of_tracksPresence (hpresence field hfield), hstored] at hhas
        exact hhas rfl
      have hapart : Apart (first :: rest) [member.name] :=
        apart_of_prefix [] (by simp) (by simp) hne
      exact at?_set_of_apart hpool htype hfield hapart hat hfree _

/-! ## Runs -/

/-- A value stays in its place as long as no later plan goes through the place or displaces it. -/
theorem at?_foldlM_restoreField (hpool : c.source.Linked) {path : List String} {value : Value}
    {plans : List FieldPlan} (htype : out.type? c.source = some c.type)
    (hat : out.at? c.source path = some value)
    (hfree : ∀ plan ∈ plans, ∀ written, c.WritesThrough selection plan written →
      ¬ c.Overwrites written path)
    (h : plans.foldlM (c.restoreField selection) out = .ok out') :
    out'.type? c.source = some c.type ∧ out'.at? c.source path = some value := by
  refine foldlM_invariant (fun out : Message => out.type? c.source = some c.type ∧
    out.at? c.source path = some value) ⟨htype, hat⟩ ?_ h
  intro before plan after hplan hbefore hstep
  exact ⟨type?_restoreField hbefore.1 hstep,
    at?_restoreField hpool hbefore.1 hbefore.2 (hfree plan hplan) hstep⟩

theorem typedAlong_foldlM_restoreField (hpool : c.source.Linked) {front : List String}
    {plans : List FieldPlan} (htyped : TypedAlong c.source c.type out front)
    (hfree : ∀ plan ∈ plans, ∀ written, c.WritesThrough selection plan written →
      ¬ written <+: front)
    (h : plans.foldlM (c.restoreField selection) out = .ok out') :
    TypedAlong c.source c.type out' front := by
  refine foldlM_invariant (fun out : Message => TypedAlong c.source c.type out front) htyped ?_ h
  intro before plan after hplan hbefore hstep
  exact typedAlong_restoreField hpool hbefore (hfree plan hplan) hstep

theorem type?_foldlM_restoreField {plans : List FieldPlan}
    (htype : out.type? c.source = some c.type)
    (h : plans.foldlM (c.restoreField selection) out = .ok out') :
    out'.type? c.source = some c.type :=
  foldlM_invariant (fun out : Message => out.type? c.source = some c.type) htype
    (fun _ _ _ _ hbefore hstep => type?_restoreField hbefore hstep) h

theorem mem_of_selectedMember {pool : Pool} {p : Message} {oneof : OneofPlan}
    {member : OneofMember} (h : selectedMember pool p oneof = .ok (some member)) :
    member ∈ oneof.members := by
  rw [selectedMember] at h
  split at h
  · next tag _ =>
    by_cases hzero : tag.toInt = 0
    · rw [if_pos hzero] at h
      exact absurd (Except.ok.inj h) (by simp)
    · rw [if_neg hzero] at h
      split at h
      · next found hfound =>
        rw [← Option.some.inj (Except.ok.inj h)]
        split at hfound
        · exact List.mem_of_getElem? hfound
        · exact absurd hfound (by simp)
      · exact absurd h (by simp)
  · exact absurd (Except.ok.inj h) (by simp)

/-- The selection after the tag of one more oneof was read. -/
def selectNext (mode : Mode) (pool : Pool) (p : Message) (before : Selection) (oneof : OneofPlan) :
    Except ConvertError Selection :=
  mode.settle before do
    match ← selectedMember pool p oneof with
    | some member => return before ++ [(oneof.name, member)]
    | none => return before

theorem selectMembers_eq (mode : Mode) (pool : Pool) (p : Message) (oneofs : List OneofPlan) :
    selectMembers mode pool p oneofs = oneofs.foldlM (selectNext mode pool p) [] := rfl

theorem selectNext_eq_ok {mode : Mode} {pool : Pool} {p : Message} {before after : Selection}
    {oneof : OneofPlan} (h : selectNext mode pool p before oneof = .ok after) :
    after = before ∨ ∃ member, selectedMember pool p oneof = .ok (some member) ∧
      after = before ++ [(oneof.name, member)] := by
  rcases Mode.settle_eq_ok h with rfl | h
  · exact Or.inl rfl
  obtain ⟨found, hfound, h⟩ := bind_eq_ok.mp h
  cases found with
  | none => exact Or.inl (Except.ok.inj h).symm
  | some member => exact Or.inr ⟨member, hfound, (Except.ok.inj h).symm⟩

/-- The selected members are those that the tags of the oneofs select. -/
theorem exists_selectedMember_of_mem {mode : Mode} {pool : Pool} {p : Message}
    {oneofs : List OneofPlan} (h : selectMembers mode pool p oneofs = .ok selection)
    {selected : String × OneofMember} (hselected : selected ∈ selection) :
    ∃ oneof ∈ oneofs, oneof.name = selected.1 ∧
      selectedMember pool p oneof = .ok (some selected.2) := by
  rw [selectMembers_eq] at h
  refine foldlM_invariant (fun selection : Selection => ∀ selected ∈ selection,
    ∃ oneof ∈ oneofs, oneof.name = selected.1 ∧
      selectedMember pool p oneof = .ok (some selected.2)) (by simp) ?_ h selected hselected
  intro before oneof after honeof hbefore hstep
  rcases selectNext_eq_ok hstep with rfl | ⟨member, hmember, rfl⟩
  · exact hbefore
  intro selected hselected
  rcases List.mem_append.mp hselected with hselected | hselected
  · exact hbefore selected hselected
  · rw [List.mem_singleton.mp hselected]
    exact ⟨oneof, honeof, rfl, hmember⟩

/-- The selected members are members of the oneofs of the plan. -/
theorem mem_selectMembers {mode : Mode} {pool : Pool} {p : Message} {oneofs : List OneofPlan}
    (h : selectMembers mode pool p oneofs = .ok selection) {selected : String × OneofMember}
    (hselected : selected ∈ selection) :
    ∃ oneof ∈ oneofs, oneof.name = selected.1 ∧ selected.2 ∈ oneof.members := by
  obtain ⟨oneof, honeof, hname, hmember⟩ := exists_selectedMember_of_mem h hselected
  exact ⟨oneof, honeof, hname, mem_of_selectedMember hmember⟩

end Restoring

end PlainSchema
