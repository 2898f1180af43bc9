import PlainSchema.Proofs.Convert.Returned
import PlainSchema.Proofs.Wire.Decoded

/-!
# Payloads on the way back

A payload holds the populated member of its oneof and nothing else, so it puts that member back,
`Restoring.Undoes.exists_restorePayload`; a discriminator names the same member,
`Restoring.Undoes.checkDiscriminator_eq_ok`.
-/

namespace PlainSchema

open Proto

theorem not_hasNamed_new (pool : Pool) (type name : String) :
    ¬ hasNamed pool { type := type } name := by
  intro h
  rw [hasNamed, Option.getD_eq_iff] at h
  rcases h with h | ⟨-, h⟩
  · obtain ⟨field, -, h⟩ := Option.map_eq_some_iff.mp h
    exact absurd h Bool.false_ne_true
  · exact absurd h Bool.false_ne_true

namespace Restoring

variable {c : Restoring} {fillers casters : Casters (Value → Except String Value)}
  {there : ConvertNested}  {x : Message} {type : MessageType} {schema : Schema} {settings : Settings} {renames : Renames}
  {source : SourceMessage} {plan : FieldPlan} {oneof : OneofPlan} {member : OneofMember}
  {name : String}

theorem Populates.eq {other : OneofMember} (h : Populates c.source x oneof member)
    (h' : Populates c.source x oneof other) : member = other := by
  obtain ⟨index, hindex, hmember⟩ := h
  obtain ⟨index', hindex', hother⟩ := h'
  obtain rfl := Option.some.inj (hindex.symm.trans hindex')
  exact Option.some.inj (hmember.symm.trans hother)

namespace Undoes

variable (hc : c.Undoes fillers there x type casters schema settings renames source)

include hc

/-- A payload that holds a member holds the populated one. -/
theorem exists_payload (hplan : plan ∈ c.plan.fields) (hrole : plan.origin.role = some (.payload name))
    {bytes : List UInt8} (hvalue : valueNamed? c.pool c.plain plan.shape.name = some (.bytes bytes)) :
    ∃ payload, Wire.decode? c.source c.type.fullName bytes = some payload ∧
      ∀ oneof, c.plan.oneof? name = some oneof → ∀ member, Populates c.source payload oneof member →
        Populates c.source x oneof member ∧ ∃ field, c.type.field? member.name = some field ∧
          c.source.accepts field (payload.get c.source field) := by
  obtain ⟨target, htarget, hget⟩ := exists_field_of_valueNamed? hc.type?_plain hvalue
  rw [Message.get] at hget
  cases hstored : c.plain.value? target.number with
  | none =>
    -- A payload that was not written holds nothing.
    rw [hstored] at hget
    obtain rfl := Pool.default_eq_bytes hget
    refine ⟨_, Wire.decode?_nil _ _, fun oneof _ member hpopulates => ?_⟩
    exact absurd hpopulates.hasNamed.2 (not_hasNamed_new _ _ _)
  | some value =>
    rw [hstored, Option.getD_some] at hget
    subst hget
    obtain ⟨written, hwrites, hmem⟩ := hc.follows.mem_roleWrites hc.run hplan hrole (by rintro _ ⟨⟩) htarget hstored
    obtain ⟨index, member, found, field, hpopulated, hfound, hfield, heq⟩ :=
      Flattening.payload_of_roleWrites hmem hwrites
    obtain rfl := Option.some.inj (hc.typed.symm.trans hfound)
    have hname : x.type = c.type.fullName := (Pool.message?_mem hc.typed).2.symm
    obtain ⟨payload, hdecode, htype, hwell, hhas⟩ :=
      hc.payloads plan hplan name hrole index member field hpopulated hfield
    rw [Message.type_set] at hdecode htype
    have hpayload : payload.type? c.source = some c.type := by
      rw [Message.type?, htype]
      exact hc.typed
    obtain rfl : bytes = _ := Value.bytes.inj heq
    refine ⟨payload, hname ▸ hdecode, fun oneof honeof other hother => ?_⟩
    obtain ⟨hotherMem, hnamed⟩ := hother.hasNamed
    obtain ⟨otherField, hotherField, hset⟩ := exists_of_hasNamed hpayload hnamed
    obtain ⟨hfieldMem, hfieldName⟩ := MessageType.field?_mem hfield
    obtain ⟨hotherFieldMem, hotherFieldName⟩ := MessageType.field?_mem hotherField
    -- Only the field of the populated member was encoded.
    obtain rfl : field = otherField := by
      have hsame := hset
      rw [hhas c.type (by rw [Message.type?, Message.type_set]; exact hc.typed) otherField
        hotherFieldMem] at hsame
      obtain ⟨value, hvalue⟩ := Option.isSome_iff_exists.mp (isSome_of_has hsame)
      rcases Message.value?_of_set hvalue with ⟨hnumber, -⟩ | hnone
      · exact (hc.restores.linked c.type hc.restores.views.mem).eq_of_number hfieldMem hotherFieldMem
          hnumber
      · cases hnone
    have honeofMem : oneof ∈ c.plan.oneofs := List.mem_of_find?_eq_some honeof
    have honeofName : oneof.name = name := by simpa using List.find?_some honeof
    obtain ⟨hindex, hmember⟩ := hc.populates honeofMem (honeofName ▸ hpopulated)
    have hpopulates : Populates c.source x oneof member := ⟨index, hindex, hmember⟩
    obtain rfl : member = other := List.inj_on_of_nodup_map (hc.restores.isPlan.members_nodup
      hc.restores.generate (hc.restores.names source hc.restores.mem) honeofMem)
      (List.mem_of_getElem? hmember) hotherMem (hfieldName.symm.trans hotherFieldName)
    refine ⟨hpopulates, field, hfield, ?_⟩
    obtain ⟨value, hvalue⟩ := Option.isSome_iff_exists.mp (isSome_of_has hset)
    rw [Message.get, hvalue, Option.getD_some]
    exact ((hwell.fitsType hpayload).fields field hfieldMem value hvalue).accepts

/-- A discriminator names an enum value of the populated member. -/
theorem exists_discriminator (honeof : oneof ∈ c.plan.oneofs)
    (hpopulates : Populates c.source x oneof member) {tag : Discriminator}
    (htag : c.discriminator? oneof.name = some tag) :
    ∃ value ∈ member.withEnums, tag = ⟨value⟩ := by
  obtain ⟨field, hfield, htag⟩ := Option.bind_eq_some_iff.mp htag
  obtain ⟨value, hvalue, htag⟩ := Option.bind_eq_some_iff.mp htag
  obtain ⟨plan, hfind, rfl⟩ := Option.map_eq_some_iff.mp hfield
  have hplan := List.mem_of_find?_eq_some hfind
  have hrole : plan.origin.role = some (.discriminator oneof.name) := by
    simpa using List.find?_some hfind
  obtain ⟨text, rfl⟩ : ∃ text, value = .string text := by
    cases value with
    | string text => exact ⟨text, rfl⟩
    | _ => cases htag
  dsimp only at htag
  split at htag
  · cases htag
  next hempty =>
  obtain rfl := Option.some.inj htag
  obtain ⟨target, htarget, hget⟩ := exists_field_of_valueNamed? hc.type?_plain hvalue
  rw [Message.get] at hget
  cases hstored : c.plain.value? target.number with
  | none =>
    rw [hstored] at hget
    obtain rfl := Pool.default_eq_string hget
    exact absurd (by decide +kernel) hempty
  | some value =>
    rw [hstored, Option.getD_some] at hget
    subst hget
    obtain ⟨written, hwrites, hmem⟩ := hc.follows.mem_roleWrites hc.run hplan hrole (by rintro _ ⟨⟩) htarget hstored
    obtain ⟨index, other, found, hpopulated, hfound, heq⟩ :=
      Flattening.text_of_roleWrites hmem hwrites
    obtain rfl := Value.string.inj heq
    obtain ⟨hindex, hother⟩ := hc.populates honeof hpopulated
    obtain rfl := hpopulates.eq ⟨index, hindex, hother⟩
    obtain ⟨value, hhead, rfl⟩ := Option.map_eq_some_iff.mp hfound
    have hmem : value ∈ member.withEnums := List.mem_of_mem_head? hhead
    refine ⟨value, hmem, ?_⟩
    have htrim := hc.restores.isPlan.trimFront_of_withEnums hc.restores.generate honeof
      hpopulates.hasNamed.1 hmem
    rw [Discriminator.ofName, Discriminator.ofName, htrim, htrim]

/-- A discriminator agrees with the member that the payload holds. -/
theorem checkDiscriminator_eq_ok (hplan : plan ∈ c.plan.fields)
    (hrole : plan.origin.role = some (.payload oneof.name)) (honeof : oneof ∈ c.plan.oneofs)
    (hpopulates : Populates c.source x oneof member) {tag : Discriminator}
    (htag : c.discriminator? oneof.name = some tag) :
    checkDiscriminator oneof tag member = .ok () := by
  obtain ⟨value, hvalue, rfl⟩ := hc.exists_discriminator honeof hpopulates htag
  have hmember := hpopulates.hasNamed.1
  have hself : (⟨value⟩ : Discriminator).names value := by
    rw [Discriminator.names, hc.restores.isPlan.trimFront_of_withEnums hc.restores.generate honeof
      hmember hvalue]
    exact beq_self_eq_true value
  rw [checkDiscriminator]
  cases hfind : oneof.members.find? fun member =>
      member.withEnums.any (⟨value⟩ : Discriminator).names with
  | none =>
    have hnot := List.find?_eq_none.mp hfind member hmember
    exact absurd (List.any_eq_true.mpr ⟨value, hvalue, hself⟩) hnot
  | some tagged =>
    have htagged := List.mem_of_find?_eq_some hfind
    have hany : tagged.withEnums.any (⟨value⟩ : Discriminator).names := by
      simpa using List.find?_some hfind
    obtain ⟨other, hother, hnames⟩ := List.any_eq_true.mp hany
    rw [Discriminator.names, beq_iff_eq, hc.restores.isPlan.trimFront_of_withEnums
      hc.restores.generate honeof htagged hother] at hnames
    obtain rfl := hnames
    obtain rfl := hc.restores.isPlan.eq_of_withEnums hc.restores.generate hc.restores.mem hc.findings
      hc.restores.oneofNames honeof hplan hrole hmember htagged hvalue hother
    exact if_pos rfl

/-- A payload is put back without an error. -/
theorem exists_restorePayload (hplan : plan ∈ c.plan.fields)
    (hrole : plan.origin.role = some (.payload name)) (out : Message) :
    ∃ out', c.restorePayload plan name out = .ok out' := by
  rw [restorePayload]
  dsimp only
  split
  · next b bytes hvalue =>
    obtain ⟨payload, hdecode, hpayload⟩ := hc.exists_payload hplan hrole hvalue
    simp only [hdecode]
    split
    · exact ⟨out, rfl⟩
    · next oneof member hpopulated =>
      obtain ⟨found, hfound, hpopulated⟩ := Option.bind_eq_some_iff.mp hpopulated
      obtain ⟨index, hindex, hpopulated⟩ := Option.bind_eq_some_iff.mp hpopulated
      obtain ⟨picked, hpicked, hpair⟩ := Option.bind_eq_some_iff.mp hpopulated
      obtain ⟨rfl, rfl⟩ := Prod.mk.inj (Option.some.inj hpair)
      obtain ⟨hpopulates, field, hfield, haccepts⟩ :=
        hpayload found hfound picked ⟨index, hindex, hpicked⟩
      have hname : found.name = name := by simpa using List.find?_some hfound
      have hset : setField c.source out c.type field (payload.get c.source field)
          = .ok (out.set c.type field (payload.get c.source field)) := by
        rw [setField, Message.set?, if_pos haccepts]
      simp only [hfield, hset]
      split
      · next tag htag =>
        rw [hc.checkDiscriminator_eq_ok hplan (hname ▸ hrole) (List.mem_of_find?_eq_some hfound)
          hpopulates htag]
        exact ⟨_, rfl⟩
      · exact ⟨_, rfl⟩
  · exact ⟨out, rfl⟩

end Undoes

end Restoring

end PlainSchema
