import PlainSchema.Proofs.Convert.Packed

/-!
# What comes back out of a payload

The payload that a conversion made of a message holds the populated member alone, under a discriminator
that names it, if the member has enum values at all.  So the step of the payload never fails on the way
back, and the member comes back with its value, `Restoring.Repacks.givesBack`.
-/

namespace PlainSchema

open Proto

/-- A message with one of its fields alone. -/
def Message.only (x : Message) (pool : Pool) (type : MessageType) (field : Field) : Message :=
  Message.set { type := x.type } type field (x.get pool field)

namespace Restoring

variable {c : Restoring} {oneof : OneofPlan} {index : Nat} {before after : List FieldPlan}
  {plan : FieldPlan} {mode : Mode} {there : ConvertNested} {x m : Message} {type : MessageType}
  {member other : OneofMember} {field : Field} {selection : Selection}

/-- The conversion that a conversion back undoes, in some mode. -/
abbrev forwardIn (c : Restoring) (mode : Mode) (there : ConvertNested) (x : Message)
    (type : MessageType) : Flattening where
  pool := c.source
  plain := c.pool
  mode := mode
  nested := there
  plan := c.plan
  type := type
  source := x

/-- A conversion back of a Plain message that was made of a well-typed message by the same plan, in
which nothing is merged. -/
structure Repacks (c : Restoring) (mode : Mode) (there : ConvertNested) (x : Message)
    (type : MessageType) : Prop where
  crf : c.plan.crf = []
  names : (c.plan.fields.map (·.shape.name)).Nodup
  linked : type.Linked
  found : c.pool.message? type.fullName = some type
  roles : RoleFields c.plan type
  typed : x.type? c.source = some c.type
  wellTyped : x.WellTyped c.source
  run : (c.forwardIn mode there x type).run = .ok c.plain

/-- A member comes back out of the payload: the step of the payload does not fail, and the source
message holds the member with its value. -/
structure GivesBack (c : Restoring) (plan : FieldPlan) (x : Message) (field : Field) : Prop where
  restored : ∀ selection out, c.restoreField selection out plan
    = .ok (out.set c.type field (x.get c.source field))
  held : ∀ m, c.run = .ok m →
    m.has c.source field ∧ m.value? field.number = x.value? field.number

namespace PayloadAt

variable (h : c.PayloadAt oneof index before plan after)

include h

/-- A message that keeps the fields of a oneof apart holds one member at most. -/
theorem eq_of_hasNamed (htype : m.type? c.source = some c.type)
    (hapart : m.StoresApart c.type) (hmember : member ∈ oneof.members)
    (hother : other ∈ oneof.members) (hhas : hasNamed c.source m member.name)
    (hhas' : hasNamed c.source m other.name) : other = member := by
  obtain ⟨field, hfield, hset⟩ := exists_of_hasNamed htype hhas
  obtain ⟨otherField, hotherField, hotherSet⟩ := exists_of_hasNamed htype hhas'
  obtain ⟨hmem, -⟩ := MessageType.field?_mem hfield
  obtain ⟨hotherMem, -⟩ := MessageType.field?_mem hotherField
  have hnumber : field.number = otherField.number := by
    by_contra hne
    have hexcludes : field.Excludes otherField :=
      ⟨hne, index, (h.fields member hmember field hfield).2, (h.fields other hother _ hotherField).2⟩
    have hsome := isSome_of_has hotherSet
    rw [hapart field hmem otherField hotherMem hexcludes (isSome_of_has hset)] at hsome
    exact absurd hsome Bool.false_ne_true
  obtain rfl := h.linkedType.eq_of_number hmem hotherMem hnumber
  exact h.eq_of_field? hother hmember hotherField hfield

end PayloadAt

namespace Repacks

variable (hc : c.Repacks mode there x type) (h : c.PayloadAt oneof index before plan after)

include hc

theorem type?_plain : c.plain.type? c.pool = some type := by
  rw [Message.type?, Flattening.type_run hc.run]
  exact hc.found

/-- What a Plain field holds that has a role, or its default. -/
theorem valueNamed?_eq (found : Option Value) {fp : FieldPlan} {target : Field}
    (hfp : fp ∈ c.plan.fields) (htarget : type.field? fp.shape.name = some target)
    (honeof : target.oneof = none)
    (hfill : ∀ out, (c.forwardIn mode there x type).fillField out fp
      = .ok (found.elim out (out.set type target ·))) :
    valueNamed? c.pool c.plain fp.shape.name = some (found.getD (c.pool.default target)) := by
  have hvalue := Flattening.value?_run hc.crf hc.linked htarget honeof hc.names hfp hfill hc.run
  rw [valueNamed?, hc.type?_plain, Option.bind_eq_bind, Option.bind_some, htarget]
  simp only [Option.bind_eq_bind, Option.bind_some, Message.get, hvalue]
  rfl

variable (hmember : member ∈ oneof.members) (hfield : c.type.field? member.name = some field)
  (hhas : x.has c.source field)

include h hmember hfield hhas

theorem populates : Populates c.source x oneof member := by
  have hnamed : hasNamed c.source x member.name := (hasNamed_eq hc.typed hfield).trans hhas
  exact populates_of_hasNamed hmember hnamed fun other hother hhas' =>
    h.eq_of_hasNamed hc.typed (hc.wellTyped.fitsType hc.typed).oneofs hmember hother hnamed hhas'

theorem exists_populated? : ∃ position,
    (c.forwardIn mode there x type).populated? oneof.name = some (position, member) := by
  obtain ⟨position, hposition, hat⟩ := hc.populates h hmember hfield hhas
  refine ⟨position, ?_⟩
  simp only [Flattening.populated?, h.oneof?_name, hposition, hat, Option.bind_eq_bind,
    Option.bind_some]
  rfl

/-- The bytes of a payload are those of the message with the populated member alone. -/
theorem valueNamed?_payload : valueNamed? c.pool c.plain oneof.name
    = some (.bytes (Wire.encode c.source (x.only c.source c.type field))) := by
  obtain ⟨position, hpopulated⟩ := hc.exists_populated? h hmember hfield hhas
  obtain ⟨target, htarget, hbytes, honeof⟩ := hc.roles.payload plan h.mem oneof.name h.role
  have hvalue := hc.valueNamed?_eq (some _) h.mem htarget honeof
    (Flattening.fillField_payload hpopulated htarget h.role hc.typed hfield hbytes)
  rw [h.name] at hvalue
  exact hvalue

/-- The payload of a message holds the member that is populated in it. -/
theorem packs (hreads : (x.only c.source c.type field).ReadsBack c.source) :
    c.Packs oneof (x.only c.source c.type field) member := by
  have hname : x.type = c.type.fullName := (Pool.message?_mem hc.typed).2.symm
  have htypeName : (x.only c.source c.type field).type = c.type.fullName :=
    (Message.type_set _ _ _ _).trans hname
  have hpayload : (x.only c.source c.type field).type? c.source = some c.type := by
    rw [Message.type?, htypeName]
    exact h.found
  obtain ⟨hpresence, -⟩ := h.fields member hmember field hfield
  have hnamed : hasNamed c.source (x.only c.source c.type field) member.name := by
    rw [hasNamed_eq hpayload hfield, Message.has_of_tracksPresence hpresence, Message.only,
      Message.value?_set_self]
    rfl
  have hapart : (x.only c.source c.type field).StoresApart c.type :=
    (Message.StoresApart.new c.type x.type).set h.linkedType (MessageType.field?_mem hfield).1 _
  refine ⟨⟨_, hc.valueNamed?_payload h hmember hfield hhas, htypeName ▸ hreads⟩, ?_⟩
  exact populates_of_hasNamed hmember hnamed fun other hother hhas' =>
    h.eq_of_hasNamed hpayload hapart hmember hother hnamed hhas'

/-- The discriminator of a message names the populated member, if anything. -/
theorem tagAllows : c.TagAllows oneof member := by
  obtain ⟨position, hpopulated⟩ := hc.exists_populated? h hmember hfield hhas
  obtain ⟨fp, hfind, hname⟩ := Option.map_eq_some_iff.mp h.discriminator
  have hfp := List.mem_of_find?_eq_some hfind
  have hrole : fp.origin.role = some (.discriminator oneof.name) := by
    simpa using List.find?_some hfind
  obtain ⟨target, htarget, htext, honeof⟩ := hc.roles.discriminator fp hfp oneof.name hrole
  have hvalue := hc.valueNamed?_eq _ hfp htarget honeof
    (Flattening.fillField_discriminator hpopulated htarget hrole htext)
  rw [hname] at hvalue
  cases htag : Flattening.discriminatorOf? member with
  | none =>
    -- Without a discriminator the text is the default one.
    left
    rw [htag, Option.map_none, Option.getD_none] at hvalue
    rw [tagText, hvalue]
    split
    · next text heq =>
      rw [Pool.default_eq_string (Option.some.inj heq)]
      decide
    · rfl
  | some text =>
    right
    rw [htag, Option.map_some, Option.getD_some] at hvalue
    obtain ⟨value, hhead, rfl⟩ := Option.map_eq_some_iff.mp htag
    refine ⟨value, List.mem_of_mem_head? hhead, ?_⟩
    rw [tagText, hvalue]
    exact (trimFront_trimFront value '.').symm

/-- **A populated member comes back out of its payload.** -/
theorem givesBack (hreads : (x.only c.source c.type field).ReadsBack c.source) :
    c.GivesBack plan x field := by
  have hpacks := hc.packs h hmember hfield hhas hreads
  have hallows := hc.tagAllows h hmember hfield hhas
  obtain ⟨hmem, -⟩ := MessageType.field?_mem hfield
  obtain ⟨value, hvalue⟩ := Option.isSome_iff_exists.mp (isSome_of_has hhas)
  have hget : x.get c.source field = value := by rw [Message.get, hvalue, Option.getD_some]
  have hrestored : ∀ selection out, c.restoreField selection out plan
      = .ok (out.set c.type field (x.get c.source field)) := by
    intro selection out
    have haccepts : c.source.accepts field (x.get c.source field) :=
      hget ▸ ((hc.wellTyped.fitsType hc.typed).fields field hmem value hvalue).accepts
    have honly : (x.only c.source c.type field).get c.source field = x.get c.source field := by
      rw [Message.only, Message.get, Message.value?_set_self, Option.getD_some]
    rw [h.restoreField_eq, h.restorePayload_of_allows hpacks hallows hfield, honly, setField,
      Message.set?, if_pos haccepts]
  -- After the step of the payload nothing is written to the members of the oneof.
  refine ⟨hrestored, fun m hm => ?_⟩
  obtain ⟨selection, first, second, hstep, hsame⟩ := h.exists_restoreStep_of_run hm
  rw [restoreStep, hrestored, Mode.settle_ok] at hstep
  obtain rfl := Except.ok.inj hstep
  obtain ⟨hpresence, hindex⟩ := h.fields member hmember field hfield
  have hheld : m.value? field.number = x.value? field.number := by
    rw [(hsame field hmem hindex).2, Message.value?_set_self, hget, hvalue]
  refine ⟨?_, hheld⟩
  rw [Message.has_of_tracksPresence hpresence, hheld, hvalue]
  rfl

end Repacks

end Restoring

end PlainSchema
