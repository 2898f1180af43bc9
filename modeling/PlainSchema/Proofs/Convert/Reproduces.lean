import PlainSchema.Proofs.Convert.PayloadPlaces
import PlainSchema.Proofs.Convert.Regained
import PlainSchema.Proofs.Convert.Undone
import PlainSchema.Proofs.Value.Part

/-!
# Values that are written back as they were

Each step of a conversion back writes at most one value, to a place where the message that was
converted holds a value like it, `Restoring.Reproduces.restoreField_cases`.  The places of different
steps are apart, `Restoring.Reproduces.apart_of_writes`.

```text
a field with a way back    the path that its value was read from
a payload                  the member that was encoded
other fields               nothing
```
-/

namespace PlainSchema

open Proto

namespace Restoring

variable {c : Restoring} {fillers casters : Casters (Value → Except String Value)}
  {there : ConvertNested} {x out out' : Message} {type : MessageType} {schema : Schema}
  {settings : Settings} {renames : Renames} {source : SourceMessage} {plan other : FieldPlan}
  {before after : List FieldPlan} {selection : Selection} {oneof : OneofPlan}
  {member : OneofMember} {name : String}

/-- A conversion back of a Plain message that was made from a message without unknown fields, and shows
all that is set there. -/
structure Reproduces (c : Restoring) (fillers : Casters (Value → Except String Value))
    (there : ConvertNested) (x : Message) (type : MessageType)
    (casters : Casters (Value → Except String Value)) (schema : Schema) (settings : Settings)
    (renames : Renames) (source : SourceMessage) : Prop
    extends c.Undoes fillers there x type casters schema settings renames source where
  known : x.Known c.source
  /-- A value that was carried into a Plain field can be taken back from there. -/
  regains : ∀ plan ∈ c.plan.fields, plan.isReversible → ∀ target path leaf found value,
    type.field? plan.shape.name = some target → c.plain.value? target.number = some value →
    (c.forward fillers there x type).CameFrom c.plain plan target path leaf found value →
    plan.Regains c.source c.pool there c.nested leaf target (Message.Same c.source) found value
  /-- The members that payloads hold are decoded to what they were. -/
  recovers : ∀ plan ∈ c.plan.fields, ∀ oneof, plan.origin.role = some (.payload oneof) →
    ∀ index member field, (c.forward fillers there x type).populated? oneof = some (index, member) →
      c.type.field? member.name = some field → ∀ payload,
        Wire.decode? c.source x.type (Wire.encode c.source
          (Message.set { type := x.type } c.type field (x.get c.source field))) = some payload →
        payload.Same c.source (Message.set { type := x.type } c.type field (x.get c.source field))
  /-- Tags and payloads stand in no oneof. -/
  roles : ∀ plan ∈ c.plan.fields, plan.origin.role.isSome → ∀ target,
    type.field? plan.shape.name = some target → target.oneof = none
  /-- What is set in the message is set in the Plain message. -/
  shown : ∀ plan ∈ c.plan.fields, plan.isReversible → ∀ path ∈ c.plan.ownPaths plan,
    (x.read? c.source path).isSome → hasNamed c.pool c.plain plan.shape.name
  /-- No two values are carried into one Plain field. -/
  alone : ∀ plan ∈ c.plan.fields, plan.isReversible → ∀ path ∈ c.plan.ownPaths plan,
    ∀ path' ∈ c.plan.ownPaths plan, (x.read? c.source path).isSome →
    (x.read? c.source path').isSome → path = path'

namespace Reproduces

variable (hc : c.Reproduces fillers there x type casters schema settings renames source)

include hc

/-! ## Fields with a way back -/

/-- What a Plain field is adapted to is like the value that it was made of. -/
theorem alike_of_adapted (hselection : c.SelectsPopulated x selection)
    (hplan : plan ∈ c.plan.fields) (hreversible : plan.isReversible) {write : Write}
    (h : c.adapted selection plan = .ok (some write)) :
    write.path ∈ c.plan.ownPaths plan ∧ ∃ leaf found,
      x.read? c.source write.path = some (leaf, found) ∧
        write.value.Alike (Message.Same c.source) found := by
  cases hc.adaptsTo hselection hplan hreversible with
  | unset hnone =>
    rw [hnone] at h
    cases h
  | write htarget hvalue hfrom hcarry huncarry _ hadapted =>
    rw [hadapted] at h
    obtain rfl := Option.some.inj (Except.ok.inj h)
    refine ⟨List.mem_map_of_mem hfrom.mem, _, _, hfrom.read, ?_⟩
    exact (hc.regains plan hplan hreversible _ _ _ _ _ htarget hvalue hfrom).alike hcarry huncarry

/-- A field that is read in the message is written back through the path that is read. -/
theorem writesThrough_of_read? (hselection : c.SelectsPopulated x selection)
    (hplan : plan ∈ c.plan.fields) (hreversible : plan.isReversible) {path : List String}
    (hpath : path ∈ c.plan.ownPaths plan) (hread : (x.read? c.source path).isSome) :
    c.WritesThrough selection plan path := by
  cases hc.adaptsTo hselection hplan hreversible with
  | unset hnone =>
    exact absurd (hc.shown plan hplan hreversible path hpath hread)
      (not_hasNamed_of_adapted hnone)
  | write htarget hvalue hfrom _ _ _ hadapted =>
    have hmem := List.mem_map_of_mem (f := SourcePath.names) hfrom.mem
    obtain rfl := hc.alone plan hplan hreversible path hpath _ hmem hread (by rw [hfrom.read]; rfl)
    exact .value hreversible hadapted

/-! ## Payloads -/

/-- What a payload is decoded to, if it holds a member: the field of the member is set to what it was. -/
theorem alike_of_payload (hplan : plan ∈ c.plan.fields)
    (hrole : plan.origin.role = some (.payload name)) (honeof : c.plan.oneof? name = some oneof)
    {bytes : List UInt8} (hvalue : valueNamed? c.pool c.plain plan.shape.name = some (.bytes bytes))
    {payload : Message} (hdecode : Wire.decode? c.source c.type.fullName bytes = some payload)
    (hpopulates : Populates c.source payload oneof member) :
    ∃ field found, c.type.field? member.name = some field ∧
      x.read? c.source [member.name] = some (field, found) ∧
      (payload.get c.source field).Alike (Message.Same c.source) found ∧
      c.source.accepts field (payload.get c.source field) := by
  obtain ⟨decoded, hdecoded, hpayload⟩ := hc.exists_payload hplan hrole hvalue
  obtain rfl := Option.some.inj (hdecode.symm.trans hdecoded)
  obtain ⟨hpopulates', field, hfield, haccepts⟩ := hpayload oneof honeof member hpopulates
  have hmem := (MessageType.field?_mem hfield).1
  have hname : x.type = c.type.fullName := (Pool.message?_mem hc.typed).2.symm
  obtain ⟨set, hset, hhas⟩ := exists_of_hasNamed hc.typed hpopulates'.hasNamed.2
  obtain rfl := Option.some.inj (hfield.symm.trans hset)
  obtain ⟨found, hfound⟩ := Option.isSome_iff_exists.mp
    (show (x.get? c.source field).isSome by rw [← Message.has_eq_isSome_get?]; exact hhas)
  refine ⟨field, found, hfield, ?_, ?_, haccepts⟩
  · exact Message.read?_singleton.mpr ⟨c.type, hc.typed, hfield, hfound⟩
  -- The bytes are those of the message with nothing but the member.
  obtain ⟨target, htarget, hget⟩ := exists_field_of_valueNamed? hc.type?_plain hvalue
  rw [Message.get] at hget
  cases hstored : c.plain.value? target.number with
  | none =>
    rw [hstored] at hget
    obtain rfl := Pool.default_eq_bytes hget
    obtain rfl := Option.some.inj ((Wire.decode?_nil _ _).symm.trans hdecode)
    exact absurd hpopulates.hasNamed.2 (not_hasNamed_new _ _ _)
  | some value =>
    rw [hstored, Option.getD_some] at hget
    subst hget
    obtain ⟨written, hwrites, hmemWrites⟩ :=
      hc.follows.mem_roleWrites hc.run hplan hrole (by rintro _ ⟨⟩) htarget hstored
    obtain ⟨index, populated, found', single, hpopulated, hfound', hsingle, heq⟩ :=
      Flattening.payload_of_roleWrites hmemWrites hwrites
    obtain rfl := Option.some.inj (hc.typed.symm.trans hfound')
    obtain rfl := Value.bytes.inj heq
    have honeofName : oneof.name = name := by simpa using List.find?_some honeof
    obtain ⟨hindex, hmember⟩ :=
      hc.populates (List.mem_of_find?_eq_some honeof) (honeofName ▸ hpopulated)
    obtain rfl := hpopulates'.eq ⟨index, hindex, hmember⟩
    obtain rfl := Option.some.inj (hfield.symm.trans hsingle)
    rw [← hname] at hdecode
    have hsame :=
      hc.recovers plan hplan name hrole index member field hpopulated hfield payload hdecode
    let alone : Message := Message.set { type := x.type } c.type field (x.get c.source field)
    have halone : alone.type? c.source = some c.type := by
      rw [Message.type?, Message.type_set]
      exact hc.typed
    have hstoredAlone : alone.value? field.number = some found := by
      rw [Message.value?_set_self, Message.get, (Message.value?_of_get? hfound).2, Option.getD_some]
    have hgetAlone : alone.get? c.source field = some found := by
      rw [← hfound]
      exact Message.get?_congr (hstoredAlone.trans (Message.value?_of_get? hfound).2.symm)
    obtain ⟨v, hv, halike⟩ := hsame.exists_get? halone hmem hgetAlone
    rw [Message.get, (Message.value?_of_get? hv).2, Option.getD_some]
    exact halike


/-- A payload that holds a member puts it back, and changes nothing else. -/
theorem exists_set_of_holdsMember (hplan : plan ∈ c.plan.fields)
    (hrole : plan.origin.role = some (.payload name)) (honeof : c.plan.oneof? name = some oneof)
    (hholds : c.HoldsMember plan oneof member) (h : c.restorePayload plan name out = .ok out') :
    ∃ field found value, c.type.field? member.name = some field ∧
      x.read? c.source [member.name] = some (field, found) ∧
      value.Alike (Message.Same c.source) found ∧ c.source.accepts field value ∧
      out' = out.set c.type field value := by
  obtain ⟨bytes, payload, index, hvalue, hdecode, hindex, hmember⟩ := hholds
  obtain ⟨field, found, hfield, hread, halike, haccepts⟩ :=
    hc.alike_of_payload hplan hrole honeof hvalue hdecode ⟨index, hindex, hmember⟩
  refine ⟨field, found, _, hfield, hread, halike, haccepts, ?_⟩
  cases bytes with
  | nil =>
    -- Without bytes no member is populated.
    obtain rfl := Option.some.inj ((Wire.decode?_nil _ _).symm.trans hdecode)
    have hset : Populates c.source { type := c.type.fullName } oneof member :=
      ⟨index, hindex, hmember⟩
    exact absurd hset.hasNamed.2 (not_hasNamed_new _ _ _)
  | cons b bytes =>
    have hset : setField c.source out c.type field (payload.get c.source field)
        = .ok (out.set c.type field (payload.get c.source field)) := by
      rw [setField, Message.set?, if_pos haccepts]
    rw [restorePayload] at h
    simp only [hvalue, hdecode, honeof, hindex, hmember, hfield, hset, Option.bind_eq_bind,
      Option.bind_some, Option.pure_def] at h
    split at h
    · obtain ⟨_, -, h⟩ := bind_eq_ok.mp h
      exact (Except.ok.inj h).symm
    · exact (Except.ok.inj h).symm

/-! ## Single steps -/

/-- A step leaves the message as it is, or it writes one value to the one place that it writes
through. -/
theorem restoreField_cases (hselection : c.SelectsPopulated x selection)
    (hplan : plan ∈ c.plan.fields) (htype : out.type? c.source = some c.type)
    (h : c.restoreField selection out plan = .ok out') :
    (out' = out ∧ ∀ path, ¬ c.WritesThrough selection plan path) ∨
      ∃ path leaf found value, c.WritesThrough selection plan path ∧
        (∀ other, c.WritesThrough selection plan other → other = path) ∧
        x.read? c.source path = some (leaf, found) ∧
        value.Alike (Message.Same c.source) found ∧
        Message.writeIn? c.source value out path = some out' := by
  by_cases hreversible : plan.isReversible
  · rcases restoreField_of_isReversible hreversible h with ⟨hnone, rfl⟩ | ⟨write, hadapted, -, hwrite⟩
    · refine Or.inl ⟨rfl, ?_⟩
      rintro path (⟨-, hadapted⟩ | ⟨hrole, -, -⟩)
      · rw [hnone] at hadapted
        cases hadapted
      · exact FieldPlan.role_ne hreversible _ hrole
    · obtain ⟨-, leaf, found, hread, halike⟩ :=
        hc.alike_of_adapted hselection hplan hreversible hadapted
      obtain ⟨_, _, -, -, -, -, hwritten⟩ := Message.write?_eq_some hwrite
      refine Or.inr ⟨write.path, leaf, found, write.value, .value hreversible hadapted, ?_, hread,
        halike, hwritten⟩
      rintro other (⟨-, hother⟩ | ⟨hrole, -, -⟩)
      · rw [hadapted] at hother
        rw [← Option.some.inj (Except.ok.inj hother)]
      · exact absurd hrole (FieldPlan.role_ne hreversible _)
  · by_cases hwrites : ∃ path, c.WritesThrough selection plan path
    · obtain ⟨path, hwrites⟩ := hwrites
      cases hwrites with
      | value hreversible' => exact absurd hreversible' hreversible
      | @payload name oneof member hrole honeof hholds =>
        rw [restoreField, hrole] at h
        obtain ⟨field, found, value, hfield, hread, halike, haccepts, rfl⟩ :=
          hc.exists_set_of_holdsMember hplan hrole honeof hholds h
        refine Or.inr ⟨[member.name], field, found, value, .payload hrole honeof hholds, ?_, hread,
          halike, Message.writeIn?_field htype hfield haccepts⟩
        rintro other (⟨hreversible', -⟩ | ⟨hrole', honeof', hholds'⟩)
        · exact absurd hreversible' hreversible
        · -- A payload holds one member.
          obtain rfl : name = _ := Role.payload.inj (Option.some.inj (hrole.symm.trans hrole'))
          obtain rfl := Option.some.inj (honeof.symm.trans honeof')
          obtain ⟨bytes, payload, index, hvalue, hdecode, hindex, hmember⟩ := hholds
          obtain ⟨_, _, _, hvalue', hdecode', hindex', hmember'⟩ := hholds'
          obtain rfl := Value.bytes.inj (Option.some.inj (hvalue.symm.trans hvalue'))
          obtain rfl := Option.some.inj (hdecode.symm.trans hdecode')
          obtain rfl := Option.some.inj (hindex.symm.trans hindex')
          rw [Option.some.inj (hmember.symm.trans hmember')]
    · refine Or.inl ⟨?_, fun path hpath => hwrites ⟨path, hpath⟩⟩
      rcases restoreField_of_not_isReversible hreversible h with heq | ⟨path, _, _, hpath, -⟩
      · exact heq
      · exact absurd ⟨_, hpath⟩ hwrites

/-- The places of two steps are apart. -/
theorem apart_of_writes (hselection : c.SelectsPopulated x selection)
    (hsplit : c.plan.fields = before ++ plan :: after) (hother : other ∈ before) {path : List String}
    (hwrites : c.WritesThrough selection plan path) {path' : List String}
    (hwrites' : c.WritesThrough selection other path') : Apart path' path := by
  have hplan : plan ∈ c.plan.fields := by simp [hsplit]
  have hmem : other ∈ c.plan.fields := by simp [hsplit, hother]
  cases hwrites with
  | value hreversible hadapted =>
    exact (hc.restores.apart_of_own hsplit hreversible hadapted (Or.inl hother) hwrites'
      (hc.not_strays plan) (hc.not_strays other)).symm
  | @payload name oneof member hrole honeof hholds =>
    have hmember : member ∈ oneof.members := by
      obtain ⟨-, -, _, -, -, -, hmember⟩ := hholds
      exact List.mem_of_getElem? hmember
    cases hwrites' with
    | value hreversible hadapted =>
      have hown := (hc.alike_of_adapted hselection hmem hreversible hadapted).1
      exact hc.restores.apart_of_payload hmem hreversible hplan hrole honeof hmember hown
    | @payload name' oneof' member' hrole' honeof' hholds' =>
      have hmember' : member' ∈ oneof'.members := by
        obtain ⟨-, -, _, -, -, -, hmember'⟩ := hholds'
        exact List.mem_of_getElem? hmember'
      -- The payloads of two fields hold members of two oneofs.
      have hne : oneof'.name ≠ oneof.name := by
        have hname : oneof.name = name := by simpa using List.find?_some honeof
        have hname' : oneof'.name = name' := by simpa using List.find?_some honeof'
        intro heq
        refine hc.restores.name_ne hsplit (Or.inl hother) ?_
        rw [(hc.restores.isPlan.roleNamed hplan).payload name hrole,
          (hc.restores.isPlan.roleNamed hmem).payload name' hrole', ← hname, ← hname', heq]
      obtain ⟨index, hat⟩ := hc.restores.exists_membersAt (List.mem_of_find?_eq_some honeof)
      obtain ⟨index', hat'⟩ := hc.restores.exists_membersAt (List.mem_of_find?_eq_some honeof')
      obtain ⟨_, _, _, hvalue, hdecode, hindex, hpicked⟩ := hholds
      obtain ⟨_, _, _, hvalue', hdecode', hindex', hpicked'⟩ := hholds'
      obtain ⟨field, -, hfield, -⟩ :=
        hc.alike_of_payload hplan hrole honeof hvalue hdecode ⟨_, hindex, hpicked⟩
      obtain ⟨field', -, hfield', -⟩ :=
        hc.alike_of_payload hmem hrole' honeof' hvalue' hdecode' ⟨_, hindex', hpicked'⟩
      have hnames : member'.name ≠ member.name := by
        intro heq
        rw [heq] at hfield'
        obtain rfl := Option.some.inj (hfield.symm.trans hfield')
        exact hat'.index_ne hat hne (Option.some.inj
          ((hat'.fields member' hmember' field (heq ▸ hfield)).symm.trans
            (hat.fields member hmember field hfield)))
      constructor <;> simp [hnames, hnames.symm]

end Reproduces

end Restoring

end PlainSchema
