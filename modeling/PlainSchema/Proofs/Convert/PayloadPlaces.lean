import PlainSchema.Proofs.Convert.Unpacked

/-!
# The place of a payload

Every oneof that is replaced by a discriminator has its payload in one place among the fields of a
plan, `Restoring.Restores.payloadAt`.  As long as nothing is merged, no other field is written to a
member of the oneof:

* a field with a way back is read from below a field of another oneof, or of none;
* a payload of another name holds a member of another oneof;
* a tag selects a member of a dispatched oneof, which has no payload.
-/

namespace PlainSchema

open Proto

namespace Restoring

variable {c : Restoring} {casters : Casters (Value → Except String Value)} {schema : Schema}
  {settings : Settings} {renames : Renames} {source : SourceMessage} {oneof : OneofPlan}
  {before after : List FieldPlan} {plan other : FieldPlan} {mode : Mode} {nested : ConvertNested}
  {selection : Selection} {index : Nat}

/-- The members of a oneof of the plan are the fields at an index. -/
structure MembersAt (c : Restoring) (source : SourceMessage) (oneof : OneofPlan) (index : Nat) :
    Prop where
  name : (source.oneofs.map (·.name))[index]? = some oneof.name
  fields : ∀ member ∈ oneof.members, ∀ field, c.type.field? member.name = some field →
    field.oneof = some index
  member : ∀ field ∈ c.type.fields, field.oneof = some index →
    ∃ member ∈ oneof.members, c.type.field? member.name = some field

/-- Oneofs of two names stand at two indices. -/
theorem MembersAt.index_ne {oneof' : OneofPlan} {index' : Nat} (h : c.MembersAt source oneof index)
    (h' : c.MembersAt source oneof' index') (hne : oneof.name ≠ oneof'.name) : index ≠ index' := by
  rintro rfl
  exact hne (Option.some.inj (h.name.symm.trans h'.name))

namespace Restores

variable (hc : c.Restores casters schema settings renames source)

include hc

theorem exists_membersAt (honeof : oneof ∈ c.plan.oneofs) :
    ∃ index, c.MembersAt source oneof index := by
  obtain ⟨index, found, hfound, hname, hplans⟩ := hc.isPlan.exists_plansOneof hc.generate honeof
  have hlinked := hc.linked c.type hc.views.mem
  refine ⟨index, ⟨?_, ?_, ?_⟩⟩
  · rw [List.getElem?_map, show source.oneofs[index]? = some found from hfound, Option.map_some, hname]
  · intro member hmember field hfield
    obtain ⟨sourceField, hsource, hsourceName, hindex⟩ := hplans.exists_field hmember
    obtain ⟨viewed, -, rfl, hfind⟩ := hc.views.exists_field hlinked hsource
    rw [hsourceName, hfield] at hfind
    obtain rfl := Option.some.inj hfind
    exact hindex
  · intro field hfield hindex
    have hsource : SourceField.ofField c.source (OptionExtensions.ofPool c.source) field
        ∈ source.fields := by
      rw [hc.views.fields]
      exact List.mem_map_of_mem hfield
    have hmember : SourceField.ofField c.source (OptionExtensions.ofPool c.source) field
        ∈ source.oneofFields index :=
      List.mem_filter.mpr ⟨hsource, beq_iff_eq.mpr hindex⟩
    rw [hplans.members]
    exact ⟨_, List.mem_map_of_mem hmember, hlinked.field?_name hfield⟩

/-- A discriminator is found under the name that goes with it. -/
theorem discriminatorField?_eq (honeof : oneof ∈ c.plan.oneofs)
    (hstrategy : oneof.strategy = .discriminatorOnly) :
    discriminatorField? c.plan oneof.name = some (oneof.name ++ "_disc") := by
  obtain ⟨-, ⟨plan, hplan, hrole⟩, -⟩ :=
    hc.isPlan.exists_discriminated hc.generate honeof hstrategy
  have hsome : (c.plan.fields.find?
      (·.origin.role == some (.discriminator oneof.name))).isSome :=
    List.find?_isSome.mpr ⟨plan, hplan, beq_iff_eq.mpr hrole⟩
  obtain ⟨found, hfound⟩ := Option.isSome_iff_exists.mp hsome
  rw [discriminatorField?, hfound, Option.map_some]
  exact congrArg some ((hc.isPlan.roleNamed (List.mem_of_find?_eq_some hfound)).discriminator _
    (by simpa using List.find?_some hfound))

/-- No tag selects a member of a oneof that has a payload. -/
theorem oneof_ne_of_selected (hmembers : c.MembersAt source oneof index)
    (honeof : oneof ∈ c.plan.oneofs) (hstrategy : oneof.strategy = .discriminatorOnly)
    (hselection : selectMembers mode c.pool c.plain c.plan.oneofs = .ok selection)
    {selected : String × OneofMember} (hselected : selected ∈ selection) {field : Field}
    (hfield : c.type.field? selected.2.name = some field) : field.oneof ≠ some index := by
  obtain ⟨found, hfound, hname, hmember⟩ := exists_selectedMember_of_mem hselection hselected
  obtain ⟨index', hmembers'⟩ := hc.exists_membersAt hfound
  -- A oneof with a tag has no payload, so it is another one.
  have hdispatch : found.dispatch.isSome := by
    by_contra hnone
    rw [Option.not_isSome_iff_eq_none] at hnone
    rw [selectedMember, hnone] at hmember
    cases hmember
  have hne : oneof.name ≠ found.name := by
    intro heq
    have hsame := hc.isPlan.oneof?_name hc.generate hc.oneofNames honeof
    rw [heq, hc.isPlan.oneof?_name hc.generate hc.oneofNames hfound] at hsame
    obtain rfl := Option.some.inj hsame
    obtain ⟨hnone, -, -⟩ := hc.isPlan.exists_discriminated hc.generate honeof hstrategy
    rw [hnone] at hdispatch
    exact absurd hdispatch Bool.false_ne_true
  intro hindex
  exact hmembers.index_ne hmembers' hne (Option.some.inj
    (hindex.symm.trans (hmembers'.fields _ (mem_of_selectedMember hmember) field hfield)))

section Payload

variable (hsplit : c.plan.fields = before ++ plan :: after)
  (hrole : plan.origin.role = some (.payload oneof.name))

include hsplit hrole

/-- The Plain field of a payload tells no members apart. -/
theorem namesNoTag_of_payload : NamesNoTag c.plan oneof.name := by
  have hplan : plan ∈ c.plan.fields := by simp [hsplit]
  have hname := (hc.isPlan.roleNamed hplan).payload oneof.name hrole
  -- A field of that name is the payload.
  have hpayload : ∀ other ∈ c.plan.fields, other.shape.name = oneof.name →
      other.origin.role = some (.payload oneof.name) := by
    intro other hother hsame
    rw [List.inj_on_of_nodup_map (hc.isPlan.names_nodup hc.generate) hother hplan
      (hsame.trans hname.symm), hrole]
  refine ⟨fun found hfound dispatch hdispatch heq => ?_, fun other hother name hrole' heq => ?_⟩
  · obtain ⟨tag, htag, htagName, htagRole⟩ :=
      hc.isPlan.exists_dispatchTag hc.generate hfound hdispatch
    rw [hpayload tag htag (htagName.trans heq)] at htagRole
    cases htagRole
  · rw [hpayload other hother heq] at hrole'
    cases hrole'

/-- Restoring another field does not look at a payload. -/
theorem ignores_payload (hcrf : c.plan.crf = []) (hother : other ∈ before ∨ other ∈ after) :
    Ignores c.plan oneof.name other := by
  have hplan : plan ∈ c.plan.fields := by simp [hsplit]
  have hne := (hc.name_ne hsplit hother).symm
  rw [(hc.isPlan.roleNamed hplan).payload oneof.name hrole] at hne
  refine ⟨fun _ => hne, fun _ _ => hne, fun _ entry hentry => ?_⟩
  have hmem := List.mem_of_find?_eq_some hentry
  rw [hcrf] at hmem
  exact absurd hmem List.not_mem_nil

variable (honeof : oneof ∈ c.plan.oneofs)

include honeof

/-- What a field with a way back is read from is no member of a oneof that has a payload. -/
theorem oneof_ne_of_ownPath (hmembers : c.MembersAt source oneof index)
    (hother : other ∈ c.plan.fields) (hreversible : other.isReversible) {path : List String}
    (hown : path ∈ c.plan.ownPaths other) {field : Field} (hfield : field ∈ c.type.fields)
    (hhead : path.head? = some field.name) : field.oneof ≠ some index := by
  intro hindex
  obtain ⟨member, hmember, hfound⟩ := hmembers.member field hfield hindex
  have hplan : plan ∈ c.plan.fields := by simp [hsplit]
  have hapart := hc.apart_of_payload hother hreversible hplan hrole
    (hc.isPlan.oneof?_name hc.generate hc.oneofNames honeof) hmember hown
  obtain ⟨rest, rfl⟩ := List.head?_eq_some_iff.mp hhead
  refine hapart.2 ⟨rest, ?_⟩
  rw [← (MessageType.field?_mem hfound).2]
  rfl

/-- No other field of the plan is written to a member of a oneof that has a payload. -/
theorem actsOnOne_beside (hmembers : c.MembersAt source oneof index) (hcrf : c.plan.crf = [])
    (hother : other ∈ before ∨ other ∈ after) (selection : Selection) :
    ActsOnOne c.source c.type (fun field => field.oneof ≠ some index)
      ((c.inMode mode nested).restoreStep selection · other) := by
  have hmem : other ∈ c.plan.fields := by
    rw [hsplit, List.mem_append, List.mem_cons]
    exact hother.imp_right Or.inr
  by_cases hreversible : other.isReversible
  · -- Without merged fields what is written lies on a path of the field itself.
    refine (actsOnOne_restoreValue (c := c.inMode mode nested) hreversible).mono ?_
    rintro field hfield ⟨write, hadapted, hhead⟩
    have hrecorded : ∀ entry ∈ c.plan.crf,
        c.recordedPath entry ∈ entry.sources.map Crf.fieldNamesOf := by
      rw [hcrf]
      exact fun entry hentry => absurd hentry List.not_mem_nil
    have hown : write.path ∈ c.plan.ownPaths other :=
      path_mem_ownPaths (c := c.inMode mode nested) (hc.sourcePath_mem hmem hreversible)
        (not_strays_of_recorded (c := c.inMode mode nested) hrecorded other) hadapted
    exact hc.oneof_ne_of_ownPath hsplit hrole honeof hmembers hmem hreversible hown hfield hhead
  have hleft : ∀ out : Message, out.type? c.source = some c.type →
      (c.inMode mode nested).leftBehind selection out other = out :=
    fun out _ => leftBehind_of_not_isReversible hreversible out
  refine ActsOnOne.settle ?_ hleft
  unfold restoreField
  cases hotherRole : other.origin.role with
  | none =>
    have hvirtual : other.origin.isVirtual := by
      simpa [FieldPlan.isReversible, hotherRole] using hreversible
    simp only [hvirtual, if_true]
    exact .nothing fun _ _ => Or.inl rfl
  | some role =>
    cases role with
    | payload name =>
      -- A payload of another name holds a member of another oneof.
      refine (actsOnOne_restorePayload (c := c.inMode mode nested)).mono ?_
      rintro field hfield ⟨found, hfound, member, hmember, hnamed⟩ hindex
      have hname : found.name = name := by simpa using List.find?_some hfound
      obtain ⟨index', hmembers'⟩ := hc.exists_membersAt (List.mem_of_find?_eq_some hfound)
      refine hmembers.index_ne hmembers' ?_
        (Option.some.inj (hindex.symm.trans (hmembers'.fields member hmember field hnamed)))
      intro heq
      refine (hc.name_ne hsplit hother).symm ?_
      rw [(hc.isPlan.roleNamed hmem).payload name hotherRole,
        (hc.isPlan.roleNamed (by simp [hsplit])).payload oneof.name hrole, heq, hname]
    | _ => exact .nothing fun _ _ => Or.inl rfl

/-- A tag names an enum value of one member at most. -/
theorem eq_of_tagNames (hfindings : ∀ finding ∈ schema.findings, ¬ finding.isError)
    {first second : OneofMember} (hfirst : first ∈ oneof.members) (hsecond : second ∈ oneof.members)
    (hnames : c.TagNames oneof first) (hnames' : c.TagNames oneof second) : first = second := by
  obtain ⟨value, hvalue, heq⟩ := hnames
  obtain ⟨value', hvalue', heq'⟩ := hnames'
  rw [hc.isPlan.trimFront_of_withEnums hc.generate honeof hfirst hvalue] at heq
  rw [hc.isPlan.trimFront_of_withEnums hc.generate honeof hsecond hvalue', ← heq] at heq'
  exact hc.isPlan.eq_of_withEnums hc.generate hc.mem hfindings hc.oneofNames honeof
    (by simp [hsplit]) hrole hfirst hsecond hvalue (heq' ▸ hvalue')

/-- **The payload of a oneof has one place**, in any mode of the conversion. -/
theorem payloadAt (hfindings : ∀ finding ∈ schema.findings, ¬ finding.isError)
    (hstrategy : oneof.strategy = .discriminatorOnly) (hcrf : c.plan.crf = []) :
    ∃ index, (c.inMode mode nested).PayloadAt oneof index before plan after := by
  obtain ⟨index, hmembers⟩ := hc.exists_membersAt honeof
  have hname := hc.isPlan.oneof?_name hc.generate hc.oneofNames honeof
  exact ⟨index,
    { linked := hc.linked
      found := hc.found
      oneof?_name := hname
      split := hsplit
      role := hrole
      name := (hc.isPlan.roleNamed (by simp [hsplit])).payload oneof.name hrole
      discriminator := hc.discriminatorField?_eq honeof hstrategy
      members := hc.isPlan.members_nodup hc.generate (hc.names source hc.mem) honeof
      distinct := fun first hfirst second hsecond =>
        hc.eq_of_tagNames hsplit hrole honeof hfindings hfirst hsecond
      fields := fun member hmember field hfield =>
        ⟨hc.presence oneof honeof member hmember field hfield, hmembers.fields member hmember field hfield⟩
      isMemberOf := fun field hfield hindex => ⟨oneof, hname, hmembers.member field hfield hindex⟩
      namesNoTag := hc.namesNoTag_of_payload hsplit hrole
      ignores := fun other hother => hc.ignores_payload hsplit hrole hcrf hother
      others := fun other hother selection =>
        hc.actsOnOne_beside hsplit hrole honeof hmembers hcrf hother selection
      selected := fun selection hselection selected hselected field hfield =>
        hc.oneof_ne_of_selected hmembers honeof hstrategy hselection hselected hfield }⟩

end Payload

end Restores

end Restoring

end PlainSchema
