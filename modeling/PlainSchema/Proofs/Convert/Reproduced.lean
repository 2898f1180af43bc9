import PlainSchema.Proofs.Convert.Reproduces
import PlainSchema.Proofs.Convert.Tags

/-!
# What a conversion back puts together

Step by step a conversion back puts a part of the message together that was converted, and what a step
wrote stays as it is: `Restoring.Reproduces.restored_of_foldlM` for the fields of the plan, and
`Restoring.Reproduces.restored_of_run` with the selected members.

```text
before the first step     a new message
a field of the plan       one more value that is like the one in the message
a selected member         its default, if no step wrote anything there
```

So every value is put back that a field with a way back or a payload stands for, and every member that
a tag selects: `Restoring.Restored`.
-/

namespace PlainSchema

open Proto

namespace Restoring

variable {c : Restoring} {fillers casters : Casters (Value → Except String Value)}
  {there : ConvertNested} {x out out' m : Message} {type : MessageType} {schema : Schema}
  {settings : Settings} {renames : Renames} {source : SourceMessage} {plan : FieldPlan}
  {met rest : List FieldPlan} {selection : Selection} {oneof : OneofPlan} {member : OneofMember}

/-- The message that is put together is part of another one, and holds alike values in the places that
some plans write through. -/
structure Restored (c : Restoring) (x : Message) (selection : Selection) (met : List FieldPlan)
    (out : Message) : Prop where
  part : out.Part c.source x
  alike : ∀ plan ∈ met, ∀ path, c.WritesThrough selection plan path →
    Message.AlikeAt c.source out x path

namespace Reproduces

variable (hc : c.Reproduces fillers there x type casters schema settings renames source)

include hc

/-- A value that is like one that is read in the message may stand there. -/
theorem part_of_alike {path : List String} {leaf : Field} {found value : Value}
    (hread : x.read? c.source path = some (leaf, found))
    (halike : value.Alike (Message.Same c.source) found) :
    value.Part (Message.Part c.source) found := by
  refine Message.Part.of_alike halike ?_
  rintro inner rfl
  have hwithin := Message.within_of_at? (Message.at?_of_read? hread)
  exact ⟨hc.wellTyped.within hwithin, hc.known.within hwithin⟩

/-! ## The fields of the plan -/

/-- One more step. -/
theorem restored_concat (hselection : c.SelectsPopulated x selection)
    (hsplit : c.plan.fields = met ++ plan :: rest) (hout : c.Restored x selection met out)
    (h : c.restoreField selection out plan = .ok out') :
    c.Restored x selection (met ++ [plan]) out' := by
  have hplan : plan ∈ c.plan.fields := by simp [hsplit]
  have htype : out.type? c.source = some c.type := hout.part.type?_eq.trans hc.typed
  rcases hc.restoreField_cases hselection hplan htype h with ⟨rfl, hnone⟩ | ⟨path, leaf, found,
    value, hwrites, honly, hread, halike, hwrite⟩
  · refine ⟨hout.part, fun other hother path hpath => ?_⟩
    rcases List.mem_append.mp hother with hother | hother
    · exact hout.alike other hother path hpath
    · rw [List.mem_singleton.mp hother] at hpath
      exact absurd hpath (hnone path)
  · have hsome : (x.at? c.source path).isSome := by
      rw [Message.at?_of_read? hread]
      rfl
    constructor
    · exact hout.part.writeIn? hc.restores.linked hc.wellTyped hread (hc.part_of_alike hread halike)
        hwrite
    · intro other hother written hwritten
      rcases List.mem_append.mp hother with hother | hother
      · -- What was written before stands in another place.
        have hapart := hc.apart_of_writes hselection hsplit hother hwrites hwritten
        exact (hout.alike other hother written hwritten).writeIn? hc.restores.linked hout.part
          hc.wellTyped hapart hsome hwrite
      · rw [List.mem_singleton.mp hother] at hwritten
        rw [honly written hwritten]
        exact .of_writeIn? hread halike hwrite

/-- All steps of the plan. -/
theorem restored_of_foldlM (hselection : c.SelectsPopulated x selection)
    (h : c.plan.fields.foldlM (c.restoreField selection) { type := c.type.fullName } = .ok out) :
    c.Restored x selection c.plan.fields out := by
  have hname : x.type = c.type.fullName := (Pool.message?_mem hc.typed).2.symm
  refine foldlM_prefix (fun met out => met <+: c.plan.fields → c.Restored x selection met out) ?_ ?_
    h (List.prefix_refl _)
  · intro _
    refine ⟨?_, fun plan hplan => absurd hplan List.not_mem_nil⟩
    rw [← hname]
    exact .new hc.typed
  · rintro met plan out out' hout hstep ⟨rest, hsplit⟩
    rw [List.append_assoc, List.singleton_append] at hsplit
    exact hc.restored_concat hselection hsplit.symm (hout ⟨_, hsplit⟩) hstep

/-! ## The selected members -/

/-- A selected member that nothing was written to is set to its default. -/
theorem restored_ensureSelected (hselection : c.SelectsPopulated x selection)
    {selected : String × OneofMember} (hselected : selected ∈ selection)
    (hout : c.Restored x selection c.plan.fields out)
    (h : c.ensureSelected out selected.2 = .ok out') :
    c.Restored x selection c.plan.fields out' ∧
      (∀ field ∈ c.type.fields, out.has c.source field → x.has c.source field →
        out'.has c.source field) ∧
      ∀ field, c.type.field? selected.2.name = some field → out'.has c.source field := by
  obtain ⟨oneof, honeof, -, -, hpopulates⟩ := hselection selected hselected
  obtain ⟨field, hfield, hset'⟩ := exists_of_hasNamed hc.typed hpopulates.hasNamed.2
  have hlinked := hc.restores.linked c.type hc.restores.views.mem
  have hmem := (MessageType.field?_mem hfield).1
  have hpresence := hc.restores.presence oneof honeof selected.2 hpopulates.hasNamed.1 field hfield
  have htype : out.type? c.source = some c.type := hout.part.type?_eq.trans hc.typed
  rw [ensureSelected, hfield] at h
  dsimp only at h
  split at h
  · next hset =>
    obtain rfl := Except.ok.inj h
    refine ⟨hout, fun _ _ hhas _ => hhas, fun other hother => ?_⟩
    rw [← Option.some.inj (hfield.symm.trans hother)]
    exact hset
  · next hunset =>
    obtain ⟨haccepts, rfl⟩ := setField_eq_ok h
    obtain ⟨found, hfound⟩ := Option.isSome_iff_exists.mp
      (show (x.get? c.source field).isSome by rw [← Message.has_eq_isSome_get?]; exact hset')
    have hread : x.read? c.source [selected.2.name] = some (field, found) :=
      Message.read?_singleton.mpr ⟨c.type, hc.typed, hfield, hfound⟩
    have hwrite := Message.writeIn?_field htype hfield haccepts
    refine ⟨⟨?_, fun plan hplan path hpath => ?_⟩, fun other hother hhas hhas' => ?_,
      fun other hother => ?_⟩
    · exact hout.part.set hlinked hc.typed hmem hfound
        (Message.Part.defaultOf hc.wellTyped hc.typed hmem hpresence hfound)
    · have halike := hout.alike plan hplan path hpath
      have hsome : (x.at? c.source [selected.2.name]).isSome := by
        rw [Message.at?_of_read? hread]
        rfl
      refine halike.writeIn? hc.restores.linked hout.part hc.wellTyped ?_ hsome hwrite
      -- Nothing was written to the member or below it.
      have hnot : ∀ rest, path ≠ selected.2.name :: rest := by
        rintro rest rfl
        exact hunset (halike.has htype hc.typed hfield)
      obtain ⟨_, _, _, -, hpathRead, -⟩ := halike
      constructor
      · rintro ⟨rest, hrest⟩
        cases path with
        | nil => cases hpathRead
        | cons first below =>
          obtain ⟨rfl, -⟩ := List.cons.inj hrest
          exact hnot below rfl
      · rintro ⟨rest, rfl⟩
        exact hnot rest rfl
    · by_cases hsame : other = field
      · subst hsame
        rw [Message.has_of_tracksPresence hpresence, Message.value?_set_self]
        rfl
      have hne : field.number ≠ other.number := fun hnumber =>
        hsame (hlinked.eq_of_number hother hmem hnumber.symm)
      have hexcludes : ¬ field.Excludes other := by
        intro hexcludes
        have hnone := (hc.wellTyped.fitsType hc.typed).oneofs field hmem other hother hexcludes
          (isSome_of_has hset')
        have hsome := isSome_of_has hhas'
        rw [hnone] at hsome
        exact absurd hsome Bool.false_ne_true
      rw [Message.has_congr (Message.value?_set_of_not_excludes hlinked hother hne hexcludes)]
      exact hhas
    · rw [← Option.some.inj (hfield.symm.trans hother)]
      rw [Message.has_of_tracksPresence hpresence, Message.value?_set_self]
      rfl

/-- All of the run: everything is put back that a plan writes, and the selected members are set. -/
theorem restored_of_run (h : c.run = .ok m) :
    ∃ selection, selectMembers c.mode c.pool c.plain c.plan.oneofs = .ok selection ∧
      c.SelectsPopulated x selection ∧ c.Restored x selection c.plan.fields m ∧
      ∀ selected ∈ selection, ∀ field, c.type.field? selected.2.name = some field →
        m.has c.source field := by
  obtain ⟨selection, hselected, hselection⟩ := hc.exists_selectMembers
  obtain ⟨found, out, hfound, hout, hmembers⟩ := run_eq_ok hc.restores.mode h
  obtain rfl := Except.ok.inj (hselected.symm.trans hfound)
  refine ⟨selection, hselected, hselection, ?_⟩
  refine foldlM_prefix (fun (met : Selection) out => met <+: selection →
    c.Restored x selection c.plan.fields out ∧ ∀ selected ∈ met, ∀ field,
      c.type.field? selected.2.name = some field → out.has c.source field) ?_ ?_ hmembers
    (List.prefix_refl _)
  · exact fun _ => ⟨hc.restored_of_foldlM hselection hout, fun _ hmem => absurd hmem List.not_mem_nil⟩
  · intro met selected out out' hmet hstep hprefix
    obtain ⟨hrestored, hset⟩ := hmet ((List.prefix_append met [selected]).trans hprefix)
    have hmem : ∀ other ∈ met ++ [selected], other ∈ selection := fun other hother =>
      hprefix.subset hother
    obtain ⟨hrestored', hkept, hself⟩ :=
      hc.restored_ensureSelected hselection (hmem selected (by simp)) hrestored hstep
    refine ⟨hrestored', fun other hother field hfield => ?_⟩
    rcases List.mem_append.mp hother with hbefore | hother
    · obtain ⟨_, -, -, -, hpopulates⟩ := hselection other (hmem other hother)
      obtain ⟨found, hfound, hhas⟩ := exists_of_hasNamed hc.typed hpopulates.hasNamed.2
      obtain rfl := Option.some.inj (hfield.symm.trans hfound)
      exact hkept field (MessageType.field?_mem hfield).1 (hset other hbefore field hfield) hhas
    · rw [List.mem_singleton.mp hother] at hfield
      exact hself field hfield

/-! ## Tags and payloads -/

/-- The member that holds a value is the populated one. -/
theorem populated?_of_hasNamed (honeof : oneof ∈ c.plan.oneofs) (hmember : member ∈ oneof.members)
    (hhas : hasNamed c.source x member.name) :
    ∃ index, (c.forward fillers there x type).populated? oneof.name = some (index, member) := by
  obtain ⟨index, hindex, hat⟩ := populates_of_hasNamed hmember hhas fun other hother hother' =>
    hc.eq_of_hasNamed honeof hother hmember hother' hhas
  refine ⟨index, ?_⟩
  rw [Flattening.populated?, hc.oneof?_name honeof, Option.bind_eq_bind, Option.bind_some, hindex,
    Option.bind_eq_bind, Option.bind_some, hat]
  rfl

/-- What a role of a oneof writes is in the Plain message. -/
theorem value?_of_roleWrites (hplan : plan ∈ c.plan.fields) {role : Role}
    (hrole : plan.origin.role = some role) (hcompanion : ∀ field, role ≠ .crfPath field)
    {target : Field} (htarget : type.field? plan.shape.name = some target) {value : Value}
    (hwrites : (c.forward fillers there x type).roleWrites role target = .ok [(target, value)]) :
    c.plain.value? target.number = some value := by
  have hwritten := (Flattening.writes_of_role hrole hcompanion htarget).trans hwrites
  have hsome := hc.follows.isSome_value? hc.run hplan hwritten List.mem_cons_self
    (hc.roles plan hplan (by rw [hrole]; rfl) target htarget)
  obtain ⟨stored, hstored⟩ := Option.isSome_iff_exists.mp hsome
  obtain ⟨written, hwrites', hmem⟩ :=
    hc.follows.mem_roleWrites hc.run hplan hrole hcompanion htarget hstored
  obtain rfl := Except.ok.inj (hwrites.symm.trans hwrites')
  obtain ⟨-, rfl⟩ := Prod.mk.inj (List.mem_singleton.mp hmem)
  exact hstored

/-- The member of a dispatched oneof that holds a value is selected. -/
theorem mem_selection (hselected : selectMembers c.mode c.pool c.plain c.plan.oneofs = .ok selection)
    (honeof : oneof ∈ c.plan.oneofs) (hdispatch : oneof.dispatch.isSome)
    (hmember : member ∈ oneof.members) (hhas : hasNamed c.source x member.name) :
    (oneof.name, member) ∈ selection := by
  obtain ⟨dispatch, hdispatch⟩ := Option.isSome_iff_exists.mp hdispatch
  obtain ⟨plan, hplan, hname, hrole⟩ :=
    hc.restores.isPlan.exists_dispatchTag hc.restores.generate honeof hdispatch
  obtain ⟨target, htarget⟩ := hc.exists_target hplan
  obtain ⟨index, hpopulated⟩ := hc.populated?_of_hasNamed honeof hmember hhas
  have hwrites : (c.forward fillers there x type).roleWrites (.dispatchTag oneof.name) target
      = .ok [(target, .enum (Int32.ofNat (index + 1)))] := by
    rw [Flattening.roleWrites.eq_def, Role.target, hpopulated]
  have hvalue := hc.value?_of_roleWrites hplan hrole (by rintro _ ⟨⟩) htarget hwrites
  obtain ⟨other, hother, hpopulates⟩ :=
    hc.exists_selectedMember_of_value? honeof hdispatch (hname ▸ htarget) hvalue
  obtain rfl : other = member :=
    hc.eq_of_hasNamed honeof hpopulates.hasNamed.1 hmember hpopulates.hasNamed.2 hhas
  exact mem_selectMembers_of_selected honeof hother hselected

/-- The member that holds a value is in the payload of its oneof. -/
theorem holdsMember_of_hasNamed (hplan : plan ∈ c.plan.fields)
    (hrole : plan.origin.role = some (.payload oneof.name)) (honeof : oneof ∈ c.plan.oneofs)
    (hmember : member ∈ oneof.members) (hhas : hasNamed c.source x member.name) :
    c.HoldsMember plan oneof member := by
  obtain ⟨target, htarget⟩ := hc.exists_target hplan
  obtain ⟨index, hpopulated⟩ := hc.populated?_of_hasNamed honeof hmember hhas
  obtain ⟨field, hfield, hset⟩ := exists_of_hasNamed hc.typed hhas
  have hmem := (MessageType.field?_mem hfield).1
  have hname : x.type = c.type.fullName := (Pool.message?_mem hc.typed).2.symm
  let alone : Message := Message.set { type := x.type } c.type field (x.get c.source field)
  have hwrites : (c.forward fillers there x type).roleWrites (.payload oneof.name) target
      = .ok [(target, .bytes (Wire.encode c.source alone))] := by
    rw [Flattening.roleWrites.eq_def, Role.target, hpopulated]
    simp only [hc.typed, hfield]
    rfl
  have hvalue := hc.value?_of_roleWrites hplan hrole (by rintro _ ⟨⟩) htarget hwrites
  obtain ⟨payload, hdecode, -⟩ :=
    hc.payloads plan hplan oneof.name hrole index member field hpopulated hfield
  rw [Message.type_set] at hdecode
  have hdecoded : Wire.decode? c.source c.type.fullName (Wire.encode c.source alone)
      = some payload := by
    rw [← hname]
    exact hdecode
  have hsame : payload.Same c.source alone :=
    hc.recovers plan hplan oneof.name hrole index member field hpopulated hfield payload hdecode
  have halone : alone.type? c.source = some c.type := by
    rw [Message.type?, Message.type_set]
    exact hc.typed
  have hpayload : payload.type? c.source = some c.type := by
    rw [Message.type?, hsame.type_eq]
    exact halone
  obtain ⟨found, hfound⟩ := Option.isSome_iff_exists.mp (isSome_of_has hset)
  -- The payload holds the member and no other one.
  have hholds : payload.has c.source field := by
    have hget : x.get c.source field = found := by rw [Message.get, hfound, Option.getD_some]
    have hstored : alone.value? field.number = x.value? field.number :=
      (Message.value?_set_self _ _ _ _).trans ((congrArg some hget).trans hfound.symm)
    rw [hsame.has_eq halone hmem, Message.has_congr hstored]
    exact hset
  have honly : ∀ other ∈ oneof.members, hasNamed c.source payload other.name → other = member := by
    intro other hother hhas'
    obtain ⟨field', hfield', hset'⟩ := exists_of_hasNamed hpayload hhas'
    have hmem' := (MessageType.field?_mem hfield').1
    rw [hsame.has_eq halone hmem'] at hset'
    obtain ⟨value, hvalue'⟩ := Option.isSome_iff_exists.mp (isSome_of_has hset')
    rcases Message.value?_of_set hvalue' with ⟨hnumber, -⟩ | hnone
    · obtain rfl := (hc.restores.linked c.type hc.restores.views.mem).eq_of_number hmem hmem' hnumber
      refine List.inj_on_of_nodup_map (hc.restores.isPlan.members_nodup hc.restores.generate
        (hc.restores.names source hc.restores.mem) honeof) hother hmember ?_
      exact (MessageType.field?_mem hfield').2.symm.trans (MessageType.field?_mem hfield).2
    · cases hnone
  have hnamed : hasNamed c.source payload member.name := by
    rw [hasNamed, hpayload, Option.bind_some, hfield]
    exact hholds
  have hsome : (populatedMember? c.source payload oneof).isSome := by
    rw [populatedMember?, List.findIdx?_isSome, List.any_eq_true]
    exact ⟨member, hmember, hnamed⟩
  obtain ⟨index', hindex'⟩ := Option.isSome_iff_exists.mp hsome
  obtain ⟨hlt, hother, -⟩ := List.findIdx?_eq_some_iff_getElem.mp hindex'
  refine ⟨_, payload, index', ?_, hdecoded, hindex', ?_⟩
  · rw [valueNamed?, hc.type?_plain, Option.bind_eq_bind, Option.bind_some, htarget,
      Option.bind_eq_bind, Option.bind_some, Message.get, hvalue, Option.getD_some]
    rfl
  · rw [List.getElem?_eq_getElem hlt, honly _ (List.getElem_mem hlt) hother]

/-! ## What is put back -/

section Run

variable (h : c.run = .ok m)

include h

/-- What a field with a way back is read from is put back. -/
theorem alikeAt_of_ownPath (hplan : plan ∈ c.plan.fields) (hreversible : plan.isReversible)
    {path : List String} (hpath : path ∈ c.plan.ownPaths plan)
    (hread : (x.read? c.source path).isSome) : Message.AlikeAt c.source m x path := by
  obtain ⟨selection, -, hselection, hrestored, -⟩ := hc.restored_of_run h
  exact hrestored.alike plan hplan path
    (hc.writesThrough_of_read? hselection hplan hreversible hpath hread)

/-- What a payload holds is put back. -/
theorem alikeAt_of_payload (hplan : plan ∈ c.plan.fields)
    (hrole : plan.origin.role = some (.payload oneof.name)) (honeof : oneof ∈ c.plan.oneofs)
    (hmember : member ∈ oneof.members) (hhas : hasNamed c.source x member.name) :
    Message.AlikeAt c.source m x [member.name] := by
  obtain ⟨selection, -, -, hrestored, -⟩ := hc.restored_of_run h
  exact hrestored.alike plan hplan _ (.payload hrole (hc.oneof?_name honeof)
    (hc.holdsMember_of_hasNamed hplan hrole honeof hmember hhas))

/-- The member of a dispatched oneof is set. -/
theorem has_of_dispatched (honeof : oneof ∈ c.plan.oneofs) (hdispatch : oneof.dispatch.isSome)
    (hmember : member ∈ oneof.members) (hhas : hasNamed c.source x member.name) {field : Field}
    (hfield : c.type.field? member.name = some field) : m.has c.source field := by
  obtain ⟨selection, hselected, -, -, hset⟩ := hc.restored_of_run h
  exact hset _ (hc.mem_selection hselected honeof hdispatch hmember hhas) field hfield

end Run

end Reproduces

end Restoring

end PlainSchema
