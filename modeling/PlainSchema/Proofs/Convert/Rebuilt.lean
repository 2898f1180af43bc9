import PlainSchema.Proofs.Convert.Reproduced
import PlainSchema.Proofs.Plan.Complete
import PlainSchema.Proofs.Plan.Covered

/-!
# Messages that are rebuilt along a walk

A part of a message holds the same as the message in every field that a walk goes over, if it holds
what is read at the leaves of the walk, and a message wherever the walk goes through one,
`rel_get?_of_walk`.  The proof follows the walk:

```text
a leaf               the value there is like the one in the message
an inlined message   holds the same, since all of its fields do
```

`Restoring.Reproduces.same_of_run` applies it to the walks that cover a message: what a conversion back
puts together holds the same as the message that was converted.
-/

namespace PlainSchema

open Proto

/-- The paths to the messages that are inlined on the walks of a message. -/
inductive InlinedAt (schema : Schema) : (SourceField → Bool) → SourceMessage → List String → Prop
  | here {inlines : SourceField → Bool} {m : SourceMessage} {field : SourceField}
      (hfield : field ∈ m.fields) (hinlines : inlines field) : InlinedAt schema inlines m [field.name]
  | inside {inlines : SourceField → Bool} {m target : SourceMessage} {field : SourceField}
      {path : List String} (hfield : field ∈ m.fields) (hinlines : inlines field)
      (htarget : field.typeRef.bind schema.message? = some target)
      (h : InlinedAt schema (·.options.embeds) target path) :
      InlinedAt schema inlines m (field.name :: path)

/-- A path to an inlined message begins with a field that is inlined. -/
theorem InlinedAt.exists_field {schema : Schema} {inlines : SourceField → Bool} {m : SourceMessage}
    {path : List String} (h : InlinedAt schema inlines m path) :
    ∃ field ∈ m.fields, inlines field := by
  cases h with
  | here hfield hinlines => exact ⟨_, hfield, hinlines⟩
  | inside hfield hinlines => exact ⟨_, hfield, hinlines⟩

section Walk

variable {files : List FileDecl} {pool : Pool} {generate : List String}
  {inlines : SourceField → Bool} {m : SourceMessage} {type : MessageType}
  {fields : List SourceField} {leaves : List Leaf}
  (hpool : pool = Pool.link files) (hlinked : FilesLinked files)
  (hfindings : ∀ finding ∈ (Schema.ofPool pool generate).findings, ¬ finding.isError)

include hpool hlinked hfindings

/-- A part of a message holds the same in every field of a walk, if it holds what is read at the leaves
and a message wherever the walk goes through one. -/
theorem rel_get?_of_walk
    (h : Walk (Schema.ofPool pool generate) inlines m fields leaves)
    (hviews : m.ViewsType pool type) (hfields : ∀ field ∈ fields, field ∈ m.fields)
    (hkinds : ∀ field ∈ fields, inlines field → field.kind = .message)
    (hrepeated : ∀ field ∈ fields, inlines field → field.isRepeated → field.oneofIndex.isSome)
    {whole part : Message} (hwhole : whole.WellTyped pool)
    (hknown : whole.Known pool) (htype : whole.type? pool = some type)
    (hpart : part.Part pool whole)
    (hleaf : ∀ leaf ∈ leaves, (whole.read? pool leaf.path).isSome →
      Message.AlikeAt pool part whole leaf.path)
    (hhop : ∀ path child, InlinedAt (Schema.ofPool pool generate) inlines m path →
      whole.at? pool path = some (.message child) →
        ∃ child', part.at? pool path = some (.message child')) :
    ∀ field ∈ fields, ∀ f, type.field? field.name = some f →
      Option.Rel (Value.Alike (Message.Same pool)) (part.get? pool f)
        (whole.get? pool f) := by
  have htypes : pool.Linked := by
    rw [hpool]
    exact types_linked hlinked
  have hnexts : ∀ {f : Field} {name : String} {next : SourceMessage},
      f.type.typeName? = some name →
      (SourceField.ofField pool (OptionExtensions.ofPool pool) f).typeRef.bind
        (Schema.ofPool pool generate).message? = some next →
      ∃ nextType, next.ViewsType pool nextType ∧ pool.message? name = some nextType := by
    intro f name next hname hnext
    subst hpool
    exact exists_viewsType_of_typeName? hlinked hname hnext
  induction h generalizing type whole part with
  | nil => exact fun field hfield => absurd hfield List.not_mem_nil
  | @leaf inlines m field fields leaves _ _ ih =>
    rw [List.forall_mem_cons] at hfields hkinds hrepeated hleaf
    rw [List.forall_mem_cons]
    refine ⟨fun f hf => ?_, ih hviews hfields.2 hkinds.2 hrepeated.2 hwhole hknown htype hpart
      hleaf.2 hhop⟩
    have hmem := (MessageType.field?_mem hf).1
    cases hget : whole.get? pool f with
    | none =>
      rw [hpart.get?_eq_none_of htype hmem hget]
      exact .none
    | some value =>
      have hread : whole.read? pool [field.name] = some (f, value) :=
        Message.read?_singleton.mpr ⟨type, htype, hf, hget⟩
      have halike : Message.AlikeAt pool part whole [field.name] :=
        hleaf.1 (by rw [Leaf.path, List.map_nil, List.nil_append, hread]; rfl)
      rw [← hget]
      exact halike.rel_get? (hpart.type?_eq.trans htype) htype hf
  | @inlined inlines m target field fields inner leaves hinlines htarget _ _ ihInner ih =>
    rw [List.forall_mem_cons] at hfields hkinds hrepeated
    rw [List.forall_mem_cons]
    refine ⟨fun f hf => ?_, ih hviews hfields.2 hkinds.2 hrepeated.2 hwhole hknown htype hpart
      (fun leaf hmem => hleaf leaf (List.mem_append_right _ hmem)) hhop⟩
    have htypeLinked := htypes type hviews.mem
    obtain ⟨viewed, -, rfl, hfound⟩ := hviews.exists_field htypeLinked hfields.1
    obtain rfl := Option.some.inj (hf.symm.trans hfound)
    have hmem := (MessageType.field?_mem hf).1
    cases hget : whole.get? pool f with
    | none =>
      rw [hpart.get?_eq_none_of htype hmem hget]
      exact .none
    | some value =>
      have hstored := (Message.value?_of_get? hget).2
      have hfits := hwhole.fitsType htype
      -- A repeated field is inlined only as the member of a oneof, and then it is never set.
      have hsingular : f.isSingular := by
        cases hlabel : f.isSingular with
        | true => rfl
        | false =>
          have honeof : f.oneof.isSome := hrepeated.1 hinlines (by
            rw [isRepeated_ofField, hlabel]
            rfl)
          rw [← hlabel]
          exact hfits.singular f hmem (htypeLinked.presence f hmem honeof) (by rw [hstored]; rfl)
      have hsingle := (hfits.fields f hmem value hstored).of_isSingular hsingular
      obtain ⟨name, hname⟩ := FieldType.eq_message_of_kind (hkinds.1 hinlines)
      obtain ⟨child, rfl⟩ : ∃ child, value = .message child := by
        have haccepts := hsingle.accepts
        rw [hname] at haccepts
        cases value with
        | message child => exact ⟨child, rfl⟩
        | _ => exact absurd haccepts Bool.false_ne_true
      have hat : whole.at? pool [_] = some (.message child) :=
        (Message.at?_singleton.trans (Message.stored?_eq htype hf)).trans hstored
      obtain ⟨child', hat'⟩ := hhop _ child (.here hfields.1 hinlines) hat
      have hpartType := hpart.type?_eq.trans htype
      have hget' : part.get? pool f = some (.message child') := by
        rw [Message.at?_singleton, Message.stored?_eq hpartType hf] at hat'
        rw [Message.get?_of_has (Message.has_of_message hat'), hat']
      obtain ⟨next, hnext, hfind⟩ := hnexts
        (show f.type.typeName? = some name by rw [hname]; rfl) htarget
      have hchildName := hsingle.named child rfl
      rw [hname] at hchildName
      have hchildType : child.type? pool = some next := by
        rw [Message.type?, ← Option.some.inj hchildName]
        exact hfind
      have hchild := hwhole.nested hstored .message
      have hchildKnown := hknown.within (.step hstored .message .refl)
      have hchildPart := hpart.of_at? hat' hat
      have htargetMem := Schema.message?_mem (Option.bind_eq_some_iff.mp htarget).choose_spec.2
      have hvalid : ∀ sf ∈ target.fields, sf.Valid _ target := fun sf hsf =>
        Schema.valid_field hfindings htargetMem hsf
      have hsame := ihInner hnext (fun _ hsf => hsf)
        (fun sf hsf hembeds => ((hvalid sf hsf).embedded hembeds).1)
        (fun sf hsf hembeds hrepeated' => by
          rw [((hvalid sf hsf).embedded hembeds).2.1] at hrepeated'
          exact absurd hrepeated' Bool.false_ne_true)
        hchild hchildKnown hchildType hchildPart
        (fun leaf hmemLeaf hread => by
          have hread' := Message.read?_append hwhole leaf.path_ne_nil hat
          refine Message.AlikeAt.of_append (hleaf _ (List.mem_append_left _
            (List.mem_map_of_mem hmemLeaf)) ?_) hwhole leaf.path_ne_nil hat' hat
          exact (congrArg Option.isSome hread').trans hread)
        (fun path inside hinlined hinside => by
          obtain ⟨inside', hinside'⟩ := hhop _ inside
            (.inside hfields.1 hinlines htarget hinlined) ((Message.at?_append hat).trans hinside)
          exact ⟨inside', (Message.at?_append hat').symm.trans hinside'⟩)
      rw [hget']
      refine .some (.message (hchildPart.same (hchildKnown child .refl) hchildType ?_))
      intro below hbelow
      refine hsame (SourceField.ofField pool (OptionExtensions.ofPool pool) below) ?_ below
        ((htypes next hnext.mem).field?_name hbelow)
      rw [hnext.fields]
      exact List.mem_map_of_mem hbelow

end Walk

/-! ## What a conversion back puts together -/

/-- A Plain message shows that there is a message at a path: the tag of a dispatched oneof selects it, or
a field with a way back is read from inside of it. -/
def MessagePlan.ShowsAt (mp : MessagePlan) (pool : Pool) (x : Message) (path : List String) : Prop :=
  (∃ oneof ∈ mp.oneofs, oneof.dispatch.isSome ∧ ∃ member ∈ oneof.members, path = [member.name]) ∨
    ∃ plan ∈ mp.fields, plan.isReversible ∧ ∃ rest, rest ≠ [] ∧ path ++ rest ∈ mp.ownPaths plan ∧
      (x.read? pool (path ++ rest)).isSome

instance (mp : MessagePlan) (pool : Pool) (x : Message) (path : List String) :
    Decidable (mp.ShowsAt pool x path) :=
  decidable_of_iff
    ((∃ oneof ∈ mp.oneofs, oneof.dispatch.isSome ∧ ∃ member ∈ oneof.members, path = [member.name]) ∨
      ∃ plan ∈ mp.fields, plan.isReversible ∧ ∃ own ∈ mp.ownPaths plan, path <+: own ∧ path ≠ own ∧
        (x.read? pool own).isSome)
    (or_congr_right (exists_congr fun plan => and_congr_right fun _ => and_congr_right fun _ =>
      ⟨fun ⟨own, hown, ⟨rest, hrest⟩, hne, hread⟩ =>
          ⟨rest, fun hnil => hne (by rw [← hrest, hnil, List.append_nil]), hrest ▸ hown, hrest ▸ hread⟩,
        fun ⟨rest, hrest, hown, hread⟩ =>
          ⟨path ++ rest, hown, List.prefix_append _ _, by simpa using hrest, hread⟩⟩))

namespace Restoring.Reproduces

variable {c : Restoring} {fillers casters : Casters (Value → Except String Value)}
  {there : ConvertNested} {x m : Message} {type : MessageType} {files : List FileDecl}
  {generate : List String} {settings : Settings} {renames : Renames} {source : SourceMessage}
  (hc : c.Reproduces fillers there x type casters (Schema.ofPool c.source generate) settings renames
    source)

include hc

/-- A message stands in the place of an inlined one, if it is the selected member of a dispatched oneof
or holds something that is put back. -/
theorem exists_at?_of_shows (h : c.run = .ok m) {path : List String} {child : Message}
    (hat : x.at? c.source path = some (.message child))
    (hshows : c.plan.ShowsAt c.source x path) :
    ∃ child', m.at? c.source path = some (.message child') := by
  rcases hshows with ⟨oneof, honeof, hdispatch, member, hmember, rfl⟩ | ⟨plan, hplan, hreversible,
    rest, hrest, hpath, hread⟩
  · obtain ⟨_, field, htype, hfield, hstored⟩ :=
      Message.exists_of_stored? (Message.at?_singleton.symm.trans hat)
    obtain rfl := Option.some.inj (hc.typed.symm.trans htype)
    have hhas : x.has c.source field := Message.has_of_message hstored
    have hnamed : hasNamed c.source x member.name := by
      rw [hasNamed, hc.typed, Option.bind_some, hfield]
      exact hhas
    have hset := hc.has_of_dispatched h honeof hdispatch hmember hnamed hfield
    obtain ⟨_, -, -, hrestored, -⟩ := hc.restored_of_run h
    have hpart := hrestored.part
    obtain ⟨value, hvalue⟩ := Option.isSome_iff_exists.mp
      (show (m.get? c.source field).isSome by rw [← Message.has_eq_isSome_get?]; exact hset)
    have hget : x.get? c.source field = some (.message child) := by
      rw [Message.get?_of_has hhas, hstored]
    have hmem := (MessageType.field?_mem hfield).1
    have hstored' := (Message.value?_of_get? hvalue).2
    cases hpart.of_get? hc.typed hmem hvalue hget with
    | @message inner =>
      refine ⟨inner, ?_⟩
      rw [Message.at?_singleton, Message.stored?_eq (hpart.type?_eq.trans hc.typed) hfield]
      exact hstored'
    | other _ hnot => exact absurd rfl (hnot child)
  · obtain ⟨value, -, -, hvalue, -, -⟩ := hc.alikeAt_of_ownPath h hplan hreversible hpath hread
    obtain ⟨inner, hinner, -⟩ := Message.exists_at?_of_append hrest hvalue
    exact ⟨inner, hinner⟩

/-- **What is put together holds the same as the message that was converted**, if every inlined message
in it holds something that is put back. -/
theorem same_of_run (hpool : c.source = Pool.link files) (hlinked : FilesLinked files)
    (hshows : ∀ path child, InlinedAt (Schema.ofPool c.source generate)
        (source.dissolves (Schema.ofPool c.source generate)) source path →
      x.at? c.source path = some (.message child) → c.plan.ShowsAt c.source x path)
    (h : c.run = .ok m) : m.Same c.source x := by
  obtain ⟨_, -, -, hrestored, -⟩ := hc.restored_of_run h
  have hpart := hrestored.part
  have htypeLinked := hc.restores.linked c.type hc.restores.views.mem
  have hplanned := hc.restores.isPlan
  have hgenerate := hc.restores.generate
  refine hpart.same (hc.known x .refl) hc.typed ?_
  intro field hfield
  have hfound := htypeLinked.field?_name hfield
  let viewed := SourceField.ofField c.source (OptionExtensions.ofPool c.source) field
  have hviewed : viewed ∈ source.fields := by
    rw [hc.restores.views.fields]
    exact List.mem_map_of_mem hfield
  by_cases hpayload : source.InPayload viewed
  · obtain ⟨oneof, honeof, ⟨member, hmember, hname⟩, plan, hplan, hrole⟩ :=
      hplanned.exists_payload_of_field hgenerate hviewed hpayload
    cases hget : x.get? c.source field with
    | none =>
      rw [hpart.get?_eq_none_of hc.typed hfield hget]
      exact .none
    | some value =>
      have hnamed : hasNamed c.source x member.name := by
        rw [hasNamed, hc.typed, Option.bind_some, hname,
          show c.type.field? viewed.name = some field from hfound]
        exact (Message.value?_of_get? hget).1
      have halike := hc.alikeAt_of_payload h hplan hrole honeof hmember hnamed
      rw [hname] at halike
      rw [← hget]
      exact halike.rel_get? (hpart.type?_eq.trans hc.typed) hc.typed hfound
  · have hnodup : source.fields.Nodup :=
      List.Nodup.of_map _ (hc.restores.names source hc.restores.mem)
    obtain ⟨leaves, hwalk, hleaves⟩ := hplanned.exists_walk_of_field hgenerate hc.restores.mem
      hc.restores.fieldNames (hasDottedRefs_ofPool _ _) hc.findings hnodup hviewed hpayload
    have hvalid := Schema.valid_field hc.findings hc.restores.mem hviewed
    -- A member that does not ask for it is inlined only if it is a message.
    have hkind : source.dissolves (Schema.ofPool c.source generate) viewed →
        viewed.kind = .message ∧ (viewed.isRepeated → viewed.oneofIndex.isSome) := by
      intro hdissolves
      have hembeds : viewed.options.embeds → viewed.kind = .message ∧
          (viewed.isRepeated → viewed.oneofIndex.isSome) := by
        intro hembeds
        obtain ⟨hmessage, hsingle, -⟩ := hvalid.embedded hembeds
        exact ⟨hmessage, fun hrepeated => absurd hrepeated (by simp [hsingle])⟩
      rw [SourceMessage.dissolves] at hdissolves
      cases hindex : source.dissolvedIndex? viewed with
      | none =>
        rw [hindex] at hdissolves
        exact hembeds hdissolves
      | some index =>
        rw [hindex] at hdissolves
        obtain ⟨hof, -⟩ := Option.filter_eq_some_iff.mp hindex
        rcases (Bool.or_eq_true _ _).mp (Bool.and_eq_true_iff.mp hdissolves).2 with hembedded | hmember
        · exact hembeds hembedded
        · rw [Bool.and_eq_true, Bool.and_eq_true, beq_iff_eq] at hmember
          exact ⟨hmember.1.1, fun _ => by rw [hof]; rfl⟩
    refine rel_get?_of_walk hpool hlinked hc.findings hwalk hc.restores.views (by simpa using hviewed)
      (by simpa using fun hdissolves => (hkind hdissolves).1)
      (by simpa using fun hdissolves => (hkind hdissolves).2) hc.wellTyped hc.known hc.typed hpart ?_ ?_
      viewed (by simp) field hfound
    · intro leaf hleaf hread
      obtain ⟨plan, hplan, hreversible, hpath⟩ := hleaves leaf hleaf
      exact hc.alikeAt_of_ownPath h hplan hreversible hpath hread
    · intro path child hinlined hat
      exact hc.exists_at?_of_shows h hat (hshows path child hinlined hat)

end Restoring.Reproduces

end PlainSchema
