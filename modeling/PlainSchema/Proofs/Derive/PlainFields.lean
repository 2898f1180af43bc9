import PlainSchema.Proofs.Derive.Generated
import PlainSchema.Proofs.Derive.MapEntries
import PlainSchema.Proofs.Derive.PlainTypes
import PlainSchema.Proofs.Plan.Shapes

/-!
# The Plain fields of source fields

What a source field holds has a place in a Plain field that receives it, `ReceivesField`: the Plain
field has the type that the source field's type moved to, is a list where the source field is one,
and is a map with such values where the source field is a map.  Fields of messages that are not
generated are received by the fields that take their place.  A planned field that copies a source
field receives it when its reference is renamed once and map entries are not mixed up.
-/

namespace PlainSchema

open Proto

/-- What a source field holds fits a Plain field once its messages are moved.  A field of a source
type that tracks presence holds neither a list nor a map. -/
structure ReceivesField (source plain : Pool) (renames : Renames) (leaf target : Field) : Prop where
  single : ¬ source.isMap leaf → target.type = leaf.type.moved renames
  list : source.isList leaf → ¬ leaf.tracksPresence → plain.isList target
  map : ∀ key val, source.entryFields? leaf = some (key, val) → ¬ leaf.tracksPresence →
    ∃ key' val', plain.entryFields? target = some (key', val') ∧ key'.type.kind = key.type.kind ∧
      val'.type = val.type.moved renames

/-- A Plain field is of the type that the type of a source field moved to. -/
structure MovedInto (source plain : Pool) (renames : Renames) (leaf target : Field) : Prop where
  single : ¬ source.isMap leaf → target.type = leaf.type.moved renames
  map : ∀ key val, source.entryFields? leaf = some (key, val) → target.label = .repeated →
    ∃ key' val', plain.entryFields? target = some (key', val') ∧ key'.type.kind = key.type.kind ∧
      val'.type = val.type.moved renames

namespace Derivation

variable {files : List FileDecl} {generate : List String} {settings : Settings}
  {plan : SchemaPlan} {plain : Pool} {leaf target : Field} {type : MessageType}

theorem findsAll (h : Derivation files generate settings plan) :
    (Schema.ofPool (Pool.link files) generate).FindsAll :=
  ⟨fun _ hm => h.schema_message? hm, fun _ hm _ hfield => h.schema_field? hm hfield⟩

/-- The plan of a source type is that of the message that views it. -/
theorem generate_of_message? (h : Derivation files generate settings plan)
    {m : SourceMessage} (hm : m ∈ (Schema.ofPool (Pool.link files) generate).messages)
    {mp : MessagePlan} (hmp : plan.message? m.fullName = some mp) :
    mp.generate = m.options.generate := by
  obtain ⟨found, -, hfound, hplan⟩ := h.plans.message? h.wellScoped hm
  obtain rfl := Option.some.inj (hmp.symm.trans hfound)
  exact hplan.outlines.generate

/-- A map entry is not generated. -/
theorem not_generate_of_isMapEntry (h : Derivation files generate settings plan)
    (hentries : (Schema.ofPool (Pool.link files) generate).EntriesOfMaps)
    (htype : type ∈ (Pool.link files).messages) (hentry : type.isMapEntry) {mp : MessagePlan}
    (hmp : plan.message? ("." ++ type.fullName) = some mp) : ¬ mp.generate := by
  have hm : SourceMessage.ofType (Pool.link files) (OptionExtensions.ofPool (Pool.link files)) type
      ∈ (Schema.ofPool (Pool.link files) generate).messages := List.mem_map_of_mem htype
  rw [h.generate_of_message? hm hmp]
  exact hentries.kept _ hm hentry

section Kept

variable (h : Derivation files generate settings plan)
  (hplain : Pool.load (plan.derive files) = .ok plain)
  (htype : type ∈ (Pool.link files).messages) (hleaf : leaf ∈ type.fields)
include h hplain htype hleaf

omit htype hleaf in
/-- The message type of a field and that of a field of the moved type. -/
theorem exists_messageTypeOf? (hmoved : target.type = leaf.type.moved plan.renames)
    {found : MessageType} (hfound : (Pool.link files).messageTypeOf? leaf = some found) :
    found ∈ (Pool.link files).messages ∧ ∃ found', plain.messageTypeOf? target = some found' ∧
      found.MovesTo plan.renames found' ∧
      ((∀ mp, plan.message? ("." ++ found.fullName) = some mp → ¬ mp.generate) →
        ∀ field ∈ found.fields, ∃ field' ∈ found'.fields, field.MovesTo plan.renames field') := by
  obtain ⟨hmem, -, group, hmessage⟩ := Pool.exists_of_messageTypeOf? hfound
  obtain ⟨found', hfound', hmoves, hfields⟩ := h.exists_plainType hplain hmem
  refine ⟨hmem, found', ?_, hmoves, hfields⟩
  rw [Pool.messageTypeOf?, hmoved, hmessage]
  change plain.message? (plan.renames.moved found.fullName) = some found'
  rw [← hmoves.fullName]
  exact hfound'

/-- A field of a moved type refers to a map entry if and only if the source field does. -/
theorem isMap_of_moved (hmoved : target.type = leaf.type.moved plan.renames)
    (hmap : plain.isMap target) (hlabel : leaf.label = .repeated) : (Pool.link files).isMap leaf := by
  obtain ⟨-, entry, hentry, hisEntry⟩ := Pool.isMap_iff.mp hmap
  cases hmessage : leaf.type with
  | message name group =>
    obtain ⟨found, -, -, hfound⟩ := exists_messageType h.linked htype hleaf hmessage
    have hof : (Pool.link files).messageTypeOf? leaf = some found := by
      rw [Pool.messageTypeOf?, hmessage]
      exact hfound
    obtain ⟨-, found', hfound', hmoves, -⟩ := h.exists_messageTypeOf? hplain hmoved hof
    obtain rfl := Option.some.inj (hentry.symm.trans hfound')
    exact Pool.isMap_iff.mpr ⟨hlabel, found, hof, hmoves.isMapEntry ▸ hisEntry⟩
  | scalar type => simp [Pool.messageTypeOf?, hmoved, hmessage, FieldType.moved] at hentry
  | enum name => simp [Pool.messageTypeOf?, hmoved, hmessage, FieldType.moved] at hentry

/-- A field of the moved type receives what a source field holds, if it has a list where the source
field has one. -/
theorem receives_of_movedInto (hmoved : MovedInto (Pool.link files) plain plan.renames leaf target)
    (hlabel : leaf.label = .repeated → ¬ leaf.tracksPresence → target.label = .repeated) :
    ReceivesField (Pool.link files) plain plan.renames leaf target := by
  refine ⟨hmoved.single, fun hlist hpresence => ?_, fun key val hentry hpresence => ?_⟩
  · rw [Pool.isList, Bool.and_eq_true, beq_iff_eq, Bool.not_eq_true', ← Bool.not_eq_true] at hlist
    obtain ⟨hrepeated, hmap⟩ := hlist
    rw [Pool.isList, Bool.and_eq_true, beq_iff_eq, Bool.not_eq_true', ← Bool.not_eq_true]
    refine ⟨hlabel hrepeated hpresence, fun htargetMap => hmap ?_⟩
    exact h.isMap_of_moved hplain htype hleaf (hmoved.single hmap) htargetMap hrepeated
  · obtain ⟨hrepeated, -⟩ := Pool.entryFields?_eq_some_iff.mp hentry
    exact hmoved.map key val hentry (hlabel hrepeated hpresence)

omit htype hleaf in
/-- A field that takes the place of a source field is of the moved type. -/
theorem movedInto_of_movesTo (hentries : (Schema.ofPool (Pool.link files) generate).EntriesOfMaps)
    (hmoves : leaf.MovesTo plan.renames target) :
    MovedInto (Pool.link files) plain plan.renames leaf target := by
  refine ⟨fun _ => hmoves.type, fun key val hentry _ => ?_⟩
  obtain ⟨hlabel, entry, hof, hisEntry, hkey, hval⟩ := Pool.entryFields?_eq_some_iff.mp hentry
  obtain ⟨hmem, entry', hof', hmoved, hfields⟩ :=
    h.exists_messageTypeOf? hplain hmoves.type hof
  have hkept := hfields fun mp hmp => h.not_generate_of_isMapEntry hentries hmem hisEntry hmp
  have hlinked' := Pool.linked_of_load hplain
  have hat : ∀ {number : Nat} {field : Field}, entry.fieldByNumber? number = some field →
      ∃ field', entry'.fieldByNumber? number = some field' ∧ field.MovesTo plan.renames field' := by
    intro number field hfield
    obtain ⟨hmem, rfl⟩ := MessageType.fieldByNumber?_mem hfield
    obtain ⟨field', hfield', hmove⟩ := hkept field hmem
    have hentry' : entry' ∈ plain.messages := (Pool.exists_of_messageTypeOf? hof').1
    refine ⟨field', ?_, hmove⟩
    rw [← hmove.number]
    exact (hlinked' entry' hentry').fieldByNumber?_number hfield'
  obtain ⟨key', hkey', hmoveKey⟩ := hat hkey
  obtain ⟨val', hval', hmoveVal⟩ := hat hval
  refine ⟨key', val', Pool.entryFields?_eq_some_iff.mpr ⟨hmoves.label.trans hlabel, entry', hof',
    hmoved.isMapEntry.trans hisEntry, hkey', hval'⟩, ?_, hmoveVal.type⟩
  rw [hmoveKey.type, FieldType.kind_moved]

/-- A field that takes the place of a source field receives what it holds. -/
theorem receives_of_movesTo (hentries : (Schema.ofPool (Pool.link files) generate).EntriesOfMaps)
    (hmoves : leaf.MovesTo plan.renames target) :
    ReceivesField (Pool.link files) plain plan.renames leaf target :=
  h.receives_of_movedInto hplain htype hleaf (h.movedInto_of_movesTo hplain hentries hmoves)
    fun hlabel _ => hmoves.label.trans hlabel

end Kept

end Derivation

end PlainSchema
