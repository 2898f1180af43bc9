import Mathlib.Data.Int.Interval
import PlainSchema.Proofs.Convert.Delivered
import PlainSchema.Proofs.Convert.Returning
import PlainSchema.Proofs.Plan.Discriminated
import PlainSchema.Proofs.Schema.EnumValues

/-!
# Schemas that mirror each other

The conversion back reads the fields that the conversion to Plain wrote, so the fields of both sides have
to hold corresponding types, `Converter.Mirrors`.  They do, `Converter.IsBuilt.mirrors`, if every
reference of the plan still means what it meant when the derived files are linked,
`SchemaPlan.NamesTypes`, and if what is merged into one field is carried in one way:

```text
a planned field          the type moved with its field, MovedInto.keepsTypes, along every path
a companion              a text outside of all oneofs, since it serves one
a tag                    zero unless it is set, SourceMessage.IsPlanOf.head?_values
the fields of a type     moved one by one, whether or not the message is generated
   without a plan
```
-/

namespace PlainSchema

open Proto

/-! ## Full names of derived types -/

mutual

theorem head?_of_mem_declaredMessage {scope : String} {parent : Option String} : (m : MessageDecl) →
    qualify scope m.name ≠ "" → (qualify scope m.name).toList.head? ≠ some '.' →
    ∀ d ∈ declaredMessage scope parent m, d.fullName.toList.head? ≠ some '.'
  | { name, messages, .. }, hne, hhead, d, hd => by
    rw [declaredMessage] at hd
    rcases List.mem_cons.mp hd with rfl | hd
    · exact hhead
    · refine head?_of_mem_declaredMessages messages (fun n _ => ?_) d hd
      have hinner : ∀ {outer inner : String}, outer ≠ "" → qualify outer inner = inScope outer inner :=
        fun {_ _} houter => by simp [qualify, inScope, houter]
      rw [hinner hne]
      exact ⟨inScope_ne_empty _ _, head?_inScope hne hhead⟩

/-- The names of messages begin with no dot if those of the outermost ones do not. -/
theorem head?_of_mem_declaredMessages {scope : String} {parent : Option String} :
    (ms : List MessageDecl) →
    (∀ m ∈ ms, qualify scope m.name ≠ "" ∧ (qualify scope m.name).toList.head? ≠ some '.') →
    ∀ d ∈ declaredMessages scope parent ms, d.fullName.toList.head? ≠ some '.'
  | [], _, d, hd => by simp [declaredMessages] at hd
  | m :: ms, houter, d, hd => by
    rw [declaredMessages] at hd
    rcases List.mem_append.mp hd with hd | hd
    · obtain ⟨hne, hhead⟩ := houter m List.mem_cons_self
      exact head?_of_mem_declaredMessage m hne hhead d hd
    · exact head?_of_mem_declaredMessages ms (fun m hm => houter m (List.mem_cons_of_mem _ hm)) d hd

end

/-- The full names of the messages of the derived files begin with no dot. -/
theorem Derivation.head?_messageNames {files : List FileDecl} {generate : List String}
    {settings : Settings} {plan : SchemaPlan} (h : Derivation files generate settings plan)
    (hproper : ProperNames files) {name : String} (hname : name ∈ messageNames (plan.derive files)) :
    name.toList.head? ≠ some '.' := by
  obtain ⟨_, hfile', d, hd, rfl⟩ := mem_messageNames.mp hname
  obtain ⟨file, hfile, rfl⟩ := List.mem_map.mp hfile'
  refine head?_of_mem_declaredMessages _ (fun m' hm' => ?_) d hd
  change m' ∈ retargetMessages plan.renames
    (replaceMessages plan file.dialect (fileEntries plan.renames files) (packageScope file.package)
      file.messages) at hm'
  rw [retarget_replaceMessages] at hm'
  obtain ⟨m, hm, rfl⟩ := List.mem_map.mp hm'
  -- An outermost message has the new name of the one that it takes the place of.
  obtain ⟨d', hd', rfl, hfull⟩ := declares_top hm
  have hrename := h.rename_plainMessage hfile (declares_top hm) (fileEntries plan.renames files)
  rw [h.rename_package hfile, ← hfull, ← dot_qualify] at hrename
  obtain ⟨rest, hrest, hne, hhead⟩ := h.beginsWithDot_rename hproper
    ((mem_schema_messages generate).mpr ⟨file, hfile, d', hd', rfl⟩)
  change plan.renames.rename ("." ++ d'.fullName) = _ at hrest
  change qualify file.package _ ≠ "" ∧ (qualify file.package _).toList.head? ≠ some '.'
  rw [dot_append_injective (hrename.trans hrest)]
  exact ⟨hne, hhead⟩

/-! ## References that keep their meaning -/

/-- Every map entry has a key and a value. -/
def Pool.KeysEntries (pool : Pool) : Prop :=
  ∀ type ∈ pool.messages, type.isMapEntry →
    (type.fieldByNumber? 1).isSome ∧ (type.fieldByNumber? 2).isSome

instance (pool : Pool) : Decidable pool.KeysEntries :=
  inferInstanceAs (Decidable (∀ _ ∈ _, _))

/-- What a plan refers to is the new name of what its files refer to, and map entries are what a compiler
makes for map fields. -/
structure SchemaPlan.NamesTypes (plan : SchemaPlan) (files : List FileDecl)
    (generate : List String) : Prop where
  entries : (Schema.ofPool (Pool.link files) generate).EntriesOfMaps
  keyed : (Pool.link files).KeysEntries
  references : KeepsPlannedReferences files generate plan
  apart : MapEntriesApart files generate plan
  enums : ∀ mp ∈ plan.messages, ∀ e ∈ mp.enums, plan.renames.rename e.fullName = e.fullName

section Types

variable {files : List FileDecl} {renames : Renames} {plain : Pool} {moves : String → String → Prop}
  {leaf target : Field} {type : MessageType}
  (hmoves : ∀ name ∈ messageNames files, moves name (renames.moved name))

include hmoves

theorem FieldType.corresponds_moved {type : FieldType} (htype : type.Declared files) :
    type.Corresponds moves (type.moved renames) := by
  cases type with
  | message name group => exact hmoves name htype
  | scalar type => exact trivial
  | enum name => exact trivial

/-- Fields of moved types hold messages of corresponding types. -/
theorem MovedInto.keepsTypes (h : MovedInto (Pool.link files) plain renames leaf target)
    (hlinked : FilesLinked files) (hkeyed : (Pool.link files).KeysEntries)
    (htype : type ∈ (Pool.link files).messages) (hleaf : leaf ∈ type.fields) :
    KeepsTypes (Pool.link files) plain moves leaf target := by
  rw [KeepsTypes]
  cases hentry : (Pool.link files).entryFields? leaf with
  | none =>
    have hmap : ¬ (Pool.link files).isMap leaf := by
      intro hmap
      obtain ⟨hlabel, entry, hof, hisEntry⟩ := Pool.isMap_iff.mp hmap
      obtain ⟨hkey, hval⟩ := hkeyed entry (Pool.exists_of_messageTypeOf? hof).1 hisEntry
      obtain ⟨key, hkey⟩ := Option.isSome_iff_exists.mp hkey
      obtain ⟨val, hval⟩ := Option.isSome_iff_exists.mp hval
      rw [Pool.entryFields?_eq_some_iff.mpr ⟨hlabel, entry, hof, hisEntry, hkey, hval⟩] at hentry
      cases hentry
    dsimp only
    rw [h.single hmap]
    exact FieldType.corresponds_moved hmoves (declared_of_mem hlinked htype hleaf)
  | some fields =>
    obtain ⟨key, val⟩ := fields
    cases hentry' : plain.entryFields? target with
    | none => exact trivial
    | some fields' =>
      obtain ⟨hlabel, -⟩ := Pool.entryFields?_eq_some_iff.mp hentry'
      obtain ⟨key', val', hmoved, -, hval⟩ := h.map key val hentry hlabel
      obtain rfl := Option.some.inj (hentry'.symm.trans hmoved)
      obtain ⟨-, entry, hof, -, -, hmem⟩ := Pool.entryFields?_eq_some_iff.mp hentry
      dsimp only
      rw [hval]
      exact FieldType.corresponds_moved hmoves (declared_of_mem hlinked
        (Pool.exists_of_messageTypeOf? hof).1 (MessageType.fieldByNumber?_mem hmem).1)

end Types

/-! ## Enums that tell members apart -/

/-- The enums that the fields of a message are dispatched by begin with zero. -/
theorem head?_values_expandFields {ctx : PlanContext} {m : SourceMessage} {newFullName : String} :
    ∀ e ∈ (expandFields ctx m newFullName).enums, e.values.head?.map (·.2) = some 0 := by
  refine expandFields_induction
    (fun _ e => ∀ enum ∈ e.enums, enum.values.head?.map (·.2) = some 0) (by simp) ?_
  intro _ field _ _ e he
  refine Expanding.addField_cases e field (fun _ _ _ _ => ?copied) (fun _ _ _ _ => ?known)
    (fun index _ _ _ => ?dissolved)
  case copied => exact he
  case known => exact he
  case dissolved =>
    refine List.forall_mem_append.mpr ⟨he, fun enum henum => ?_⟩
    rw [Option.mem_toList] at henum
    cases hstrategy : m.strategy index with
    | enumDispatch =>
      rw [hstrategy] at henum
      obtain rfl := Option.some.inj henum
      rfl
    | _ =>
      rw [hstrategy] at henum
      cases henum

theorem SourceMessage.IsPlanOf.head?_values {schema : Schema} {settings : Settings}
    {renames : Renames} {m : SourceMessage} {mp : MessagePlan}
    (h : m.IsPlanOf schema settings renames mp) :
    ∀ e ∈ mp.enums, e.values.head?.map (·.2) = some 0 := by
  obtain ⟨outlined, houtlined, rfl⟩ := h
  change ∀ e ∈ outlined.enums, _
  rw [IsOutlinedAs] at houtlined
  split at houtlined
  · rw [houtlined.enums]
    exact head?_values_expandFields
  · rw [houtlined]
    simp [MessagePlan.outline]

/-- A type has no more fields than there are numbers. -/
theorem length_fields_le {files : List FileDecl} (hlinked : FilesLinked files) {type : MessageType}
    (htype : type ∈ (Pool.link files).messages) : type.fields.length ≤ 536870911 := by
  obtain ⟨file, hfile, htype⟩ := List.mem_flatMap.mp htype
  obtain ⟨d, hd, rfl⟩ := List.mem_map.mp htype
  have hfields := hlinked.messages file hfile d hd
  have hsubset : (d.decl.fields.map (·.number)).toFinset ⊆ Finset.Icc (1 : Int) 536870911 := by
    intro number hnumber
    obtain ⟨field, hfield, rfl⟩ := List.mem_map.mp (List.mem_toFinset.mp hnumber)
    have husable := hfields.usable field hfield
    rw [isFieldNumber, isNumberInRange, maxFieldNumber] at husable
    simp only [Bool.and_eq_true, decide_eq_true_eq] at husable
    rw [Finset.mem_Icc]
    omega
  have hcard := Finset.card_le_card hsubset
  rw [List.toFinset_card_of_nodup hfields.numbers, Int.card_Icc, List.length_map] at hcard
  have hsort : (linkMessage file d).fields.length = d.decl.fields.length :=
    (sortBy_perm _ _).length_eq.trans (List.length_map _)
  rw [hsort]
  omega

/-! ## Converters -/

namespace Converter

namespace IsBuilt

variable {c : Converter} {files : List FileDecl} {generate : List String} {settings : Settings}
  (hc : c.IsBuilt files generate settings)

include hc

/-- The name of a Plain type begins with no dot. -/
theorem dotted_plain {type : MessageType} (htype : type ∈ c.plain.messages) :
    dotted type.fullName = "." ++ type.fullName := by
  have hmem : type.fullName ∈ messageNames (c.plan.derive c.source.files) := by
    rw [messageNames_resolveFiles (Pool.resolveFiles_eq_ok hc.loadPlain)]
    rw [(Pool.load_eq_ok hc.loadPlain).1] at htype
    obtain ⟨file, hfile, htype⟩ := List.mem_flatMap.mp htype
    obtain ⟨d, hd, rfl⟩ := List.mem_map.mp htype
    exact PlainSchema.mem_messageNames.mpr ⟨file, hfile, d, hd, rfl⟩
  have hhead := hc.derivation.head?_messageNames hc.names hmem
  rw [dotted, if_neg (by simpa using hhead)]

/-- A message is moved to the type with the new name. -/
theorem moves_moved : ∀ name ∈ messageNames c.source.files, c.Moves name (c.plan.renames.moved name) := by
  intro name hname _
  have h := hc.derivation
  have hnamed : (FieldType.message name false).Declared c.source.files := hname
  obtain ⟨hdeclared, hmoved⟩ := h.declared_moved hnamed
  obtain ⟨file, hfile, d, hd, hfull⟩ := PlainSchema.mem_messageNames.mp hname
  have hhead : name.toList.head? ≠ some '.' := by
    rw [← hfull]
    exact head?_declaredMessages (hc.names.packages file hfile) file.messages
      (hc.names.simple.messages file hfile) d hd
  have hhead' := h.head?_messageNames hc.names hdeclared
  rw [dotted, if_neg (by simpa using hhead'), dotted, if_neg (by simpa using hhead)]
  exact (hmoved name rfl).1

/-- The Plain fields that serve a oneof as a whole stand in no oneof. -/
theorem oneof_of_role {mp : MessagePlan} (hmp : mp ∈ c.plan.messages) (hgenerate : mp.generate)
    {type' : MessageType} (htype' : requireType c.plain mp.newFullName = .ok type') {plan : FieldPlan}
    (hfield : plan ∈ mp.fields) (hrole : plan.origin.role.isSome) {target : Field}
    (htarget : type'.field? plan.shape.name = some target) : target.oneof = none := by
  obtain ⟨_, _, _, _, found, hg, hlinked, hfound⟩ := hc.exists_generatedType hmp hgenerate
  obtain rfl := Except.ok.inj (hfound.symm.trans htype')
  obtain ⟨source, -, hplan⟩ := exists_left_of_forall₂ hc.derivation.plans.messages hmp
  exact hg.oneof_of_alone hlinked hfield htarget ((hplan.roleNamed hfield).alone hrole)

section Mirrors

variable (hnames : c.plan.NamesTypes c.source.files generate)

include hnames

theorem moved_mirrors {type type' : MessageType} (htype : type ∈ c.source.messages)
    (hnone : (c.planFor? type.fullName .toPlain).isNone) (htype' : type' ∈ c.plain.messages)
    (hmoves : c.Moves type.fullName type'.fullName) {field target : Field} (hfield : field ∈ type.fields)
    (htarget : target ∈ type'.fields) (hnumber : target.number = field.number) :
    KeepsTypes c.source c.plain c.Moves field target := by
  have h := hc.derivation
  have hlinkMem : type ∈ (Pool.link c.source.files).messages := hc.source_eq ▸ htype
  obtain ⟨found, hfind, hmovesTo, hfields⟩ := h.exists_plainType hc.loadPlain hlinkMem
  have hdotted := hc.dotted_fullName htype
  have hfind' : c.plain.message? type'.fullName = some type' := by
    obtain ⟨hpool, hlinked⟩ := Pool.load_eq_ok hc.loadPlain
    rw [hpool] at htype' ⊢
    exact message?_fullName hlinked htype'
  -- There is one type with the new name.
  obtain rfl : found = type' := by
    have hmoved := hmoves hnone
    rw [hdotted, ← hmovesTo.dotted, hc.dotted_plain htype'] at hmoved
    rw [dot_append_injective hmoved] at hfind'
    exact Option.some.inj (hfind.symm.trans hfind')
  have hkept : ∀ mp, c.plan.message? ("." ++ type.fullName) = some mp → ¬ mp.generate := by
    intro mp hmp hgenerate
    have hsome : c.planFor? type.fullName .toPlain = some mp :=
      Option.filter_eq_some_iff.mpr ⟨by rw [hdotted]; exact hmp, hgenerate⟩
    rw [hsome] at hnone
    cases hnone
  obtain ⟨target', htarget', hto⟩ := hfields hkept field hfield
  obtain rfl := (hc.linkedPlain found htype').eq_of_number htarget' htarget
    (hto.number.trans hnumber.symm)
  have hmoved := h.movedInto_of_movesTo hc.loadPlain hnames.entries hto
  rw [hc.source_eq]
  exact hmoved.keepsTypes hc.moves_moved h.linked hnames.keyed hlinkMem hfield

/-- The planned fields of a Plain message fit the fields that they are read from. -/
theorem planned_mirrors (halike : c.plan.MergesAlike (Schema.ofPool c.source generate) settings)
    {mp : MessagePlan} (hmp : mp ∈ c.plan.messages) (hgenerate : mp.generate) {type type' : MessageType}
    (htype : requireType c.source mp.fullName = .ok type)
    (htype' : requireType c.plain mp.newFullName = .ok type') : c.MirrorsPlan mp type type' := by
  have h := hc.derivation
  obtain ⟨source, hsource, hplanned⟩ := exists_left_of_forall₂ h.plans.messages hmp
  obtain ⟨_, _, _, _, found, hg, hlinked, hfound⟩ := hc.exists_generatedType hmp hgenerate
  obtain rfl := Except.ok.inj (hfound.symm.trans htype')
  refine ⟨fun plan hplan hreversible path hpath leaf hleaf target htarget => ?_,
    fun entry hentry field hfield => ?_, fun oneof honeof => ?_,
    fun oneof honeof dispatch hdispatch field hfield n hn => ?_⟩
  · obtain ⟨context, owner, own, field, hserves, hreads⟩ :=
      hc.exists_serves hnames.entries halike hmp hgenerate htype hplan hreversible hpath hleaf
    refine ⟨fun hsingular => ?_, fun hcopies => ?_⟩
    · have hlabel := hg.label_target hlinked hplan htarget
      have hcardinality := hserves.single hsingular
      rw [Field.isSingular, hlabel]
      cases hcase : plan.shape.cardinality with
      | repeated => exact absurd hcase hcardinality
      | _ => rfl
    · have hmoved := hg.movedInto h hlinked hplan htarget hserves hreads hc.loadPlain hnames.entries
        hnames.apart hnames.references hmp hcopies
      rw [hc.source_eq]
      exact hmoved.keepsTypes hc.moves_moved h.linked hnames.keyed hserves.owner_mem hserves.leaf_mem
  · -- A companion serves a oneof as a whole.
    obtain ⟨companion, hcompanion, hname, -⟩ := hplanned.exists_companion hgenerate hentry
    refine hc.oneof_of_role hmp hgenerate htype' hcompanion ?_ (hname.symm ▸ hfield)
    rw [hplanned.role_of_companionName hgenerate hentry hcompanion hname]
    rfl
  · obtain ⟨index, oneof', -, -, hplans⟩ := hplanned.exists_plansOneof hgenerate honeof
    obtain ⟨viewed, hviews⟩ := exists_viewsType hsource
    have hle := length_fields_le h.linked hviews.mem
    have hlength : (source.oneofFields index).length ≤ viewed.fields.length := by
      have hfields := congrArg List.length hviews.fields
      rw [List.length_map] at hfields
      rw [← hfields]
      exact List.length_filter_le _ _
    rw [hplans.members, SourceMessage.oneofMembers, List.length_map]
    omega
  · -- The tag is of an enum that begins with zero.
    obtain ⟨plan, hplan, hname, hrole⟩ := hplanned.exists_dispatchTag hgenerate honeof hdispatch
    have hshaped := hplanned.roleShaped hplan
    obtain ⟨hkind, e, he, href, hfullName⟩ := hshaped.dispatchTag _ hrole
    have hmap : ¬ plan.shape.isMap := by
      rw [hshaped.isMap (by rw [hrole]; rfl)]
      exact Bool.false_ne_true
    obtain ⟨name, htarget, hdecl⟩ := hg.target_of_enum hlinked hplan (hname.symm ▸ hfield) hkind hmap he href
      hfullName (hnames.enums mp hmp e he)
    obtain ⟨hpool, hplainLinked⟩ := Pool.load_eq_ok hc.loadPlain
    rw [enumDecls_resolveFiles (Pool.resolveFiles_eq_ok hc.loadPlain)] at hdecl
    have henum := enum?_link hplainLinked hdecl
    have hzero : EnumType.default { fullName := name, values := e.declare.values } = 0 := by
      change ((e.values.head?.map (·.2)).getD 0) = 0
      rw [hplanned.head?_values e he]
      rfl
    rw [← hpool] at henum
    rw [Pool.default] at hn
    split at hn
    · split at hn <;> cases hn
    · rw [htarget, Pool.defaultOf, henum, Option.map_some, Option.getD_some, hzero] at hn
      exact (Option.some.inj hn).symm

/-- **The schemas mirror each other**, if every reference keeps its meaning and if what is merged is
carried in one way. -/
theorem mirrors (halike : c.plan.MergesAlike (Schema.ofPool c.source generate) settings) :
    c.Mirrors := by
  refine ⟨fun mp hmp hgenerate type htype type' htype' => ?_,
    fun type htype hnone type' htype' hmoves field hfield target htarget hnumber => ?_⟩
  · exact hc.planned_mirrors hnames halike hmp hgenerate (eq_ok_of_toOption htype)
      (eq_ok_of_toOption htype')
  · exact hc.moved_mirrors hnames htype hnone htype' hmoves hfield htarget hnumber

end Mirrors

end IsBuilt

end Converter

end PlainSchema
