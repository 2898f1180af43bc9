import PlainSchema.Proofs.Derive.PlainFields
import PlainSchema.Proofs.Plan.Alike

/-!
# The Plain fields of planned fields

A generated message has a Plain type, `GeneratedType`, with a Plain field for each planned one.  The
declared kind and reference of the Plain field say what its type is, as long as the reference names a
type of the derived files, `GeneratedType.target_of_declared`.  That gives the type of

```text
a scalar shape    the scalar itself: GeneratedType.target_of_isScalar
a dispatch tag    an enum of the plan that keeps its name: GeneratedType.target_of_enum
a copied field    **the one that the type of the source field moved to**:
                  GeneratedType.movedInto_of_copied
```

A merged field serves more source fields than the one that its plan was made for,
`FieldPlan.ServesField`.
-/

namespace PlainSchema

open Proto

/-- A generated message with the Plain type that the derived files declare for it. -/
structure GeneratedType (files : List FileDecl) (plan : SchemaPlan) (plain : Pool)
    (mp : MessagePlan) (file : FileDecl) (scope : String) (m : MessageDecl) (d : DeclaredMessage)
    (type : MessageType) : Prop where
  file_mem : file ∈ files
  declares : Declares file scope m
  planned : plan.message? (inScope scope m.name) = some mp
  generated : mp.generate
  declared : ∃ file' ∈ plan.derive files, d ∈ file'.declared
  decl : d.decl = plainMessage plan file.dialect (fileEntries plan.renames files) scope m
  fullName : "." ++ d.fullName = mp.newFullName
  fullName_ne : d.fullName ≠ ""
  found : plain.message? d.fullName = some type
  links : d.LinksAs (plan.derive files) file.dialect type

namespace Derivation

variable {files : List FileDecl} {generate : List String} {settings : Settings}
  {plan : SchemaPlan} {plain : Pool} {mp : MessagePlan}

theorem exists_generatedType (h : Derivation files generate settings plan)
    (hplain : Pool.load (plan.derive files) = .ok plain) (hmp : mp ∈ plan.messages)
    (hgenerate : mp.generate) :
    ∃ file scope m d type, GeneratedType files plan plain mp file scope m d type := by
  obtain ⟨i, file, positions, scope, m, -, hi, hat, hfound, -⟩ := h.exists_place_of_plan hmp
  have hfile := List.mem_of_getElem? hi
  have hdeclares : Declares file scope m :=
    declares_of_messageAt? (h.simple.messages file hfile) (fun _ => declares_top) hat
  obtain ⟨d, hd, hm, hfull⟩ := hdeclares
  obtain ⟨file', hfile', d', hd', hcounterpart, type, htype, hlinks, -⟩ :=
    h.exists_linksAs_counterpart hplain hfile hd
  obtain ⟨scope', hfull', hdecl⟩ := hcounterpart.decl
  rw [hm] at hfull' hdecl
  obtain rfl : scope' = scope := inScope_left_injective m.name (hfull'.symm.trans hfull)
  obtain ⟨found, -, hsame, hnew, -⟩ := h.rename_message hfile ⟨d, hd, hm, hfull⟩
  obtain rfl := Option.some.inj (hfound.symm.trans hsame)
  refine ⟨file, scope', m, d', type, hfile, ⟨d, hd, hm, hfull⟩, hfound, hgenerate, ⟨file', hfile', hd'⟩,
    hdecl, ?_, ?_, htype, hlinks⟩
  · rw [hcounterpart.fullName, hfull, hnew]
  · have hnew := h.rename_plainMessage hfile ⟨d, hd, hm, hfull⟩ (fileEntries plan.renames files)
    rw [← hfull, ← hcounterpart.fullName] at hnew
    exact ne_empty_of_dot_eq hnew.symm (h.plainMessage_name_ne hfile ⟨d, hd, hm, hfull⟩ _)

end Derivation

namespace GeneratedType

variable {files : List FileDecl} {generate : List String} {settings : Settings}
  {plan : SchemaPlan} {plain : Pool} {mp : MessagePlan} {file : FileDecl} {scope : String}
  {m : MessageDecl} {d : DeclaredMessage} {type : MessageType} {fp : FieldPlan} {target : Field}
  (hg : GeneratedType files plan plain mp file scope m d type)
include hg

/-- A planned field is declared, and linked as it is declared if its reference is resolved. -/
theorem exists_target (hlinked : type.Linked) (hfp : fp ∈ mp.fields) :
    ∃ decl target, DeclaredAs plan.renames file.dialect (fileEntries plan.renames files)
        mp.newFullName fp decl ∧
      type.field? fp.shape.name = some target ∧ target.label = fp.shape.cardinality.label ∧
      target.oneof = decl.oneofIndex.map Int.toNat ∧
      (RefersTo (plan.derive files) decl → target = linkField file.dialect d.fullName decl) := by
  obtain ⟨decl, hdecl, hdeclared⟩ := exists_right_of_forall₂ (fields_plainMessage plan file.dialect
    (fileEntries plan.renames files) hg.planned hg.generated) hfp
  rw [← hg.decl] at hdecl
  have hname : decl.name = fp.shape.name := by
    rw [hdeclared.1]
    rfl
  obtain ⟨target, htarget, hsame, hlabel, honeof⟩ := hg.links.names decl hdecl
  have hfind : type.field? fp.shape.name = some target := by
    rw [← hname, ← hsame]
    exact hlinked.field?_name htarget
  have htargetLabel : target.label = fp.shape.cardinality.label := by
    rw [hlabel, hdeclared.1]
    rfl
  refine ⟨decl, target, hdeclared, hfind, htargetLabel, honeof, fun hrefers => ?_⟩
  have hfield := hlinked.field?_name (hg.links.fields decl hdecl hrefers)
  rw [show (linkField file.dialect d.fullName decl).name = fp.shape.name from hname, hfind] at hfield
  exact Option.some.inj hfield

/-- The cardinality of a planned field gives the label of its Plain field. -/
theorem label_target (hlinked : type.Linked) (hfp : fp ∈ mp.fields)
    (htarget : type.field? fp.shape.name = some target) :
    target.label = fp.shape.cardinality.label := by
  obtain ⟨_, target', -, htarget', hlabel, -⟩ := hg.exists_target hlinked hfp
  obtain rfl := Option.some.inj (htarget'.symm.trans htarget)
  exact hlabel

/-- The declared kind and reference give the type of a Plain field. -/
theorem target_of_declared (hlinked : type.Linked) (hfp : fp ∈ mp.fields)
    (htarget : type.field? fp.shape.name = some target) {expected : FieldType}
    (hexpected : expected.Declared (plan.derive files)) (hkind : fp.shape.kind = expected.kind)
    (href : ∀ name, expected.typeName? = some name →
      (fp.shape.declaredRef (fileEntries plan.renames files) mp.newFullName).map plan.renames.rename
        = some ("." ++ name))
    (hnone : expected.typeName? = none →
      fp.shape.declaredRef (fileEntries plan.renames files) mp.newFullName = none) :
    target.type = expected := by
  obtain ⟨decl, target', hdeclared, htarget', -, -, hlink⟩ := hg.exists_target hlinked hfp
  obtain rfl := Option.some.inj (htarget'.symm.trans htarget)
  have hnames : decl.Names expected := by
    rw [hdeclared.1]
    refine ⟨hkind, href, fun hempty => ?_⟩
    change (Option.map plan.renames.rename _).all _ = true
    rw [hnone hempty]
    rfl
  rw [hlink (refersTo_iff.mpr ⟨expected, hexpected, hnames⟩)]
  exact hnames.type

theorem target_of_isScalar (hlinked : type.Linked) (hfp : fp ∈ mp.fields)
    (htarget : type.field? fp.shape.name = some target) {scalar : Scalar}
    (hshape : fp.shape.IsScalar scalar) (hmap : ¬ fp.shape.isMap) :
    target.type = .scalar scalar := by
  refine hg.target_of_declared hlinked hfp htarget trivial hshape.kind nofun fun _ => ?_
  rw [FieldShape.declaredRef, if_neg hmap, hshape.typeRef]

/-- A field that is planned in no oneof stands in none. -/
theorem oneof_of_alone (hlinked : type.Linked) (hfp : fp ∈ mp.fields)
    (htarget : type.field? fp.shape.name = some target)
    (halone : fp.shape.oneofIndex = none ∧ fp.shape.proto3Optional = false) : target.oneof = none := by
  obtain ⟨decl, target', hdeclared, htarget', -, honeof, -⟩ := hg.exists_target hlinked hfp
  obtain rfl := Option.some.inj (htarget'.symm.trans htarget)
  have hoptional : ¬ (fp.shape.declare file.dialect).proto3Optional := by
    simp [FieldShape.declare, halone.2]
  rw [honeof, hdeclared.2 hoptional, halone.1]
  rfl

/-- A dispatch tag is of an enum of the Plain message. -/
theorem target_of_enum (hlinked : type.Linked) (hfp : fp ∈ mp.fields)
    (htarget : type.field? fp.shape.name = some target) (hkind : fp.shape.kind = .enum)
    (hmap : ¬ fp.shape.isMap) {e : GeneratedEnum} (he : e ∈ mp.enums)
    (href : fp.shape.typeRef = some (plan.renames.rename e.fullName))
    (hname : e.fullName = inScope mp.newFullName e.name)
    (hkeeps : plan.renames.rename e.fullName = e.fullName) :
    ∃ name, target.type = .enum name ∧
      (name, e.declare) ∈ (plan.derive files).flatMap (·.enumDecls) := by
  have hfull : "." ++ qualify d.fullName e.name = e.fullName := by
    rw [hname, ← hg.fullName, dot_qualify, packageScope_of_ne hg.fullName_ne]
  have hdecl : (qualify d.fullName e.name, e.declare) ∈ (plan.derive files).flatMap (·.enumDecls) := by
    obtain ⟨file', hfile', hd⟩ := hg.declared
    refine mem_enumDecls.mpr (Or.inl ⟨file', hfile', d, hd, ?_, rfl⟩)
    rw [hg.decl, plainMessage_generated plan file.dialect _ hg.planned hg.generated, retargetMessage_eq]
    exact List.mem_append_right _ (List.mem_map_of_mem he)
  have hdeclared : (FieldType.enum (qualify d.fullName e.name)).Declared (plan.derive files) :=
    mem_enumNames_iff_mem_enumDecls.mpr ⟨_, hdecl⟩
  refine ⟨_, hg.target_of_declared hlinked hfp htarget hdeclared hkind (fun name hname => ?_) nofun, hdecl⟩
  obtain rfl := Option.some.inj hname
  rw [FieldShape.declaredRef, if_neg hmap, href, Option.map_some, hkeeps, hkeeps, hfull]

end GeneratedType

/-! ## Entries of maps -/

/-- The fields of an entry that a Plain message holds refer to types of the derived files. -/
theorem Derivation.refersTo_of_mem_claimants {files : List FileDecl} {generate : List String}
    {settings : Settings} {plan : SchemaPlan} (h : Derivation files generate settings plan)
    (hentries : (Schema.ofPool (Pool.link files) generate).EntriesOfMaps) {file : FileDecl}
    (hfile : file ∈ files) {scope : String} {m : MessageDecl} (hm : Declares file scope m)
    {mp : MessagePlan} {first : MessageDecl}
    (hfirst : first ∈ plan.claimants files file.dialect mp (inScope scope m.name) m)
    (hentry : first.isMapEntry) : ∀ field ∈ first.fields, RefersTo (plan.derive files) field := by
  have hall : ∀ {other : FileDecl} {s : String} {entry : MessageDecl}, other ∈ files →
      Declares other s entry → ∀ field ∈ entry.fields.map plan.renames.retargetField,
      RefersTo (plan.derive files) field := by
    rintro other s _ hother ⟨d, hd, rfl, -⟩ _ hfield
    obtain ⟨decl, hdecl, rfl⟩ := List.mem_map.mp hfield
    exact (h.names_retargetField ((h.linked.messages other hother d hd).references decl hdecl)).1
  rcases List.mem_append.mp hfirst with hnested | hbrought
  · obtain ⟨n, hn, rfl⟩ := List.mem_map.mp hnested
    have hname : m.name ≠ "" := by
      obtain ⟨d, hd, rfl, -⟩ := hm
      exact (h.simple.messages file hfile d hd).1
    have hdeclares := hm.nested hname hn
    rw [h.isMapEntry_plainMessage hfile hdeclares] at hentry
    rw [h.fields_kept hfile hdeclares]
    · exact hall hfile hdeclares
    · obtain ⟨d, hd, rfl, hfull⟩ := hdeclares
      intro mp hmp
      rw [← hfull] at hmp
      have hmem : linkMessage file d ∈ (Pool.link files).messages :=
        List.mem_flatMap.mpr ⟨file, hfile, List.mem_map_of_mem hd⟩
      exact h.not_generate_of_isMapEntry hentries hmem hentry hmp
  · obtain ⟨entry, hfound, rfl⟩ := List.mem_map.mp hbrought
    obtain ⟨fp, -, hbrought⟩ := List.mem_filterMap.mp hfound
    rw [FieldShape.brought?] at hbrought
    split at hbrought
    · obtain ⟨source, hsource, rfl⟩ := Option.map_eq_some_iff.mp hbrought
      obtain ⟨-, other, hother, s, hdeclares, -⟩ := h.declares_of_entryNamed? hsource
      rw [retargetMessage_eq]
      exact fun field hfield => hall hother hdeclares field hfield
    · cases hbrought

/-- The field of an entry with a number, as it is declared and as it is linked. -/
theorem exists_entryField {files : List FileDecl} {file : FileDecl} {d : DeclaredMessage}
    (hfields : FieldsLinked files d) {number : Nat} (hpos : 0 < number) {field : Field}
    (hfield : (linkMessage file d).fieldByNumber? number = some field) :
    ∃ decl ∈ d.decl.fields, d.decl.fields.find? (·.number == (number : Int)) = some decl ∧
      field = linkField file.dialect d.fullName decl := by
  obtain ⟨hmem, hnumber⟩ := MessageType.fieldByNumber?_mem hfield
  obtain ⟨decl, hdecl, rfl⟩ := List.mem_map.mp (mem_sortBy.mp hmem)
  have hsame : decl.number = (number : Int) := by
    change decl.number.toNat = number at hnumber
    omega
  refine ⟨decl, hdecl, ?_, rfl⟩
  rw [← hsame]
  exact find?_eq_some_of_nodup hfields.numbers hdecl

/-- An entry with the types of another one, whose references were renamed: its key has the same kind,
and its value the type that the value of the other one moved to. -/
theorem Derivation.exists_entryFields {files : List FileDecl} {generate : List String}
    {settings : Settings} {plan : SchemaPlan} (h : Derivation files generate settings plan)
    {file : FileDecl} (hfile : file ∈ files) {entry : DeclaredMessage} (hd : entry ∈ file.declared)
    {first : DeclaredMessage} {dialect : Dialect} {type : MessageType} (hlinked : type.Linked)
    (hlinks : first.LinksAs (plan.derive files) dialect type)
    (hrefers : ∀ field ∈ first.decl.fields, RefersTo (plan.derive files) field)
    (htypes : first.decl.entryTypes = entry.decl.entryTypes.retarget plan.renames) {key val : Field}
    (hkey : (linkMessage file entry).fieldByNumber? 1 = some key)
    (hval : (linkMessage file entry).fieldByNumber? 2 = some val) :
    ∃ key' val', type.fieldByNumber? 1 = some key' ∧ type.fieldByNumber? 2 = some val' ∧
      key'.type.kind = key.type.kind ∧ val'.type = val.type.moved plan.renames := by
  have hfields := h.linked.messages file hfile entry hd
  obtain ⟨keyDecl, hkeyDecl, hfindKey, rfl⟩ := exists_entryField hfields (by omega) hkey
  obtain ⟨valDecl, hvalDecl, hfindVal, rfl⟩ := exists_entryField hfields (by omega) hval
  have hsameKey := congrArg EntryTypes.key htypes
  have hsameVal := congrArg EntryTypes.value htypes
  have hsameType := congrArg EntryTypes.valueType htypes
  simp only [EntryTypes.retarget, MessageDecl.entryTypes] at hsameKey hsameVal hsameType
  rw [show entry.decl.fields.find? (·.number == 1) = some keyDecl from hfindKey] at hsameKey
  rw [show entry.decl.fields.find? (·.number == 2) = some valDecl from hfindVal] at hsameVal hsameType
  have hlinkedField : ∀ {number : Nat} {decl : FieldDecl}, decl ∈ first.decl.fields →
      decl.number = number → type.fieldByNumber? number = some (linkField dialect first.fullName decl) := by
    intro number decl hdecl hnumber
    have hfield := hlinked.fieldByNumber?_number (hlinks.fields decl hdecl (hrefers decl hdecl))
    rwa [show (linkField dialect first.fullName decl).number = number by
      change decl.number.toNat = number
      omega] at hfield
  obtain ⟨keyDecl', hfindKey', hkind⟩ := Option.map_eq_some_iff.mp hsameKey
  obtain ⟨valDecl', hfindVal', hkindVal⟩ := Option.map_eq_some_iff.mp hsameVal
  rw [hfindVal'] at hsameType
  refine ⟨_, _, hlinkedField (List.mem_of_find?_eq_some hfindKey')
    (by simpa using List.find?_some hfindKey'),
    hlinkedField (List.mem_of_find?_eq_some hfindVal') (by simpa using List.find?_some hfindVal'), ?_, ?_⟩
  · change keyDecl'.type.kind = keyDecl.type.kind
    rw [kind_type, kind_type, hkind]
  · have hmoved := (h.names_retargetField (hfields.references valDecl hvalDecl)).2
    change valDecl'.type = valDecl.type.moved plan.renames
    rw [← hmoved, FieldDecl.type, FieldDecl.type, hkindVal]
    rw [show valDecl'.typeRef = valDecl.typeRef.map plan.renames.rename from hsameType]
    rfl

/-! ## Copied fields -/

/-- A planned field stands for a field of a source type. -/
structure FieldPlan.ReadsField (files : List FileDecl) (generate : List String) (renames : Renames)
    (context : String) (fp : FieldPlan) (owner : MessageType) (leaf : Field) : Prop where
  owner_mem : owner ∈ (Pool.link files).messages
  leaf_mem : leaf ∈ owner.fields
  stands : fp.StandsFor (PlanContext.ofFile (Schema.ofPool (Pool.link files) generate) context)
    renames.rename
    (SourceMessage.ofType (Pool.link files) (OptionExtensions.ofPool (Pool.link files)) owner)
    (SourceField.ofField (Pool.link files) (OptionExtensions.ofPool (Pool.link files)) leaf)

namespace FieldPlan.ReadsField

variable {files : List FileDecl} {generate : List String} {renames : Renames} {context : String}
  {fp : FieldPlan} {owner : MessageType} {leaf : Field}
  (hreads : fp.ReadsField files generate renames context owner leaf)
include hreads

theorem owner_view_mem :
    SourceMessage.ofType (Pool.link files) (OptionExtensions.ofPool (Pool.link files)) owner
      ∈ (Schema.ofPool (Pool.link files) generate).messages :=
  List.mem_map_of_mem hreads.owner_mem

theorem leaf_view_mem :
    SourceField.ofField (Pool.link files) (OptionExtensions.ofPool (Pool.link files)) leaf
      ∈ (SourceMessage.ofType (Pool.link files) (OptionExtensions.ofPool (Pool.link files))
        owner).fields :=
  List.mem_map_of_mem hreads.leaf_mem

theorem isMap_eq : fp.shape.isMap = (Pool.link files).isMap leaf :=
  hreads.stands.isMap

/-- A list makes a list, if the source field can hold it. -/
theorem cardinality_eq (hfiles : FilesLinked files)
    (hlist : fp.KeepsList (Schema.ofPool (Pool.link files) generate)) (hlabel : leaf.label = .repeated)
    (hpresence : ¬ leaf.tracksPresence) : fp.shape.cardinality = .repeated := by
  refine hlist _ hreads.owner_view_mem _ hreads.leaf_view_mem hreads.stands.source ?_ ?_
  · simp [SourceField.isRepeated, SourceField.ofField, Field.cardinality, hlabel]
  · cases honeof : leaf.oneof with
    | none => exact honeof
    | some index =>
      have hlinked := types_linked hfiles owner hreads.owner_mem
      exact absurd (hlinked.presence leaf hreads.leaf_mem (by rw [honeof]; rfl)) hpresence

/-- A plan for one value is not made for a list. -/
theorem cardinality_ne (hsingular : leaf.isSingular) : fp.shape.cardinality ≠ .repeated := by
  have hlabel : leaf.label ≠ .repeated := by simpa [Field.isSingular] using hsingular
  have hleaf : leaf.cardinality ≠ .repeated := by
    rw [Field.cardinality]
    split
    · next hrepeated => exact absurd hrepeated hlabel
    · exact nofun
    · dsimp only
      split <;> exact nofun
  rcases hreads.stands.cardinality with hsame | hoptional
  · rw [hsame]
    exact hleaf
  · rw [hoptional]
    exact nofun

end FieldPlan.ReadsField

/-- A planned field carries what a source field holds in the way that the source field asks for. -/
structure FieldPlan.ServesField (files : List FileDecl) (generate : List String) (renames : Renames)
    (context : String) (fp : FieldPlan) (owner : MessageType) (leaf : Field) : Prop where
  owner_mem : owner ∈ (Pool.link files).messages
  leaf_mem : leaf ∈ owner.fields
  carries : fp.Carries (PlanContext.ofFile (Schema.ofPool (Pool.link files) generate) context)
    renames.rename
    (SourceField.ofField (Pool.link files) (OptionExtensions.ofPool (Pool.link files)) leaf)
  isMap : fp.shape.isMap = (Pool.link files).isMap leaf
  list : leaf.label = .repeated → ¬ leaf.tracksPresence → fp.shape.cardinality = .repeated
  single : leaf.isSingular → fp.shape.cardinality ≠ .repeated

section Serving

variable {files : List FileDecl} {generate : List String} {renames : Renames} {context : String}
  {fp other : FieldPlan} {owner : MessageType} {leaf : Field}

theorem FieldPlan.ReadsField.serves
    (hreads : fp.ReadsField files generate renames context owner leaf) (hfiles : FilesLinked files)
    (hlist : fp.KeepsList (Schema.ofPool (Pool.link files) generate)) :
    fp.ServesField files generate renames context owner leaf where
  owner_mem := hreads.owner_mem
  leaf_mem := hreads.leaf_mem
  carries := hreads.stands.carries
  isMap := hreads.isMap_eq
  list := hreads.cardinality_eq hfiles hlist
  single := hreads.cardinality_ne

/-- A plan that carries values like another one serves the same source fields. -/
theorem FieldPlan.ServesField.of_alike
    (h : other.ServesField files generate renames context owner leaf) (halike : fp.CarriesLike other) :
    fp.ServesField files generate renames context owner leaf where
  owner_mem := h.owner_mem
  leaf_mem := h.leaf_mem
  carries := halike.carries h.carries
  isMap := halike.isMap.trans h.isMap
  list hlabel hpresence := halike.repeated.mpr (h.list hlabel hpresence)
  single hsingular hrepeated := h.single hsingular (halike.repeated.mp hrepeated)

/-- The kind of a declared type and the new name of what it names give the type. -/
theorem Derivation.eq_of_kind {settings : Settings} {plan : SchemaPlan} {plain : Pool}
    (h : Derivation files generate settings plan)
    (hplain : Pool.load (plan.derive files) = .ok plain) {type type' : FieldType}
    (htype : type.Declared files) (htype' : type'.Declared files) (hkind : type.kind = type'.kind)
    (href : (type.typeName?.map ("." ++ ·)).map plan.renames.rename
      = (type'.typeName?.map ("." ++ ·)).map plan.renames.rename) : type = type' := by
  have hinjective : ∀ {name name' : String}, name ∈ messageNames files ++ enumNames files →
      name' ∈ messageNames files ++ enumNames files →
      plan.renames.rename ("." ++ name) = plan.renames.rename ("." ++ name') → name = name' :=
    fun hname hname' heq => h.rename_injective (Pool.symbols_nodup hplain)
      ((typeNames_perm files).mem_iff.mp hname) ((typeNames_perm files).mem_iff.mp hname') heq
  cases type with
  | scalar scalar => exact (FieldType.eq_scalar_of_kind hkind.symm).symm
  | message name group =>
    cases type' with
    | message name' group' =>
      obtain rfl := hinjective (List.mem_append_left _ htype) (List.mem_append_left _ htype')
        (Option.some.inj href)
      cases group <;> cases group' <;> first | rfl | exact absurd hkind nofun
    | _ => cases group <;> exact absurd hkind nofun
  | enum name =>
    cases type' with
    | enum name' =>
      rw [hinjective (List.mem_append_right _ htype) (List.mem_append_right _ htype')
        (Option.some.inj href)]
    | message name' group' => cases group' <;> exact absurd hkind nofun
    | scalar scalar => exact absurd hkind nofun

/-- Which field of a type the values come from makes no difference to what they move into. -/
theorem MovedInto.of_type {source plain : Pool} {leaf leaf' target : Field}
    (h : MovedInto source plain renames leaf target) (htype : leaf'.type = leaf.type)
    (hmap : source.isMap leaf' = source.isMap leaf) :
    MovedInto source plain renames leaf' target := by
  refine ⟨fun hnot => ?_, fun key val hentry => ?_⟩
  · rw [htype]
    exact h.single (hmap ▸ hnot)
  · obtain ⟨hlabel, entry, hof, hisEntry, hkey, hval⟩ := Pool.entryFields?_eq_some_iff.mp hentry
    have hleaf := Pool.isMap_iff.mp (hmap ▸ Pool.isMap_iff.mpr ⟨hlabel, entry, hof, hisEntry⟩)
    rw [Pool.messageTypeOf?, htype] at hof
    exact h.map key val (Pool.entryFields?_eq_some_iff.mpr ⟨hleaf.1, entry, hof, hisEntry, hkey, hval⟩)

end Serving

namespace GeneratedType

variable {files : List FileDecl} {generate : List String} {settings : Settings}
  {plan : SchemaPlan} {plain : Pool} {mp : MessagePlan} {file : FileDecl} {scope : String}
  {m : MessageDecl} {d : DeclaredMessage} {type : MessageType} {fp : FieldPlan} {target : Field}
  {context : String} {owner : MessageType} {leaf : Field}
  (hg : GeneratedType files plan plain mp file scope m d type)
  (h : Derivation files generate settings plan) (hlinked : type.Linked)
  (hfp : fp ∈ mp.fields) (htarget : type.field? fp.shape.name = some target)
  (hreads : fp.ReadsField files generate plan.renames context owner leaf)
  (hkind : fp.shape.kind = leaf.type.kind)
  (href : fp.shape.typeRef
    = (leaf.type.typeName?.map ("." ++ ·)).map plan.renames.rename)
include hg h hlinked hfp htarget hreads hkind href

omit hlinked htarget hkind in
/-- The reference of a copied field is one that the plan carries. -/
theorem plansReference {name : String} (hname : leaf.type.typeName? = some name) :
    ∃ expected, PlansReference files generate plan mp fp ("." ++ name) expected ∧
      (¬ fp.shape.isMap → expected = plan.renames.rename ("." ++ name)) := by
  refine ⟨_, ⟨hg.generated, hfp, ⟨_, _, _, hreads.stands.source,
    h.schema_message? hreads.owner_view_mem,
    h.schema_field? hreads.owner_view_mem hreads.leaf_view_mem, ?_⟩, ?_, rfl⟩, fun hmap => ?_⟩
  · change leaf.type.typeName?.map ("." ++ ·) = _
    rw [hname, Option.map_some]
  · rw [href, hname]
    rfl
  · exact if_neg fun hand => hmap hand.1

/-- A copied field that holds no map has the type that the type of the source field moved to. -/
theorem target_of_copied (hkeeps : KeepsPlannedReferences files generate plan)
    (hmp : mp ∈ plan.messages) (hmap : ¬ fp.shape.isMap) :
    target.type = leaf.type.moved plan.renames := by
  obtain ⟨hdeclared, hmoved⟩ := h.declared_moved (declared_of_mem h.linked hreads.owner_mem hreads.leaf_mem)
  refine hg.target_of_declared hlinked hfp htarget hdeclared (by rw [hkind, FieldType.kind_moved])
    (fun name' hname' => ?_) fun hnone => ?_
  · cases hname : leaf.type.typeName? with
    | none => cases htype : leaf.type <;> simp [htype, FieldType.typeName?, FieldType.moved] at hname hname'
    | some name =>
      obtain ⟨expected, hplans, hexpected⟩ :=
        hg.plansReference h hfp hreads href hname
      have hsettled := hkeeps mp hmp fp _ _ hplans
      obtain ⟨hrename, htypeName⟩ := hmoved name hname
      rw [htypeName] at hname'
      rw [← Option.some.inj hname', hrename, FieldShape.declaredRef, if_neg hmap, href, hname,
        Option.map_some, Option.map_some, Option.map_some, ← hexpected hmap, hsettled]
  · have hname : leaf.type.typeName? = none := by
      cases htype : leaf.type <;> simp [htype, FieldType.typeName?, FieldType.moved] at hnone ⊢
    rw [FieldShape.declaredRef, if_neg hmap, href, hname]
    rfl

omit hlinked htarget hkind in
/-- The entry of a copied map field is planned. -/
theorem plansMap {source : FileDecl} (hsource : source ∈ files) {entry : DeclaredMessage}
    (hentry : entry ∈ source.declared) (hisEntry : entry.decl.isMapEntry) (hmap : fp.shape.isMap)
    (hname : leaf.type.typeName? = some entry.fullName) :
    ∃ old expected, PlansMap files generate plan mp fp old expected entry.decl := by
  obtain ⟨expected, hreference, -⟩ := hg.plansReference h hfp hreads href hname
  obtain ⟨positions, s, -, -, hfull⟩ := exists_messageAt?_declaredMessages rfl source.messages
    (h.simple.messages source hsource) entry hentry
  exact ⟨_, expected, hreference, hmap, hisEntry, source, hsource, s, ⟨entry, hentry, rfl, hfull⟩, hfull⟩

omit hreads href in
/-- A copied field that holds a map refers to the entry in its Plain message. -/
theorem target_of_plansMap (hplain : Pool.load (plan.derive files) = .ok plain)
    (hentries : (Schema.ofPool (Pool.link files) generate).EntriesOfMaps)
    (hapart : MapEntriesApart files generate plan) {old expected : String} {entry : MessageDecl}
    (hplans : PlansMap files generate plan mp fp old expected entry) {name : String} {group : Bool}
    (htype : leaf.type = .message name group) :
    ∃ (first : DeclaredMessage) (dialect : Dialect) (found : MessageType),
      plain.messageTypeOf? target = some found ∧ first.LinksAs (plan.derive files) dialect found ∧ first.decl.isMapEntry ∧
      first.decl.entryTypes = entry.entryTypes.retarget plan.renames ∧
      ∀ field ∈ first.decl.fields, RefersTo (plan.derive files) field := by
  obtain ⟨hsettled, first, hfirst, hisEntry, htypes⟩ :=
    hapart file hg.file_mem scope m hg.declares mp hg.planned fp old expected _ hplans
  have hrefers := h.refersTo_of_mem_claimants hentries hg.file_mem hg.declares
    (List.mem_of_find?_eq_some hfirst) hisEntry
  have hplaced := (find?_plainMessage plan files file.dialect hg.planned hg.generated hisEntry).mpr hfirst
  rw [← hg.decl] at hplaced
  obtain ⟨file', hfile', hd⟩ := hg.declared
  have hnested := nested_mem_declaredMessages file'.messages d hd first
    (List.mem_of_find?_eq_some hplaced)
  obtain ⟨found, hfound, hlinks⟩ := exists_linksAs hplain hfile' hnested
  obtain ⟨sm, hderives⟩ := h.derivesMessage_of_declares hg.file_mem hg.declares hg.planned hg.generated
  have hplaceRef := h.declaredRef_of_plansReference hderives.source
    (h.isPlanOf_of_derivesMessage hderives) hplans.reference
  have hplaceName : expected = "." ++ qualify d.fullName first.name := by
    have hname : first.name = entryName fp.shape.name := by simpa using List.find?_some hplaced
    rw [h.expected_of_plansMap hplans, ← hg.fullName, dot_qualify, packageScope_of_ne hg.fullName_ne, hname]
  have hmem : qualify d.fullName first.name ∈ messageNames (plan.derive files) :=
    mem_messageNames.mpr ⟨file', hfile', _, hnested, rfl⟩
  have htargetType := hg.target_of_declared hlinked hfp htarget
    (show (FieldType.message (qualify d.fullName first.name) group).Declared (plan.derive files) from hmem)
    (by rw [hkind, htype]; cases group <;> rfl)
    (fun name hname => by
      rw [hplaceRef, Option.map_some, hsettled, hplaceName, ← Option.some.inj hname]) nofun
  refine ⟨_, _, found, ?_, hlinks, hisEntry, htypes, hrefers⟩
  rw [Pool.messageTypeOf?, htargetType]
  exact hfound

/-- A copied field that holds a map has entries with the types that those of the source field moved
to. -/
theorem map_of_copied (hplain : Pool.load (plan.derive files) = .ok plain)
    (hentries : (Schema.ofPool (Pool.link files) generate).EntriesOfMaps)
    (hapart : MapEntriesApart files generate plan) (hrepeated : target.label = .repeated)
    {key val : Field} (hentry : (Pool.link files).entryFields? leaf = some (key, val)) :
    ∃ key' val', plain.entryFields? target = some (key', val') ∧ key'.type.kind = key.type.kind ∧
      val'.type = val.type.moved plan.renames := by
  obtain ⟨hlabel, entry, hof, hisEntry, hkey, hval⟩ := Pool.entryFields?_eq_some_iff.mp hentry
  have hmap : fp.shape.isMap := by
    rw [hreads.isMap_eq]
    exact Pool.isMap_iff.mpr ⟨hlabel, entry, hof, hisEntry⟩
  obtain ⟨hmem, -, group, htype⟩ := Pool.exists_of_messageTypeOf? hof
  obtain ⟨source, hsource, hmem⟩ := List.mem_flatMap.mp hmem
  obtain ⟨declared, hdeclared, rfl⟩ := List.mem_map.mp hmem
  obtain ⟨old, expected, hplans⟩ := hg.plansMap h hfp hreads href hsource hdeclared hisEntry hmap
    (by rw [htype]; rfl)
  obtain ⟨first, dialect, found, hfound, hlinks, hfirst, htypes, hrefers⟩ :=
    hg.target_of_plansMap h hlinked hfp htarget hkind hplain hentries hapart hplans htype
  have hlinked' : found.Linked :=
    Pool.linked_of_load hplain found (Pool.exists_of_messageTypeOf? hfound).1
  obtain ⟨key', val', hkey', hval', hkinds, hvals⟩ :=
    h.exists_entryFields hsource hdeclared hlinked' hlinks hrefers htypes hkey hval
  exact ⟨key', val', Pool.entryFields?_eq_some_iff.mpr ⟨hrepeated, found, hfound,
    hlinks.isMapEntry.trans hfirst, hkey', hval'⟩, hkinds, hvals⟩

/-- **A copied field is of the type that the type of its source field moved to.** -/
theorem movedInto_of_copied (hplain : Pool.load (plan.derive files) = .ok plain)
    (hentries : (Schema.ofPool (Pool.link files) generate).EntriesOfMaps)
    (hapart : MapEntriesApart files generate plan) (hkeeps : KeepsPlannedReferences files generate plan)
    (hmp : mp ∈ plan.messages) : MovedInto (Pool.link files) plain plan.renames leaf target := by
  refine ⟨fun hmap => ?_, fun key val hentry hlabel => ?_⟩
  · rw [← hreads.isMap_eq] at hmap
    exact hg.target_of_copied h hlinked hfp htarget hreads hkind href hkeeps hmp hmap
  · exact hg.map_of_copied h hlinked hfp htarget hreads hkind href hplain hentries hapart hlabel hentry

end GeneratedType

end PlainSchema
