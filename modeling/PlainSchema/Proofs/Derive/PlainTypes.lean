import PlainSchema.Proofs.Derive.Names
import PlainSchema.Proofs.Schema.Declared

/-!
# The Plain types of source types

In the pool of the derived files every source type has a Plain type, with the new name of the source
type: `exists_plainType`.  A message that is not generated keeps its fields there, and each of them
has the type that its old type moved to, `Field.MovesTo`.
-/

namespace PlainSchema

open Proto

/-! ## New names without dots -/

/-- The new name of a type, both without their dots. -/
def Renames.moved (renames : Renames) (name : String) : String :=
  String.ofList ((renames.rename ("." ++ name)).toList.drop 1)

/-- The type that the values of a field have in the Plain schema. -/
def FieldType.moved (renames : Renames) : FieldType → FieldType
  | .scalar type => .scalar type
  | .message name group => .message (renames.moved name) group
  | .enum name => .enum (renames.moved name)

@[simp] theorem FieldType.kind_moved (renames : Renames) (type : FieldType) :
    (type.moved renames).kind = type.kind := by
  cases type with
  | scalar type => rfl
  | message name group => cases group <;> rfl
  | enum name => rfl

@[simp] theorem kind_type (field : FieldDecl) : field.type.kind = field.kind := by
  cases hkind : field.kind <;> simp [FieldDecl.type, hkind, FieldType.kind]

/-- A field and the one that takes its place in the Plain schema. -/
structure Field.MovesTo (renames : Renames) (field target : Field) : Prop where
  number : target.number = field.number
  label : target.label = field.label
  oneof : target.oneof = field.oneof
  presence : target.tracksPresence = field.tracksPresence
  type : target.type = field.type.moved renames

/-- A message type and the one that takes its place in the Plain schema. -/
structure MessageType.MovesTo (renames : Renames) (type type' : MessageType) : Prop where
  fullName : type'.fullName = renames.moved type.fullName
  dotted : "." ++ type'.fullName = renames.rename ("." ++ type.fullName)
  isMapEntry : type'.isMapEntry = type.isMapEntry

theorem Renames.moved_eq {renames : Renames} {name name' : String}
    (h : "." ++ name' = renames.rename ("." ++ name)) : renames.moved name = name' := by
  rw [moved, ← h, ofList_drop_dot]

namespace Derivation

variable {files : List FileDecl} {generate : List String} {settings : Settings}
  {plan : SchemaPlan}

/-! ## References -/

theorem rename_empty (h : Derivation files generate settings plan) :
    plan.renames.rename "" = "" := by
  have hindexes := Renames.indexes_ofSchema h.wellScoped h.suffix
  have hnone : (Renames.ofSchema (Schema.ofPool (Pool.link files) generate)
      settings.suffix).resolve? "" = none := by
    refine hindexes.resolve?_eq_none fun key hkey => not_covers_empty ?_
    rintro rfl
    rw [hindexes.unnamed] at hkey
    exact absurd hkey (by simp)
  rw [h.plans.renames, Renames.rename, hnone]
  rfl

theorem mem_counterpart (h : Derivation files generate settings plan) {file : FileDecl}
    (hfile : file ∈ files) {d : DeclaredMessage} (hd : d ∈ file.declared) :
    ∃ file' ∈ plan.derive files, file'.dialect = file.dialect ∧ ∃ d' ∈ file'.declared,
      Counterpart plan file.dialect (fileEntries plan.renames files) d d' := by
  obtain ⟨ds, hsub, hall⟩ := h.exists_counterparts hfile (fileEntries plan.renames files)
  obtain ⟨d', hd', hcounterpart⟩ := exists_right_of_forall₂ hall hd
  exact ⟨plan.deriveFile (fileEntries plan.renames files) file, List.mem_map_of_mem hfile, rfl, d',
    hsub.subset hd', hcounterpart⟩

theorem mem_messageNames_moved (h : Derivation files generate settings plan) {name : String}
    (hname : name ∈ messageNames files) :
    ∃ name' ∈ messageNames (plan.derive files),
      "." ++ name' = plan.renames.rename ("." ++ name) := by
  obtain ⟨file, hfile, d, hd, rfl⟩ := mem_messageNames.mp hname
  obtain ⟨file', hfile', -, d', hd', hcounterpart⟩ := h.mem_counterpart hfile hd
  exact ⟨d'.fullName, mem_messageNames.mpr ⟨file', hfile', d', hd', rfl⟩, hcounterpart.fullName⟩

/-- The derived files declare the same enums under their new names. -/
theorem mem_enumDecls_moved (h : Derivation files generate settings plan) {name : String}
    {e : EnumDecl} (hdecl : (name, e) ∈ files.flatMap (·.enumDecls)) :
    ∃ name', (name', e) ∈ (plan.derive files).flatMap (·.enumDecls) ∧
      "." ++ name' = plan.renames.rename ("." ++ name) := by
  rcases mem_enumDecls.mp hdecl with ⟨file, hfile, d, hd, he, rfl⟩ | ⟨file, hfile, he, rfl⟩
  · obtain ⟨file', hfile', -, d', hd', hcounterpart⟩ := h.mem_counterpart hfile hd
    obtain ⟨scope, hfull, hplain⟩ := hcounterpart.decl
    obtain ⟨mp, -, hfound, -⟩ := h.rename_message hfile ⟨d, hd, rfl, hfull⟩
    obtain ⟨added, hadded⟩ :=
      plainMessage_enums plan file.dialect (fileEntries plan.renames files) hfound
    refine ⟨qualify d'.fullName e.name, mem_enumDecls.mpr (Or.inl ⟨file', hfile', d', hd', ?_, rfl⟩),
      (h.rename_nestedEnum hfile hd hcounterpart he).symm⟩
    rw [hplain, hadded]
    exact List.mem_append_left _ he
  · exact ⟨qualify file.package e.name, mem_enumDecls.mpr (Or.inr
      ⟨plan.deriveFile (fileEntries plan.renames files) file, List.mem_map_of_mem hfile, he, rfl⟩),
      (h.rename_fileEnum hfile he).symm⟩

theorem mem_enumNames_moved (h : Derivation files generate settings plan) {name : String}
    (hname : name ∈ enumNames files) :
    ∃ name' ∈ enumNames (plan.derive files),
      "." ++ name' = plan.renames.rename ("." ++ name) := by
  obtain ⟨e, he⟩ := mem_enumNames_iff_mem_enumDecls.mp hname
  obtain ⟨name', he', hmoved⟩ := h.mem_enumDecls_moved he
  exact ⟨name', mem_enumNames_iff_mem_enumDecls.mpr ⟨e, he'⟩, hmoved⟩

theorem declared_moved (h : Derivation files generate settings plan) {type : FieldType}
    (htype : type.Declared files) :
    (type.moved plan.renames).Declared (plan.derive files) ∧ ∀ name, type.typeName? = some name →
      "." ++ plan.renames.moved name = plan.renames.rename ("." ++ name) ∧
      (type.moved plan.renames).typeName? = some (plan.renames.moved name) := by
  cases type with
  | scalar type => exact ⟨trivial, nofun⟩
  | message name group =>
    obtain ⟨name', hname', hmoved⟩ := h.mem_messageNames_moved htype
    have heq := Renames.moved_eq hmoved
    refine ⟨?_, fun _ hname => ?_⟩
    · change plan.renames.moved name ∈ _
      rwa [heq]
    · obtain rfl := Option.some.inj hname
      exact ⟨heq ▸ hmoved, rfl⟩
  | enum name =>
    obtain ⟨name', hname', hmoved⟩ := h.mem_enumNames_moved htype
    have heq := Renames.moved_eq hmoved
    refine ⟨?_, fun _ hname => ?_⟩
    · change plan.renames.moved name ∈ _
      rwa [heq]
    · obtain rfl := Option.some.inj hname
      exact ⟨heq ▸ hmoved, rfl⟩

/-- A field that is declared with the kind of a type and the new name of what the type names. -/
theorem names_moved (h : Derivation files generate settings plan) {type : FieldType}
    (htype : type.Declared files) {field : FieldDecl} (hkind : field.kind = type.kind)
    (href : ∀ name, type.typeName? = some name →
      field.typeRef = some (plan.renames.rename ("." ++ name)))
    (hscalar : type.typeName? = none → field.typeRef.all (·.isEmpty)) :
    RefersTo (plan.derive files) field ∧ field.type = type.moved plan.renames := by
  obtain ⟨hdeclared, hmoved⟩ := h.declared_moved htype
  have hnames : field.Names (type.moved plan.renames) := by
    refine ⟨hkind.trans (FieldType.kind_moved _ _).symm, fun name' hname' => ?_, fun hnone => ?_⟩
    · cases hname : type.typeName? with
      | none => cases type <;> simp [FieldType.typeName?, FieldType.moved] at hname hname'
      | some name =>
        rw [(hmoved name hname).2] at hname'
        rw [href name hname, ← (hmoved name hname).1, Option.some.inj hname']
    · refine hscalar ?_
      cases type <;> simp [FieldType.typeName?, FieldType.moved] at hnone ⊢
  exact ⟨refersTo_iff.mpr ⟨_, hdeclared, hnames⟩, hnames.type⟩

/-- A field with its references renamed refers to a type of the derived files. -/
theorem names_retargetField (h : Derivation files generate settings plan) {field : FieldDecl}
    (hrefers : RefersTo files field) :
    RefersTo (plan.derive files) (plan.renames.retargetField field) ∧
      (plan.renames.retargetField field).type = field.type.moved plan.renames := by
  obtain ⟨type, hdeclared, hnames⟩ := refersTo_iff.mp hrefers
  rw [hnames.type]
  refine h.names_moved hdeclared hnames.kind (fun name hname => ?_) fun hnone => ?_
  · rw [Renames.retargetField, hnames.ref name hname, Option.map_some]
  · change (field.typeRef.map plan.renames.rename).all (·.isEmpty)
    have hempty := hnames.scalar hnone
    cases href : field.typeRef with
    | none => rfl
    | some ref =>
      have href : ref = "" := by simpa [href] using hempty
      rw [href, Option.map_some, h.rename_empty]
      rfl

/-! ## Types -/

variable {plain : Pool}

/-- A message that is not generated, as the derived files declare it. -/
theorem fields_kept (h : Derivation files generate settings plan) {file : FileDecl}
    (hfile : file ∈ files) {scope : String} {m : MessageDecl} (hm : Declares file scope m)
    (hkept : ∀ mp, plan.message? (inScope scope m.name) = some mp → ¬ mp.generate) :
    (plainMessage plan file.dialect (fileEntries plan.renames files) scope m).fields
      = m.fields.map plan.renames.retargetField := by
  obtain ⟨mp, -, hfound, -⟩ := h.rename_message hfile hm
  rw [plainMessage_kept plan file.dialect _ hfound (hkept mp hfound)]

theorem isMapEntry_plainMessage (h : Derivation files generate settings plan) {file : FileDecl}
    (hfile : file ∈ files) {scope : String} {m : MessageDecl} (hm : Declares file scope m) :
    (plainMessage plan file.dialect (fileEntries plan.renames files) scope m).isMapEntry
      = m.isMapEntry := by
  obtain ⟨mp, -, hfound, -⟩ := h.rename_message hfile hm
  by_cases hgenerate : mp.generate
  · rw [plainMessage_generated plan file.dialect _ hfound hgenerate, retargetMessage_eq]
    rfl
  · rw [plainMessage_kept plan file.dialect _ hfound hgenerate]

/-- The Plain type of a declared message, and its declaration. -/
theorem exists_linksAs_counterpart (h : Derivation files generate settings plan)
    (hplain : Pool.load (plan.derive files) = .ok plain) {file : FileDecl} (hfile : file ∈ files)
    {d : DeclaredMessage} (hd : d ∈ file.declared) :
    ∃ file' ∈ plan.derive files, ∃ d' ∈ file'.declared,
      Counterpart plan file.dialect (fileEntries plan.renames files) d d' ∧
      ∃ type', plain.message? d'.fullName = some type' ∧
        d'.LinksAs (plan.derive files) file.dialect type' ∧
        (linkMessage file d).MovesTo plan.renames type' := by
  obtain ⟨file', hfile', hdialect, d', hd', hcounterpart⟩ := h.mem_counterpart hfile hd
  obtain ⟨type', hfound, hlinks⟩ := exists_linksAs hplain hfile' hd'
  rw [hdialect] at hlinks
  refine ⟨file', hfile', d', hd', hcounterpart, type', hfound, hlinks, ?_, ?_, ?_⟩
  · rw [hlinks.fullName]
    exact (Renames.moved_eq hcounterpart.fullName).symm
  · rw [hlinks.fullName]
    exact hcounterpart.fullName
  · obtain ⟨scope, hfull, hdecl⟩ := hcounterpart.decl
    rw [hlinks.isMapEntry, hdecl]
    exact h.isMapEntry_plainMessage hfile ⟨d, hd, rfl, hfull⟩

/-- **Every source type has a Plain type**, and one that is not generated keeps its fields. -/
theorem exists_plainType (h : Derivation files generate settings plan)
    (hplain : Pool.load (plan.derive files) = .ok plain) {type : MessageType}
    (htype : type ∈ (Pool.link files).messages) :
    ∃ type', plain.message? type'.fullName = some type' ∧ type.MovesTo plan.renames type' ∧
      ((∀ mp, plan.message? ("." ++ type.fullName) = some mp → ¬ mp.generate) →
        ∀ field ∈ type.fields, ∃ target ∈ type'.fields, field.MovesTo plan.renames target) := by
  obtain ⟨file, hfile, hmem⟩ := List.mem_flatMap.mp htype
  obtain ⟨d, hd, rfl⟩ := List.mem_map.mp hmem
  obtain ⟨file', hfile', d', hd', hcounterpart, type', hfound, hlinks, hmoves⟩ :=
    h.exists_linksAs_counterpart hplain hfile hd
  refine ⟨type', by rw [hlinks.fullName]; exact hfound, hmoves, fun hkept field hfield => ?_⟩
  obtain ⟨scope, hfull, hdecl⟩ := hcounterpart.decl
  have hfields := h.fields_kept hfile ⟨d, hd, rfl, hfull⟩ fun mp hmp => hkept mp (hfull ▸ hmp)
  obtain ⟨decl, hdeclared, rfl⟩ := List.mem_map.mp (mem_sortBy.mp hfield)
  have hrefers := (h.linked.messages file hfile d hd).references decl hdeclared
  obtain ⟨hrefers', htyped⟩ := h.names_retargetField hrefers
  refine ⟨_, hlinks.fields (plan.renames.retargetField decl) ?_ hrefers', rfl, rfl, rfl, rfl, htyped⟩
  rw [hdecl, hfields]
  exact List.mem_map_of_mem hdeclared

/-! ## Defaults -/

/-- The values that an enum declares stand under its new name in the Plain schema. -/
theorem exists_enum?_moved (h : Derivation files generate settings plan)
    (hplain : Pool.load (plan.derive files) = .ok plain) {name : String}
    (hname : name ∈ enumNames files) :
    ∃ e e', (Pool.link files).enum? name = some e ∧
      plain.enum? (plan.renames.moved name) = some e' ∧ e'.values = e.values := by
  obtain ⟨e, he⟩ := mem_enumNames_iff_mem_enumDecls.mp hname
  obtain ⟨name', he', hmoved⟩ := h.mem_enumDecls_moved he
  obtain ⟨hpool, hlinked⟩ := Pool.load_eq_ok hplain
  refine ⟨_, { fullName := name', values := e.values }, enum?_link h.linked he, ?_, rfl⟩
  rw [Renames.moved_eq hmoved, hpool]
  exact enum?_link hlinked (enumDecls_resolveFiles (Pool.resolveFiles_eq_ok hplain) ▸ he')

/-- A field of a moved type has the default of the type that it moved from, but for messages. -/
theorem defaultOf_moved (h : Derivation files generate settings plan)
    (hplain : Pool.load (plan.derive files) = .ok plain) {type : FieldType}
    (htype : type.Declared files) (hmessage : ∀ name group, type ≠ .message name group) :
    plain.defaultOf (type.moved plan.renames) = (Pool.link files).defaultOf type := by
  cases type with
  | scalar type => rfl
  | message name group => exact absurd rfl (hmessage name group)
  | enum name =>
    obtain ⟨e, e', he, he', hvalues⟩ := h.exists_enum?_moved hplain htype
    rw [FieldType.moved, Pool.defaultOf, Pool.defaultOf, he, he', Option.map_some, Option.map_some,
      EnumType.default, EnumType.default, hvalues]

end Derivation

end PlainSchema
