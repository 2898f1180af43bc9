import PlainSchema.Proofs.Derive.Generated
import PlainSchema.Proofs.Derive.RenamedOnce
import PlainSchema.Proofs.Schema.Types
import PlainSchema.Proofs.Schema.Valid

/-!
# The entries of map fields

A map field of a Plain message refers to an entry message inside the Plain message.  The entry of a
field that comes from elsewhere, or that has a new name, is copied there under the name that belongs
to the field, but only if no nested message has that name yet.  `claimants` lists the messages that
want a name in the order in which they get it: the nested messages of the source message, then the
copies.  `map_fields_keep_types_iff` says that map fields keep the types of their keys and values
exactly if the first claimant of each entry name is an entry with the right types, and the name is
not renamed a second time.

The condition fails when a message with a map field `tags` inlines a message with a map field `Tags`:
both entries are called `TagsEntry`, and the inlined field ends up with the value type of the other
one, see `inlined_tags_lose_their_type`.
-/

namespace PlainSchema

open Proto

/-! ## Types of entries -/

/-- The kinds of the key and of the value of a map entry, with the type of the value. -/
structure EntryTypes where
  key : Option Kind
  value : Option Kind
  valueType : Option String
  deriving DecidableEq, Repr

/-- The types of a message that is a map entry. -/
def Proto.MessageDecl.entryTypes (m : MessageDecl) : EntryTypes where
  key := (m.fields.find? (·.number == 1)).map (·.kind)
  value := (m.fields.find? (·.number == 2)).map (·.kind)
  valueType := (m.fields.find? (·.number == 2)).bind (·.typeRef)

/-- The types of an entry with the references renamed. -/
def EntryTypes.retarget (renames : Renames) (types : EntryTypes) : EntryTypes :=
  { types with valueType := types.valueType.map renames.rename }

theorem name_retargetMessage (renames : Renames) (m : MessageDecl) :
    (retargetMessage renames m).name = m.name := by
  rw [retargetMessage_eq]

theorem isMapEntry_retargetMessage (renames : Renames) (m : MessageDecl) :
    (retargetMessage renames m).isMapEntry = m.isMapEntry := by
  rw [retargetMessage_eq]

/-- Renaming references does not matter for what is found by name. -/
theorem find?_retargetMessage (renames : Renames) (ms : List MessageDecl) (name : String) :
    (ms.map (retargetMessage renames)).find? (·.name == name)
      = (ms.find? (·.name == name)).map (retargetMessage renames) := by
  rw [List.find?_map]
  simp only [Function.comp_def, name_retargetMessage]

/-! ## Placing entries -/

/-- The entry that a map field brings into a Plain message from elsewhere. -/
def FieldShape.brought? (entries : List (String × MessageDecl)) (newFullName : String)
    (shape : FieldShape) : Option MessageDecl :=
  if shape.isMap ∧ shape.typeRef.getD "" ≠ newFullName ++ "." ++ entryName shape.name then
    (entryNamed? entries (shape.typeRef.getD "")).map ({ · with name := entryName shape.name })
  else none

/-- Placing an entry adds it unless its name is taken. -/
theorem placeEntry_snd (entries : List (String × MessageDecl)) (newFullName : String)
    (nested : List MessageDecl) {shape : FieldShape} (hmap : shape.isMap) :
    (placeEntry entries newFullName nested shape).2
      = match shape.brought? entries newFullName with
        | none => nested
        | some entry => if nested.any (·.name == entry.name) then nested else nested ++ [entry] := by
  rw [placeEntry, FieldShape.brought?]
  by_cases hplaced : shape.typeRef.getD "" = newFullName ++ "." ++ entryName shape.name
  · rw [if_pos hplaced, if_neg fun hand => hand.2 hplaced]
  · rw [if_neg hplaced, if_pos ⟨hmap, hplaced⟩]
    cases entryNamed? entries (shape.typeRef.getD "") <;> rfl

/-- Of the messages that want a name, the first one gets it. -/
theorem find?_declareFields (dialect : Dialect) (entries : List (String × MessageDecl))
    (newFullName : String) (nested : List MessageDecl) (shapes : List FieldShape) (name : String) :
    (declareFields dialect entries newFullName nested shapes).2.find? (·.name == name)
      = (nested ++ shapes.filterMap (·.brought? entries newFullName)).find? (·.name == name) := by
  induction shapes generalizing nested with
  | nil => rw [declareFields, List.filterMap_nil, List.append_nil]
  | cons shape shapes ih =>
    rw [declareFields]
    dsimp only
    rw [ih]
    have hplaced : (if shape.isMap then placeEntry entries newFullName nested shape
        else ((shape.declare dialect).typeRef, nested)).2
        = match shape.brought? entries newFullName with
          | none => nested
          | some entry =>
            if nested.any (·.name == entry.name) then nested else nested ++ [entry] := by
      by_cases hmap : shape.isMap
      · rw [if_pos hmap, placeEntry_snd _ _ _ hmap]
      · rw [if_neg hmap, FieldShape.brought?, if_neg fun hand => hmap hand.1]
    rw [hplaced]
    cases hbrought : shape.brought? entries newFullName with
    | none => rw [List.filterMap_cons_none hbrought]
    | some entry =>
      rw [List.filterMap_cons_some hbrought]
      dsimp only
      split
      · next htaken =>
        -- The entry is left out, and whoever asks for its name finds the message that has it.
        obtain ⟨holder, hholder, hname⟩ := List.any_eq_true.mp htaken
        rw [List.find?_append, List.find?_append, List.find?_cons]
        by_cases hentry : entry.name = name
        · have hsome : (nested.find? (·.name == name)).isSome :=
            List.find?_isSome.mpr ⟨holder, hholder, by simpa [← hentry] using hname⟩
          obtain ⟨found, hfound⟩ := Option.isSome_iff_exists.mp hsome
          rw [hfound, Option.some_or, Option.some_or]
        · rw [show (entry.name == name) = false by simpa using hentry]
      · rw [List.append_assoc, List.singleton_append]

/-! ## Claimants -/

/-- The messages that want a name in the Plain message of a declaration with a full name, in the order
in which they get it: the counterparts of the nested messages, then the entries that map fields bring along. -/
def SchemaPlan.claimants (plan : SchemaPlan) (files : List FileDecl) (dialect : Dialect)
    (mp : MessagePlan) (fullName : String) (d : MessageDecl) : List MessageDecl :=
  let entries := fileEntries plan.renames files
  plainMessages plan dialect entries fullName d.messages
    ++ (mp.fields.filterMap (·.shape.brought? entries mp.newFullName)).map
      (retargetMessage plan.renames)

/-- A map entry of a Plain message is the first claimant of its name. -/
theorem find?_plainMessage (plan : SchemaPlan) (files : List FileDecl) (dialect : Dialect)
    {scope : String} {d : MessageDecl} {mp : MessagePlan}
    (hmp : plan.message? (inScope scope d.name) = some mp) (hgenerate : mp.generate) {name : String}
    {found : MessageDecl} (hentry : found.isMapEntry) :
    (plainMessage plan dialect (fileEntries plan.renames files) scope d).messages.find?
        (·.name == name) = some found ↔
      (plan.claimants files dialect mp (inScope scope d.name) d).find? (·.name == name) = some found := by
  have hmessages : (plainMessage plan dialect (fileEntries plan.renames files) scope d).messages
      = ((declareFields dialect (fileEntries plan.renames files) mp.newFullName
            (replaceMessages plan dialect (fileEntries plan.renames files) (inScope scope d.name)
              d.messages) (mp.fields.map (·.shape))).2
          ++ mp.virtualTypes.map (·.declare dialect)).map (retargetMessage plan.renames) := by
    rw [plainMessage_generated plan dialect _ hmp hgenerate, retargetMessage_eq,
      ← retargetMessages_eq_map]
    rfl
  have hclaimants : plan.claimants files dialect mp (inScope scope d.name) d
      = (replaceMessages plan dialect (fileEntries plan.renames files) (inScope scope d.name)
            d.messages ++ (mp.fields.map (·.shape)).filterMap
              (·.brought? (fileEntries plan.renames files) mp.newFullName)).map
          (retargetMessage plan.renames) := by
    rw [SchemaPlan.claimants, ← retarget_replaceMessages, retargetMessages_eq_map, List.map_append,
      List.filterMap_map]
    rfl
  rw [hmessages, hclaimants, find?_retargetMessage, find?_retargetMessage, List.find?_append,
    find?_declareFields, Option.map_or, Option.or_eq_some_iff]
  refine or_iff_left fun ⟨_, hvirtual⟩ => ?_
  -- A virtual type is no map entry.
  obtain ⟨declared, hdeclared, rfl⟩ := Option.map_eq_some_iff.mp hvirtual
  obtain ⟨type, -, rfl⟩ := List.mem_map.mp (List.mem_of_find?_eq_some hdeclared)
  rw [isMapEntry_retargetMessage] at hentry
  exact absurd hentry (by simp [VirtualTypePlan.declare])

/-! ## Entries of the source -/

theorem mem_entriesOfAll_of_messageAt? (renames : Renames) {scope s : String}
    {ms : List MessageDecl} {entry : MessageDecl} {positions : List Nat}
    (hat : messageAt? scope ms positions = some (s, entry)) (hentry : entry.isMapEntry) :
    (renames.rename (inScope s entry.name), entry) ∈ entriesOfAll renames scope ms := by
  have hall : ∀ {scope : String} {ms : List MessageDecl} {m : MessageDecl}, m ∈ ms →
      ∀ found ∈ entriesOf renames scope m, found ∈ entriesOfAll renames scope ms := by
    intro scope ms m hm found hfound
    induction ms with
    | nil => exact absurd hm List.not_mem_nil
    | cons first ms ih =>
      rw [entriesOfAll]
      rcases List.mem_cons.mp hm with rfl | hm
      · exact List.mem_append_left _ hfound
      · exact List.mem_append_right _ (ih hm)
  induction positions generalizing scope ms with
  | nil => simp [messageAt?] at hat
  | cons i rest ih =>
    cases rest with
    | nil =>
      obtain ⟨m, hm, heq⟩ := Option.map_eq_some_iff.mp hat
      obtain ⟨rfl, rfl⟩ := Prod.mk.inj heq
      refine hall (List.mem_of_getElem? hm) _ ?_
      cases m
      rw [entriesOf, if_pos hentry]
      exact List.mem_append_left _ (List.mem_singleton_self _)
    | cons j rest =>
      obtain ⟨m, hm, hat⟩ := Option.bind_eq_some_iff.mp hat
      refine hall (List.mem_of_getElem? hm) _ ?_
      have hfound := ih hat
      cases m
      rw [entriesOf]
      exact List.mem_append_right _ hfound

/-- A map field of the source refers to a map entry. -/
theorem exists_entry_of_isMap {files : List FileDecl} {generate : List String} {m : SourceMessage}
    (hm : m ∈ (Schema.ofPool (Pool.link files) generate).messages) {field : SourceField}
    (hfield : field ∈ m.fields) (hmap : field.isMap) :
    (field.kind = .message ∨ field.kind = .group) ∧
      ∃ file ∈ files, ∃ d ∈ file.declared, d.decl.isMapEntry ∧
        field.typeRef = some ("." ++ d.fullName) := by
  obtain ⟨type, htype⟩ := exists_viewsType hm
  rw [htype.fields] at hfield
  obtain ⟨linked, -, rfl⟩ := List.mem_map.mp hfield
  change (Pool.link files).isMap linked at hmap
  rw [Pool.isMap, Bool.and_eq_true] at hmap
  obtain ⟨-, hentry⟩ := hmap
  cases htyped : (Pool.link files).messageTypeOf? linked with
  | none => simp [htyped] at hentry
  | some entry =>
    rw [htyped] at hentry
    rw [Pool.messageTypeOf?] at htyped
    split at htyped
    · next name group hkind =>
      obtain ⟨hmem, hname⟩ := Pool.message?_mem htyped
      obtain ⟨file, hfile, hentryMem⟩ := List.mem_flatMap.mp hmem
      obtain ⟨d, hd, rfl⟩ := List.mem_map.mp hentryMem
      refine ⟨?_, file, hfile, d, hd, hentry, ?_⟩
      · change linked.type.kind = _ ∨ linked.type.kind = _
        rw [hkind]
        cases group
        · exact Or.inl rfl
        · exact Or.inr rfl
      · change linked.type.typeName?.map ("." ++ ·) = _
        rw [hkind, ← hname]
        rfl
    · cases htyped

/-- A planned map field that is not serialized, with the map entry that its source field refers to:
the entry's name in the source files and the name that the Plain field should refer to. -/
structure PlansMap (files : List FileDecl) (generate : List String) (plan : SchemaPlan)
    (mp : MessagePlan) (fp : FieldPlan) (old expected : String) (entry : MessageDecl) : Prop where
  reference : PlansReference files generate plan mp fp old expected
  isMap : fp.shape.isMap
  isMapEntry : entry.isMapEntry
  declared : ∃ file ∈ files, ∃ scope, Declares file scope entry ∧ old = inScope scope entry.name

namespace Derivation

variable {files : List FileDecl} {generate : List String} {settings : Settings}
  {plan : SchemaPlan} {m : SourceMessage} {mp : MessagePlan} {decl : MessageDecl}

theorem isSome_entryNamed? (h : Derivation files generate settings plan) {file : FileDecl}
    (hfile : file ∈ files) {scope : String} {entry : MessageDecl}
    (hdeclares : Declares file scope entry) (hentry : entry.isMapEntry) :
    (entryNamed? (fileEntries plan.renames files)
      (plan.renames.rename (inScope scope entry.name))).isSome := by
  obtain ⟨d, hd, rfl, hfull⟩ := hdeclares
  obtain ⟨positions, s, hat, -, hfull'⟩ := exists_messageAt?_declaredMessages rfl file.messages
    (h.simple.messages file hfile) d hd
  have hscope : s = scope := inScope_left_injective d.decl.name (hfull'.symm.trans hfull)
  have hmem : (plan.renames.rename (inScope s d.decl.name), d.decl)
      ∈ fileEntries plan.renames files :=
    List.mem_flatMap.mpr ⟨file, hfile, mem_entriesOfAll_of_messageAt? _ hat hentry⟩
  rw [← hscope, entryNamed?, Option.isSome_map, List.find?_isSome]
  exact ⟨_, List.mem_reverse.mpr hmem, by simp⟩

/-- The Plain field of a map should refer to the entry in the Plain message. -/
theorem expected_of_plansMap (h : Derivation files generate settings plan) {fp : FieldPlan}
    {old expected : String} {entry : MessageDecl}
    (hmap : PlansMap files generate plan mp fp old expected entry) :
    expected = inScope mp.newFullName (entryName fp.shape.name) := by
  obtain ⟨file, hfile, scope, hdeclares, rfl⟩ := hmap.declared
  rw [hmap.reference.expected,
    if_pos ⟨hmap.isMap, h.isSome_entryNamed? hfile hdeclares hmap.isMapEntry⟩]
  rfl

/-! ## Every map field has an entry -/

/-- A map entry is no alias. -/
theorem alias?_eq_none_of_isMapEntry (h : Derivation files generate settings plan)
    (hm : m ∈ (Schema.ofPool (Pool.link files) generate).messages) (hentry : m.isMapEntry) :
    (Schema.ofPool (Pool.link files) generate).alias? m.fullName = none := by
  by_contra hne
  obtain ⟨wrapper, halias⟩ := Option.ne_none_iff_exists'.mp hne
  obtain ⟨other, hother, hname, field, hwraps⟩ := Schema.exists_wrapsScalar halias
  obtain rfl := List.inj_on_of_nodup_map h.wellScoped.distinct hother hm hname
  rw [hwraps.plain] at hentry
  exact absurd hentry (by decide)

/-- The plan of a map field that is not serialized refers to the entry. -/
theorem typeRef_valuePlan_of_isMap (h : Derivation files generate settings plan)
    (hm : m ∈ (Schema.ofPool (Pool.link files) generate).messages) {field : SourceField}
    (hfield : field ∈ m.fields) (hmap : field.isMap) {file : String}
    (hserialized : ¬ ((PlanContext.ofFile (Schema.ofPool (Pool.link files) generate) file).valuePlan m
      field {}).origin.isSerialized) :
    ((PlanContext.ofFile (Schema.ofPool (Pool.link files) generate) file).valuePlan m
      field {}).shape.typeRef = field.typeRef := by
  obtain ⟨hkind, source, hsource, d, hd, hentry, href⟩ := exists_entry_of_isMap hm hfield hmap
  have halias : (PlanContext.ofFile (Schema.ofPool (Pool.link files) generate) file).aliasOf? field
      = none := by
    rw [PlanContext.aliasOf?]
    split
    · rw [href, Option.bind_some]
      exact h.alias?_eq_none_of_isMapEntry
        ((mem_schema_messages generate).mpr ⟨source, hsource, d, hd, rfl⟩) hentry
    · rfl
  have hformat : PlanContext.enumFormat? field = none := by
    rw [PlanContext.enumFormat?, if_pos]
    rcases hkind with hkind | hkind <;> simp [hkind]
  rw [PlanContext.valuePlan] at hserialized ⊢
  split
  · next hserialize =>
    rw [if_pos hserialize] at hserialized
    exact absurd rfl hserialized
  · rw [halias, hformat]
    rfl

/-- Every planned map field that stands for a source field and is not serialized has an entry. -/
theorem exists_plansMap (h : Derivation files generate settings plan)
    (hd : DerivesMessage files generate plan m mp decl) {fp : FieldPlan} (hfp : fp ∈ mp.fields)
    (hmap : fp.shape.isMap) (hsource : fp.source.isSome) (hserialized : ¬ fp.origin.isSerialized) :
    ∃ old expected entry, PlansMap files generate plan mp fp old expected entry := by
  rcases (h.isPlanOf_of_derivesMessage hd).traces fp hfp with ⟨hnone, -⟩ | ⟨owner, leaf, hleads, hstands⟩
  · rw [hnone] at hsource
    exact absurd hsource nofun
  · have howner := hleads.owner_mem hd.source
    have hleaf := hleads.leaf_mem
    rw [hstands.isMap] at hmap
    obtain ⟨-, file, hfile, d, hdeclared, hentry, href⟩ := exists_entry_of_isMap howner hleaf hmap
    have htyped := h.typeRef_valuePlan_of_isMap howner hleaf hmap
      (fun hser => hserialized (hstands.isSerialized.trans hser))
    rw [href] at htyped
    obtain ⟨positions, scope, -, -, hfull⟩ := exists_messageAt?_declaredMessages rfl file.messages
      (h.simple.messages file hfile) d hdeclared
    refine ⟨_, _, d.decl, ⟨hd.generated, hfp, ⟨_, owner, leaf, hstands.source,
      h.schema_message? howner, h.schema_field? howner hleaf, href⟩, ?_, rfl⟩,
      hstands.isMap.trans hmap, hentry, file, hfile, scope, ⟨d, hdeclared, rfl, hfull⟩, hfull⟩
    rw [hstands.typeRef, htyped]
    rfl

end Derivation

/-! ## The main result -/

/-- Every map field of a Plain message refers to the nested message that belongs to it by name, which
is a map entry with the types of the source entry, their references renamed once. -/
def KeepsMapTypes (files : List FileDecl) (generate : List String) (plan : SchemaPlan) : Prop :=
  ∀ m mp decl, DerivesMessage files generate plan m mp decl → ∀ fp field,
    (fp, field) ∈ mp.fields.zip decl.fields → ∀ old expected entry,
    PlansMap files generate plan mp fp old expected entry →
      field.typeRef = some (inScope mp.newFullName (entryName fp.shape.name)) ∧
      ∃ nested, decl.messages.find? (·.name == entryName fp.shape.name) = some nested ∧
        nested.isMapEntry ∧ nested.entryTypes = entry.entryTypes.retarget plan.renames

/-- The entry of every map field keeps its name in the Plain message, and the first message that
claims the name is a map entry with the types of the source entry. -/
def MapEntriesApart (files : List FileDecl) (generate : List String) (plan : SchemaPlan) : Prop :=
  ∀ file ∈ files, ∀ scope d, Declares file scope d → ∀ mp,
    plan.message? (inScope scope d.name) = some mp → ∀ fp old expected entry,
    PlansMap files generate plan mp fp old expected entry →
      plan.renames.rename expected = expected ∧
      ∃ first, (plan.claimants files file.dialect mp (inScope scope d.name) d).find?
          (·.name == entryName fp.shape.name) = some first ∧
        first.isMapEntry ∧ first.entryTypes = entry.entryTypes.retarget plan.renames

namespace Derivation

variable {files : List FileDecl} {generate : List String} {settings : Settings}
  {plan : SchemaPlan} {m : SourceMessage} {mp : MessagePlan} {decl : MessageDecl}

/-- A map field refers to the entry's name in the Plain message, renamed once more. -/
theorem typeRef_of_plansMap (h : Derivation files generate settings plan)
    (hm : m ∈ (Schema.ofPool (Pool.link files) generate).messages)
    (hplan : m.IsPlanOf (Schema.ofPool (Pool.link files) generate) settings plan.renames mp)
    {fp : FieldPlan} {field : FieldDecl} {dialect : Dialect}
    (hfield : DeclaredAs plan.renames dialect (fileEntries plan.renames files) mp.newFullName fp field)
    {old expected : String} {entry : MessageDecl}
    (hmap : PlansMap files generate plan mp fp old expected entry) :
    field.typeRef = some (plan.renames.rename expected) := by
  rw [hfield.1]
  change (fp.shape.declaredRef _ mp.newFullName).map plan.renames.rename = _
  rw [h.declaredRef_of_plansReference hm hplan hmap.reference, Option.map_some]

theorem keepsMapTypes_iff (h : Derivation files generate settings plan) :
    KeepsMapTypes files generate plan ↔ MapEntriesApart files generate plan := by
  constructor
  · intro hkeeps file hfile scope d hdeclares mp hmp fp old expected entry hmap
    have hgenerate := hmap.reference.generated
    obtain ⟨m, hd⟩ := h.derivesMessage_of_declares hfile hdeclares hmp hgenerate
    have hfields := fields_plainMessage plan file.dialect (fileEntries plan.renames files) hmp hgenerate
    obtain ⟨⟨fp', field⟩, hmem, hpaired, -, hfield⟩ :=
      exists_left_of_forall₂ (forall₂_zip hfields) hmap.reference.planned
    obtain rfl : fp = fp' := hpaired.symm
    obtain ⟨href, nested, hnested, hentry, htypes⟩ :=
      hkeeps m mp _ hd fp field hmem old expected entry hmap
    refine ⟨?_, nested, (find?_plainMessage plan files file.dialect hmp hgenerate hentry).mp hnested,
      hentry, htypes⟩
    rw [h.typeRef_of_plansMap hd.source (h.isPlanOf_of_derivesMessage hd) hfield hmap] at href
    rw [Option.some.inj href, h.expected_of_plansMap hmap]
  · intro hapart m mp decl hd fp field hmem old expected entry hmap
    obtain ⟨file, hfile, scope, d, hdeclares, hmp, rfl⟩ := h.declares_of_derivesMessage hd
    obtain ⟨hsettled, first, hfirst, hentry, htypes⟩ :=
      hapart file hfile scope d hdeclares mp hmp fp old expected entry hmap
    have hfields := fields_plainMessage plan file.dialect (fileEntries plan.renames files) hmp
      hd.generated
    have hfield := List.forall₂_zip hfields hmem
    refine ⟨?_, first, (find?_plainMessage plan files file.dialect hmp hd.generated hentry).mpr hfirst,
      hentry, htypes⟩
    rw [h.typeRef_of_plansMap hd.source (h.isPlanOf_of_derivesMessage hd) hfield hmap, hsettled,
      h.expected_of_plansMap hmap]

end Derivation

/-- **Map fields keep the types of their keys and values** if and only if the first message that claims
the name of an entry is an entry with the right types, and no such name is renamed a second time.
Every generated message is derived, and every map field of it that stands for a source field and is
not serialized has an entry among the source files. -/
theorem map_fields_keep_types_iff {declared : List FileDecl} {pool : Pool} {generate : List String}
    {settings : Settings} {plan : SchemaPlan} (hload : Pool.load declared = .ok pool)
    (hnames : SimpleNames pool.files) (hsuffix : '.' ∉ settings.suffix.toList)
    (hplan : (Schema.ofPool pool generate).plan settings = .ok plan) :
    (KeepsMapTypes pool.files generate plan ↔ MapEntriesApart pool.files generate plan) ∧
      (∀ m ∈ (Schema.ofPool pool generate).messages, m.options.generate →
        ∃ mp decl, DerivesMessage pool.files generate plan m mp decl) ∧
      ∀ m mp decl, DerivesMessage pool.files generate plan m mp decl → ∀ fp ∈ mp.fields,
        fp.shape.isMap → fp.source.isSome → ¬ fp.origin.isSerialized →
        ∃ old expected entry, PlansMap pool.files generate plan mp fp old expected entry := by
  obtain ⟨hpool, hlinked⟩ := Pool.load_eq_ok hload
  rw [hpool] at hplan
  have h : Derivation pool.files generate settings plan := ⟨hlinked, hnames, hsuffix, hplan⟩
  refine ⟨h.keepsMapTypes_iff, fun m hm hgenerate => ?_, fun m mp decl hd fp hfp hmap hsource hser =>
    h.exists_plansMap hd hfp hmap hsource hser⟩
  rw [hpool] at hm
  exact h.exists_derivesMessage hm hgenerate

/-! ## Tags of an item -/

/-- An item with a map of tags, and attributes with another map that are inlined into it. -/
def labelledFile (inlined : String) : FileDecl :=
  let entry (name : String) (value : Kind) : MessageDecl :=
    { name, isMapEntry := true
      fields :=
        [{ name := "key", number := 1, kind := .scalar .string },
          { name := "value", number := 2, kind := value }] }
  { name := "labelled.proto", package := "p", dialect := .proto2
    messages :=
      [{ name := "Attrs"
         messages := [entry (entryName inlined) (.scalar .string)]
         fields :=
          [{ name := inlined, number := 1, kind := .message, label := .repeated
             typeRef := some (".p.Attrs." ++ entryName inlined) }] },
        { name := "Item", options := { generate := true }
          messages := [entry "TagsEntry" (.scalar .int32)]
          fields :=
            [{ name := "tags", number := 1, kind := .message, label := .repeated
               typeRef := some ".p.Item.TagsEntry" },
              { name := "attrs", number := 2, kind := .message, typeRef := some ".p.Attrs"
                options := { embed := true } }] }] }

def labelledFiles (inlined : String) : List FileDecl :=
  [{ messageOptionsFile with
      extensions := messageOptionsFile.extensions ++
        [{ name := "field", number := 2, kind := .scalar .string
           extendee := some ".plain.Options" }] },
    labelledFile inlined]

def labelledPool (inlined : String) : Pool := (Pool.load (labelledFiles inlined)).toOption.getD {}

def labelledPlan (inlined : String) : SchemaPlan :=
  ((Schema.ofPool (labelledPool inlined) []).plan {}).toOption.getD
    { suffix := "", messages := [], renames := {}, diagnostics := [] }

/-- Whether the map fields of a plan find their entries, as far as the types of entries can be read
off the files. -/
def findsEntries (files : List FileDecl) (plan : SchemaPlan) : Bool :=
  files.all fun file => file.declared.all fun d =>
    (plan.message? ("." ++ d.fullName)).all fun mp => mp.fields.all fun fp =>
      let name := entryName fp.shape.name
      !fp.shape.isMap ||
        (plan.renames.rename (inScope mp.newFullName name) == inScope mp.newFullName name &&
          files.all fun other => other.declared.all fun entry =>
            fp.shape.typeRef != some (plan.renames.rename ("." ++ entry.fullName)) ||
              ((plan.claimants files file.dialect mp ("." ++ d.fullName) d.decl).find?
                (·.name == name)).any fun first => first.isMapEntry &&
                  first.entryTypes == entry.decl.entryTypes.retarget plan.renames)

section Labelled

variable {inlined : String} (h : inlined = "labels" ∨ inlined = "Tags")
include h

/-- What can be read off an item, its files and their plan. -/
theorem labelled_checks :
    (Pool.load (labelledFiles inlined)).isOk ∧
      ((Schema.ofPool (labelledPool inlined) []).plan {}).isOk ∧
      SimpleNames (labelledPool inlined).files ∧
      (inlined = "labels" → findsEntries (labelledPool inlined).files (labelledPlan inlined)) := by
  rcases h with rfl | rfl <;> decide +kernel

theorem load_labelled : Pool.load (labelledFiles inlined) = .ok (labelledPool inlined) :=
  eq_ok_of_isOk (labelled_checks h).1 _

theorem plan_labelled : (Schema.ofPool (labelledPool inlined) []).plan {} = .ok (labelledPlan inlined) :=
  eq_ok_of_isOk (labelled_checks h).2.1 _

theorem simpleNames_labelled : SimpleNames (labelledPool inlined).files :=
  (labelled_checks h).2.2.1

theorem derivation_labelled : Derivation (labelledPool inlined).files [] {} (labelledPlan inlined) := by
  obtain ⟨hpool, hlinked⟩ := Pool.load_eq_ok (load_labelled h)
  exact ⟨hlinked, simpleNames_labelled h, by decide, hpool ▸ plan_labelled h⟩

end Labelled

theorem mapEntriesApart_of_findsEntries {files : List FileDecl} {generate : List String}
    {settings : Settings} {plan : SchemaPlan} (h : Derivation files generate settings plan)
    (hfinds : findsEntries files plan) : MapEntriesApart files generate plan := by
  rintro file hfile scope _ ⟨d, hd, rfl, hfull⟩ mp hmp fp old expected entry hmap
  have hname := h.expected_of_plansMap hmap
  obtain ⟨m, hderives⟩ := h.derivesMessage_of_declares hfile ⟨d, hd, rfl, hfull⟩ hmp
    hmap.reference.generated
  have htyped := h.typeRef_of_plansReference hderives.source (h.isPlanOf_of_derivesMessage hderives)
    hmap.reference
  obtain ⟨other, hother, scope', ⟨e, he, rfl, hfull'⟩, rfl⟩ := hmap.declared
  have hplanned := hmap.reference.planned
  rw [← hfull] at hmp ⊢
  simp only [findsEntries, List.all_eq_true] at hfinds
  have hfp := hfinds file hfile d hd
  rw [hmp, Option.all_some, List.all_eq_true] at hfp
  have hfp := hfp fp hplanned
  rw [hmap.isMap, Bool.not_true, Bool.false_or, Bool.and_eq_true, beq_iff_eq] at hfp
  refine ⟨by rw [hname]; exact hfp.1, ?_⟩
  have hentry := List.all_eq_true.mp (List.all_eq_true.mp hfp.2 other hother) e he
  rw [htyped, hfull', bne_self_eq_false, Bool.false_or, Option.any_eq_true] at hentry
  obtain ⟨first, hfirst, hsame⟩ := hentry
  rw [Bool.and_eq_true, beq_iff_eq] at hsame
  exact ⟨first, hfirst, hsame⟩

/-- An item with tags and inlined labels keeps the types of both maps. -/
theorem labelled_item_keeps_map_types :
    KeepsMapTypes (labelledPool "labels").files [] (labelledPlan "labels") := by
  refine (map_fields_keep_types_iff (load_labelled (Or.inl rfl)) (simpleNames_labelled (Or.inl rfl))
    (by decide) (plan_labelled (Or.inl rfl))).1.mpr ?_
  exact mapEntriesApart_of_findsEntries (derivation_labelled (Or.inl rfl))
    ((labelled_checks (Or.inl rfl)).2.2.2 rfl)

/-- An item with tags that inlines other `Tags` has one entry for both.  The inlined map of strings
ends up with the entry of its own map of numbers. -/
theorem inlined_tags_lose_their_type :
    ∃ m mp decl fp field old expected entry,
      DerivesMessage (labelledPool "Tags").files [] (labelledPlan "Tags") m mp decl ∧
        (fp, field) ∈ mp.fields.zip decl.fields ∧ fp.shape.name = "Tags" ∧
        PlansMap (labelledPool "Tags").files [] (labelledPlan "Tags") mp fp old expected entry ∧
        entry.entryTypes = ⟨some (.scalar .string), some (.scalar .string), none⟩ ∧
        field.typeRef = some ".p.ItemPlain.TagsEntry" ∧
        decl.messages.map (fun nested => (nested.name, nested.entryTypes))
          = [("TagsEntry", ⟨some (.scalar .string), some (.scalar .int32), none⟩)] ∧
        ¬ KeepsMapTypes (labelledPool "Tags").files [] (labelledPlan "Tags") := by
  have h := derivation_labelled (Or.inr rfl : "Tags" = "labels" ∨ "Tags" = "Tags")
  have hitem : ∃ file ∈ (labelledPool "Tags").files, ∃ d ∈ file.declared,
      "." ++ d.fullName = inScope ".p" d.decl.name ∧
      (plainMessage (labelledPlan "Tags") file.dialect
          (fileEntries (labelledPlan "Tags").renames (labelledPool "Tags").files) ".p" d.decl).messages.map
          (fun nested => (nested.name, nested.entryTypes))
        = [("TagsEntry", ⟨some (.scalar .string), some (.scalar .int32), none⟩)] ∧
      ∃ mp ∈ (labelledPlan "Tags").messages,
        (labelledPlan "Tags").message? (inScope ".p" d.decl.name) = some mp ∧ mp.generate ∧
        mp.newFullName = ".p.ItemPlain" ∧ ∃ fp ∈ mp.fields, fp.shape.name = "Tags" ∧
          fp.shape.isMap ∧ fp.shape.typeRef.isSome ∧
          fp.source = some { message := ".p.Attrs", name := "Tags", number := 1 } := by
    decide +kernel
  have hchecks : (∃ owner ∈ (Schema.ofPool (Pool.link (labelledPool "Tags").files) []).messages,
        ∃ leaf ∈ owner.fields,
          (Schema.ofPool (Pool.link (labelledPool "Tags").files) []).message? ".p.Attrs" = some owner ∧
          owner.field? "Tags" = some leaf ∧ leaf.typeRef = some ".p.Attrs.TagsEntry") ∧
      (∃ file ∈ (labelledPool "Tags").files, ∃ e ∈ file.declared,
        "." ++ e.fullName = inScope ".p.Attrs" e.decl.name ∧
        inScope ".p.Attrs" e.decl.name = ".p.Attrs.TagsEntry" ∧ e.decl.isMapEntry ∧
        e.decl.entryTypes = ⟨some (.scalar .string), some (.scalar .string), none⟩) ∧
      (labelledPlan "Tags").renames.rename ".p.ItemPlain.TagsEntry" = ".p.ItemPlain.TagsEntry" := by
    decide +kernel
  obtain ⟨hattrs, hentry, hsettled⟩ := hchecks
  obtain ⟨file, hfile, d, hd, hfull, hmessages, mp, -, hmp, hgenerate, hnew, fp, hfp, hname, hmap,
    hcarried, hsource⟩ := hitem
  obtain ⟨owner, -, leaf, -, howner, hleaf, hold⟩ := hattrs
  obtain ⟨other, hother, e, he, hfull', hrefers, hisEntry, htypes⟩ := hentry
  obtain ⟨m, hderives⟩ := h.derivesMessage_of_declares hfile ⟨d, hd, rfl, hfull⟩ hmp hgenerate
  have hfields := fields_plainMessage (labelledPlan "Tags") file.dialect
    (fileEntries (labelledPlan "Tags").renames (labelledPool "Tags").files) hmp hgenerate
  obtain ⟨⟨fp', field⟩, hmem, hpaired, -, hfield⟩ :=
    exists_left_of_forall₂ (forall₂_zip hfields) hfp
  obtain rfl : fp = fp' := hpaired.symm
  have hplans : PlansMap (labelledPool "Tags").files [] (labelledPlan "Tags") mp fp
      ".p.Attrs.TagsEntry" _ e.decl :=
    ⟨⟨hgenerate, hfp, ⟨_, owner, leaf, hsource, howner, hleaf, hold⟩, hcarried, rfl⟩, hmap, hisEntry,
      other, hother, ".p.Attrs", ⟨e, he, rfl, hfull'⟩, hrefers.symm⟩
  have hplaced : inScope mp.newFullName (entryName fp.shape.name) = ".p.ItemPlain.TagsEntry" := by
    rw [hnew, hname]
    decide +kernel
  have href := h.typeRef_of_plansMap hderives.source (h.isPlanOf_of_derivesMessage hderives) hfield
    hplans
  rw [h.expected_of_plansMap hplans, hplaced, hsettled] at href
  refine ⟨m, mp, _, fp, field, _, _, e.decl, hderives, hmem, hname, hplans, htypes, href, hmessages,
    fun hkeeps => ?_⟩
  obtain ⟨-, nested, hnested, -, hsame⟩ := hkeeps m mp _ hderives fp field hmem _ _ _ hplans
  have hlisted := List.mem_map_of_mem (f := fun nested : MessageDecl => (nested.name, nested.entryTypes))
    (List.mem_of_find?_eq_some hnested)
  rw [hmessages, List.mem_singleton, Prod.mk.injEq, hsame, htypes] at hlisted
  exact absurd hlisted.2 (by decide)

end PlainSchema
