import PlainSchema.Proofs.Derive.Fields
import PlainSchema.Proofs.Derive.Names
import PlainSchema.Proofs.Plan.Leaves

/-!
# References in the derived files

Every reference of the source files is renamed on its way to the derived files.  What is kept as it
was declared is renamed once: fields of messages that are not generated, extensions, methods, and
the entries that are copied into Plain messages.  The fields of a Plain message are renamed twice,
first in the plan and then with the file.  The second renaming changes nothing as long as the new
names are not themselves names of renamed messages; `Derivation.carries_expected_iff` says that this
is exactly when every reference ends up with the new name of the type that it names.
-/

namespace PlainSchema

open Proto

/-! ## References that are kept -/

/-- The site of a reference that a file declares. -/
inductive Site where
  /-- The type of a field of the message at some positions. -/
  | field (file : Nat) (messages : List Nat) (index : Nat)
  /-- The type of an extension; without positions it is one of the file. -/
  | extensionType (file : Nat) (messages : List Nat) (index : Nat)
  | extendee (file : Nat) (messages : List Nat) (index : Nat)
  | methodInput (file service method : Nat)
  | methodOutput (file service method : Nat)
  deriving DecidableEq, Repr

/-- The extensions that the file or the message at some positions declares. -/
def Proto.FileDecl.extensionsAt (file : FileDecl) : List Nat → List FieldDecl
  | [] => file.extensions
  | i :: rest => ((file.messageAt? (i :: rest)).map (·.2.extensions)).getD []

/-- The reference at a site. -/
def refAt? (files : List FileDecl) : Site → Option String
  | .field file messages index => do
    let (_, m) ← (← files[file]?).messageAt? messages
    (← m.fields[index]?).typeRef
  | .extensionType file messages index => do
    (← ((← files[file]?).extensionsAt messages)[index]?).typeRef
  | .extendee file messages index => do
    (← ((← files[file]?).extensionsAt messages)[index]?).extendee
  | .methodInput file service method => do
    let service ← (← files[file]?).services[service]?
    return (← service.methods[method]?).input
  | .methodOutput file service method => do
    let service ← (← files[file]?).services[service]?
    return (← service.methods[method]?).output

/-- Whether a site lies in what a plan keeps: a field of a generated message does not. -/
def Site.IsKept (files : List FileDecl) (plan : SchemaPlan) : Site → Prop
  | .field file messages _ => ∀ source scope m mp, files[file]? = some source →
    source.messageAt? messages = some (scope, m) →
    plan.message? (inScope scope m.name) = some mp → ¬ mp.generate
  | _ => True

/-! ## References of plans -/

/-- The field of a plan that stands for a source field of a type: the reference of the source
field, and the name that the Plain field should refer to.  That is the new name of the type, or of
the copy in the Plain message when the type is a map entry from elsewhere. -/
structure PlansReference (files : List FileDecl) (generate : List String) (plan : SchemaPlan)
    (mp : MessagePlan) (fp : FieldPlan) (old expected : String) : Prop where
  generated : mp.generate
  planned : fp ∈ mp.fields
  source : ∃ ref owner leaf, fp.source = some ref ∧
    (Schema.ofPool (Pool.link files) generate).message? ref.message = some owner ∧
    owner.field? ref.name = some leaf ∧ leaf.typeRef = some old
  carried : fp.shape.typeRef.isSome
  expected : expected = if fp.shape.isMap ∧
      (entryNamed? (fileEntries plan.renames files) (plan.renames.rename old)).isSome
    then mp.newFullName ++ "." ++ entryName fp.shape.name
    else plan.renames.rename old

/-- A reference of the source files, the name that it should have in the derived files, and the
name that it has there. -/
inductive Carries (files : List FileDecl) (generate : List String) (plan : SchemaPlan) :
    String → String → String → Prop
  | kept {site : Site} {old new : String} (hkept : site.IsKept files plan)
      (hold : refAt? files site = some old) (hnew : refAt? (plan.derive files) site = some new) :
      Carries files generate plan old (plan.renames.rename old) new
  | planned {i : Nat} {positions : List Nat} {source derived : FileDecl} {scope scope' : String}
      {m m' : MessageDecl} {mp : MessagePlan} {index : Nat} {fp : FieldPlan} {field : FieldDecl}
      {old expected new : String}
      (hsource : files[i]? = some source) (hderived : (plan.derive files)[i]? = some derived)
      (hm : source.messageAt? positions = some (scope, m))
      (hm' : derived.messageAt? positions = some (scope', m'))
      (hmp : plan.message? (inScope scope m.name) = some mp)
      (hplanned : PlansReference files generate plan mp fp old expected)
      (hindex : mp.fields[index]? = some fp) (hfield : m'.fields[index]? = some field)
      (hnew : field.typeRef = some new) :
      Carries files generate plan old expected new

namespace Derivation

variable {files : List FileDecl} {generate : List String} {settings : Settings}
  {plan : SchemaPlan}

/-! ## Renamed once -/

theorem derive_getElem? {i : Nat} {file : FileDecl} (hfile : files[i]? = some file) :
    (plan.derive files)[i]? = some (plan.deriveFile (fileEntries plan.renames files) file) := by
  rw [SchemaPlan.derive, List.getElem?_map, hfile, Option.map_some]

/-- The extensions of a generated message and of one that is not are kept alike. -/
theorem extensionsAt_derive (h : Derivation files generate settings plan) {file : FileDecl}
    (hfile : file ∈ files) (entries : List (String × MessageDecl)) {positions : List Nat}
    {index : Nat} {field : FieldDecl} (hfield : (file.extensionsAt positions)[index]? = some field) :
    ((plan.deriveFile entries file).extensionsAt positions)[index]?
      = some (plan.renames.retargetField field) := by
  cases positions with
  | nil =>
    change (file.extensions.map plan.renames.retargetField)[index]? = _
    rw [List.getElem?_map]
    exact congrArg _ hfield
  | cons i rest =>
    rw [FileDecl.extensionsAt] at hfield ⊢
    cases hat : file.messageAt? (i :: rest) with
    | none => simp [hat] at hfield
    | some found =>
      obtain ⟨scope, m⟩ := found
      rw [hat] at hfield
      rw [h.messageAt?_deriveFile hfile entries hat]
      have hdecl : Declares file scope m :=
        declares_of_messageAt? (h.simple.messages file hfile) (fun m hm => declares_top hm) hat
      obtain ⟨mp, -, hfound, -⟩ := h.rename_message hfile hdecl
      have hextensions : (plainMessage plan file.dialect entries scope m).extensions
          = m.extensions.map plan.renames.retargetField := by
        by_cases hgenerate : mp.generate
        · rw [plainMessage_generated plan file.dialect entries hfound hgenerate, retargetMessage_eq]
          rfl
        · rw [plainMessage_kept plan file.dialect entries hfound hgenerate]
      change (plainMessage plan file.dialect entries scope m).extensions[index]? = _
      rw [hextensions, List.getElem?_map]
      exact congrArg _ hfield

/-- What is kept is renamed once. -/
theorem refAt?_derive (h : Derivation files generate settings plan) {site : Site}
    (hkept : site.IsKept files plan) {old : String} (hold : refAt? files site = some old) :
    refAt? (plan.derive files) site = some (plan.renames.rename old) := by
  cases site with
  | field i positions index =>
    obtain ⟨file, hi, hold⟩ := Option.bind_eq_some_iff.mp hold
    obtain ⟨⟨scope, m⟩, hat, hold⟩ := Option.bind_eq_some_iff.mp hold
    obtain ⟨field, hindex, hold⟩ := Option.bind_eq_some_iff.mp hold
    have hfile := List.mem_of_getElem? hi
    have hdecl : Declares file scope m :=
      declares_of_messageAt? (h.simple.messages file hfile) (fun m hm => declares_top hm) hat
    obtain ⟨mp, -, hfound, -⟩ := h.rename_message hfile hdecl
    have hplain := plainMessage_kept plan file.dialect (fileEntries plan.renames files) hfound
      (hkept file scope m mp hi hat hfound)
    rw [refAt?, derive_getElem? hi]
    simp only [Option.bind_eq_bind, Option.bind_some, h.messageAt?_deriveFile hfile _ hat, hplain,
      List.getElem?_map, hindex, Option.map_some]
    change field.typeRef.map plan.renames.rename = _
    rw [hold, Option.map_some]
  | extensionType i positions index =>
    obtain ⟨file, hi, hold⟩ := Option.bind_eq_some_iff.mp hold
    obtain ⟨field, hindex, hold⟩ := Option.bind_eq_some_iff.mp hold
    have hplain := h.extensionsAt_derive (List.mem_of_getElem? hi)
      (fileEntries plan.renames files) hindex
    rw [refAt?, derive_getElem? hi]
    simp only [Option.bind_eq_bind, Option.bind_some, hplain]
    change field.typeRef.map plan.renames.rename = _
    rw [hold, Option.map_some]
  | extendee i positions index =>
    obtain ⟨file, hi, hold⟩ := Option.bind_eq_some_iff.mp hold
    obtain ⟨field, hindex, hold⟩ := Option.bind_eq_some_iff.mp hold
    have hplain := h.extensionsAt_derive (List.mem_of_getElem? hi)
      (fileEntries plan.renames files) hindex
    rw [refAt?, derive_getElem? hi]
    simp only [Option.bind_eq_bind, Option.bind_some, hplain]
    change field.extendee.map plan.renames.rename = _
    rw [hold, Option.map_some]
  | methodInput i service method =>
    obtain ⟨file, hi, hold⟩ := Option.bind_eq_some_iff.mp hold
    obtain ⟨decl, hservice, hold⟩ := Option.bind_eq_some_iff.mp hold
    obtain ⟨target, hmethod, hold⟩ := Option.bind_eq_some_iff.mp hold
    rw [refAt?, derive_getElem? hi, ← Option.some.inj hold]
    simp [SchemaPlan.deriveFile, Renames.retargetService, hservice, hmethod]
  | methodOutput i service method =>
    obtain ⟨file, hi, hold⟩ := Option.bind_eq_some_iff.mp hold
    obtain ⟨decl, hservice, hold⟩ := Option.bind_eq_some_iff.mp hold
    obtain ⟨target, hmethod, hold⟩ := Option.bind_eq_some_iff.mp hold
    rw [refAt?, derive_getElem? hi, ← Option.some.inj hold]
    simp [SchemaPlan.deriveFile, Renames.retargetService, hservice, hmethod]

/-! ## Renamed twice -/

theorem schema_message? (h : Derivation files generate settings plan) {m : SourceMessage}
    (hm : m ∈ (Schema.ofPool (Pool.link files) generate).messages) :
    (Schema.ofPool (Pool.link files) generate).message? m.fullName = some m := by
  obtain ⟨file, -, d, -, rfl⟩ := (mem_schema_messages generate).mp hm
  have hnodup := h.wellScoped.distinct
  rw [← List.nodup_reverse, ← List.map_reverse] at hnodup
  rw [Schema.message?, dotted, if_pos (by simp [SourceMessage.ofType])]
  exact find?_eq_some_of_nodup hnodup (List.mem_reverse.mpr hm)

theorem schema_field? (h : Derivation files generate settings plan) {m : SourceMessage}
    (hm : m ∈ (Schema.ofPool (Pool.link files) generate).messages) {field : SourceField}
    (hfield : field ∈ m.fields) : m.field? field.name = some field := by
  obtain ⟨file, hfile, d, hd, rfl⟩ := (mem_schema_messages generate).mp hm
  have hnames := (h.linked.messages file hfile d hd).names
  refine find?_eq_some_of_nodup (f := fun field : SourceField => field.name) ?_ hfield
  have hperm := ((sortBy_perm (fun a b : Field => a.number ≤ b.number)
    (d.decl.fields.map (linkField file.dialect d.fullName))).map (·.name)).nodup_iff
  simp only [SourceMessage.ofType, List.map_map, linkMessage]
  change (List.map (fun field : Field => field.name) _).Nodup
  rw [hperm, List.map_map]
  exact hnames

theorem typeRef_valuePlan (ctx : PlanContext) (m : SourceMessage) (field : SourceField)
    (scope : Scope) : (ctx.valuePlan m field scope).shape.typeRef = none ∨
      (ctx.valuePlan m field scope).shape.typeRef = field.typeRef := by
  rw [PlanContext.valuePlan]
  split
  · exact Or.inl rfl
  · split
    · exact Or.inl rfl
    · split
      · exact Or.inl rfl
      · exact Or.inr rfl

/-- A planned field refers to the type of its source field by the new name. -/
theorem typeRef_of_plansReference (h : Derivation files generate settings plan)
    {m : SourceMessage} (hm : m ∈ (Schema.ofPool (Pool.link files) generate).messages)
    {mp : MessagePlan}
    (hplan : m.IsPlanOf (Schema.ofPool (Pool.link files) generate) settings plan.renames mp)
    {fp : FieldPlan} {old expected : String}
    (href : PlansReference files generate plan mp fp old expected) :
    fp.shape.typeRef = some (plan.renames.rename old) := by
  obtain ⟨ref, owner, leaf, hsource, howner, hleaf, hold⟩ := href.source
  rcases hplan.traces fp href.planned with ⟨hnone, -⟩ | ⟨owner', leaf', hleads, hstands⟩
  · rw [hsource] at hnone
    exact absurd hnone (by simp)
  · have howner' := hleads.owner_mem hm
    have heq : ref = owner'.refTo leaf' := Option.some.inj (hsource.symm.trans hstands.source)
    rw [heq] at howner hleaf
    have hsame := (h.schema_message? howner').symm.trans howner
    obtain rfl := Option.some.inj hsame
    have hsame := (h.schema_field? howner' hleads.leaf_mem).symm.trans hleaf
    obtain rfl := Option.some.inj hsame
    have htype := hstands.typeRef
    rcases typeRef_valuePlan (PlanContext.ofFile (Schema.ofPool (Pool.link files) generate) m.file)
      owner' leaf' {} with hnone | hsome
    · rw [hnone, Option.map_none] at htype
      have hcarried := href.carried
      rw [htype] at hcarried
      exact absurd hcarried (by simp)
    · rw [htype, hsome, hold, Option.map_some]

/-- The reference that a Plain field is declared with, before the file is renamed, is the one that
it should have. -/
theorem declaredRef_of_plansReference (h : Derivation files generate settings plan)
    {m : SourceMessage} (hm : m ∈ (Schema.ofPool (Pool.link files) generate).messages)
    {mp : MessagePlan}
    (hplan : m.IsPlanOf (Schema.ofPool (Pool.link files) generate) settings plan.renames mp)
    {fp : FieldPlan} {old expected : String}
    (href : PlansReference files generate plan mp fp old expected) :
    fp.shape.declaredRef (fileEntries plan.renames files) mp.newFullName = some expected := by
  have htyped := h.typeRef_of_plansReference hm hplan href
  have hexpected := href.expected
  rw [FieldShape.declaredRef]
  by_cases hmap : fp.shape.isMap
  · rw [if_pos hmap, placeEntry, htyped, Option.getD_some]
    rw [hmap] at hexpected
    split
    · next hplaced =>
      rw [hexpected]
      split
      · exact congrArg some hplaced
      · rfl
    · cases hentry : entryNamed? (fileEntries plan.renames files) (plan.renames.rename old) with
      | none =>
        rw [hentry] at hexpected
        rw [hexpected]
        rfl
      | some entry =>
        rw [hentry] at hexpected
        rw [hexpected]
        rfl
  · rw [if_neg hmap, htyped, hexpected, if_neg fun hand => hmap hand.1]

/-- The message that a plan of the derivation is made for, with its place. -/
theorem exists_place_of_plan (h : Derivation files generate settings plan) {mp : MessagePlan}
    (hmp : mp ∈ plan.messages) :
    ∃ (i : Nat) (file : FileDecl) (positions : List Nat) (scope : String) (m : MessageDecl)
        (sm : SourceMessage), files[i]? = some file ∧
      file.messageAt? positions = some (scope, m) ∧
      plan.message? (inScope scope m.name) = some mp ∧
      sm ∈ (Schema.ofPool (Pool.link files) generate).messages ∧
      sm.IsPlanOf (Schema.ofPool (Pool.link files) generate) settings plan.renames mp := by
  obtain ⟨sm, hsm, hplan⟩ := exists_left_of_forall₂ h.plans.messages hmp
  have hnames : (Schema.ofPool (Pool.link files) generate).messages.map (·.fullName)
      = plan.messages.map (·.fullName) :=
    map_eq_map_of_forall₂ h.plans.messages fun _ _ hplan => hplan.outlines.fullName.symm
  obtain ⟨file, hfile, d, hd, rfl⟩ := (mem_schema_messages generate).mp hsm
  obtain ⟨i, hi⟩ := List.getElem?_of_mem hfile
  obtain ⟨positions, scope, hat, -, hfull⟩ := exists_messageAt?_declaredMessages rfl file.messages
    (h.simple.messages file hfile) d hd
  refine ⟨i, file, positions, scope, d.decl, _, hi, hat, ?_, hsm, hplan⟩
  have hfound : plan.message? mp.fullName = some mp :=
    find?_eq_some_of_nodup (hnames ▸ h.wellScoped.distinct) hmp
  rw [hplan.outlines.fullName] at hfound
  rw [← hfull]
  exact hfound

/-- A reference of a plan is renamed once more in the derived files. -/
theorem carries_planned (h : Derivation files generate settings plan) {mp : MessagePlan}
    (hmp : mp ∈ plan.messages) {fp : FieldPlan} {old expected : String}
    (href : PlansReference files generate plan mp fp old expected) :
    Carries files generate plan old expected (plan.renames.rename expected) := by
  obtain ⟨i, file, positions, scope, m, sm, hi, hat, hfound, hsm, hplan⟩ :=
    h.exists_place_of_plan hmp
  have hfile := List.mem_of_getElem? hi
  obtain ⟨index, hindex⟩ := List.getElem?_of_mem href.planned
  have hfields := fields_plainMessage plan file.dialect (fileEntries plan.renames files) hfound
    href.generated
  obtain ⟨field, hfield, hdeclared⟩ := exists_getElem?_of_forall₂ hfields hindex
  refine .planned hi (derive_getElem? hi) hat (h.messageAt?_deriveFile hfile _ hat) hfound href
    hindex hfield ?_
  rw [hdeclared.1]
  change (fp.shape.declaredRef _ mp.newFullName).map plan.renames.rename = _
  rw [h.declaredRef_of_plansReference hsm hplan href, Option.map_some]

/-- What a reference should be and what it is. -/
theorem carries_cases (h : Derivation files generate settings plan) {old expected new : String}
    (hcarries : Carries files generate plan old expected new) :
    new = expected ∨ ∃ mp ∈ plan.messages, ∃ fp,
      PlansReference files generate plan mp fp old expected ∧
        new = plan.renames.rename expected := by
  cases hcarries with
  | kept hkept hold hnew =>
    rw [h.refAt?_derive hkept hold] at hnew
    exact Or.inl (Option.some.inj hnew).symm
  | @planned i positions source derived scope scope' m m' mp index fp field _ _ _
      hi hi' hat hat' hfound href hindex hfield hnew =>
    have hfile := List.mem_of_getElem? hi
    rw [derive_getElem? hi] at hi'
    obtain rfl := Option.some.inj hi'
    rw [h.messageAt?_deriveFile hfile _ hat] at hat'
    obtain ⟨-, rfl⟩ := Prod.mk.inj (Option.some.inj hat')
    have hfields := fields_plainMessage plan source.dialect (fileEntries plan.renames files) hfound
      href.generated
    obtain ⟨field', hfield', hdeclared⟩ := exists_getElem?_of_forall₂ hfields hindex
    obtain rfl : field' = field := Option.some.inj (hfield'.symm.trans hfield)
    have hmem : mp ∈ plan.messages := List.mem_of_find?_eq_some hfound
    obtain ⟨sm, hsm, hplan⟩ := exists_left_of_forall₂ h.plans.messages hmem
    rw [hdeclared.1] at hnew
    change (fp.shape.declaredRef _ mp.newFullName).map plan.renames.rename = _ at hnew
    rw [h.declaredRef_of_plansReference hsm hplan href, Option.map_some] at hnew
    exact Or.inr ⟨mp, hmem, fp, href, (Option.some.inj hnew).symm⟩

/-! ## Types that references name -/

/-- The declared types have places. -/
theorem exists_typeAt? (h : Derivation files generate settings plan) {name : String}
    (hname : name ∈ messageNames files ∨ name ∈ enumNames files) :
    ∃ place, typeAt? files place = some ("." ++ name) := by
  have hmessage : ∀ file ∈ files, ∀ d ∈ file.declared, ∃ (i j : Nat) (rest : List Nat) (scope : String),
      files[i]? = some file ∧ file.messageAt? (j :: rest) = some (scope, d.decl) ∧
      "." ++ d.fullName = inScope scope d.decl.name := by
    intro file hfile d hd
    obtain ⟨i, hi⟩ := List.getElem?_of_mem hfile
    obtain ⟨positions, scope, hat, hne, hfull⟩ := exists_messageAt?_declaredMessages rfl
      file.messages (h.simple.messages file hfile) d hd
    obtain ⟨j, rest, rfl⟩ := List.exists_cons_of_ne_nil hne
    exact ⟨i, j, rest, scope, hi, hat, hfull⟩
  rcases hname with hname | hname
  · obtain ⟨file, hfile, d, hd, rfl⟩ := mem_messageNames.mp hname
    obtain ⟨i, j, rest, scope, hi, hat, hfull⟩ := hmessage file hfile d hd
    refine ⟨{ file := i, messages := j :: rest }, ?_⟩
    rw [typeAt?, hi, Option.bind_some, FileDecl.typeAt?, hat, Option.map_some, hfull]
    simp
  · rcases mem_enumNames.mp hname with ⟨file, hfile, d, hd, e, he, rfl⟩ | ⟨file, hfile, e, he, rfl⟩
    · obtain ⟨i, j, rest, scope, hi, hat, hfull⟩ := hmessage file hfile d hd
      obtain ⟨k, hk⟩ := List.getElem?_of_mem he
      have hne := ne_empty_of_dot_eq hfull (h.simple.messages file hfile d hd).1
      refine ⟨{ file := i, messages := j :: rest, enum := some k }, ?_⟩
      rw [typeAt?, hi, Option.bind_some, FileDecl.typeAt?, hat, Option.bind_some]
      · dsimp only
        rw [hk, Option.map_some, dot_qualify, packageScope_of_ne hne, hfull]
      · simp
    · obtain ⟨i, hi⟩ := List.getElem?_of_mem hfile
      obtain ⟨k, hk⟩ := List.getElem?_of_mem he
      refine ⟨{ file := i, messages := [], enum := some k }, ?_⟩
      rw [typeAt?, hi, Option.bind_some, FileDecl.typeAt?, hk, Option.map_some, dot_qualify]

end Derivation

end PlainSchema
