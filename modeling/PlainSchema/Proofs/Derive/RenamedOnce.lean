import PlainSchema.Proofs.Derive.References

/-!
# When every reference is renamed once

`references_renamed_once_iff` is the main result about references: for every pool that loads, every
suffix without a dot and every plan, the references of the derived files have the names that they
should have exactly if the second renaming changes no reference of a plan.  The new name of a type
is the name that the derived files give to what stands in its place, and once they load no other
type of the source has that name.

The condition fails when the Plain name of one message is the original name of another generated
message: with `Item` and `ItemPlain` both generated, a field of type `Item` ends up with the type
`ItemPlainPlain`, see `item_reference_renamed_twice`.
-/

namespace PlainSchema

open Proto

/-- Every reference has the name that it should have. -/
def RenamesOnce (files : List FileDecl) (generate : List String) (plan : SchemaPlan) : Prop :=
  ∀ old expected new, Carries files generate plan old expected new → new = expected

/-- The second renaming changes no reference of a plan. -/
def KeepsPlannedReferences (files : List FileDecl) (generate : List String) (plan : SchemaPlan) :
    Prop :=
  ∀ mp ∈ plan.messages, ∀ fp old expected,
    PlansReference files generate plan mp fp old expected → plan.renames.rename expected = expected

namespace Derivation

variable {files : List FileDecl} {generate : List String} {settings : Settings}
  {plan : SchemaPlan}

theorem renamesOnce_iff (h : Derivation files generate settings plan) :
    RenamesOnce files generate plan ↔ KeepsPlannedReferences files generate plan := by
  constructor
  · intro honce mp hmp fp old expected href
    exact honce old expected _ (h.carries_planned hmp href)
  · intro hkeeps old expected new hcarries
    rcases h.carries_cases hcarries with heq | ⟨mp, hmp, fp, href, heq⟩
    · exact heq
    · rw [heq, hkeeps mp hmp fp old expected href]

/-! ## Named types -/

theorem mem_typeNames_of_typeAt? (h : Derivation files generate settings plan) {place : Place}
    {name : String} (hat : typeAt? files place = some name) :
    ∃ full ∈ files.flatMap (·.typeNames), name = "." ++ full := by
  obtain ⟨file, hget, hat⟩ := Option.bind_eq_some_iff.mp hat
  have hfile := List.mem_of_getElem? hget
  have hmessage : ∀ {s m}, file.messageAt? place.messages = some (s, m) → Declares file s m :=
    declares_of_messageAt? (h.simple.messages file hfile) fun m hm => declares_top hm
  simp only [← (typeNames_perm files).mem_iff, List.mem_append]
  rw [FileDecl.typeAt?.eq_def] at hat
  split at hat
  · exact absurd hat (by simp)
  · obtain ⟨e, he, rfl⟩ := Option.map_eq_some_iff.mp hat
    exact ⟨_, Or.inr (mem_enumNames.mpr (Or.inr ⟨file, hfile, e, List.mem_of_getElem? he, rfl⟩)),
      (dot_qualify _ _).symm⟩
  · obtain ⟨⟨s, m⟩, hsm, rfl⟩ := Option.map_eq_some_iff.mp hat
    obtain ⟨d, hd, rfl, hfull⟩ := hmessage hsm
    exact ⟨d.fullName, Or.inl (mem_messageNames.mpr ⟨file, hfile, d, hd, rfl⟩), hfull.symm⟩
  · obtain ⟨⟨s, m⟩, hsm, henum⟩ := Option.bind_eq_some_iff.mp hat
    obtain ⟨e, he, rfl⟩ := Option.map_eq_some_iff.mp henum
    obtain ⟨d, hd, rfl, hfull⟩ := hmessage hsm
    have hne := ne_empty_of_dot_eq hfull (h.simple.messages file hfile d hd).1
    refine ⟨qualify d.fullName e.name, Or.inr (mem_enumNames.mpr
      (Or.inl ⟨file, hfile, d, hd, e, List.mem_of_getElem? he, rfl⟩)), ?_⟩
    rw [dot_qualify, packageScope_of_ne hne, hfull]

/-- Of two types with different names, the derived files call what stands in their places by
different names. -/
theorem typeAt?_derive_ne (h : Derivation files generate settings plan) {plain : Pool}
    (hplain : Pool.load (plan.derive files) = .ok plain) {p q : Place} {a b : String}
    (ha : typeAt? files p = some a) (hb : typeAt? files q = some b) (hne : a ≠ b) :
    typeAt? (plan.derive files) p ≠ typeAt? (plan.derive files) q := by
  obtain ⟨full, hfull, rfl⟩ := h.mem_typeNames_of_typeAt? ha
  obtain ⟨other, hother, rfl⟩ := h.mem_typeNames_of_typeAt? hb
  rw [h.typeAt?_derive ha, h.typeAt?_derive hb]
  intro heq
  have hnodup := Pool.symbols_nodup hplain
  exact hne (congrArg _ (h.rename_injective hnodup hfull hother (Option.some.inj heq)))

/-- A source field of a type refers to a type that the files declare. -/
theorem declared_of_typeRef (h : Derivation files generate settings plan) {m : SourceMessage}
    (hm : m ∈ (Schema.ofPool (Pool.link files) generate).messages) {field : SourceField}
    (hfield : field ∈ m.fields) {ref : String} (href : field.typeRef = some ref) :
    ∃ name, (name ∈ messageNames files ∨ name ∈ enumNames files) ∧ ref = "." ++ name := by
  obtain ⟨file, hfile, d, hd, rfl⟩ := (mem_schema_messages generate).mp hm
  obtain ⟨linked, hlinked, rfl⟩ := List.mem_map.mp hfield
  obtain ⟨decl, hdecl, rfl⟩ := List.mem_map.mp (mem_sortBy.mp hlinked)
  have hname : ∀ name, String.ofList (("." ++ name : String).toList.drop 1) = name := by
    intro name
    simp
  change ((decl.type.typeName?).map ("." ++ ·)) = some ref at href
  rcases (h.linked.messages file hfile d hd).references decl hdecl with
    ⟨name, hmem, hdeclared, hkind⟩ | ⟨name, hmem, hdeclared, hkind⟩ | ⟨hscalar, -⟩
  · refine ⟨name, Or.inl hmem, ?_⟩
    rcases hkind with hkind | hkind <;>
    · rw [FieldDecl.type, hkind, hdeclared, Option.getD_some, hname] at href
      exact (Option.some.inj href).symm
  · refine ⟨name, Or.inr hmem, ?_⟩
    rw [FieldDecl.type, hkind, hdeclared, Option.getD_some, hname] at href
    exact (Option.some.inj href).symm
  · cases hkind : decl.kind with
    | scalar type => simp [FieldDecl.type, hkind, FieldType.typeName?] at href
    | _ => simp [hkind, Kind.isScalar] at hscalar

theorem declared_of_refersTo {field : FieldDecl} (hfield : RefersTo files field) {ref : String}
    (href : field.typeRef = some ref) (hne : ref ≠ "") :
    ∃ name, (name ∈ messageNames files ∨ name ∈ enumNames files) ∧ ref = "." ++ name := by
  rcases hfield with ⟨name, hname, hdeclared, -⟩ | ⟨name, hname, hdeclared, -⟩ | ⟨-, hempty⟩
  · exact ⟨name, Or.inl hname, Option.some.inj (href.symm.trans hdeclared)⟩
  · exact ⟨name, Or.inr hname, Option.some.inj (href.symm.trans hdeclared)⟩
  · rw [href] at hempty
    exact absurd (by simpa using hempty) hne

theorem mem_scopedExtensions (h : Derivation files generate settings plan) {file : FileDecl}
    (hfile : file ∈ files) {positions : List Nat} {field : FieldDecl}
    (hfield : field ∈ file.extensionsAt positions) :
    ∃ scope, (scope, field) ∈ file.scopedExtensions := by
  cases positions with
  | nil =>
    exact ⟨file.package, List.mem_append_right _ (List.mem_map_of_mem hfield)⟩
  | cons i rest =>
    rw [FileDecl.extensionsAt] at hfield
    cases hat : file.messageAt? (i :: rest) with
    | none => simp [hat] at hfield
    | some found =>
      obtain ⟨scope, m⟩ := found
      rw [hat] at hfield
      obtain ⟨d, hd, rfl, -⟩ : Declares file scope m :=
        declares_of_messageAt? (h.simple.messages file hfile) (fun m hm => declares_top hm) hat
      exact ⟨d.fullName, List.mem_append_left _
        (List.mem_flatMap_of_mem hd (List.mem_map_of_mem hfield))⟩

/-- What a reference names is declared by the source files. -/
theorem declared_of_carries (h : Derivation files generate settings plan)
    {old expected new : String} (hcarries : Carries files generate plan old expected new)
    (hne : old ≠ "") : ∃ place, typeAt? files place = some old := by
  suffices hdeclared : ∃ name, (name ∈ messageNames files ∨ name ∈ enumNames files) ∧
      old = "." ++ name by
    obtain ⟨name, hname, rfl⟩ := hdeclared
    exact h.exists_typeAt? hname
  cases hcarries with
  | @kept site _ _ hkept hold hnew =>
    cases site with
    | field i positions index =>
      obtain ⟨file, hi, hold⟩ := Option.bind_eq_some_iff.mp hold
      obtain ⟨⟨scope, m⟩, hat, hold⟩ := Option.bind_eq_some_iff.mp hold
      obtain ⟨field, hindex, href⟩ := Option.bind_eq_some_iff.mp hold
      have hfile := List.mem_of_getElem? hi
      obtain ⟨d, hd, rfl, -⟩ : Declares file scope m :=
        declares_of_messageAt? (h.simple.messages file hfile) (fun m hm => declares_top hm) hat
      exact declared_of_refersTo ((h.linked.messages file hfile d hd).references field
        (List.mem_of_getElem? hindex)) href hne
    | extensionType i positions index =>
      obtain ⟨file, hi, hold⟩ := Option.bind_eq_some_iff.mp hold
      obtain ⟨field, hindex, hold⟩ := Option.bind_eq_some_iff.mp hold
      have hfile := List.mem_of_getElem? hi
      obtain ⟨scope, hmem⟩ := h.mem_scopedExtensions hfile (List.mem_of_getElem? hindex)
      exact declared_of_refersTo (h.linked.extensions file hfile _ hmem).1 hold hne
    | extendee i positions index =>
      obtain ⟨file, hi, hold⟩ := Option.bind_eq_some_iff.mp hold
      obtain ⟨field, hindex, hold⟩ := Option.bind_eq_some_iff.mp hold
      have hfile := List.mem_of_getElem? hi
      obtain ⟨scope, hmem⟩ := h.mem_scopedExtensions hfile (List.mem_of_getElem? hindex)
      obtain ⟨name, hname, hextendee⟩ := (h.linked.extensions file hfile _ hmem).2
      exact ⟨name, Or.inl hname, Option.some.inj (hold.symm.trans hextendee)⟩
    | methodInput i service method =>
      obtain ⟨file, hi, hold⟩ := Option.bind_eq_some_iff.mp hold
      obtain ⟨decl, hservice, hold⟩ := Option.bind_eq_some_iff.mp hold
      obtain ⟨target, hmethod, hold⟩ := Option.bind_eq_some_iff.mp hold
      obtain ⟨name, hname, hinput⟩ := (h.linked.methods file (List.mem_of_getElem? hi) decl
        (List.mem_of_getElem? hservice) target (List.mem_of_getElem? hmethod)).1
      exact ⟨name, Or.inl hname, (Option.some.inj hold).symm.trans hinput⟩
    | methodOutput i service method =>
      obtain ⟨file, hi, hold⟩ := Option.bind_eq_some_iff.mp hold
      obtain ⟨decl, hservice, hold⟩ := Option.bind_eq_some_iff.mp hold
      obtain ⟨target, hmethod, hold⟩ := Option.bind_eq_some_iff.mp hold
      obtain ⟨name, hname, houtput⟩ := (h.linked.methods file (List.mem_of_getElem? hi) decl
        (List.mem_of_getElem? hservice) target (List.mem_of_getElem? hmethod)).2
      exact ⟨name, Or.inl hname, (Option.some.inj hold).symm.trans houtput⟩
  | planned hi hi' hat hat' hfound href hindex hfield hnew =>
    obtain ⟨ref, owner, leaf, -, howner, hleaf, hold⟩ := href.source
    exact h.declared_of_typeRef (List.mem_reverse.mp (List.mem_of_find?_eq_some howner))
      (List.mem_of_find?_eq_some hleaf) hold

/-! ## Copied map entries -/

theorem exists_of_mem_entriesOfAll {renames : Renames} {scope : String} {ms : List MessageDecl}
    {entry : String × MessageDecl} (h : entry ∈ entriesOfAll renames scope ms) :
    ∃ m ∈ ms, entry ∈ entriesOf renames scope m := by
  induction ms with
  | nil => simp [entriesOfAll] at h
  | cons m ms ih =>
    rw [entriesOfAll] at h
    rcases List.mem_append.mp h with h | h
    · exact ⟨m, List.mem_cons_self, h⟩
    · obtain ⟨n, hn, h⟩ := ih h
      exact ⟨n, List.mem_cons_of_mem _ hn, h⟩

/-- The entries of a set of files are map entries that the files declare. -/
theorem mem_entriesOf (renames : Renames) {file : FileDecl}
    (hsimple : ∀ d ∈ file.declared, IsSimple d.decl.name) {name : String} {entry : MessageDecl}
    (m : MessageDecl) : ∀ scope, Declares file scope m →
    (name, entry) ∈ entriesOf renames scope m →
    entry.isMapEntry ∧ ∃ s, Declares file s entry ∧
      name = renames.rename (inScope s entry.name) := by
  induction m using MessageDecl.nested_induction with
  | step m ih =>
    intro scope hm hmem
    have hcases : (m.isMapEntry ∧ (name, entry) = (renames.rename (inScope scope m.name), m)) ∨
        (name, entry) ∈ entriesOfAll renames (inScope scope m.name) m.messages := by
      cases m
      rw [entriesOf] at hmem
      rcases List.mem_append.mp hmem with hmem | hmem
      · left
        split at hmem
        · next hentry => exact ⟨hentry, List.mem_singleton.mp hmem⟩
        · simp at hmem
      · exact Or.inr hmem
    rcases hcases with ⟨hentry, heq⟩ | hmem
    · obtain ⟨rfl, rfl⟩ := Prod.mk.inj heq
      exact ⟨hentry, scope, hm, rfl⟩
    · obtain ⟨n, hn, hmem⟩ := exists_of_mem_entriesOfAll hmem
      have hname : m.name ≠ "" := by
        obtain ⟨d, hd, rfl, -⟩ := hm
        exact (hsimple d hd).1
      exact ih n hn _ (hm.nested hname hn) hmem

/-- A map entry that is found by a new name is declared by the source files, under the name that
became the new one. -/
theorem declares_of_entryNamed? (h : Derivation files generate settings plan) {name : String}
    {entry : MessageDecl}
    (hentry : entryNamed? (fileEntries plan.renames files) name = some entry) :
    entry.isMapEntry ∧ ∃ file ∈ files, ∃ scope, Declares file scope entry ∧
      name = plan.renames.rename (inScope scope entry.name) := by
  obtain ⟨⟨key, found⟩, hfound, rfl⟩ := Option.map_eq_some_iff.mp hentry
  have hkey : key = name := by simpa using List.find?_some hfound
  have hmem := List.mem_reverse.mp (List.mem_of_find?_eq_some hfound)
  obtain ⟨file, hfile, hmem⟩ := List.mem_flatMap.mp hmem
  obtain ⟨m, hm, hmem⟩ := exists_of_mem_entriesOfAll hmem
  obtain ⟨hmap, scope, hdeclares, hname⟩ := mem_entriesOf plan.renames
    (h.simple.messages file hfile) m _ (declares_top hm) hmem
  exact ⟨hmap, file, hfile, scope, hdeclares, hkey ▸ hname⟩

end Derivation

/-- Every map entry that a Plain message has beyond those of its source message is the copy of a
source entry that a map field of its plan refers to, with its references renamed once. -/
def CopiesEntries (files : List FileDecl) (plan : SchemaPlan) : Prop :=
  ∀ (i : Nat) (source derived : FileDecl) (positions : List Nat) (scope scope' : String)
    (m m' : MessageDecl) (mp : MessagePlan), files[i]? = some source →
    (plan.derive files)[i]? = some derived → source.messageAt? positions = some (scope, m) →
    derived.messageAt? positions = some (scope', m') →
    plan.message? (inScope scope m.name) = some mp → mp.generate →
    ∀ added ∈ m'.messages.drop m.messages.length, added.isMapEntry →
    ∃ fp ∈ mp.fields, fp.shape.isMap ∧ ∃ file ∈ files, ∃ s entry, Declares file s entry ∧
      fp.shape.typeRef.getD "" = plan.renames.rename (inScope s entry.name) ∧
      added = retargetMessage plan.renames { entry with name := entryName fp.shape.name }

theorem Derivation.copiesEntries {files : List FileDecl} {generate : List String}
    {settings : Settings} {plan : SchemaPlan} (h : Derivation files generate settings plan) :
    CopiesEntries files plan := by
  intro i source derived positions scope scope' m m' mp hi hi' hat hat' hfound hgenerate added
    hadded hentry
  have hfile := List.mem_of_getElem? hi
  rw [Derivation.derive_getElem? hi] at hi'
  obtain rfl := Option.some.inj hi'
  rw [h.messageAt?_deriveFile hfile _ hat] at hat'
  obtain ⟨-, rfl⟩ := Prod.mk.inj (Option.some.inj hat')
  obtain ⟨fp, hfp, entry, hmap, hnamed, rfl⟩ := added_plainMessage plan source.dialect
    (fileEntries plan.renames files) hfound hgenerate added hadded hentry
  obtain ⟨-, file, hfile, s, hdeclares, hname⟩ := h.declares_of_entryNamed? hnamed
  exact ⟨fp, hfp, hmap, file, hfile, s, entry, hdeclares, hname, rfl⟩

/-! ## The main result -/

/-- **Every reference is renamed exactly once** as long as the second renaming changes no reference
of a plan.  The new name of a type is what the derived files call the type in its place, every
reference names a declared type, and types with different names stay apart when the derived files
load. -/
theorem references_renamed_once_iff {declared : List FileDecl} {pool : Pool}
    {generate : List String} {settings : Settings} {plan : SchemaPlan}
    (hload : Pool.load declared = .ok pool) (hnames : SimpleNames pool.files)
    (hsuffix : '.' ∉ settings.suffix.toList)
    (hplan : (Schema.ofPool pool generate).plan settings = .ok plan) :
    (RenamesOnce pool.files generate plan ↔ KeepsPlannedReferences pool.files generate plan) ∧
      (∀ place name, typeAt? pool.files place = some name →
        typeAt? (plan.derive pool.files) place = some (plan.renames.rename name)) ∧
      (∀ old expected new, Carries pool.files generate plan old expected new → old ≠ "" →
        ∃ place, typeAt? pool.files place = some old) ∧
      (∀ plain, Pool.load (plan.derive pool.files) = .ok plain → ∀ p q a b,
        typeAt? pool.files p = some a → typeAt? pool.files q = some b → a ≠ b →
        typeAt? (plan.derive pool.files) p ≠ typeAt? (plan.derive pool.files) q) ∧
      CopiesEntries pool.files plan := by
  obtain ⟨hpool, hlinked⟩ := Pool.load_eq_ok hload
  rw [hpool] at hplan
  have h : Derivation pool.files generate settings plan := ⟨hlinked, hnames, hsuffix, hplan⟩
  refine ⟨h.renamesOnce_iff, fun place name hat => h.typeAt?_derive hat, ?_, ?_, h.copiesEntries⟩
  · exact fun old expected new hcarries hne => h.declared_of_carries hcarries hne
  · exact fun plain hplain p q a b ha hb hne => h.typeAt?_derive_ne hplain ha hb hne

/-- The references are those that the plan declares its fields with. -/
theorem Derivation.keepsPlannedReferences {files : List FileDecl} {generate : List String}
    {settings : Settings} {plan : SchemaPlan} (h : Derivation files generate settings plan)
    (hkeeps : ∀ mp ∈ plan.messages, ∀ fp ∈ mp.fields,
      ∀ ref ∈ fp.shape.declaredRef (fileEntries plan.renames files) mp.newFullName,
        plan.renames.rename ref = ref) : KeepsPlannedReferences files generate plan := by
  intro mp hmp fp old expected href
  obtain ⟨sm, hsm, hplan⟩ := exists_left_of_forall₂ h.plans.messages hmp
  exact hkeeps mp hmp fp href.planned expected (h.declaredRef_of_plansReference hsm hplan href)

/-! ## A basket of items -/

/-- A basket with an item, and a message that has the Plain name of the item. -/
def basketFile (plainGenerated : Bool) : FileDecl :=
  { name := "basket.proto", package := "p"
    messages :=
      [{ name := "Item", options := { generate := true } },
        { name := if plainGenerated then "ItemPlain" else "Price"
          options := { generate := plainGenerated } },
        { name := "Basket", options := { generate := true }
          fields := [{ name := "item", number := 1, kind := .message, typeRef := some ".p.Item" }] }] }

/-- The pool of a basket. -/
def basketPool (plainGenerated : Bool) : Pool :=
  ((Pool.load [messageOptionsFile, basketFile plainGenerated]).toOption).getD {}

/-- The plan of a basket. -/
def basketPlan (plainGenerated : Bool) : SchemaPlan :=
  ((Schema.ofPool (basketPool plainGenerated) []).plan {}).toOption.getD
    { suffix := "", messages := [], renames := {}, diagnostics := [] }

/-- What can be read off a basket and its plan. -/
theorem basket_checks (plainGenerated : Bool) :
    (Pool.load [messageOptionsFile, basketFile plainGenerated]).isOk ∧
      ((Schema.ofPool (basketPool plainGenerated) []).plan {}).isOk ∧
      SimpleNames (basketPool plainGenerated).files := by
  cases plainGenerated <;> decide +kernel

theorem load_basket (plainGenerated : Bool) :
    Pool.load [messageOptionsFile, basketFile plainGenerated] = .ok (basketPool plainGenerated) :=
  eq_ok_of_isOk (basket_checks plainGenerated).1 _

theorem plan_basket (plainGenerated : Bool) :
    (Schema.ofPool (basketPool plainGenerated) []).plan {} = .ok (basketPlan plainGenerated) :=
  eq_ok_of_isOk (basket_checks plainGenerated).2.1 _

theorem simpleNames_basket (plainGenerated : Bool) :
    SimpleNames (basketPool plainGenerated).files :=
  (basket_checks plainGenerated).2.2

theorem derivation_basket (plainGenerated : Bool) :
    Derivation (basketPool plainGenerated).files [] {} (basketPlan plainGenerated) := by
  obtain ⟨hpool, hlinked⟩ := Pool.load_eq_ok (load_basket plainGenerated)
  exact ⟨hlinked, simpleNames_basket plainGenerated, by decide, hpool ▸ plan_basket plainGenerated⟩

/-- Without a clash of names the references of the basket are renamed once. -/
theorem basket_references_renamed_once :
    RenamesOnce (basketPool false).files [] (basketPlan false) :=
  (references_renamed_once_iff (load_basket false) (simpleNames_basket false) (by decide)
    (plan_basket false)).1.mpr ((derivation_basket false).keepsPlannedReferences (by decide +kernel))

/-- With the Plain name of the item generated too, the reference to the item is renamed twice. -/
theorem item_reference_renamed_twice :
    Carries (basketPool true).files [] (basketPlan true) ".p.Item" ".p.ItemPlain"
        ".p.ItemPlainPlain" ∧
      ¬ RenamesOnce (basketPool true).files [] (basketPlan true) := by
  have hchecks : (∃ mp ∈ (basketPlan true).messages, ∃ fp ∈ mp.fields, mp.generate ∧
        fp.source = some { message := ".p.Basket", name := "item", number := 1 } ∧
        fp.shape.typeRef.isSome ∧ ¬ fp.shape.isMap) ∧
      (∃ owner ∈ (Schema.ofPool (Pool.link (basketPool true).files) []).messages,
        ∃ leaf ∈ owner.fields,
          (Schema.ofPool (Pool.link (basketPool true).files) []).message? ".p.Basket" = some owner ∧
          owner.field? "item" = some leaf ∧ leaf.typeRef = some ".p.Item") ∧
      (basketPlan true).renames.rename ".p.Item" = ".p.ItemPlain" ∧
      (basketPlan true).renames.rename ".p.ItemPlain" = ".p.ItemPlainPlain" := by
    decide +kernel
  obtain ⟨hfield, hsource, hrename⟩ := hchecks
  obtain ⟨mp, hmp, fp, hfp, hgenerate, href, hcarried, hmap⟩ := hfield
  obtain ⟨owner, -, leaf, -, howner, hleaf, hold⟩ := hsource
  have hplanned : PlansReference (basketPool true).files [] (basketPlan true) mp fp ".p.Item"
      ".p.ItemPlain" :=
    ⟨hgenerate, hfp, ⟨_, owner, leaf, href, howner, hleaf, hold⟩, hcarried, by
      rw [if_neg fun hand => hmap hand.1, hrename.1]⟩
  have hcarries := (derivation_basket true).carries_planned hmp hplanned
  rw [hrename.2] at hcarries
  exact ⟨hcarries, fun honce => absurd (honce _ _ _ hcarries) (by decide)⟩

end PlainSchema
