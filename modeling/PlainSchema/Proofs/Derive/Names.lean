import PlainSchema.Proofs.Derive.Places

/-!
# The names of derived files

Every message of the source files has a counterpart among the messages that the derived files
declare, in the same order; more messages may stand between them.  So the derived files declare
the renamed names of all types, and when they load no two types of the source share a new name,
`Derivation.rename_injective`.
-/

namespace PlainSchema

open Proto

theorem declaredMessages_append (scope : String) (parent : Option String)
    (ms more : List MessageDecl) :
    declaredMessages scope parent (ms ++ more)
      = declaredMessages scope parent ms ++ declaredMessages scope parent more := by
  induction ms with
  | nil => rfl
  | cons m ms ih => rw [List.cons_append, declaredMessages, declaredMessages, ih, List.append_assoc]

/-- A declared message of a derived file in the place of one of the source file. -/
structure Counterpart (plan : SchemaPlan) (dialect : Dialect)
    (entries : List (String × MessageDecl)) (d d' : DeclaredMessage) : Prop where
  fullName : "." ++ d'.fullName = plan.renames.rename ("." ++ d.fullName)
  decl : ∃ scope, "." ++ d.fullName = inScope scope d.decl.name ∧
    d'.decl = plainMessage plan dialect entries scope d.decl

namespace Derivation

variable {files : List FileDecl} {generate : List String} {settings : Settings}
  {plan : SchemaPlan} {file : FileDecl}

theorem plainMessage_name_ne (h : Derivation files generate settings plan) (hfile : file ∈ files)
    {scope : String} {m : MessageDecl} (hm : Declares file scope m)
    (entries : List (String × MessageDecl)) :
    (plainMessage plan file.dialect entries scope m).name ≠ "" := by
  obtain ⟨mp, -, hfound, -, -, hnew⟩ := h.rename_message hfile hm
  have hname : m.name ≠ "" := by
    obtain ⟨d, hd, rfl, -⟩ := hm
    exact (h.simple.messages file hfile d hd).1
  rw [plainMessage_name plan file.dialect entries hfound]
  split
  · next hgenerate =>
    rw [hnew hgenerate]
    intro hempty
    exact hname (String.append_eq_empty_iff.mp hempty).1
  · exact hname

/-- The messages of a scope and what is declared for them in the renamed scope. -/
def HasCounterparts (file : FileDecl) (plan : SchemaPlan) (dialect : Dialect)
    (entries : List (String × MessageDecl)) (m : MessageDecl) : Prop :=
  ∀ (q q' : String) (parent parent' : Option String),
    packageScope q' = plan.renames.rename (packageScope q) → Declares file (packageScope q) m →
    ∃ ds, ds.Sublist (declaredMessage q' parent'
        (plainMessage plan dialect entries (packageScope q) m)) ∧
      List.Forall₂ (Counterpart plan dialect entries) (declaredMessage q parent m) ds

theorem exists_counterparts_list {dialect : Dialect} {entries : List (String × MessageDecl)}
    {ms : List MessageDecl} (hall : ∀ m ∈ ms, HasCounterparts file plan dialect entries m)
    {q q' : String} (hq : packageScope q' = plan.renames.rename (packageScope q))
    (parent parent' : Option String) (hms : ∀ m ∈ ms, Declares file (packageScope q) m) :
    ∃ ds, ds.Sublist (declaredMessages q' parent'
        (plainMessages plan dialect entries (packageScope q) ms)) ∧
      List.Forall₂ (Counterpart plan dialect entries) (declaredMessages q parent ms) ds := by
  induction ms with
  | nil => exact ⟨[], List.nil_sublist _, .nil⟩
  | cons m ms ih =>
    obtain ⟨ds, hsub, hfirst⟩ := hall m List.mem_cons_self q q' parent parent' hq
      (hms m List.mem_cons_self)
    obtain ⟨rest, hsubs, hrest⟩ := ih (fun n hn => hall n (List.mem_cons_of_mem _ hn))
      fun n hn => hms n (List.mem_cons_of_mem _ hn)
    refine ⟨ds ++ rest, hsub.append hsubs, ?_⟩
    rw [declaredMessages]
    exact List.rel_append hfirst hrest

theorem hasCounterparts (h : Derivation files generate settings plan) (hfile : file ∈ files)
    (entries : List (String × MessageDecl)) (m : MessageDecl) :
    HasCounterparts file plan file.dialect entries m := by
  induction m using MessageDecl.nested_induction with
  | step m ih =>
    intro q q' parent parent' hq hm
    have hname : m.name ≠ "" := by
      obtain ⟨d, hd, rfl, -⟩ := hm
      exact (h.simple.messages file hfile d hd).1
    have hname' := h.plainMessage_name_ne hfile hm entries
    obtain ⟨mp, -, hfound, -⟩ := h.rename_message hfile hm
    obtain ⟨added, hadded⟩ := plainMessage_messages plan file.dialect entries hfound
    have hrename := h.rename_plainMessage hfile hm entries
    have hinner : packageScope (qualify q m.name) = inScope (packageScope q) m.name := by
      rw [packageScope_of_ne (qualify_ne_empty _ hname), dot_qualify]
    have hinner' : packageScope (qualify q'
          (plainMessage plan file.dialect entries (packageScope q) m).name)
        = plan.renames.rename (packageScope (qualify q m.name)) := by
      rw [packageScope_of_ne (qualify_ne_empty _ hname'), dot_qualify, hq, hrename, hinner]
    obtain ⟨ds, hsub, hall⟩ := exists_counterparts_list ih hinner' (some (qualify q m.name))
      (some (qualify q' (plainMessage plan file.dialect entries (packageScope q) m).name))
      fun n hn => hinner ▸ hm.nested hname hn
    rw [declaredMessage_eq q', hadded, declaredMessages_append, declaredMessage_eq q]
    refine ⟨_ :: ds, (hsub.trans ?_).cons_cons _, .cons ⟨?_, packageScope q, ?_, rfl⟩ hall⟩
    · rw [hinner]
      exact List.sublist_append_left _ _
    · change "." ++ qualify q' _ = plan.renames.rename ("." ++ qualify q m.name)
      rw [dot_qualify, dot_qualify, hq, hrename]
    · exact dot_qualify q m.name

/-- The messages of a file and their counterparts in the derived file, in step. -/
theorem exists_counterparts (h : Derivation files generate settings plan) (hfile : file ∈ files)
    (entries : List (String × MessageDecl)) :
    ∃ ds, ds.Sublist (plan.deriveFile entries file).declared ∧
      List.Forall₂ (Counterpart plan file.dialect entries) file.declared ds := by
  obtain ⟨ds, hsub, hall⟩ := exists_counterparts_list
    (fun m _ => h.hasCounterparts hfile entries m) (h.rename_package hfile).symm none none
    fun m hm => declares_top hm
  rw [← retarget_replaceMessages] at hsub
  exact ⟨ds, hsub, hall⟩

/-! ## New names -/

theorem rename_nestedEnum (h : Derivation files generate settings plan) (hfile : file ∈ files)
    {entries : List (String × MessageDecl)} {d d' : DeclaredMessage} (hd : d ∈ file.declared)
    (hcounterpart : Counterpart plan file.dialect entries d d') {e : EnumDecl}
    (he : e ∈ d.decl.enums) :
    plan.renames.rename ("." ++ qualify d.fullName e.name) = "." ++ qualify d'.fullName e.name := by
  obtain ⟨scope, hfull, hdecl⟩ := hcounterpart.decl
  have hdeclares : Declares file scope d.decl := ⟨d, hd, rfl, hfull⟩
  have hne := ne_empty_of_dot_eq hfull (h.simple.messages file hfile d hd).1
  have hfull' : "." ++ d'.fullName = inScope (plan.renames.rename scope)
      (plainMessage plan file.dialect entries scope d.decl).name := by
    rw [hcounterpart.fullName, hfull, h.rename_plainMessage hfile hdeclares]
  have hne' := ne_empty_of_dot_eq hfull' (h.plainMessage_name_ne hfile hdeclares entries)
  rw [dot_qualify, dot_qualify, packageScope_of_ne hne, packageScope_of_ne hne',
    hcounterpart.fullName, hfull, h.rename_enumIn hfile hdeclares he]

theorem rename_fileEnum (h : Derivation files generate settings plan) (hfile : file ∈ files)
    {e : EnumDecl} (he : e ∈ file.enums) :
    plan.renames.rename ("." ++ qualify file.package e.name) = "." ++ qualify file.package e.name := by
  rw [dot_qualify, h.rename_enumOf hfile he]

/-- The new names of the types of a message are names of types of its counterpart. -/
theorem typeNames_counterpart (h : Derivation files generate settings plan) (hfile : file ∈ files)
    (entries : List (String × MessageDecl)) {d d' : DeclaredMessage} (hd : d ∈ file.declared)
    (hcounterpart : Counterpart plan file.dialect entries d d') :
    (d.typeNames.map fun name => plan.renames.rename ("." ++ name)).Sublist
      (d'.typeNames.map ("." ++ ·)) := by
  obtain ⟨scope, hfull, hdecl⟩ := hcounterpart.decl
  obtain ⟨mp, -, hfound, -⟩ := h.rename_message hfile ⟨d, hd, rfl, hfull⟩
  obtain ⟨added, hadded⟩ := plainMessage_enums plan file.dialect entries hfound
  have henums : (d.decl.enums.map (qualify d.fullName ·.name)).map
        (fun name => plan.renames.rename ("." ++ name))
      = (d.decl.enums.map (qualify d'.fullName ·.name)).map ("." ++ ·) := by
    rw [List.map_map, List.map_map]
    exact List.map_congr_left fun e he => h.rename_nestedEnum hfile hd hcounterpart he
  rw [DeclaredMessage.typeNames, DeclaredMessage.typeNames, List.map_cons, List.map_cons, henums,
    hcounterpart.fullName, hdecl, hadded, List.map_append, List.map_append]
  exact (List.sublist_append_left _ _).cons_cons _

theorem typeNames_deriveFile (h : Derivation files generate settings plan) (hfile : file ∈ files)
    (entries : List (String × MessageDecl)) :
    (file.typeNames.map fun name => plan.renames.rename ("." ++ name)).Sublist
      ((plan.deriveFile entries file).typeNames.map ("." ++ ·)) := by
  obtain ⟨ds, hsub, hall⟩ := h.exists_counterparts hfile entries
  have henums : (file.enums.map (qualify file.package ·.name)).map
        (fun name => plan.renames.rename ("." ++ name))
      = (file.enums.map (qualify file.package ·.name)).map ("." ++ ·) := by
    rw [List.map_map, List.map_map]
    exact List.map_congr_left fun e he => h.rename_fileEnum hfile he
  have hmessages : ((file.declared.flatMap (·.typeNames)).map
        fun name => plan.renames.rename ("." ++ name)).Sublist
      ((ds.flatMap (·.typeNames)).map ("." ++ ·)) := by
    rw [List.map_flatMap, List.map_flatMap]
    exact flatMap_sublist_of_forall₂ (forall₂_mem hall) fun d d' ⟨hd, hcounterpart⟩ =>
      h.typeNames_counterpart hfile entries hd hcounterpart
  rw [FileDecl.typeNames, FileDecl.typeNames, List.map_append, List.map_append, henums]
  exact (hmessages.trans ((hsub.flatMap _).map _)).append (List.Sublist.refl _)

theorem typeNames_derive (h : Derivation files generate settings plan) :
    ((files.flatMap (·.typeNames)).map fun name => plan.renames.rename ("." ++ name)).Sublist
      (((plan.derive files).flatMap (·.typeNames)).map ("." ++ ·)) := by
  rw [SchemaPlan.derive, List.flatMap_map, List.map_flatMap, List.map_flatMap]
  exact List.Sublist.flatMap_right _ fun file hfile => h.typeNames_deriveFile hfile _

/-- When the derived files have no repeated names, no two types of the source share a new name. -/
theorem rename_injective (h : Derivation files generate settings plan)
    (hderived : ((plan.derive files).flatMap (·.symbols)).Nodup) {a b : String}
    (ha : a ∈ files.flatMap (·.typeNames)) (hb : b ∈ files.flatMap (·.typeNames))
    (hab : plan.renames.rename ("." ++ a) = plan.renames.rename ("." ++ b)) : a = b := by
  have hnodup := h.typeNames_derive.nodup
    ((typeNames_nodup hderived).map fun _ _ heq => dot_append_injective heq)
  exact List.inj_on_of_nodup_map hnodup ha hb hab

end Derivation

end PlainSchema
