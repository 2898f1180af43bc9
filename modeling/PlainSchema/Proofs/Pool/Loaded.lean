import Mathlib.Data.List.Nodup
import Mathlib.Data.List.Perm.Basic
import PlainSchema.Proofs.Pool.Resolved

/-!
# What loading ensures

A set of files that loads is checked before and after its references are resolved, and the pool
holds the resolved files.  `Pool.load_eq_ok` collects what the checks leave: `FilesLinked` says that
no two declarations of the files share a name, no name is that of a package, the fields of a
message have numbers of their own, and every reference names a declared type.
-/

namespace PlainSchema

open Proto

/-! ## Refusals -/

theorem firstRepeated?_eq_none {α : Type} [BEq α] [LawfulBEq α] {xs : List α} :
    firstRepeated? xs = none ↔ xs.Nodup := by
  induction xs with
  | nil => simp [firstRepeated?]
  | cons x xs ih =>
    rw [firstRepeated?, List.nodup_cons]
    split
    · next h => simp only [reduceCtorEq, false_iff, not_and]; exact fun hx => absurd (by simpa using h) hx
    · next h => rw [ih]; simp only [iff_and_self]; exact fun _ => by simpa using h

theorem refuseAny_eq_ok {α : Type} {finding : Option α} {error : α → PoolError} :
    refuseAny finding error = .ok () ↔ finding = none := by
  cases finding <;> simp [refuseAny]

theorem require_eq_ok {condition : Bool} {error : PoolError} :
    require condition error = .ok () ↔ condition := by
  cases condition <;> simp [require]

/-! ## Names -/

/-- The full names of the messages of a set of files. -/
def messageNames (files : List FileDecl) : List String :=
  files.flatMap fun file => file.declared.map (·.fullName)

/-- The full names of the enums of a set of files. -/
def enumNames (files : List FileDecl) : List String :=
  files.flatMap fun file => file.enumDecls.map (·.1)

theorem mem_messageNames {files : List FileDecl} {name : String} :
    name ∈ messageNames files ↔ ∃ file ∈ files, ∃ d ∈ file.declared, d.fullName = name := by
  simp [messageNames]

/-- The enums of a set of files stand in messages or at the top of files. -/
theorem mem_enumDecls {files : List FileDecl} {name : String} {e : EnumDecl} :
    (name, e) ∈ files.flatMap (·.enumDecls) ↔
      (∃ file ∈ files, ∃ d ∈ file.declared, e ∈ d.decl.enums ∧ qualify d.fullName e.name = name) ∨
        ∃ file ∈ files, e ∈ file.enums ∧ qualify file.package e.name = name := by
  simp only [FileDecl.enumDecls, List.mem_flatMap, List.mem_map, List.mem_append, Prod.mk.injEq]
  constructor
  · rintro ⟨file, hfile, ⟨d, hd, _, he, rfl, rfl⟩ | ⟨_, he, rfl, rfl⟩⟩
    · exact Or.inl ⟨file, hfile, d, hd, he, rfl⟩
    · exact Or.inr ⟨file, hfile, he, rfl⟩
  · rintro (⟨file, hfile, d, hd, he, rfl⟩ | ⟨file, hfile, he, rfl⟩)
    · exact ⟨file, hfile, Or.inl ⟨d, hd, e, he, rfl, rfl⟩⟩
    · exact ⟨file, hfile, Or.inr ⟨e, he, rfl, rfl⟩⟩

theorem mem_enumNames_iff_mem_enumDecls {files : List FileDecl} {name : String} :
    name ∈ enumNames files ↔ ∃ e, (name, e) ∈ files.flatMap (·.enumDecls) := by
  rw [enumNames, ← List.map_flatMap, List.mem_map]
  simp

theorem mem_enumNames {files : List FileDecl} {name : String} :
    name ∈ enumNames files ↔
      (∃ file ∈ files, ∃ d ∈ file.declared, ∃ e ∈ d.decl.enums, qualify d.fullName e.name = name) ∨
        ∃ file ∈ files, ∃ e ∈ file.enums, qualify file.package e.name = name := by
  rw [mem_enumNames_iff_mem_enumDecls]
  simp only [mem_enumDecls]
  constructor
  · rintro ⟨e, ⟨file, hfile, d, hd, he, rfl⟩ | ⟨file, hfile, he, rfl⟩⟩
    · exact Or.inl ⟨file, hfile, d, hd, e, he, rfl⟩
    · exact Or.inr ⟨file, hfile, e, he, rfl⟩
  · rintro (⟨file, hfile, d, hd, e, he, rfl⟩ | ⟨file, hfile, e, he, rfl⟩)
    · exact ⟨e, Or.inl ⟨file, hfile, d, hd, he, rfl⟩⟩
    · exact ⟨e, Or.inr ⟨file, hfile, he, rfl⟩⟩

theorem enum_mem_enumSymbols (scope : String) (enums : List EnumDecl) :
    (enums.map (qualify scope ·.name)).Sublist (enums.flatMap (enumSymbols scope)) := by
  induction enums with
  | nil => exact List.Sublist.refl _
  | cons e enums ih =>
    rw [List.map_cons, List.flatMap_cons, enumSymbols, List.cons_append]
    exact (ih.trans (List.sublist_append_right _ _)).cons_cons _

/-- The full names of a message and of the enums in it. -/
def DeclaredMessage.typeNames (d : DeclaredMessage) : List String :=
  d.fullName :: d.decl.enums.map (qualify d.fullName ·.name)

/-- The full names of the types of a file, the enums of a message behind the message. -/
def Proto.FileDecl.typeNames (file : FileDecl) : List String :=
  file.declared.flatMap (·.typeNames) ++ file.enums.map (qualify file.package ·.name)

theorem DeclaredMessage.typeNames_sublist_symbols (d : DeclaredMessage) :
    d.typeNames.Sublist d.symbols := by
  rw [typeNames, symbols, List.cons_append, List.cons_append, List.cons_append]
  refine List.Sublist.cons_cons _ ?_
  exact ((enum_mem_enumSymbols _ _).trans (List.sublist_append_right _ _)).trans
    (List.sublist_append_left _ _)

theorem typeNames_sublist_symbols (file : FileDecl) : file.typeNames.Sublist file.symbols :=
  ((List.Sublist.flatMap_right _ fun d _ => d.typeNames_sublist_symbols).append
    (enum_mem_enumSymbols file.package file.enums)).trans
    ((List.sublist_append_left _ (file.extensions.map (qualify file.package ·.name))).trans
      (List.sublist_append_left _ (file.services.flatMap fun s => qualify file.package s.name
        :: s.methods.map fun m => qualify (qualify file.package s.name) m.name)))

/-- The names of the messages and then of the enums of a file, in another order. -/
theorem types_perm_typeNames (file : FileDecl) :
    (file.declared.map (·.fullName) ++ file.enumDecls.map (·.1)).Perm file.typeNames := by
  have henums : file.enumDecls.map (·.1)
      = file.declared.flatMap (fun d => d.decl.enums.map (qualify d.fullName ·.name))
        ++ file.enums.map (qualify file.package ·.name) := by
    simp [FileDecl.enumDecls, List.map_flatMap, Function.comp_def]
  rw [henums, ← List.append_assoc, FileDecl.typeNames]
  exact (List.map_append_flatMap_perm _ _ _).append_right _

theorem sublist_flatMap_of_mem {α β : Type} (f : α → List β) {xs : List α} {x : α} (hx : x ∈ xs) :
    (f x).Sublist (xs.flatMap f) := by
  rw [List.flatMap_def]
  exact List.sublist_flatten_of_mem (List.mem_map_of_mem hx)

theorem perm_flatMap {α β : Type} {f g : α → List β} (h : ∀ x, (f x).Perm (g x))
    (xs : List α) : (xs.flatMap f).Perm (xs.flatMap g) := by
  induction xs with
  | nil => exact List.Perm.refl _
  | cons x xs ih => exact (h x).append ih

theorem typeNames_perm (files : List FileDecl) :
    (messageNames files ++ enumNames files).Perm (files.flatMap (·.typeNames)) := by
  rw [messageNames, enumNames]
  exact (List.flatMap_append_perm files _ _).trans (perm_flatMap types_perm_typeNames files)

theorem typeNames_nodup {files : List FileDecl} (h : (files.flatMap (·.symbols)).Nodup) :
    (files.flatMap (·.typeNames)).Nodup :=
  (List.Sublist.flatMap_right _ fun file _ => typeNames_sublist_symbols file).nodup h

/-- Messages and enums of files without repeated names have names of their own. -/
theorem types_nodup {files : List FileDecl} (h : (files.flatMap (·.symbols)).Nodup) :
    (messageNames files ++ enumNames files).Nodup :=
  (typeNames_perm files).nodup_iff.mpr (typeNames_nodup h)

/-! ## References -/

/-- A field is of a message or enum type that the files declare, or of none. -/
def RefersTo (files : List FileDecl) (field : FieldDecl) : Prop :=
  (∃ name ∈ messageNames files, field.typeRef = some ("." ++ name) ∧
      (field.kind = .message ∨ field.kind = .group)) ∨
    (∃ name ∈ enumNames files, field.typeRef = some ("." ++ name) ∧ field.kind = .enum) ∨
    (field.kind.isScalar ∧ field.typeRef.all (·.isEmpty))

/-- The fields and oneofs of a declared message have names of their own, and its fields have numbers
of their own, stand in oneofs that exist, and refer to declared types. -/
structure FieldsLinked (files : List FileDecl) (d : DeclaredMessage) : Prop where
  names : (d.decl.fields.map (·.name)).Nodup
  oneofNames : (d.decl.oneofs.map (·.name)).Nodup
  numbers : (d.decl.fields.map (·.number)).Nodup
  usable : ∀ field ∈ d.decl.fields, isFieldNumber field.number
  oneofs : ∀ field ∈ d.decl.fields, ∀ i, field.oneofIndex = some i →
    0 ≤ i ∧ i < Int.ofNat d.decl.oneofs.length
  references : ∀ field ∈ d.decl.fields, RefersTo files field

/-- Files as a pool holds them. -/
structure FilesLinked (files : List FileDecl) : Prop where
  fileNames : (files.map (·.name)).Nodup
  symbols : (files.flatMap (·.symbols)).Nodup
  packages : ∀ package ∈ files.flatMap (·.packages), package ∉ files.flatMap (·.symbols)
  messages : ∀ file ∈ files, ∀ d ∈ file.declared, FieldsLinked files d
  extensions : ∀ file ∈ files, ∀ e ∈ file.scopedExtensions, RefersTo files e.2 ∧
    ∃ name ∈ messageNames files, e.2.extendee = some ("." ++ name)
  methods : ∀ file ∈ files, ∀ service ∈ file.services, ∀ method ∈ service.methods,
    (∃ name ∈ messageNames files, method.input = "." ++ name) ∧
      ∃ name ∈ messageNames files, method.output = "." ++ name

/-- The symbols that a file sees are those of messages, enums and extensions of the files. -/
theorem symbol_mem_names {files : List FileDecl} {file : FileDecl} {symbol : Symbol}
    (h : symbol ∈ (Visibility.ofFile files file).symbols) :
    (symbol.sort = .message → symbol.name ∈ messageNames files) ∧
      (symbol.sort = .enum → symbol.name ∈ enumNames files) := by
  obtain ⟨owner, howner, hreferent⟩ := List.mem_flatMap.mp h
  have howner := (List.mem_filter.mp howner).1
  rw [FileDecl.referents, List.mem_append, List.mem_append, List.mem_flatMap] at hreferent
  rw [mem_messageNames, mem_enumNames]
  rcases hreferent with (⟨d, hd, hreferent⟩ | henum) | hextension
  · rw [DeclaredMessage.referents, List.mem_append, List.mem_cons, List.mem_map,
      List.mem_map] at hreferent
    rcases hreferent with (rfl | ⟨e, he, rfl⟩) | ⟨e, he, rfl⟩
    · exact ⟨fun _ => ⟨owner, howner, d, hd, rfl⟩, fun hsort => by simp at hsort⟩
    · exact ⟨fun hsort => by simp at hsort, fun _ => Or.inl ⟨owner, howner, d, hd, e, he, rfl⟩⟩
    · exact ⟨fun hsort => by simp at hsort, fun hsort => by simp at hsort⟩
  · obtain ⟨e, he, rfl⟩ := List.mem_map.mp henum
    exact ⟨fun hsort => by simp at hsort, fun _ => Or.inr ⟨owner, howner, e, he, rfl⟩⟩
  · obtain ⟨e, he, rfl⟩ := List.mem_map.mp hextension
    exact ⟨fun hsort => by simp at hsort, fun hsort => by simp at hsort⟩

theorem refersTo_of_resolveField {files : List FileDecl} {file : FileDecl} {scope : String}
    {field field' : FieldDecl}
    (h : (Visibility.ofFile files file).resolveField scope field = .ok field') :
    RefersTo files field' := by
  obtain ⟨-, ⟨symbol, hsymbol, htype, href, hkind⟩ | ⟨hscalar, rfl, hempty⟩⟩ :=
    Visibility.resolveField_eq_ok h
  · have hnames := symbol_mem_names hsymbol
    rw [Symbol.kind] at hkind
    cases hsort : symbol.sort with
    | message =>
      refine Or.inl ⟨symbol.name, hnames.1 hsort, href, ?_⟩
      rw [hkind, hsort]
      by_cases hgroup : field.kind = .group <;> simp [hgroup]
    | enum =>
      refine Or.inr (Or.inl ⟨symbol.name, hnames.2 hsort, href, ?_⟩)
      simp [hkind, hsort]
    | extension => simp [Symbol.isType, hsort] at htype
  · exact Or.inr (Or.inr ⟨hscalar, hempty⟩)

theorem message_of_resolveMessage {files : List FileDecl} {file : FileDecl} {scope ref ref' : String}
    (h : (Visibility.ofFile files file).resolveMessage scope ref = .ok ref') :
    ∃ name ∈ messageNames files, ref' = "." ++ name := by
  obtain ⟨symbol, hsymbol, hsort, rfl⟩ := Visibility.resolveMessage_eq_ok h
  exact ⟨symbol.name, (symbol_mem_names hsymbol).1 hsort, rfl⟩

theorem refersTo_of_resolveExtension {files : List FileDecl} {file : FileDecl} {scope : String}
    {field field' : FieldDecl}
    (h : (Visibility.ofFile files file).resolveExtension scope field = .ok field') :
    RefersTo files field' ∧ ∃ name ∈ messageNames files, field'.extendee = some ("." ++ name) := by
  obtain ⟨resolved, extendee, hresolved, hextendee, rfl⟩ := Visibility.resolveExtension_eq_ok h
  obtain ⟨name, hname, rfl⟩ := message_of_resolveMessage hextendee
  have href : RefersTo files resolved := refersTo_of_resolveField hresolved
  exact ⟨href, name, hname, rfl⟩

/-! ## Loading -/

section Resolving

variable {files files' : List FileDecl}

/-- The files and the resolved files, in step. -/
theorem forall₂_files (h : resolveFiles files = .ok files') :
    List.Forall₂ (fun file file' =>
      (Visibility.ofFile files file).resolveFile file = .ok file') files files' :=
  mapM_eq_ok.mp h

theorem messageNames_resolveFiles (h : resolveFiles files = .ok files') :
    messageNames files = messageNames files' :=
  flatMap_eq_flatMap_of_forall₂ (forall₂_files h) fun _ _ hfile =>
    map_eq_map_of_forall₂ (forall₂_declared hfile) fun _ _ hd => hd.fullName.symm

/-- Resolving references leaves the enums as they are. -/
theorem enumDecls_resolveFiles (h : resolveFiles files = .ok files') :
    files.flatMap (·.enumDecls) = files'.flatMap (·.enumDecls) := by
  refine flatMap_eq_flatMap_of_forall₂ (forall₂_files h) fun file file' hfile => ?_
  have hrest := (Visibility.resolveFile_eq_ok hfile).2.2.2
  have hpackage : file'.package = file.package := by rw [hrest]
  have henums : file'.enums = file.enums := by rw [hrest]
  have hnested := flatMap_eq_flatMap_of_forall₂
    (f := fun d : DeclaredMessage => d.decl.enums.map fun e => (qualify d.fullName e.name, e))
    (g := fun d : DeclaredMessage => d.decl.enums.map fun e => (qualify d.fullName e.name, e))
    (forall₂_declared hfile) fun d d' hd => by rw [hd.fullName, hd.decl]
  rw [FileDecl.enumDecls, FileDecl.enumDecls, hpackage, henums, hnested]

theorem enumNames_resolveFiles (h : resolveFiles files = .ok files') :
    enumNames files = enumNames files' := by
  rw [enumNames, enumNames, ← List.map_flatMap, ← List.map_flatMap, enumDecls_resolveFiles h]

theorem refersTo_resolveFiles (h : resolveFiles files = .ok files') {field : FieldDecl} :
    RefersTo files field ↔ RefersTo files' field := by
  rw [RefersTo, RefersTo, messageNames_resolveFiles h, enumNames_resolveFiles h]

theorem fieldsLinked_of_resolves (h : resolveFiles files = .ok files') {file : FileDecl}
    {dialect : Dialect} {d d' : DeclaredMessage}
    (hd : d.ResolvesTo (Visibility.ofFile files file) d')
    (hsymbols : d.symbols.Nodup) (hcheck : checkMessage dialect d = .ok ()) :
    FieldsLinked files' d' := by
  have hfields := mapM_eq_ok.mp hd.fields
  have hsame : ∀ f f', (Visibility.ofFile files file).resolveField d.fullName f = .ok f' →
      f' = { f with kind := f'.kind, typeRef := f'.typeRef } :=
    fun _ _ hf => (Visibility.resolveField_eq_ok hf).1
  have hnames : d.decl.fields.map (·.name) = d'.decl.fields.map (·.name) :=
    map_eq_map_of_forall₂ hfields fun f f' hf => Visibility.name_resolveField hf
  have hnumbers : d.decl.fields.map (·.number) = d'.decl.fields.map (·.number) :=
    map_eq_map_of_forall₂ hfields fun f f' hf => by rw [hsame f f' hf]
  obtain ⟨_, hnumber, hcheck⟩ := bind_eq_ok.mp hcheck
  obtain ⟨_, hdistinct, hcheck⟩ := bind_eq_ok.mp hcheck
  have honeofs : d.decl.fields.find? (fun field => field.oneofIndex.any fun i =>
      i < 0 || Int.ofNat d.decl.oneofs.length ≤ i) = none := by
    by_cases hdialect : (dialect == .proto3) = true
    · rw [if_pos hdialect] at hcheck
      obtain ⟨_, _, hcheck⟩ := bind_eq_ok.mp hcheck
      obtain ⟨_, _, hcheck⟩ := bind_eq_ok.mp hcheck
      exact refuseAny_eq_ok.mp hcheck
    · rw [if_neg hdialect] at hcheck
      obtain ⟨_, _, hcheck⟩ := bind_eq_ok.mp hcheck
      exact refuseAny_eq_ok.mp hcheck
  have hsub : (d.decl.fields.map (qualify d.fullName ·.name)
      ++ d.decl.oneofs.map (qualify d.fullName ·.name)).Sublist d.symbols := by
    rw [DeclaredMessage.symbols, List.cons_append, List.cons_append, List.cons_append]
    exact (((List.sublist_append_left _ _).trans (List.sublist_append_left _ _)).trans
      (List.sublist_cons_self _ _))
  have hdistinctNames := List.nodup_append.mp (hsub.nodup hsymbols)
  refine ⟨?_, ?_, ?_, fun field' hfield' => ?_, fun field' hfield' i hi => ?_,
    fun field' hfield' => ?_⟩
  · rw [← hnames]
    refine List.Nodup.of_map (qualify d.fullName) ?_
    rw [List.map_map]
    exact hdistinctNames.1
  · rw [show d'.decl.oneofs = d.decl.oneofs by rw [hd.decl]]
    refine List.Nodup.of_map (qualify d.fullName) ?_
    rw [List.map_map]
    exact hdistinctNames.2.1
  · rw [← hnumbers]
    exact firstRepeated?_eq_none.mp (refuseAny_eq_ok.mp hdistinct)
  · obtain ⟨field, hfield, hf⟩ := exists_left_of_forall₂ hfields hfield'
    obtain ⟨_, hrequire, -⟩ := bind_eq_ok.mp (forM_eq_ok.mp hnumber field hfield)
    rw [require_eq_ok, Bool.and_eq_true] at hrequire
    rw [hsame field field' hf]
    exact hrequire.1
  · obtain ⟨field, hfield, hf⟩ := exists_left_of_forall₂ hfields hfield'
    have hindex : field.oneofIndex = some i := by rw [← hi, hsame field field' hf]
    have hlength : d'.decl.oneofs = d.decl.oneofs := by rw [hd.decl]
    have hnone := List.find?_eq_none.mp honeofs field hfield
    rw [hindex] at hnone
    simp only [Option.any_some, Bool.or_eq_true, decide_eq_true_eq, not_or] at hnone
    rw [hlength]
    omega
  · obtain ⟨field, hfield, hf⟩ := exists_left_of_forall₂ hfields hfield'
    exact (refersTo_resolveFiles h).mp (refersTo_of_resolveField hf)

theorem scopedExtensions_resolveFile {v : Visibility} {file file' : FileDecl}
    (h : v.resolveFile file = .ok file') {e' : String × FieldDecl}
    (he : e' ∈ file'.scopedExtensions) : ∃ e, v.resolveExtension e'.1 e = .ok e'.2 := by
  obtain ⟨-, hextensions, -, hfile⟩ := Visibility.resolveFile_eq_ok h
  have hpackage : file'.package = file.package := by rw [hfile]
  rw [FileDecl.scopedExtensions, List.mem_append, List.mem_flatMap] at he
  rcases he with ⟨d', hd', he⟩ | he
  · obtain ⟨field, hfield, rfl⟩ := List.mem_map.mp he
    obtain ⟨d, -, hd⟩ := exists_left_of_forall₂ (forall₂_declared h) hd'
    obtain ⟨e, -, he⟩ := exists_left_of_forall₂ (mapM_eq_ok.mp hd.extensions) hfield
    exact ⟨e, by rw [hd.fullName]; exact he⟩
  · obtain ⟨field, hfield, rfl⟩ := List.mem_map.mp he
    obtain ⟨e, -, he⟩ := exists_left_of_forall₂ (mapM_eq_ok.mp hextensions) hfield
    exact ⟨e, by rw [hpackage]; exact he⟩

/-- What checking names leaves. -/
theorem checkNames_eq_ok (h : checkNames files = .ok ()) :
    (files.map (·.name)).Nodup ∧ (files.flatMap (·.symbols)).Nodup ∧
      ∀ package ∈ files.flatMap (·.packages), package ∉ files.flatMap (·.symbols) := by
  obtain ⟨_, hdistinct, h⟩ := bind_eq_ok.mp h
  obtain ⟨_, _, h⟩ := bind_eq_ok.mp h
  obtain ⟨_, hnodup, h⟩ := bind_eq_ok.mp h
  refine ⟨firstRepeated?_eq_none.mp (refuseAny_eq_ok.mp hdistinct),
    firstRepeated?_eq_none.mp (refuseAny_eq_ok.mp hnodup), fun package hpackage hsymbol => ?_⟩
  have hnone := List.find?_eq_none.mp (refuseAny_eq_ok.mp h) package hpackage
  exact hnone (by simpa using hsymbol)

theorem filesLinked_of_checks (hnames : checkNames files = .ok ())
    (hfiles : files.forM checkFile = .ok ()) (h : resolveFiles files = .ok files') :
    FilesLinked files' := by
  have hstep := forall₂_files h
  have hsymbols : files.flatMap (·.symbols) = files'.flatMap (·.symbols) :=
    flatMap_eq_flatMap_of_forall₂ hstep fun _ _ => symbols_resolveFile
  have hpackages : files.flatMap (·.packages) = files'.flatMap (·.packages) :=
    flatMap_eq_flatMap_of_forall₂ hstep fun file file' hfile => by
      rw [(Visibility.resolveFile_eq_ok hfile).2.2.2]; rfl
  have hfileNames : files.map (·.name) = files'.map (·.name) :=
    map_eq_map_of_forall₂ hstep fun file file' hfile => by
      rw [(Visibility.resolveFile_eq_ok hfile).2.2.2]
  obtain ⟨hdistinct, hnodup, hdisjoint⟩ := checkNames_eq_ok hnames
  refine ⟨hfileNames ▸ hdistinct, hsymbols ▸ hnodup, hsymbols ▸ hpackages ▸ hdisjoint,
    fun file' hfile' d' hd' => ?_, fun file' hfile' e' he' => ?_,
    fun file' hfile' service' hservice' method' hmethod' => ?_⟩
  · obtain ⟨file, hfile, hresolve⟩ := exists_left_of_forall₂ hstep hfile'
    obtain ⟨d, hd, hresolves⟩ := exists_left_of_forall₂ (forall₂_declared hresolve) hd'
    obtain ⟨_, hmessages, -⟩ := bind_eq_ok.mp (forM_eq_ok.mp hfiles file hfile)
    have hcheck := forM_eq_ok.mp hmessages d hd
    refine fieldsLinked_of_resolves h hresolves ?_ hcheck
    have hsub : d.symbols.Sublist (files.flatMap (·.symbols)) := by
      refine List.Sublist.trans ?_ (sublist_flatMap_of_mem _ hfile)
      rw [FileDecl.symbols, List.append_assoc, List.append_assoc]
      exact (sublist_flatMap_of_mem _ hd).trans (List.sublist_append_left _ _)
    exact hsub.nodup hnodup
  · obtain ⟨file, -, hresolve⟩ := exists_left_of_forall₂ hstep hfile'
    obtain ⟨e, he⟩ := scopedExtensions_resolveFile hresolve he'
    rw [← refersTo_resolveFiles h, ← messageNames_resolveFiles h]
    exact refersTo_of_resolveExtension he
  · obtain ⟨file, -, hresolve⟩ := exists_left_of_forall₂ hstep hfile'
    have hservices := mapM_eq_ok.mp (Visibility.resolveFile_eq_ok hresolve).2.2.1
    obtain ⟨service, -, hservice⟩ := exists_left_of_forall₂ hservices hservice'
    obtain ⟨method, -, -, hinput, houtput⟩ :=
      exists_left_of_forall₂ (Visibility.resolveService_eq_ok hservice).2 hmethod'
    rw [← messageNames_resolveFiles h]
    exact ⟨message_of_resolveMessage hinput, message_of_resolveMessage houtput⟩

/-- A pool that loads holds linked files. -/
theorem Pool.load_eq_ok {pool : Pool} (h : Pool.load files = .ok pool) :
    pool = Pool.link pool.files ∧ FilesLinked pool.files := by
  obtain ⟨_, hnames, h⟩ := bind_eq_ok.mp h
  obtain ⟨_, hfiles, h⟩ := bind_eq_ok.mp h
  obtain ⟨resolved, hresolve, h⟩ := bind_eq_ok.mp h
  obtain ⟨_, _, h⟩ := bind_eq_ok.mp h
  rw [← Except.ok.inj h]
  exact ⟨rfl, filesLinked_of_checks hnames hfiles hresolve⟩

/-- A pool that loads holds the files with their references resolved. -/
theorem Pool.resolveFiles_eq_ok {pool : Pool} (h : Pool.load files = .ok pool) :
    resolveFiles files = .ok pool.files := by
  obtain ⟨_, -, h⟩ := bind_eq_ok.mp h
  obtain ⟨_, -, h⟩ := bind_eq_ok.mp h
  obtain ⟨resolved, hresolve, h⟩ := bind_eq_ok.mp h
  obtain ⟨_, -, h⟩ := bind_eq_ok.mp h
  rw [← Except.ok.inj h]
  exact hresolve

/-- No two declarations of files that load have the same full name. -/
theorem Pool.symbols_nodup {pool : Pool} (h : Pool.load files = .ok pool) :
    (files.flatMap (·.symbols)).Nodup := by
  obtain ⟨_, hnames, -⟩ := bind_eq_ok.mp h
  exact (checkNames_eq_ok hnames).2.1

end Resolving

end PlainSchema
