import PlainSchema.Proofs.Schema.Types

/-!
# The types of declared messages

A pool links the messages of its files after their references were resolved.  A reference that is
absolute already, and names what the kind of its field says, is resolved to itself,
`resolveField_eq_self`; so the type of a message holds the very fields that the message declares
with such references, `exists_linksAs`.
-/

namespace PlainSchema

open Proto

variable {files : List FileDecl}

/-! ## Absolute references -/

theorem ofList_drop_dot (name : String) :
    String.ofList (("." ++ name).toList.drop 1) = name := by
  have hlist : ("." ++ name).toList = '.' :: name.toList := by simp
  rw [hlist, List.drop_succ_cons, List.drop_zero, String.ofList_toList]

/-- An absolute reference names its symbol. -/
theorem Visibility.name_of_resolve {v : Visibility} {wanted : Symbol → Bool} {scope name : String}
    {symbol : Symbol} (h : v.resolve wanted scope ("." ++ name) = .ok symbol) :
    symbol.name = name := by
  have hlist : ("." ++ name).toList = '.' :: name.toList := by simp
  rw [resolve] at h
  split at h
  · next found hfind =>
    rw [find?.eq_def, hlist] at hfind
    have hname := List.find?_some (show v.symbol? wanted (String.ofList name.toList) = _ from hfind)
    rw [String.ofList_toList, Bool.and_eq_true, beq_iff_eq] at hname
    rw [← Except.ok.inj h]
    exact hname.1
  · exact absurd h (by simp)

/-! ## What a reference names -/

/-- The message or enum that a type names is declared by the files. -/
def FieldType.Declared (files : List FileDecl) : FieldType → Prop
  | .scalar _ => True
  | .message name _ => name ∈ messageNames files
  | .enum name => name ∈ enumNames files

/-- A field is declared with the kind of a type and an absolute reference to it. -/
structure Proto.FieldDecl.Names (field : FieldDecl) (type : FieldType) : Prop where
  kind : field.kind = type.kind
  ref : ∀ name, type.typeName? = some name → field.typeRef = some ("." ++ name)
  scalar : type.typeName? = none → field.typeRef.all (·.isEmpty)

theorem Proto.FieldDecl.Names.type {field : FieldDecl} {type : FieldType} (h : field.Names type) :
    field.type = type := by
  have hname : ∀ name, type.typeName? = some name →
      String.ofList ((field.typeRef.getD "").toList.drop 1) = name := by
    intro name hname
    rw [h.ref name hname, Option.getD_some, ofList_drop_dot]
  rw [FieldDecl.type, h.kind]
  cases type with
  | scalar type => rfl
  | message name group => cases group <;> exact congrArg (FieldType.message · _) (hname name rfl)
  | enum name => exact congrArg FieldType.enum (hname name rfl)

theorem refersTo_iff {field : FieldDecl} :
    RefersTo files field ↔ ∃ type : FieldType, type.Declared files ∧ field.Names type := by
  constructor
  · rintro (⟨name, hname, href, hkind⟩ | ⟨name, hname, href, hkind⟩ | ⟨hscalar, hempty⟩)
    · rcases hkind with hkind | hkind
      · exact ⟨.message name false, hname, hkind, fun _ h => Option.some.inj h ▸ href, nofun⟩
      · exact ⟨.message name true, hname, hkind, fun _ h => Option.some.inj h ▸ href, nofun⟩
    · exact ⟨.enum name, hname, hkind, fun _ h => Option.some.inj h ▸ href, nofun⟩
    · cases hkind : field.kind with
      | scalar type => exact ⟨.scalar type, trivial, hkind, nofun, fun _ => hempty⟩
      | _ => simp [hkind, Kind.isScalar] at hscalar
  · rintro ⟨type, hdeclared, hnames⟩
    cases type with
    | scalar type =>
      exact Or.inr (Or.inr ⟨by simp [hnames.kind, FieldType.kind, Kind.isScalar], hnames.scalar rfl⟩)
    | message name group =>
      refine Or.inl ⟨name, hdeclared, hnames.ref name rfl, ?_⟩
      rw [hnames.kind]
      cases group
      · exact Or.inl rfl
      · exact Or.inr rfl
    | enum name => exact Or.inr (Or.inl ⟨name, hdeclared, hnames.ref name rfl, hnames.kind⟩)

/-- A field of a linked type has a declared type. -/
theorem declared_of_mem (hlinked : FilesLinked files) {type : MessageType}
    (htype : type ∈ (Pool.link files).messages) {field : Field} (hfield : field ∈ type.fields) :
    field.type.Declared files := by
  obtain ⟨file, hfile, hmem⟩ := List.mem_flatMap.mp htype
  obtain ⟨d, hd, rfl⟩ := List.mem_map.mp hmem
  obtain ⟨decl, hdecl, rfl⟩ := List.mem_map.mp (mem_sortBy.mp hfield)
  obtain ⟨named, hdeclared, hnames⟩ :=
    refersTo_iff.mp ((hlinked.messages file hfile d hd).references decl hdecl)
  change decl.type.Declared files
  rwa [hnames.type]

/-- The message that a field of a linked type refers to has a type. -/
theorem exists_messageType (hlinked : FilesLinked files) {type : MessageType}
    (htype : type ∈ (Pool.link files).messages) {field : Field} (hfield : field ∈ type.fields)
    {name : String} {group : Bool} (hmessage : field.type = .message name group) :
    ∃ found ∈ (Pool.link files).messages, found.fullName = name ∧
      (Pool.link files).message? name = some found := by
  have hdeclared := declared_of_mem hlinked htype hfield
  rw [hmessage] at hdeclared
  obtain ⟨file, hfile, d, hd, rfl⟩ := mem_messageNames.mp hdeclared
  have hmem : linkMessage file d ∈ (Pool.link files).messages :=
    List.mem_flatMap.mpr ⟨file, hfile, List.mem_map_of_mem hd⟩
  exact ⟨_, hmem, rfl, message?_fullName hlinked hmem⟩

/-! ## Resolved references -/

/-- A name is not that of a message and that of an enum. -/
theorem not_mem_enumNames (hnodup : (files.flatMap (·.symbols)).Nodup) {name : String}
    (hmessage : name ∈ messageNames files) : name ∉ enumNames files := by
  intro henum
  exact (List.nodup_append.mp (types_nodup hnodup)).2.2 name hmessage name henum rfl

/-- A field whose reference is resolved already stays as it is. -/
theorem resolveField_eq_self (hnodup : (files.flatMap (·.symbols)).Nodup) {file : FileDecl}
    {scope : String} {field field' : FieldDecl} (hrefers : RefersTo files field)
    (h : (Visibility.ofFile files file).resolveField scope field = .ok field') :
    field' = field := by
  have hnamed : ∀ name, field.typeRef = some ("." ++ name) →
      ∃ symbol ∈ (Visibility.ofFile files file).symbols, symbol.isType ∧ symbol.name = name ∧
        field' = { field with kind := symbol.kind field.kind, typeRef := some ("." ++ name) } := by
    intro name href
    have hfilter : field.typeRef.filter (!·.isEmpty) = some ("." ++ name) := by
      rw [href, Option.filter_some, if_pos (by simp)]
    rw [Visibility.resolveField, hfilter] at h
    obtain ⟨symbol, hsymbol, h⟩ := bind_eq_ok.mp h
    obtain ⟨hmem, htype⟩ := Visibility.resolve_eq_ok hsymbol
    have hname := Visibility.name_of_resolve hsymbol
    exact ⟨symbol, hmem, htype, hname, by rw [← Except.ok.inj h, hname]⟩
  rcases hrefers with ⟨name, hname, href, hkind⟩ | ⟨name, hname, href, hkind⟩ | ⟨hscalar, hempty⟩
  · obtain ⟨symbol, hmem, htype, rfl, rfl⟩ := hnamed name href
    have hsort : symbol.sort = .message := by
      cases hsort : symbol.sort with
      | message => rfl
      | enum => exact absurd ((symbol_mem_names hmem).2 hsort) (not_mem_enumNames hnodup hname)
      | extension => simp [Symbol.isType, hsort] at htype
    have hsame : symbol.kind field.kind = field.kind := by
      rcases hkind with hkind | hkind <;> simp [Symbol.kind, hsort, hkind]
    rw [hsame, ← href]
  · obtain ⟨symbol, hmem, htype, rfl, rfl⟩ := hnamed name href
    have hsort : symbol.sort = .enum := by
      cases hsort : symbol.sort with
      | message => exact absurd hname (not_mem_enumNames hnodup ((symbol_mem_names hmem).1 hsort))
      | enum => rfl
      | extension => simp [Symbol.isType, hsort] at htype
    have hsame : symbol.kind field.kind = field.kind := by simp [Symbol.kind, hsort, hkind]
    rw [hsame, ← href]
  · have hfilter : field.typeRef.filter (!·.isEmpty) = none := by
      cases href : field.typeRef with
      | none => rfl
      | some ref => simpa [href, Option.filter_some] using hempty
    rw [Visibility.resolveField, hfilter] at h
    dsimp only at h
    rw [if_pos hscalar] at h
    exact (Except.ok.inj h).symm

/-! ## Linked types -/

/-- A message type is that of a declared message. -/
structure DeclaredMessage.LinksAs (files : List FileDecl) (dialect : Dialect) (d : DeclaredMessage)
    (type : MessageType) : Prop where
  fullName : type.fullName = d.fullName
  isMapEntry : type.isMapEntry = d.decl.isMapEntry
  /-- Fields with resolved references are linked as they were declared. -/
  fields : ∀ field ∈ d.decl.fields, RefersTo files field →
    linkField dialect d.fullName field ∈ type.fields
  names : ∀ field ∈ d.decl.fields, ∃ f ∈ type.fields, f.name = field.name ∧
    f.label = field.label ∧ f.oneof = field.oneofIndex.map Int.toNat

/-- The pool of files holds a type for every message that they declare. -/
theorem exists_linksAs {pool : Pool} (hload : Pool.load files = .ok pool) {file : FileDecl}
    (hfile : file ∈ files) {d : DeclaredMessage} (hd : d ∈ file.declared) :
    ∃ type, pool.message? d.fullName = some type ∧ d.LinksAs files file.dialect type := by
  have hnodup := Pool.symbols_nodup hload
  obtain ⟨hpool, hlinked⟩ := Pool.load_eq_ok hload
  obtain ⟨_, _, hload⟩ := bind_eq_ok.mp hload
  obtain ⟨_, _, hload⟩ := bind_eq_ok.mp hload
  obtain ⟨resolved, hresolve, hload⟩ := bind_eq_ok.mp hload
  obtain ⟨_, _, hload⟩ := bind_eq_ok.mp hload
  have hfiles : pool.files = resolved := by rw [← Except.ok.inj hload]; rfl
  rw [hfiles] at hpool hlinked
  obtain ⟨file', hfile', hresolved⟩ := exists_right_of_forall₂ (forall₂_files hresolve) hfile
  obtain ⟨d', hd', hresolves⟩ := exists_right_of_forall₂ (forall₂_declared hresolved) hd
  have hdialect : file'.dialect = file.dialect := by
    rw [(Visibility.resolveFile_eq_ok hresolved).2.2.2]
  have hmem : linkMessage file' d' ∈ (Pool.link resolved).messages :=
    List.mem_flatMap.mpr ⟨file', hfile', List.mem_map_of_mem hd'⟩
  have hfind := message?_fullName hlinked hmem
  rw [← hpool, show (linkMessage file' d').fullName = d.fullName from hresolves.fullName] at hfind
  have hfields := mapM_eq_ok.mp hresolves.fields
  have hlinks : ∀ field ∈ d.decl.fields, ∃ field',
      (Visibility.ofFile files file).resolveField d.fullName field = .ok field' ∧
      linkField file.dialect d.fullName field' ∈ (linkMessage file' d').fields := by
    intro field hfield
    obtain ⟨field', hfield', hstep⟩ := exists_right_of_forall₂ hfields hfield
    refine ⟨field', hstep, ?_⟩
    have hlinked := List.mem_map_of_mem (f := linkField file'.dialect d'.fullName) hfield'
    rw [hdialect, hresolves.fullName] at hlinked
    change _ ∈ sortBy _ (d'.decl.fields.map (linkField file'.dialect d'.fullName))
    rw [mem_sortBy, hdialect, hresolves.fullName]
    exact hlinked
  refine ⟨linkMessage file' d', hfind, hresolves.fullName, ?_, fun field hfield hrefers => ?_,
    fun field hfield => ?_⟩
  · change d'.decl.isMapEntry = d.decl.isMapEntry
    rw [hresolves.decl]
  · obtain ⟨field', hstep, hmem⟩ := hlinks field hfield
    rwa [resolveField_eq_self hnodup hrefers hstep] at hmem
  · obtain ⟨field', hstep, hmem⟩ := hlinks field hfield
    refine ⟨_, hmem, (Visibility.name_resolveField hstep).symm, ?_, ?_⟩ <;>
      rw [(Visibility.resolveField_eq_ok hstep).1] <;> rfl

end PlainSchema
