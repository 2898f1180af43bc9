import PlainSchema.Convert.Converter
import PlainSchema.Proofs.Plan.Oneofs
import PlainSchema.Proofs.Pool.Linked

/-!
# The types behind a schema

Every message of the schema of a pool is the view of a type of the pool, and the plan of the message
finds that type again by its name, `requireType_eq_ok`.  The fields and oneofs of the message are
those of the type.
-/

namespace PlainSchema

open Proto

/-- The names in a set of files are identifiers as far as it matters here: messages and enums have
simple names, fields have names, and no package begins with a dot. -/
structure ProperNames (files : List FileDecl) : Prop where
  simple : SimpleNames files
  packages : ∀ file ∈ files, file.package.toList.head? ≠ some '.'
  fields : ∀ file ∈ files, ∀ d ∈ file.declared, ∀ field ∈ d.decl.fields, field.name ≠ ""

instance (files : List FileDecl) : Decidable (ProperNames files) :=
  decidable_of_iff
    (SimpleNames files ∧ (∀ file ∈ files, file.package.toList.head? ≠ some '.') ∧
      ∀ file ∈ files, ∀ d ∈ file.declared, ∀ field ∈ d.decl.fields, field.name ≠ "")
    ⟨fun ⟨hs, hp, hf⟩ => ⟨hs, hp, hf⟩, fun h => ⟨h.simple, h.packages, h.fields⟩⟩

/-! ## Names without a leading dot -/

theorem head?_qualify {scope name : String} (hscope : scope.toList.head? ≠ some '.')
    (hname : IsSimple name) : (qualify scope name).toList.head? ≠ some '.' := by
  rw [qualify]
  split
  · intro hhead
    exact hname.2 (List.mem_of_mem_head? hhead)
  · next hne =>
    have hne : scope.toList ≠ [] := by
      intro hnil
      exact hne (by simp [String.toList_eq_nil_iff.mp hnil])
    obtain ⟨c, cs, hcs⟩ := List.exists_cons_of_ne_nil hne
    rw [hcs] at hscope
    simpa [String.toList_append, hcs] using hscope

mutual

theorem head?_declaredMessage {scope : String} {parent : Option String}
    (hscope : scope.toList.head? ≠ some '.') : (m : MessageDecl) →
    (∀ d ∈ declaredMessage scope parent m, IsSimple d.decl.name) →
    ∀ d ∈ declaredMessage scope parent m, d.fullName.toList.head? ≠ some '.'
  | { name, messages, .. }, hsimple, d, hd => by
    rw [declaredMessage] at hsimple hd
    have hname := head?_qualify hscope (hsimple _ List.mem_cons_self)
    rcases List.mem_cons.mp hd with rfl | hd
    · exact hname
    · exact head?_declaredMessages hname messages
        (fun d hd => hsimple d (List.mem_cons_of_mem _ hd)) d hd

theorem head?_declaredMessages {scope : String} {parent : Option String}
    (hscope : scope.toList.head? ≠ some '.') : (ms : List MessageDecl) →
    (∀ d ∈ declaredMessages scope parent ms, IsSimple d.decl.name) →
    ∀ d ∈ declaredMessages scope parent ms, d.fullName.toList.head? ≠ some '.'
  | [], _, d, hd => by simp [declaredMessages] at hd
  | m :: ms, hsimple, d, hd => by
    rw [declaredMessages] at hsimple hd
    rcases List.mem_append.mp hd with hd | hd
    · exact head?_declaredMessage hscope m (fun d hd => hsimple d (List.mem_append_left _ hd)) d hd
    · exact head?_declaredMessages hscope ms
        (fun d hd => hsimple d (List.mem_append_right _ hd)) d hd

end

/-- Dropping the leading dot gives a name back. -/
theorem trimFront_dot {name : String} (h : name.toList.head? ≠ some '.') :
    Text.trimFront ("." ++ name) '.' = name := by
  have hlist : ("." ++ name).toList = '.' :: name.toList := by simp
  rw [Text.trimFront, hlist, List.dropWhile_cons_of_pos (by simp)]
  cases hname : name.toList with
  | nil => rw [List.dropWhile_nil, ← hname, String.ofList_toList]
  | cons c cs =>
    rw [hname] at h
    rw [List.dropWhile_cons_of_neg (by simpa using h), ← hname, String.ofList_toList]

/-! ## The schema of a pool -/

section Schema

variable {files : List FileDecl} {generate : List String} {m : SourceMessage}

/-- A message type of a linked pool can be found by its name. -/
theorem message?_fullName (hlinked : FilesLinked files) {type : MessageType}
    (htype : type ∈ (Pool.link files).messages) :
    (Pool.link files).message? type.fullName = some type := by
  have hnames : ((Pool.link files).messages.map (·.fullName)).Nodup := by
    have hnodup := (List.nodup_append.mp (types_nodup hlinked.symbols)).1
    rwa [show (Pool.link files).messages.map (·.fullName) = messageNames files by
      simp [Pool.link, messageNames, linkMessage, List.map_flatMap, Function.comp_def]]
  exact find?_eq_some_of_nodup hnames htype

theorem enum?_link (hlinked : FilesLinked files) {name : String} {e : EnumDecl}
    (he : (name, e) ∈ files.flatMap (·.enumDecls)) :
    (Pool.link files).enum? name = some { fullName := name, values := e.values } := by
  have hnames : ((Pool.link files).enums.map (·.fullName)).Nodup := by
    have hnodup := (List.nodup_append.mp (types_nodup hlinked.symbols)).2.1
    rwa [show (Pool.link files).enums.map (·.fullName) = enumNames files by
      simp [Pool.link, enumNames, List.map_flatMap, Function.comp_def]]
  have hmem : { fullName := name, values := e.values } ∈ (Pool.link files).enums := by
    obtain ⟨file, hfile, he⟩ := List.mem_flatMap.mp he
    exact List.mem_flatMap.mpr ⟨file, hfile, List.mem_map_of_mem he⟩
  exact find?_eq_some_of_nodup hnames hmem

/-- A message of the schema is the view of a type. -/
structure SourceMessage.ViewsType (m : SourceMessage) (pool : Pool) (type : MessageType) :
    Prop where
  mem : type ∈ pool.messages
  view : m = SourceMessage.ofType pool (OptionExtensions.ofPool pool) type

theorem exists_viewsType (hm : m ∈ (Schema.ofPool (Pool.link files) generate).messages) :
    ∃ type, m.ViewsType (Pool.link files) type := by
  obtain ⟨type, htype, rfl⟩ := List.mem_map.mp hm
  exact ⟨type, htype, rfl⟩

namespace SourceMessage.ViewsType

variable {pool : Pool} {type : MessageType}

theorem fullName (h : m.ViewsType pool type) : m.fullName = "." ++ type.fullName := by
  rw [h.view]
  rfl

theorem fields (h : m.ViewsType pool type) :
    m.fields = type.fields.map (SourceField.ofField pool (OptionExtensions.ofPool pool)) := by
  rw [h.view]
  rfl

theorem fieldNames (h : m.ViewsType pool type) :
    m.fields.map (·.name) = type.fields.map (·.name) := by
  rw [h.fields, List.map_map]
  rfl

/-- A field of the message is the view of a field of the type. -/
theorem exists_field (h : m.ViewsType pool type) (hlinked : type.Linked) {field : SourceField}
    (hfield : field ∈ m.fields) : ∃ f ∈ type.fields,
      field = SourceField.ofField pool (OptionExtensions.ofPool pool) f ∧
        type.field? field.name = some f := by
  rw [h.fields] at hfield
  obtain ⟨f, hf, rfl⟩ := List.mem_map.mp hfield
  exact ⟨f, hf, rfl, hlinked.field?_name hf⟩

/-- The plan of a message finds the type by its name. -/
theorem requireType_eq_ok {pool : Pool} (h : m.ViewsType pool type)
    (hfind : pool.message? type.fullName = some type)
    (hdot : type.fullName.toList.head? ≠ some '.') :
    Converter.requireType pool m.fullName = .ok type := by
  rw [Converter.requireType, h.fullName, trimFront_dot hdot, hfind]

end SourceMessage.ViewsType

variable (hlinked : FilesLinked files)

include hlinked

theorem namesFields_ofPool : (Schema.ofPool (Pool.link files) generate).NamesFields := by
  intro m hm
  obtain ⟨type, htype⟩ := exists_viewsType hm
  rw [htype.fieldNames]
  exact (types_linked hlinked type htype.mem).names

theorem oneofNames_ofPool (hm : m ∈ (Schema.ofPool (Pool.link files) generate).messages) :
    (m.oneofs.map (·.name)).Nodup := by
  obtain ⟨file, hfile, d, hd, rfl⟩ := (mem_schema_messages generate).mp hm
  have hnames : (SourceMessage.ofType (Pool.link files) (OptionExtensions.ofPool (Pool.link files))
      (linkMessage file d)).oneofs.map (·.name) = d.decl.oneofs.map (·.name) := by
    refine List.ext_getElem (by simp [SourceMessage.ofType, linkMessage, linkOneofs]) ?_
    simp [SourceMessage.ofType, SourceOneof.ofOneof, linkMessage, linkOneofs]
  rw [hnames]
  exact (hlinked.messages file hfile d hd).oneofNames

/-- The message that a field refers to is the view of the type that the field names. -/
theorem exists_viewsType_of_typeName? {f : Field} {name : String}
    (hname : f.type.typeName? = some name) {known : OptionExtensions} {next : SourceMessage}
    (hnext : (SourceField.ofField (Pool.link files) known f).typeRef.bind
      (Schema.ofPool (Pool.link files) generate).message? = some next) :
    ∃ nextType, next.ViewsType (Pool.link files) nextType ∧
      (Pool.link files).message? name = some nextType := by
  change (f.type.typeName?.map ("." ++ ·)).bind _ = _ at hnext
  rw [hname, Option.map_some, Option.bind_some] at hnext
  obtain ⟨nextType, hviews⟩ := exists_viewsType (Schema.message?_mem hnext)
  have hsame : next.fullName = dotted ("." ++ name) := by
    simpa using List.find?_some hnext
  rw [dotted, if_pos (by simp), hviews.fullName] at hsame
  obtain rfl := dot_append_injective hsame
  exact ⟨nextType, hviews, message?_fullName hlinked hviews.mem⟩

omit hlinked in
theorem fieldNames_ofPool (hproper : ProperNames files) :
    ∀ m ∈ (Schema.ofPool (Pool.link files) generate).messages, ∀ field ∈ m.fields,
      field.name ≠ "" := by
  intro m hm field hfield
  obtain ⟨file, hfile, d, hd, rfl⟩ := (mem_schema_messages generate).mp hm
  obtain ⟨f, hf, rfl⟩ := List.mem_map.mp hfield
  obtain ⟨decl, hdecl, rfl⟩ := List.mem_map.mp ((sortBy_perm _ _).mem_iff.mp hf)
  exact hproper.fields file hfile d hd decl hdecl

/-- The type behind a message of the schema is the one that the plan of the message finds. -/
theorem exists_type_ofPool (hproper : ProperNames files)
    (hm : m ∈ (Schema.ofPool (Pool.link files) generate).messages) :
    ∃ type, m.ViewsType (Pool.link files) type ∧
      (Pool.link files).message? type.fullName = some type ∧
      Converter.requireType (Pool.link files) m.fullName = .ok type := by
  obtain ⟨file, hfile, d, hd, rfl⟩ := (mem_schema_messages generate).mp hm
  have hmem : linkMessage file d ∈ (Pool.link files).messages :=
    List.mem_flatMap.mpr ⟨file, hfile, List.mem_map_of_mem hd⟩
  have hviews : SourceMessage.ViewsType (SourceMessage.ofType (Pool.link files)
      (OptionExtensions.ofPool (Pool.link files)) (linkMessage file d)) (Pool.link files)
      (linkMessage file d) := ⟨hmem, rfl⟩
  have hfind := message?_fullName hlinked hmem
  refine ⟨linkMessage file d, hviews, hfind, hviews.requireType_eq_ok hfind ?_⟩
  exact head?_declaredMessages (hproper.packages file hfile) file.messages
    (hproper.simple.messages file hfile) d hd

end Schema

end PlainSchema
