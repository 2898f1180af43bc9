import PlainSchema.Proofs.Pool.Loaded
import PlainSchema.Proofs.Renames.Index
import PlainSchema.Proofs.Text.Split
import PlainSchema.Schema.OfPool

/-!
# The scopes of a linked schema

The schema of a pool that loads has its scopes in order, `Schema.wellScoped_ofPool`, provided that
declarations have simple names: the symbols of its files are distinct, declarations are listed
behind the messages that hold them, and no package has the name of a message.
-/

namespace PlainSchema

open Proto

/-- The messages and enums of a set of files have simple names. -/
structure SimpleNames (files : List FileDecl) : Prop where
  messages : ∀ file ∈ files, ∀ d ∈ file.declared, IsSimple d.decl.name
  nestedEnums : ∀ file ∈ files, ∀ d ∈ file.declared, ∀ e ∈ d.decl.enums, IsSimple e.name
  enums : ∀ file ∈ files, ∀ e ∈ file.enums, IsSimple e.name

instance (files : List FileDecl) : Decidable (SimpleNames files) :=
  decidable_of_iff
    ((∀ file ∈ files, ∀ d ∈ file.declared, IsSimple d.decl.name) ∧
      (∀ file ∈ files, ∀ d ∈ file.declared, ∀ e ∈ d.decl.enums, IsSimple e.name) ∧
      ∀ file ∈ files, ∀ e ∈ file.enums, IsSimple e.name)
    ⟨fun ⟨hm, hn, he⟩ => ⟨hm, hn, he⟩, fun h => ⟨h.messages, h.nestedEnums, h.enums⟩⟩

/-! ## Full names -/

/-- Full names with a leading dot. -/
theorem dot_qualify (scope name : String) :
    "." ++ qualify scope name = inScope (packageScope scope) name := by
  rw [qualify, packageScope]
  split
  · simp [inScope]
  · simp [inScope, String.append_assoc]

theorem packageScope_of_ne {scope : String} (h : scope ≠ "") : packageScope scope = "." ++ scope := by
  rw [packageScope, if_neg (by simpa using h)]

theorem qualify_ne_empty (scope : String) {name : String} (h : name ≠ "") : qualify scope name ≠ "" := by
  rw [qualify]
  split
  · exact h
  · exact inScope_ne_empty scope name

theorem dot_append_injective {a b : String} (h : "." ++ a = "." ++ b) : a = b := by
  have hlist := congrArg String.toList h
  exact String.toList_inj.mp (by simpa using hlist)

/-! ## Packages -/

/-- What covers a package is a package. -/
theorem mem_packages {file : FileDecl} {name : String}
    (h : Covers ("." ++ name) (packageScope file.package)) : name ∈ file.packages := by
  have hne : file.package ≠ "" := by
    intro hempty
    rw [packageScope, if_pos (by simpa using hempty)] at h
    exact not_covers_empty (inScope_ne_empty "" name) h
  rw [packageScope_of_ne hne] at h
  have hsplit : ∃ rest, Text.split file.package '.' = Text.split name '.' ++ rest := by
    rcases h with h | ⟨rest, h⟩
    · exact ⟨[], by rw [List.append_nil, dot_append_injective h]⟩
    · have hpackage : file.package = inScope name rest :=
        dot_append_injective (by rw [h]; simp [inScope, String.append_assoc])
      refine ⟨Text.split rest '.', ?_⟩
      rw [Text.split, hpackage, toList_inScope, splitAll_append_sep, List.map_append]
      rfl
  obtain ⟨rest, hrest⟩ := hsplit
  have hpieces : Text.split name '.' ≠ [] := by
    rw [Text.split, Ne, List.map_eq_nil_iff]
    exact Text.splitAll_ne_nil '.' name.toList
  have hpos : 0 < (Text.split name '.').length := List.length_pos_iff.mpr hpieces
  rw [FileDecl.packages, if_neg (by simpa using hne), List.mem_map]
  refine ⟨(Text.split name '.').length - 1, ?_, ?_⟩
  · rw [List.mem_range, hrest, List.length_append]
    omega
  · rw [Nat.sub_add_cancel hpos, hrest, List.take_left, intercalate_split]

/-! ## Declarations -/

/-- A declared message stands in the scope of its parent, or in the scope that is given. -/
def DeclaredMessage.IsIn (scope : String) (parent : Option String) (d : DeclaredMessage) : Prop :=
  (d.parent = parent ∧ d.fullName = qualify scope d.decl.name) ∨
    ∃ p, d.parent = some p ∧ p ≠ "" ∧ d.fullName = qualify p d.decl.name

mutual

theorem isIn_declaredMessage {scope : String} {parent : Option String} :
    (m : MessageDecl) → (∀ d ∈ declaredMessage scope parent m, IsSimple d.decl.name) →
    ∀ d ∈ declaredMessage scope parent m, d.IsIn scope parent
  | { name, messages, .. }, hsimple, d, hd => by
    rw [declaredMessage] at hsimple hd
    rcases List.mem_cons.mp hd with rfl | hd
    · exact Or.inl ⟨rfl, rfl⟩
    · have hne := qualify_ne_empty scope (hsimple _ List.mem_cons_self).1
      rcases isIn_declaredMessages messages
        (fun d hd => hsimple d (List.mem_cons_of_mem _ hd)) d hd with ⟨hp, hfull⟩ | hin
      · exact Or.inr ⟨_, hp, hne, hfull⟩
      · exact Or.inr hin

theorem isIn_declaredMessages {scope : String} {parent : Option String} :
    (ms : List MessageDecl) → (∀ d ∈ declaredMessages scope parent ms, IsSimple d.decl.name) →
    ∀ d ∈ declaredMessages scope parent ms, d.IsIn scope parent
  | [], _, d, hd => by simp [declaredMessages] at hd
  | m :: ms, hsimple, d, hd => by
    rw [declaredMessages] at hsimple hd
    rcases List.mem_append.mp hd with hd | hd
    · exact isIn_declaredMessage m (fun d hd => hsimple d (List.mem_append_left _ hd)) d hd
    · exact isIn_declaredMessages ms (fun d hd => hsimple d (List.mem_append_right _ hd)) d hd

end

/-- The full name and the parent of a declared message. -/
def DeclaredMessage.entry (d : DeclaredMessage) : String × Option String :=
  ("." ++ d.fullName, d.parent.map ("." ++ ·))

mutual

theorem parentsFirst_declaredMessage {scope : String} {parent : Option String}
    {known : List String} (hparent : ∀ p, parent = some p → "." ++ p ∈ known) :
    (m : MessageDecl) → ParentsFirst known ((declaredMessage scope parent m).map (·.entry))
  | { name, messages, .. } => by
    rw [declaredMessage, List.map_cons]
    refine ⟨fun p hp => ?_, parentsFirst_declaredMessages ?_ messages⟩
    · obtain ⟨q, hq, rfl⟩ := Option.map_eq_some_iff.mp hp
      exact hparent q hq
    · intro p hp
      rw [← Option.some.inj hp]
      exact List.mem_cons_self

theorem parentsFirst_declaredMessages {scope : String} {parent : Option String}
    {known : List String} (hparent : ∀ p, parent = some p → "." ++ p ∈ known) :
    (ms : List MessageDecl) →
    ParentsFirst known ((declaredMessages scope parent ms).map (·.entry))
  | [] => trivial
  | m :: ms => by
    rw [declaredMessages, List.map_append]
    exact (parentsFirst_declaredMessage hparent m).append (parentsFirst_declaredMessages hparent ms)

end

theorem parentsFirst_declared (files : List FileDecl) :
    ParentsFirst [] ((files.flatMap (·.declared)).map (·.entry)) := by
  induction files with
  | nil => trivial
  | cons file files ih =>
    rw [List.flatMap_cons, List.map_append]
    exact (parentsFirst_declaredMessages (fun p hp => by simp at hp) file.messages).append ih

/-! ## The schema of a pool -/

variable {files : List FileDecl} (generate : List String)

theorem mem_schema_messages {m : SourceMessage} :
    m ∈ (Schema.ofPool (Pool.link files) generate).messages ↔
      ∃ file ∈ files, ∃ d ∈ file.declared,
        m = SourceMessage.ofType (Pool.link files) (OptionExtensions.ofPool (Pool.link files))
          (linkMessage file d) := by
  simp only [Schema.ofPool, Pool.link, List.mem_map, List.mem_flatMap]
  constructor
  · rintro ⟨type, ⟨file, hfile, d, hd, rfl⟩, rfl⟩
    exact ⟨file, hfile, d, hd, rfl⟩
  · rintro ⟨file, hfile, d, hd, rfl⟩
    exact ⟨_, ⟨file, hfile, d, hd, rfl⟩, rfl⟩

theorem schema_fullNames :
    (Schema.ofPool (Pool.link files) generate).messages.map (·.fullName)
      = (messageNames files).map ("." ++ ·) := by
  simp [Schema.ofPool, Pool.link, messageNames, SourceMessage.ofType, linkMessage,
    List.map_flatMap, Function.comp_def]

theorem schema_entries :
    (Schema.ofPool (Pool.link files) generate).messages.map (fun m => (m.fullName, m.parent))
      = (files.flatMap (·.declared)).map (·.entry) := by
  simp [Schema.ofPool, Pool.link, SourceMessage.ofType, linkMessage, DeclaredMessage.entry,
    List.map_flatMap, Function.comp_def]

theorem schema_file? (hlinked : FilesLinked files) {file : FileDecl} (hfile : file ∈ files) :
    (Schema.ofPool (Pool.link files) generate).file? file.name
      = some (SourceFile.ofDecl (Pool.link files) (OptionExtensions.ofPool (Pool.link files)) file) := by
  have hnames : ((Schema.ofPool (Pool.link files) generate).files.map (·.name)).Nodup := by
    simpa [Schema.ofPool, Pool.link, SourceFile.ofDecl, Function.comp_def] using hlinked.fileNames
  exact find?_eq_some_of_nodup hnames (List.mem_map_of_mem hfile)

theorem scopeOf_ofType (hlinked : FilesLinked files) {file : FileDecl} (hfile : file ∈ files)
    (d : DeclaredMessage) :
    (Schema.ofPool (Pool.link files) generate).scopeOf
        (SourceMessage.ofType (Pool.link files) (OptionExtensions.ofPool (Pool.link files))
          (linkMessage file d))
      = (d.parent.map ("." ++ ·)).getD (packageScope file.package) := by
  rw [Schema.scopeOf]
  change (d.parent.map ("." ++ ·)).getD
    (Option.getD (Option.map _ (Schema.file? _ file.name)) "") = _
  rw [schema_file? generate hlinked hfile]
  rfl

/-- A schema of linked files with simple names has its scopes in order. -/
theorem Schema.wellScoped_ofPool (hlinked : FilesLinked files) (hsimple : SimpleNames files) :
    (Schema.ofPool (Pool.link files) generate).WellScoped where
  distinct := by
    rw [schema_fullNames]
    exact (List.nodup_append.mp (types_nodup hlinked.symbols)).1.map
      fun _ _ h => dot_append_injective h
  simple := by
    intro m hm
    obtain ⟨file, hfile, d, hd, rfl⟩ := (mem_schema_messages generate).mp hm
    exact hsimple.messages file hfile d hd
  fullName := by
    intro m hm
    obtain ⟨file, hfile, d, hd, rfl⟩ := (mem_schema_messages generate).mp hm
    rw [scopeOf_ofType generate hlinked hfile]
    change "." ++ d.fullName = inScope _ d.decl.name
    rcases isIn_declaredMessages file.messages (hsimple.messages file hfile) d hd with
      ⟨hp, hfull⟩ | ⟨p, hp, hne, hfull⟩
    · rw [hp, hfull, dot_qualify]
      rfl
    · rw [hp, hfull, dot_qualify, packageScope_of_ne hne]
      rfl
  ordered := by
    rw [schema_entries]
    exact parentsFirst_declared files
  packages := by
    intro file' hfile' m hm hcovers
    obtain ⟨file, hfile, rfl⟩ := List.mem_map.mp hfile'
    have hname : m.fullName ∈ (messageNames files).map ("." ++ ·) := by
      rw [← schema_fullNames generate]
      exact List.mem_map_of_mem hm
    obtain ⟨name, hname, heq⟩ := List.mem_map.mp hname
    obtain ⟨owner, howner, d, hd, rfl⟩ := mem_messageNames.mp hname
    rw [← heq] at hcovers
    refine hlinked.packages d.fullName (List.mem_flatMap_of_mem hfile (mem_packages hcovers)) ?_
    refine List.mem_flatMap_of_mem howner ?_
    rw [FileDecl.symbols]
    simp only [List.mem_append]
    exact Or.inl (Or.inl (Or.inl (List.mem_flatMap_of_mem hd (by simp [DeclaredMessage.symbols]))))

/-! ## A smallest set of options -/

/-- The extension of messages without which a pool has no generated message. -/
def messageOptionsFile : FileDecl :=
  { name := "plain/options.proto", package := "plain"
    messages := [{ name := "Options", extensionRanges := [(1, 536870912)] }]
    extensions := [{ name := "message", number := 1, kind := .scalar .string
                     extendee := some ".plain.Options" }] }

end PlainSchema
