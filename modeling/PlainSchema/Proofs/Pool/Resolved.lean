import PlainSchema.Pool.Load
import PlainSchema.Proofs.Data.Except
import PlainSchema.Proofs.Data.Lists

/-!
# Files with resolved references

Resolving makes the references of a file absolute and changes nothing else, so the declarations of
a resolved file stand where those of the file stand: `forall₂_declared` pairs them.  Every reference
names a type that one of the files declares.
-/

namespace PlainSchema

open Proto

variable {v : Visibility}

/-! ## Message trees -/

mutual

theorem MessageDecl.nested_induction {motive : MessageDecl → Prop}
    (step : ∀ m, (∀ n ∈ m.messages, motive n) → motive m) : (m : MessageDecl) → motive m
  | { messages, .. } => step _ (MessageDecl.nested_induction_list step messages)

theorem MessageDecl.nested_induction_list {motive : MessageDecl → Prop}
    (step : ∀ m, (∀ n ∈ m.messages, motive n) → motive m) :
    (ms : List MessageDecl) → ∀ n ∈ ms, motive n
  | [], n, hn => by simp at hn
  | m :: ms, n, hn => by
    rcases List.mem_cons.mp hn with heq | hn
    · exact heq ▸ MessageDecl.nested_induction step m
    · exact MessageDecl.nested_induction_list step ms n hn

end

/-! ## References -/

/-- A reference that names a symbol. -/
def Symbol.IsNamedBy (symbol : Symbol) (ref : Option String) : Prop :=
  ref = some ("." ++ symbol.name)

theorem Visibility.find?_sound {wanted : Symbol → Bool} {scope ref : String} {symbol : Symbol}
    (h : v.find? wanted scope ref = some symbol) : symbol ∈ v.symbols ∧ wanted symbol := by
  have hsymbol : ∀ name, v.symbol? wanted name = some symbol →
      symbol ∈ v.symbols ∧ wanted symbol := by
    intro name hname
    have hwanted := List.find?_some hname
    rw [Bool.and_eq_true] at hwanted
    exact ⟨List.mem_of_find?_eq_some hname, hwanted.2⟩
  rw [find?.eq_def] at h
  split at h
  · exact hsymbol _ h
  · dsimp only at h
    split at h
    · obtain ⟨outer, -, houter⟩ := List.exists_of_findSome?_eq_some h
      exact hsymbol _ houter
    · obtain ⟨outer, -, houter⟩ := Option.bind_eq_some_iff.mp h
      exact hsymbol _ houter

theorem Visibility.resolve_eq_ok {wanted : Symbol → Bool} {scope ref : String} {symbol : Symbol}
    (h : v.resolve wanted scope ref = .ok symbol) : symbol ∈ v.symbols ∧ wanted symbol := by
  rw [resolve] at h
  split at h
  · next hfind => exact Except.ok.inj h ▸ find?_sound hfind
  · exact absurd h (by simp)

/-- A resolved field refers to a type, or is a scalar as it was declared. -/
theorem Visibility.resolveField_eq_ok {scope : String} {field field' : FieldDecl}
    (h : v.resolveField scope field = .ok field') :
    field' = { field with kind := field'.kind, typeRef := field'.typeRef } ∧
      ((∃ symbol ∈ v.symbols, symbol.isType ∧ symbol.IsNamedBy field'.typeRef ∧
          field'.kind = symbol.kind field.kind) ∨
        (field.kind.isScalar ∧ field' = field ∧ field.typeRef.all (·.isEmpty))) := by
  rw [resolveField] at h
  split at h
  · obtain ⟨symbol, hsymbol, h⟩ := bind_eq_ok.mp h
    obtain ⟨hmem, hwanted⟩ := resolve_eq_ok hsymbol
    rw [← Except.ok.inj h]
    exact ⟨rfl, Or.inl ⟨symbol, hmem, hwanted, rfl, rfl⟩⟩
  · next hnone =>
    split at h
    · next hscalar =>
      rw [← Except.ok.inj h]
      refine ⟨rfl, Or.inr ⟨hscalar, rfl, ?_⟩⟩
      cases href : field.typeRef with
      | none => rfl
      | some ref => simpa [href, Option.filter_some] using hnone
    · exact absurd h (by simp)

theorem Visibility.resolveMessage_eq_ok {scope ref ref' : String}
    (h : v.resolveMessage scope ref = .ok ref') :
    ∃ symbol ∈ v.symbols, symbol.sort = .message ∧ ref' = "." ++ symbol.name := by
  obtain ⟨symbol, hsymbol, h⟩ := bind_eq_ok.mp h
  obtain ⟨hmem, hwanted⟩ := resolve_eq_ok hsymbol
  exact ⟨symbol, hmem, by simpa using hwanted, (Except.ok.inj h).symm⟩

theorem Visibility.resolveExtension_eq_ok {scope : String} {field field' : FieldDecl}
    (h : v.resolveExtension scope field = .ok field') :
    ∃ resolved extendee, v.resolveField scope field = .ok resolved ∧
      v.resolveMessage scope (field.extendee.getD "") = .ok extendee ∧
      field' = { resolved with extendee := some extendee } := by
  obtain ⟨extendee, hextendee, h⟩ := bind_eq_ok.mp h
  obtain ⟨resolved, hresolved, h⟩ := bind_eq_ok.mp h
  exact ⟨resolved, extendee, hresolved, hextendee, (Except.ok.inj h).symm⟩

theorem Visibility.name_resolveField {scope : String} {field field' : FieldDecl}
    (h : v.resolveField scope field = .ok field') : field.name = field'.name := by
  rw [(resolveField_eq_ok h).1]

theorem Visibility.name_resolveExtension {scope : String} {field field' : FieldDecl}
    (h : v.resolveExtension scope field = .ok field') : field.name = field'.name := by
  obtain ⟨resolved, extendee, hresolved, -, rfl⟩ := resolveExtension_eq_ok h
  change field.name = resolved.name
  exact name_resolveField hresolved

/-! ## Messages -/

/-- A declared message with its references resolved. -/
structure DeclaredMessage.ResolvesTo (v : Visibility) (d d' : DeclaredMessage) : Prop where
  fullName : d'.fullName = d.fullName
  parent : d'.parent = d.parent
  fields : d.decl.fields.mapM (v.resolveField d.fullName) = .ok d'.decl.fields
  extensions : d.decl.extensions.mapM (v.resolveExtension d.fullName) = .ok d'.decl.extensions
  messages : v.resolveDecls d.fullName d.decl.messages = .ok d'.decl.messages
  decl : d'.decl = { d.decl with
    fields := d'.decl.fields
    messages := d'.decl.messages
    extensions := d'.decl.extensions }

theorem Visibility.resolveDecl_eq_ok {scope : String} {m m' : MessageDecl}
    (h : v.resolveDecl scope m = .ok m') :
    ∃ fields extensions messages,
      m.fields.mapM (v.resolveField (qualify scope m.name)) = .ok fields ∧
      m.extensions.mapM (v.resolveExtension (qualify scope m.name)) = .ok extensions ∧
      v.resolveDecls (qualify scope m.name) m.messages = .ok messages ∧
      m' = { m with fields, messages, extensions } := by
  cases m
  rw [resolveDecl] at h
  obtain ⟨fields, hfields, h⟩ := bind_eq_ok.mp h
  obtain ⟨extensions, hextensions, h⟩ := bind_eq_ok.mp h
  obtain ⟨messages, hmessages, h⟩ := bind_eq_ok.mp h
  exact ⟨fields, extensions, messages, hfields, hextensions, hmessages, (Except.ok.inj h).symm⟩

theorem declaredMessage_eq (scope : String) (parent : Option String) (m : MessageDecl) :
    declaredMessage scope parent m
      = { fullName := qualify scope m.name, parent, decl := m }
        :: declaredMessages (qualify scope m.name) (some (qualify scope m.name)) m.messages := by
  cases m
  rw [declaredMessage]

mutual

theorem forall₂_declaredMessage {scope : String} (parent : Option String) :
    (m m' : MessageDecl) → v.resolveDecl scope m = .ok m' →
    List.Forall₂ (DeclaredMessage.ResolvesTo v) (declaredMessage scope parent m)
      (declaredMessage scope parent m')
  | { name, messages, .. }, m', h => by
    obtain ⟨fields, extensions, messages', hfields, hextensions, hmessages, rfl⟩ :=
      Visibility.resolveDecl_eq_ok h
    rw [declaredMessage, declaredMessage]
    exact .cons ⟨rfl, rfl, hfields, hextensions, hmessages, rfl⟩
      (forall₂_declaredMessages _ messages messages' hmessages)

/-- Resolving keeps every declaration in its place. -/
theorem forall₂_declaredMessages {scope : String} (parent : Option String) :
    (ms ms' : List MessageDecl) → v.resolveDecls scope ms = .ok ms' →
    List.Forall₂ (DeclaredMessage.ResolvesTo v) (declaredMessages scope parent ms)
      (declaredMessages scope parent ms')
  | [], ms', h => by
    rw [Visibility.resolveDecls] at h
    rw [← Except.ok.inj h, declaredMessages]
    exact .nil
  | m :: ms, ms', h => by
    rw [Visibility.resolveDecls] at h
    obtain ⟨m', hm, h⟩ := bind_eq_ok.mp h
    obtain ⟨rest, hrest, h⟩ := bind_eq_ok.mp h
    rw [← Except.ok.inj h, declaredMessages, declaredMessages]
    exact List.rel_append (forall₂_declaredMessage parent m m' hm)
      (forall₂_declaredMessages parent ms rest hrest)

end

theorem DeclaredMessage.ResolvesTo.symbols {d d' : DeclaredMessage} (h : d.ResolvesTo v d') :
    d.symbols = d'.symbols := by
  have hfields := map_eq_map_of_forall₂ (mapM_eq_ok.mp h.fields)
    fun _ _ hfield => congrArg (qualify d.fullName) (Visibility.name_resolveField hfield)
  have hextensions := map_eq_map_of_forall₂ (mapM_eq_ok.mp h.extensions)
    fun _ _ hfield => congrArg (qualify d.fullName) (Visibility.name_resolveExtension hfield)
  have honeofs : d'.decl.oneofs = d.decl.oneofs := by rw [h.decl]
  have henums : d'.decl.enums = d.decl.enums := by rw [h.decl]
  rw [DeclaredMessage.symbols, DeclaredMessage.symbols, h.fullName, honeofs, henums, hfields,
    hextensions]

/-! ## Files -/

theorem Visibility.resolveFile_eq_ok {file file' : FileDecl} (h : v.resolveFile file = .ok file') :
    v.resolveDecls file.package file.messages = .ok file'.messages ∧
      file.extensions.mapM (v.resolveExtension file.package) = .ok file'.extensions ∧
      file.services.mapM (v.resolveService file.package) = .ok file'.services ∧
      file' = { file with
        messages := file'.messages
        extensions := file'.extensions
        services := file'.services } := by
  obtain ⟨messages, hmessages, h⟩ := bind_eq_ok.mp h
  obtain ⟨extensions, hextensions, h⟩ := bind_eq_ok.mp h
  obtain ⟨services, hservices, h⟩ := bind_eq_ok.mp h
  rw [← Except.ok.inj h]
  exact ⟨hmessages, hextensions, hservices, rfl⟩

theorem Visibility.resolveService_eq_ok {scope : String} {service service' : ServiceDecl}
    (h : v.resolveService scope service = .ok service') :
    service'.name = service.name ∧
      List.Forall₂ (fun m m' => m'.name = m.name ∧
          v.resolveMessage (qualify scope service.name) m.input = .ok m'.input ∧
          v.resolveMessage (qualify scope service.name) m.output = .ok m'.output)
        service.methods service'.methods := by
  obtain ⟨methods, hmethods, h⟩ := bind_eq_ok.mp h
  rw [← Except.ok.inj h]
  refine ⟨rfl, (mapM_eq_ok.mp hmethods).imp fun m m' hm => ?_⟩
  obtain ⟨input, hinput, hm⟩ := bind_eq_ok.mp hm
  obtain ⟨output, houtput, hm⟩ := bind_eq_ok.mp hm
  rw [← Except.ok.inj hm]
  exact ⟨rfl, hinput, houtput⟩

/-- The declarations of a file and of the resolved file, in step. -/
theorem forall₂_declared {file file' : FileDecl} (h : v.resolveFile file = .ok file') :
    List.Forall₂ (DeclaredMessage.ResolvesTo v) file.declared file'.declared := by
  obtain ⟨hmessages, -, -, hfile⟩ := Visibility.resolveFile_eq_ok h
  have hpackage : file'.package = file.package := by rw [hfile]
  rw [FileDecl.declared, FileDecl.declared, hpackage]
  exact forall₂_declaredMessages none file.messages file'.messages hmessages

/-- A resolved file declares the names that the file declares. -/
theorem symbols_resolveFile {file file' : FileDecl} (h : v.resolveFile file = .ok file') :
    file.symbols = file'.symbols := by
  obtain ⟨-, hextensions, hservices, hfile⟩ := Visibility.resolveFile_eq_ok h
  have hpackage : file'.package = file.package := by rw [hfile]
  have henums : file'.enums = file.enums := by rw [hfile]
  have hdeclared := flatMap_eq_flatMap_of_forall₂ (forall₂_declared h)
    fun _ _ hd => hd.symbols
  have hnames := map_eq_map_of_forall₂ (mapM_eq_ok.mp hextensions)
    fun _ _ hfield => congrArg (qualify file.package) (Visibility.name_resolveExtension hfield)
  have hmethods := flatMap_eq_flatMap_of_forall₂
    (f := fun s : ServiceDecl => qualify file.package s.name
      :: s.methods.map fun m => qualify (qualify file.package s.name) m.name)
    (g := fun s : ServiceDecl => qualify file.package s.name
      :: s.methods.map fun m => qualify (qualify file.package s.name) m.name)
    (mapM_eq_ok.mp hservices) fun s s' hs => by
      obtain ⟨hname, hmethods⟩ := Visibility.resolveService_eq_ok hs
      rw [hname, map_eq_map_of_forall₂ hmethods fun m m' hm =>
        congrArg (qualify (qualify file.package s.name)) hm.1.symm]
  rw [FileDecl.symbols, FileDecl.symbols, hpackage, henums, hdeclared, hnames, hmethods]

end PlainSchema
