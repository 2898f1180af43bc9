import PlainSchema.Proofs.Derive.Counterparts

/-!
# Types by their places

A type of a set of files is known by its place: the file, the positions of the messages around it
from the outside in, and for an enum its position in the innermost of them.  The derived files hold
a type in every place where the source files hold one, and its name is the renamed name,
`Derivation.typeAt?_derive`.
-/

namespace PlainSchema

open Proto

/-! ## Places -/

/-- The place of a type in a set of files. -/
structure Place where
  file : Nat
  /-- The positions of the messages, from the outside in. -/
  messages : List Nat
  /-- The position of the enum; a message has none. -/
  enum : Option Nat := none
  deriving DecidableEq, Repr

/-- The message at some positions below a scope, with the scope that declares it. -/
def messageAt? (scope : String) (ms : List MessageDecl) : List Nat → Option (String × MessageDecl)
  | [] => none
  | [i] => (ms[i]?).map (scope, ·)
  | i :: rest => (ms[i]?).bind fun m => messageAt? (inScope scope m.name) m.messages rest

/-- The message of a file at some positions, with the scope that declares it. -/
def Proto.FileDecl.messageAt? (file : FileDecl) (positions : List Nat) :
    Option (String × MessageDecl) :=
  PlainSchema.messageAt? (packageScope file.package) file.messages positions

/-- The full name of the type at some positions of a file. -/
def Proto.FileDecl.typeAt? (file : FileDecl) (messages : List Nat) (enum : Option Nat) :
    Option String :=
  match messages, enum with
  | [], none => none
  | [], some i => (file.enums[i]?).map fun e => inScope (packageScope file.package) e.name
  | messages, none => (file.messageAt? messages).map fun (scope, m) => inScope scope m.name
  | messages, some i => (file.messageAt? messages).bind fun (scope, m) =>
    (m.enums[i]?).map fun e => inScope (inScope scope m.name) e.name

/-- The full name of the type in a place. -/
def typeAt? (files : List FileDecl) (place : Place) : Option String :=
  (files[place.file]?).bind (·.typeAt? place.messages place.enum)

/-! ## Messages in their scopes -/

/-- A file declares a message in a scope. -/
def Declares (file : FileDecl) (scope : String) (m : MessageDecl) : Prop :=
  ∃ d ∈ file.declared, d.decl = m ∧ "." ++ d.fullName = inScope scope m.name

mutual

theorem nested_mem_declaredMessage {scope : String} {parent : Option String} :
    (m : MessageDecl) → ∀ d ∈ declaredMessage scope parent m, ∀ n ∈ d.decl.messages,
    ⟨qualify d.fullName n.name, some d.fullName, n⟩ ∈ declaredMessage scope parent m
  | { name, messages, .. }, d, hd, n, hn => by
    rw [declaredMessage] at hd ⊢
    refine List.mem_cons_of_mem _ ?_
    rcases List.mem_cons.mp hd with rfl | hd
    · exact mem_declaredMessages messages n hn
    · exact nested_mem_declaredMessages messages d hd n hn

theorem nested_mem_declaredMessages {scope : String} {parent : Option String} :
    (ms : List MessageDecl) → ∀ d ∈ declaredMessages scope parent ms, ∀ n ∈ d.decl.messages,
    ⟨qualify d.fullName n.name, some d.fullName, n⟩ ∈ declaredMessages scope parent ms
  | [], d, hd, _, _ => by simp [declaredMessages] at hd
  | m :: ms, d, hd, n, hn => by
    rw [declaredMessages] at hd ⊢
    rcases List.mem_append.mp hd with hd | hd
    · exact List.mem_append_left _ (nested_mem_declaredMessage m d hd n hn)
    · exact List.mem_append_right _ (nested_mem_declaredMessages ms d hd n hn)

theorem mem_declaredMessages {scope : String} {parent : Option String} :
    (ms : List MessageDecl) → ∀ m ∈ ms,
    ⟨qualify scope m.name, parent, m⟩ ∈ declaredMessages scope parent ms
  | [], m, hm => by simp at hm
  | n :: ms, m, hm => by
    rw [declaredMessages]
    rcases List.mem_cons.mp hm with rfl | hm
    · rw [declaredMessage_eq]
      exact List.mem_append_left _ List.mem_cons_self
    · exact List.mem_append_right _ (mem_declaredMessages ms m hm)

end

theorem ne_empty_of_dot_eq {full scope name : String} (h : "." ++ full = inScope scope name)
    (hname : name ≠ "") : full ≠ "" := by
  rintro rfl
  have hlength := congrArg (List.length ∘ String.toList) h
  simp only [Function.comp_apply, toList_inScope, List.length_append, List.length_cons] at hlength
  have hpos : 0 < name.toList.length := by
    rw [List.length_pos_iff, Ne, String.toList_eq_nil_iff]
    exact hname
  simp at hlength
  omega

theorem declares_top {file : FileDecl} {m : MessageDecl} (hm : m ∈ file.messages) :
    Declares file (packageScope file.package) m :=
  ⟨_, mem_declaredMessages file.messages m hm, rfl, dot_qualify _ _⟩

theorem Declares.nested {file : FileDecl} {scope : String} {m n : MessageDecl}
    (h : Declares file scope m) (hname : m.name ≠ "") (hn : n ∈ m.messages) :
    Declares file (inScope scope m.name) n := by
  obtain ⟨d, hd, rfl, hfull⟩ := h
  have hne := ne_empty_of_dot_eq hfull hname
  refine ⟨_, nested_mem_declaredMessages file.messages d hd n hn, rfl, ?_⟩
  rw [dot_qualify, packageScope_of_ne hne, hfull]

mutual

theorem exists_messageAt?_declaredMessage {q scope : String} {parent : Option String}
    (hscope : packageScope q = scope) :
    (m : MessageDecl) → (∀ d ∈ declaredMessage q parent m, IsSimple d.decl.name) →
    ∀ d ∈ declaredMessage q parent m, d = ⟨qualify q m.name, parent, m⟩ ∨
      ∃ positions s, messageAt? (inScope scope m.name) m.messages positions = some (s, d.decl) ∧
        positions ≠ [] ∧ "." ++ d.fullName = inScope s d.decl.name
  | { name, messages, .. }, hsimple, d, hd => by
    rw [declaredMessage] at hsimple hd
    rcases List.mem_cons.mp hd with rfl | hd
    · exact Or.inl rfl
    · have hne := qualify_ne_empty q (hsimple _ List.mem_cons_self).1
      refine Or.inr (exists_messageAt?_declaredMessages ?_ messages
        (fun d hd => hsimple d (List.mem_cons_of_mem _ hd)) d hd)
      rw [packageScope_of_ne hne, dot_qualify, hscope]

/-- Every declared message is found at some positions. -/
theorem exists_messageAt?_declaredMessages {q scope : String} {parent : Option String}
    (hscope : packageScope q = scope) :
    (ms : List MessageDecl) → (∀ d ∈ declaredMessages q parent ms, IsSimple d.decl.name) →
    ∀ d ∈ declaredMessages q parent ms, ∃ positions s,
      messageAt? scope ms positions = some (s, d.decl) ∧ positions ≠ [] ∧
        "." ++ d.fullName = inScope s d.decl.name
  | [], _, d, hd => by simp [declaredMessages] at hd
  | m :: ms, hsimple, d, hd => by
    rw [declaredMessages] at hsimple hd
    rcases List.mem_append.mp hd with hd | hd
    · rcases exists_messageAt?_declaredMessage hscope m
        (fun d hd => hsimple d (List.mem_append_left _ hd)) d hd with
        rfl | ⟨positions, s, hat, hne, hfull⟩
      · exact ⟨[0], scope, rfl, by simp, by rw [dot_qualify, hscope]⟩
      · obtain ⟨i, rest, rfl⟩ := List.exists_cons_of_ne_nil hne
        exact ⟨0 :: i :: rest, s, hat, by simp, hfull⟩
    · obtain ⟨positions, s, hat, hne, hfull⟩ := exists_messageAt?_declaredMessages hscope ms
        (fun d hd => hsimple d (List.mem_append_right _ hd)) d hd
      obtain ⟨i, rest, rfl⟩ := List.exists_cons_of_ne_nil hne
      refine ⟨(i + 1) :: rest, s, ?_, by simp, hfull⟩
      cases rest with
      | nil => exact hat
      | cons j rest => exact hat

end

theorem declares_of_messageAt? {file : FileDecl} {scope s : String} {m : MessageDecl}
    {ms : List MessageDecl} {positions : List Nat}
    (hsimple : ∀ d ∈ file.declared, IsSimple d.decl.name) (hms : ∀ m ∈ ms, Declares file scope m)
    (h : messageAt? scope ms positions = some (s, m)) : Declares file s m := by
  induction positions generalizing scope ms with
  | nil => simp [messageAt?] at h
  | cons i rest ih =>
    cases rest with
    | nil =>
      obtain ⟨n, hn, heq⟩ := Option.map_eq_some_iff.mp h
      obtain ⟨rfl, rfl⟩ := Prod.mk.inj heq
      exact hms n (List.mem_of_getElem? hn)
    | cons j rest =>
      obtain ⟨n, hn, h⟩ := Option.bind_eq_some_iff.mp h
      have hdecl := hms n (List.mem_of_getElem? hn)
      have hname : n.name ≠ "" := by
        obtain ⟨d, hd, rfl, -⟩ := hdecl
        exact (hsimple d hd).1
      exact ih (fun n' hn' => hdecl.nested hname hn') h

/-! ## Derivations -/

/-- A plan of the schema of some linked files with simple names, and a suffix without dots. -/
structure Derivation (files : List FileDecl) (generate : List String) (settings : Settings)
    (plan : SchemaPlan) : Prop where
  linked : FilesLinked files
  simple : SimpleNames files
  suffix : '.' ∉ settings.suffix.toList
  planned : (Schema.ofPool (Pool.link files) generate).plan settings = .ok plan

namespace Derivation

variable {files : List FileDecl} {generate : List String} {settings : Settings}
  {plan : SchemaPlan}

theorem plans (h : Derivation files generate settings plan) :
    plan.Plans (Schema.ofPool (Pool.link files) generate) settings :=
  Schema.plan_eq_ok h.planned

theorem wellScoped (h : Derivation files generate settings plan) :
    (Schema.ofPool (Pool.link files) generate).WellScoped :=
  Schema.wellScoped_ofPool generate h.linked h.simple

/-- The source message of a declaration in a scope. -/
theorem exists_sourceMessage (h : Derivation files generate settings plan) {file : FileDecl}
    (hfile : file ∈ files) {scope : String} {m : MessageDecl} (hm : Declares file scope m) :
    ∃ sm ∈ (Schema.ofPool (Pool.link files) generate).messages, sm.name = m.name ∧
      sm.fullName = inScope scope m.name ∧
      (Schema.ofPool (Pool.link files) generate).scopeOf sm = scope := by
  obtain ⟨d, hd, rfl, hfull⟩ := hm
  have hmem := (mem_schema_messages generate).mpr ⟨file, hfile, d, hd, rfl⟩
  refine ⟨_, hmem, rfl, hfull, ?_⟩
  have hname := h.wellScoped.fullName _ hmem
  change "." ++ d.fullName = inScope _ d.decl.name at hname
  exact inScope_left_injective d.decl.name (hname.symm.trans hfull)

/-- What the plan says about a declared message, and what becomes of its name. -/
theorem rename_message (h : Derivation files generate settings plan) {file : FileDecl}
    (hfile : file ∈ files) {scope : String} {m : MessageDecl} (hm : Declares file scope m) :
    ∃ mp ∈ plan.messages, plan.message? (inScope scope m.name) = some mp ∧
      mp.newFullName = plan.renames.rename (inScope scope m.name) ∧
      plan.renames.rename (inScope scope m.name)
        = inScope (plan.renames.rename scope) (if mp.generate then mp.newName else m.name) ∧
      (mp.generate → mp.newName = m.name ++ settings.suffix) := by
  obtain ⟨sm, hsm, hname, hfull, hscope⟩ := h.exists_sourceMessage hfile hm
  obtain ⟨mp, hmp, hfound, hplan⟩ := h.plans.message? h.wellScoped hsm
  have hout := hplan.outlines
  have hrename := Renames.rename_ofSchema h.wellScoped h.suffix hsm
  rw [← h.plans.renames, hscope, hfull] at hrename
  have hbase := sm.dot_notMem_newBase h.suffix (h.wellScoped.simple sm hsm)
  have hnew : mp.newName = sm.newBase settings.suffix := by
    rw [hout.newName, hfull, hrename, lastName_inScope _ hbase]
  refine ⟨mp, hmp, hfull ▸ hfound, hfull ▸ hout.newFullName, ?_, fun hgenerate => ?_⟩
  · rw [hrename]
    split
    · rw [hnew]
    · next hkept =>
      rw [hout.generate] at hkept
      rw [SourceMessage.newBase, if_neg hkept, hname]
  · rw [hout.generate] at hgenerate
    rw [hnew, SourceMessage.newBase, if_pos hgenerate, plainName, hname]

/-- The counterpart of a message has the renamed full name of the message. -/
theorem rename_plainMessage (h : Derivation files generate settings plan) {file : FileDecl}
    (hfile : file ∈ files) {scope : String} {m : MessageDecl} (hm : Declares file scope m)
    (entries : List (String × MessageDecl)) :
    inScope (plan.renames.rename scope) (plainMessage plan file.dialect entries scope m).name
      = plan.renames.rename (inScope scope m.name) := by
  obtain ⟨mp, -, hfound, -, hrename, -⟩ := h.rename_message hfile hm
  rw [plainMessage_name plan file.dialect entries hfound, hrename]

theorem rename_package (h : Derivation files generate settings plan) {file : FileDecl}
    (hfile : file ∈ files) :
    plan.renames.rename (packageScope file.package) = packageScope file.package := by
  rw [h.plans.renames]
  exact Renames.rename_packageScope h.wellScoped h.suffix
    (SourceFile.ofDecl (Pool.link files) (OptionExtensions.ofPool (Pool.link files)) file)
    (List.mem_map_of_mem hfile)

/-- An enum moves with the scope that declares it. -/
theorem rename_enum (h : Derivation files generate settings plan) (scope : String) {name : String}
    (hname : IsSimple name)
    (henum : ∃ full ∈ enumNames files, inScope scope name = "." ++ full) :
    plan.renames.rename (inScope scope name) = inScope (plan.renames.rename scope) name := by
  rw [h.plans.renames]
  refine Renames.rename_inScope_ofSchema h.wellScoped h.suffix hname.2 fun hmem => ?_
  rw [schema_fullNames, List.mem_map] at hmem
  obtain ⟨full, hfull, heq⟩ := hmem
  obtain ⟨full', hfull', heq'⟩ := henum
  have hsame : full = full' := dot_append_injective (heq.trans heq')
  exact (List.nodup_append.mp (types_nodup h.linked.symbols)).2.2 full hfull full' hfull' hsame

/-- An enum outside of all messages keeps its name. -/
theorem rename_enumOf (h : Derivation files generate settings plan) {file : FileDecl}
    (hfile : file ∈ files) {e : EnumDecl} (he : e ∈ file.enums) :
    plan.renames.rename (inScope (packageScope file.package) e.name)
      = inScope (packageScope file.package) e.name := by
  rw [h.rename_enum (packageScope file.package) (h.simple.enums file hfile e he)
    ⟨_, mem_enumNames.mpr (Or.inr ⟨file, hfile, e, he, rfl⟩), (dot_qualify _ _).symm⟩,
    h.rename_package hfile]

/-- An enum of a message moves with the message. -/
theorem rename_enumIn (h : Derivation files generate settings plan) {file : FileDecl}
    (hfile : file ∈ files) {scope : String} {m : MessageDecl} (hm : Declares file scope m)
    {e : EnumDecl} (he : e ∈ m.enums) :
    plan.renames.rename (inScope (inScope scope m.name) e.name)
      = inScope (plan.renames.rename (inScope scope m.name)) e.name := by
  obtain ⟨d, hd, rfl, hfull⟩ := hm
  have hne := ne_empty_of_dot_eq hfull (h.simple.messages file hfile d hd).1
  refine h.rename_enum _ (h.simple.nestedEnums file hfile d hd e he)
    ⟨_, mem_enumNames.mpr (Or.inl ⟨file, hfile, d, hd, e, he, rfl⟩), ?_⟩
  rw [dot_qualify, packageScope_of_ne hne, hfull]

/-! ## Derived places -/

/-- The derived files hold the counterpart of a message where the message stands. -/
theorem messageAt?_plain (h : Derivation files generate settings plan) {file : FileDecl}
    (hfile : file ∈ files) (entries : List (String × MessageDecl)) (added : List MessageDecl)
    {scope s : String} {ms : List MessageDecl} {m : MessageDecl} {positions : List Nat}
    (hms : ∀ m ∈ ms, Declares file scope m)
    (hat : messageAt? scope ms positions = some (s, m)) :
    messageAt? (plan.renames.rename scope)
        (plainMessages plan file.dialect entries scope ms ++ added) positions
      = some (plan.renames.rename s, plainMessage plan file.dialect entries s m) := by
  have hget : ∀ {scope : String} {ms added : List MessageDecl} {i : Nat} {n : MessageDecl},
      ms[i]? = some n → (plainMessages plan file.dialect entries scope ms ++ added)[i]?
        = some (plainMessage plan file.dialect entries scope n) := by
    intro scope ms added i n hn
    have hlength : i < (plainMessages plan file.dialect entries scope ms).length := by
      rw [plainMessages, List.length_map]
      exact (List.getElem?_eq_some_iff.mp hn).1
    rw [List.getElem?_append_left hlength, plainMessages, List.getElem?_map, hn, Option.map_some]
  induction positions generalizing scope ms added with
  | nil => simp [messageAt?] at hat
  | cons i rest ih =>
    cases rest with
    | nil =>
      obtain ⟨n, hn, heq⟩ := Option.map_eq_some_iff.mp hat
      obtain ⟨rfl, rfl⟩ := Prod.mk.inj heq
      rw [messageAt?, hget hn]
      rfl
    | cons j rest =>
      obtain ⟨n, hn, hat⟩ := Option.bind_eq_some_iff.mp hat
      have hdecl := hms n (List.mem_of_getElem? hn)
      obtain ⟨mp, -, hfound, -⟩ := h.rename_message hfile hdecl
      obtain ⟨more, hmore⟩ := plainMessage_messages plan file.dialect entries hfound
      have hname : n.name ≠ "" := by
        obtain ⟨d, hd, rfl, -⟩ := hdecl
        exact (h.simple.messages file hfile d hd).1
      rw [messageAt?.eq_3 _ _ _ _ (by simp), hget hn, Option.bind_some,
        h.rename_plainMessage hfile hdecl, hmore]
      exact ih _ (fun n' hn' => hdecl.nested hname hn') hat

theorem messageAt?_deriveFile (h : Derivation files generate settings plan) {file : FileDecl}
    (hfile : file ∈ files) (entries : List (String × MessageDecl)) {positions : List Nat}
    {s : String} {m : MessageDecl} (hat : file.messageAt? positions = some (s, m)) :
    (plan.deriveFile entries file).messageAt? positions
      = some (plan.renames.rename s, plainMessage plan file.dialect entries s m) := by
  have hplain := h.messageAt?_plain hfile entries [] (fun m hm => declares_top hm) hat
  rw [h.rename_package hfile, List.append_nil, ← retarget_replaceMessages] at hplain
  exact hplain

/-- The derived files hold a type where the source files hold one, under the renamed name. -/
theorem typeAt?_derive (h : Derivation files generate settings plan) {place : Place}
    {name : String} (hat : typeAt? files place = some name) :
    typeAt? (plan.derive files) place = some (plan.renames.rename name) := by
  obtain ⟨file, hget, hat⟩ := Option.bind_eq_some_iff.mp hat
  have hfile := List.mem_of_getElem? hget
  rw [typeAt?, SchemaPlan.derive, List.getElem?_map, hget, Option.map_some, Option.bind_some]
  have hmessage : ∀ {s m}, file.messageAt? place.messages = some (s, m) → Declares file s m :=
    declares_of_messageAt? (h.simple.messages file hfile) fun m hm => declares_top hm
  rw [FileDecl.typeAt?.eq_def] at hat ⊢
  split at hat
  · exact absurd hat (by simp)
  · obtain ⟨e, he, rfl⟩ := Option.map_eq_some_iff.mp hat
    rw [h.rename_enumOf hfile (List.mem_of_getElem? he)]
    change ((file.enums)[_]?).map _ = _
    rw [he]
    rfl
  · next hne =>
    obtain ⟨⟨s, m⟩, hsm, rfl⟩ := Option.map_eq_some_iff.mp hat
    rw [h.messageAt?_deriveFile hfile _ hsm, Option.map_some]
    dsimp only
    rw [h.rename_plainMessage hfile (hmessage hsm)]
  · next i hne =>
    obtain ⟨⟨s, m⟩, hsm, henum⟩ := Option.bind_eq_some_iff.mp hat
    obtain ⟨e, he, rfl⟩ := Option.map_eq_some_iff.mp henum
    have hdecl := hmessage hsm
    obtain ⟨mp, -, hfound, -⟩ := h.rename_message hfile hdecl
    obtain ⟨added, hadded⟩ := plainMessage_enums plan file.dialect
      (fileEntries plan.renames files) hfound
    rw [h.messageAt?_deriveFile hfile _ hsm, Option.bind_some]
    dsimp only
    rw [hadded, List.getElem?_append_left (List.getElem?_eq_some_iff.mp he).1, he,
      Option.map_some, h.rename_plainMessage hfile hdecl,
      h.rename_enumIn hfile hdecl (List.mem_of_getElem? he)]

end Derivation

end PlainSchema
