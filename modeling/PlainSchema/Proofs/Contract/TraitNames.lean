import PlainSchema.Generator.Response
import PlainSchema.Proofs.Derive.Places
import PlainSchema.Proofs.Text.Layout

/-!
# The names of generated traits

The contracts of a file are published as one text, which declares two traits for every generated
message of the file and no other ones, `Contract.declared_fileLines`.  Their names are made of short
names, so they meet in two of three cases:

```text
AIntoPlain     = BIntoPlain     if A and B are one name in upper camel case
APlainIntoPb   = BPlainIntoPb   if A and B with the suffix are
AIntoPlain     = BPlainIntoPb   never, Contract.intoPlain_ne_intoPb
```

The names of a file are distinct exactly if its short names are, `trait_names_distinct_iff`.  Messages
that are nested in different ones may share a short name, and then a trait is declared twice,
`notes_share_trait_names`.
-/

namespace PlainSchema

open Proto Text

namespace Contract

/-! ## Lines that declare traits -/

/-- The name of the trait that a line declares. -/
def declaredTrait? (line : String) : Option String :=
  (line.toList.dropPrefix? "pub trait ".toList).bind fun rest =>
    (rest.dropSuffix? ": Sized \x7b".toList).map String.ofList

theorem declaredTrait?_declaration (name : String) :
    declaredTrait? ("pub trait " ++ name ++ ": Sized \x7b") = some name := by
  have hrest : (("pub trait " ++ name ++ ": Sized \x7b").toList).dropPrefix? "pub trait ".toList
      = some (name.toList ++ ": Sized \x7b".toList) := by
    rw [List.dropPrefix?_eq_some_iff]
    exact ⟨"pub trait ".toList, by simp [String.toList_append], by simp⟩
  have hname : (name.toList ++ ": Sized \x7b".toList).dropSuffix? ": Sized \x7b".toList
      = some name.toList := by
    rw [List.dropSuffix?_eq_some_iff]
    exact ⟨": Sized \x7b".toList, rfl, by simp⟩
  rw [declaredTrait?, hrest, Option.bind_some, hname, Option.map_some, String.ofList_toList]

/-- Lines none of which begins like the declaration of a trait. -/
def Silent (lines : List String) : Prop :=
  ∀ line ∈ lines, line.toList.head? ≠ some 'p'

theorem declaredTrait?_eq_none {line : String} (h : line.toList.head? ≠ some 'p') :
    declaredTrait? line = none := by
  rw [declaredTrait?, Option.bind_eq_none_iff]
  intro rest hrest
  obtain ⟨front, heq, hfront⟩ := List.dropPrefix?_eq_some_iff.mp hrest
  rw [heq, beq_iff_eq.mp hfront] at h
  exact absurd rfl h

theorem Silent.filterMap {lines : List String} (h : Silent lines) :
    lines.filterMap declaredTrait? = [] :=
  List.filterMap_eq_nil_iff.mpr fun line hline => declaredTrait?_eq_none (h line hline)

theorem Silent.append {lines more : List String} (h : Silent lines) (h' : Silent more) :
    Silent (lines ++ more) :=
  fun line hline => (List.mem_append.mp hline).elim (h line) (h' line)

theorem head?_doc (text : String) : (doc text).toList.head? ≠ some 'p' := by
  rw [doc]
  split
  · decide
  · split
    · simp [String.toList_append]
    · split <;> simp [String.toList_append]

/-- An indented line begins with a blank. -/
theorem head?_layout (others : Nat) (word : String) (rest : Doc) {first : Nat} (hfirst : 0 < first) :
    (Doc.layout first others (.text word :: rest)).toList.head? ≠ some 'p' := by
  obtain ⟨behind, hlayout⟩ := Doc.prefix_layout first others word rest
  obtain ⟨n, rfl⟩ := Nat.exists_eq_add_of_lt hfirst
  rw [← hlayout, Nat.zero_add, List.replicate_succ]
  simp

/-! ## Lines of a contract -/

variable {contract : MessageContract} {contracts : List MessageContract} {lines : List String}
  {text : String} {m : Method} {casters : List TypedCaster}

theorem Method.silent_boundsFrom (h : m.boundsFrom casters = some lines) : Silent lines := by
  induction casters generalizing lines with
  | nil =>
    obtain rfl := Option.some.inj h
    exact fun _ hline => absurd hline List.not_mem_nil
  | cons c cs ih =>
    rw [boundsFrom] at h
    simp only [Option.bind_eq_bind, Option.bind_eq_some_iff] at h
    obtain ⟨bounds, -, rest, hrest, h⟩ := h
    obtain rfl := Option.some.inj h
    exact List.forall_mem_cons.mpr ⟨head?_layout _ _ _ (by decide), ih hrest⟩

theorem Method.head?_head (m : Method) (casters : List TypedCaster) :
    (m.head casters).toList.head? ≠ some 'p' := by
  rw [head]
  exact head?_layout _ _ _ (by decide)

/-- A method of a trait declares no trait. -/
theorem silent_documented (h : documented text m casters = some lines) : Silent lines := by
  rw [documented] at h
  simp only [Option.bind_eq_bind, Option.bind_eq_some_iff] at h
  obtain ⟨method, hmethod, h⟩ := h
  obtain rfl := Option.some.inj h
  refine List.forall_mem_cons.mpr ⟨by simp [String.toList_append], ?_⟩
  rw [Method.lines] at hmethod
  split at hmethod
  · obtain rfl := Option.some.inj hmethod
    exact List.forall_mem_singleton.mpr (m.head?_head casters)
  · simp only [Option.bind_eq_bind, Option.bind_eq_some_iff] at hmethod
    obtain ⟨bounds, hbounds, hmethod⟩ := hmethod
    obtain rfl := Option.some.inj hmethod
    exact List.forall_mem_cons.mpr ⟨m.head?_head casters,
      List.forall_mem_cons.mpr ⟨by decide, Method.silent_boundsFrom hbounds⟩⟩

/-- The lines of a trait declare it and no other one. -/
theorem filterMap_trait {docs members : List String} (name : String) (hdocs : Silent docs)
    (hmembers : Silent members) :
    (docs ++ ("pub trait " ++ name ++ ": Sized \x7b") :: members).filterMap declaredTrait? = [name] := by
  rw [List.filterMap_append, hdocs.filterMap, List.filterMap_cons, declaredTrait?_declaration,
    hmembers.filterMap]
  rfl

theorem declared_plainTrait (h : plainTrait contract casters = some lines) :
    lines.filterMap declaredTrait? = [contract.plainTraitName] := by
  rw [plainTrait] at h
  simp only [Option.bind_eq_bind, Option.bind_eq_some_iff] at h
  obtain ⟨lenient, hlenient, strict, hstrict, h⟩ := h
  obtain rfl := Option.some.inj h
  have hdocs : Silent ([doc contract.summary, doc ""]
      ++ contract.fields.map fun field => doc ("- " ++ field.docLine)) := by
    refine Silent.append (by simp [Silent, head?_doc]) fun line hline => ?_
    obtain ⟨field, -, rfl⟩ := List.mem_map.mp hline
    exact head?_doc _
  have hmembers : Silent (["    /// Flattened counterpart", "    type Plain;",
      "    /// Error returned by the fallible conversion", "    type Error;"]
      ++ (lenient ++ (strict ++ ["\x7d"]))) :=
    .append (by simp [Silent]) (.append (silent_documented hlenient)
      (.append (silent_documented hstrict) (by simp [Silent])))
  simp only [List.append_assoc]
  rw [← List.append_assoc]
  exact filterMap_trait _ hdocs hmembers

theorem declared_sourceTrait (h : sourceTrait contract casters = some lines) :
    lines.filterMap declaredTrait? = [contract.sourceTraitName] := by
  rw [sourceTrait] at h
  simp only [Option.bind_eq_bind, Option.bind_eq_some_iff] at h
  obtain ⟨lenient, hlenient, strict, hstrict, h⟩ := h
  obtain rfl := Option.some.inj h
  have hmembers : Silent (["    /// Original message", "    type Pb;",
      "    /// Error returned by the fallible conversion", "    type Error;",
      "    /// JSON layout of this message",
      "    const JSON_STYLE: " ++ "plain_runtime::JsonStyle" ++ " = " ++ "plain_runtime::JsonStyle"
        ++ "::" ++ styleName contract.style ++ ";"]
      ++ (lenient ++ (strict ++ ["\x7d"]))) :=
    .append (by simp [Silent, String.toList_append]) (.append (silent_documented hlenient)
      (.append (silent_documented hstrict) (by simp [Silent])))
  simp only [List.append_assoc]
  exact filterMap_trait _ (List.forall_mem_singleton.mpr (head?_doc contract.summary)) hmembers

/-! ## Files -/

/-- The names of the traits of a contract. -/
def MessageContract.traitNames (contract : MessageContract) : List String :=
  [contract.plainTraitName, contract.sourceTraitName]

theorem declared_render (h : contract.render casters = some lines) :
    lines.filterMap declaredTrait? = contract.traitNames := by
  rw [MessageContract.render] at h
  simp only [Option.bind_eq_bind, Option.bind_eq_some_iff] at h
  obtain ⟨first, hfirst, second, hsecond, h⟩ := h
  obtain rfl := Option.some.inj h
  rw [List.filterMap_append, declared_plainTrait hfirst, declared_sourceTrait hsecond]
  rfl

/-- The lines of the contracts of a file. -/
def fileLines (contracts : List MessageContract) : Except RenderError (List String) := do
  let typed ← contracts.mapM fun contract => do
    return (contract, ← contract.typedCasters)
  match typed.mapM fun (contract, casters) => contract.render casters with
  | none => .error .misplacedType
  | some traits =>
    return "//! Conversion contracts generated by protoc-gen-plain." :: traits.flatten

/-- The text of a file is its lines. -/
theorem renderFile_eq (contracts : List MessageContract) :
    renderFile contracts
      = (fileLines contracts).map fun lines => String.join (lines.map (· ++ "\n")) := by
  rw [renderFile, fileLines]
  cases contracts.mapM fun contract => do return (contract, ← contract.typedCasters) with
  | error e => rfl
  | ok typed =>
    dsimp only [bind, Except.bind]
    cases typed.mapM fun (contract, casters) => contract.render casters with
    | none => rfl
    | some traits => rfl

/-- **The lines of a file declare two traits for every contract**, in the order of the contracts, and no
other ones. -/
theorem declared_fileLines (h : fileLines contracts = .ok lines) :
    lines.filterMap declaredTrait? = contracts.flatMap (·.traitNames) := by
  rw [fileLines] at h
  obtain ⟨typed, htyped, h⟩ := bind_eq_ok.mp h
  split at h
  · exact absurd h nofun
  · next traits htraits =>
    obtain rfl := Except.ok.inj h
    have hcontracts : contracts.map id = typed.map (·.1) := by
      refine map_eq_map_of_forall₂ (mapM_eq_ok.mp htyped) fun contract pair hpair => ?_
      obtain ⟨casters, -, heq⟩ := bind_eq_ok.mp hpair
      obtain rfl := Except.ok.inj heq
      rfl
    have htraits := mapM_eq_some.mp htraits
    rw [List.filterMap_cons, declaredTrait?_eq_none (by decide), List.filterMap_flatten,
      ← List.flatMap_def, ← List.map_id contracts, hcontracts, List.flatMap_map]
    exact (flatMap_eq_flatMap_of_forall₂ htraits fun pair lines h => (declared_render h).symm).symm

/-! ## When names meet -/

/-- The ends of the two kinds of names differ. -/
theorem intoPlain_ne_intoPb (name other : String) : name ++ "IntoPlain" ≠ other ++ "IntoPb" := by
  intro heq
  have hlast := congrArg (·.toList.getLast?) heq
  simp [String.toList_append] at hlast

theorem nodup_map_append {α : Type} (f : α → String) (ending : String) (xs : List α) :
    (xs.map fun x => f x ++ ending).Nodup ↔ (xs.map f).Nodup := by
  have hinjective : Function.Injective fun name : String => name ++ ending :=
    fun _ _ => (String.append_left_inj ending).mp
  rw [← List.nodup_map_iff (l := xs.map f) hinjective, List.map_map, Function.comp_def]

end Contract

/-- Pairs of two kinds of names are distinct if each kind is, as long as no name is of both. -/
theorem nodup_flatMap_pair {α β : Type} {f g : α → β} (hne : ∀ x y, f x ≠ g y) (xs : List α) :
    (xs.flatMap fun x => [f x, g x]).Nodup ↔ (xs.map f).Nodup ∧ (xs.map g).Nodup := by
  induction xs with
  | nil => simp
  | cons x xs ih =>
    have hf : f x ∉ xs.flatMap (fun x => [f x, g x]) ↔ f x ∉ xs.map f := by
      simp [hne, eq_comm]
    have hg : g x ∉ xs.flatMap (fun x => [f x, g x]) ↔ g x ∉ xs.map g := by
      simp [hne, eq_comm]
    rw [List.flatMap_cons, List.cons_append, List.singleton_append, List.nodup_cons, List.nodup_cons,
      List.mem_cons, not_or, ih, hf, hg, List.map_cons, List.map_cons, List.nodup_cons, List.nodup_cons]
    rw [and_iff_right (hne x x), and_and_and_comm, and_assoc]

/-! ## The names of a plan -/

/-- The generated messages of a file, nested ones included. -/
def Schema.generatedIn (schema : Schema) (file : String) : List SourceMessage :=
  (schema.messages.filter (·.file == file)).filter (·.options.generate)

/-- The contracts of a file. -/
def SchemaPlan.contractsIn (plan : SchemaPlan) (style : JsonStyle) (file : String) :
    List Contract.MessageContract :=
  ((plan.messages.filter (·.file == file)).filter (·.generate)).map
    (Contract.MessageContract.ofPlan · style)

theorem SourceMessage.IsPlanOf.file_eq {schema : Schema} {settings : Settings} {renames : Renames}
    {m : SourceMessage} {mp : MessagePlan} (h : m.IsPlanOf schema settings renames mp) :
    mp.file = m.file := by
  obtain ⟨outlined, houtlined, rfl⟩ := h
  rw [IsOutlinedAs] at houtlined
  split at houtlined
  · rw [MessagePlan.rename, houtlined.rest]
    rfl
  · rw [houtlined]
    rfl

namespace Derivation

variable {files : List FileDecl} {generate : List String} {settings : Settings} {plan : SchemaPlan}

/-- The last parts of the names of a message and of its counterpart. -/
theorem lastNames (h : Derivation files generate settings plan) {m : SourceMessage}
    {mp : MessagePlan} (hm : m ∈ (Schema.ofPool (Pool.link files) generate).messages)
    (hplan : m.IsPlanOf (Schema.ofPool (Pool.link files) generate) settings plan.renames mp) :
    lastName mp.fullName = m.name ∧ lastName mp.newFullName = m.newBase settings.suffix := by
  have hsimple := h.wellScoped.simple m hm
  constructor
  · rw [hplan.outlines.fullName, h.wellScoped.fullName m hm, lastName_inScope _ hsimple.2]
  · rw [hplan.outlines.newFullName, h.plans.renames, Renames.rename_ofSchema h.wellScoped h.suffix hm,
      lastName_inScope _ (m.dot_notMem_newBase h.suffix hsimple)]

/-- The contracts of a file name their traits for its generated messages. -/
theorem traitNames_contractsIn (h : Derivation files generate settings plan) (style : JsonStyle)
    (file : String) :
    (plan.contractsIn style file).map (·.traitNames)
      = ((Schema.ofPool (Pool.link files) generate).generatedIn file).map fun m =>
        [upperCamel m.name ++ "IntoPlain", upperCamel (plainName m.name settings.suffix) ++ "IntoPb"] := by
  let names := fun m : SourceMessage =>
    [upperCamel m.name ++ "IntoPlain", upperCamel (m.newBase settings.suffix) ++ "IntoPb"]
  calc (plan.contractsIn style file).map (·.traitNames)
    _ = ((Schema.ofPool (Pool.link files) generate).generatedIn file).map names := by
      rw [SchemaPlan.contractsIn, Schema.generatedIn, List.map_map, List.filter_filter,
        List.filter_filter]
      refine (map_filter_eq_of_forall₂ (forall₂_mem h.plans.messages) fun m mp hmp => ⟨?_, ?_⟩).symm
      · rw [hmp.2.outlines.generate, hmp.2.file_eq]
      · obtain ⟨hsource, hplain⟩ := h.lastNames hmp.1 hmp.2
        simp only [names, ← hsource, ← hplain]
        rfl
    _ = _ := by
      refine List.map_congr_left fun m hm => ?_
      simp only [names]
      rw [SourceMessage.newBase, if_pos (List.mem_filter.mp hm).2]

end Derivation

variable {declared : List FileDecl} {pool : Pool} {generate : List String} {settings : Settings}
  {plan : SchemaPlan} {style : JsonStyle} {file : String}

theorem json_ne_contracts (name : String) : name ++ ".plain.ir.json" ≠ name ++ ".plain.rs" := by
  intro heq
  have hlast := congrArg (·.toList.getLast?) heq
  simp [String.toList_append] at hlast

/-- The output with the contracts of a file is the text of their lines. -/
theorem SchemaPlan.exists_fileLines {outputs : List OutputFile} {output : OutputFile}
    (h : plan.generateFile style file = .ok outputs) (houtput : output ∈ outputs)
    (hname : output.name = stem file ++ ".plain.rs") :
    ∃ lines, Contract.fileLines (plan.contractsIn style file) = .ok lines ∧
      output.content = String.join (lines.map (· ++ "\n")) := by
  rw [generateFile] at h
  have hcontent : ∃ content, Contract.renderFile (plan.contractsIn style file) = .ok content ∧
      output.content = content := by
    split at h
    · obtain rfl := Except.ok.inj h
      obtain rfl := List.mem_singleton.mp houtput
      exact absurd hname (json_ne_contracts _)
    · split at h
      · next content hcontent =>
        obtain rfl := Except.ok.inj h
        rcases List.mem_cons.mp houtput with rfl | houtput
        · exact absurd hname (json_ne_contracts _)
        · obtain rfl := List.mem_singleton.mp houtput
          exact ⟨content, hcontent, rfl⟩
      · exact absurd h nofun
  obtain ⟨content, hrender, heq⟩ := hcontent
  rw [Contract.renderFile_eq] at hrender
  obtain ⟨lines, hlines, rfl⟩ := map_eq_ok.mp hrender
  exact ⟨lines, hlines, heq⟩

/-- **The trait names of a file are distinct if its short names are.**  For every pool that loads, with
names that are identifiers, every suffix without a dot, every plan and every file with contracts: the
text declares two traits for each generated message of the file, nested ones included, and their names
are distinct exactly if the short names of those messages in upper camel case are, and those of their
Plain messages. -/
theorem trait_names_distinct_iff (hload : Pool.load declared = .ok pool)
    (hnames : SimpleNames pool.files) (hsuffix : '.' ∉ settings.suffix.toList)
    (hplan : (Schema.ofPool pool generate).plan settings = .ok plan) {outputs : List OutputFile}
    (houtputs : plan.generateFile style file = .ok outputs) {output : OutputFile}
    (houtput : output ∈ outputs) (hname : output.name = stem file ++ ".plain.rs") :
    ∃ lines, Contract.fileLines (plan.contractsIn style file) = .ok lines ∧
      output.content = String.join (lines.map (· ++ "\n")) ∧
      lines.filterMap Contract.declaredTrait?
        = (((Schema.ofPool pool generate).generatedIn file).flatMap fun m =>
          [upperCamel m.name ++ "IntoPlain",
            upperCamel (plainName m.name settings.suffix) ++ "IntoPb"]) ∧
      ((lines.filterMap Contract.declaredTrait?).Nodup ↔
        (((Schema.ofPool pool generate).generatedIn file).map fun m => upperCamel m.name).Nodup ∧
        (((Schema.ofPool pool generate).generatedIn file).map fun m =>
          upperCamel (plainName m.name settings.suffix)).Nodup) := by
  obtain ⟨hpool, hlinked⟩ := Pool.load_eq_ok hload
  have h : Derivation pool.files generate settings plan :=
    ⟨hlinked, hnames, hsuffix, hpool ▸ hplan⟩
  obtain ⟨lines, hlines, hcontent⟩ := SchemaPlan.exists_fileLines houtputs houtput hname
  have hdeclared : lines.filterMap Contract.declaredTrait?
      = ((Schema.ofPool pool generate).generatedIn file).flatMap fun m =>
        [upperCamel m.name ++ "IntoPlain",
          upperCamel (plainName m.name settings.suffix) ++ "IntoPb"] := by
    rw [Contract.declared_fileLines hlines, List.flatMap_def, List.flatMap_def,
      h.traitNames_contractsIn style file, ← hpool]
  refine ⟨lines, hlines, hcontent, hdeclared, ?_⟩
  rw [hdeclared, nodup_flatMap_pair fun m n => Contract.intoPlain_ne_intoPb _ _,
    Contract.nodup_map_append, Contract.nodup_map_append]

/-! ## Notes in two messages -/

/-- Two messages around one generated message each. -/
def noteFile (second : String) : FileDecl :=
  { name := "note.proto", package := "p"
    messages :=
      [{ name := "A", messages := [{ name := "Note", options := { generate := true } }] },
       { name := "B", messages := [{ name := second, options := { generate := true } }] }] }

def noteFiles (second : String) : List FileDecl :=
  [messageOptionsFile, noteFile second]

def notePool (second : String) : Pool :=
  ((Pool.load (noteFiles second)).toOption).getD {}

def notePlan (second : String) : SchemaPlan :=
  ((Schema.ofPool (notePool second) ["note.proto"]).plan {}).toOption.getD
    { suffix := "", messages := [], renames := {}, diagnostics := [] }

/-- The outputs for a note. -/
def noteOutputs (second : String) : List OutputFile :=
  ((notePlan second).generateFile .protojson "note.proto").toOption.getD []

theorem exists_noteOutput {second : String}
    (h : (noteOutputs second).map (·.name) = ["note.plain.ir.json", "note.plain.rs"]) :
    ∃ output ∈ noteOutputs second, output.name = "note.plain.rs" :=
  List.mem_map.mp (h ▸ by decide)

theorem memo_checks :
    (Pool.load (noteFiles "Memo")).isOk ∧ SimpleNames (notePool "Memo").files ∧
      ((Schema.ofPool (notePool "Memo") ["note.proto"]).plan {}).isOk ∧
      ((notePlan "Memo").generateFile .protojson "note.proto").isOk ∧
      (noteOutputs "Memo").map (·.name) = ["note.plain.ir.json", "note.plain.rs"] ∧
      (((Schema.ofPool (notePool "Memo") ["note.proto"]).generatedIn "note.proto").flatMap fun m =>
        [upperCamel m.name ++ "IntoPlain", upperCamel (plainName m.name "Plain") ++ "IntoPb"])
        = ["NoteIntoPlain", "NotePlainIntoPb", "MemoIntoPlain", "MemoPlainIntoPb"] := by
  decide +kernel

/-- A note and a memo have four traits. -/
theorem memo_trait_names :
    ∃ output ∈ noteOutputs "Memo", output.name = "note.plain.rs" ∧
      ∃ lines : List String, output.content = String.join (lines.map (· ++ "\n")) ∧
        lines.filterMap Contract.declaredTrait?
          = ["NoteIntoPlain", "NotePlainIntoPb", "MemoIntoPlain", "MemoPlainIntoPb"] ∧
        (lines.filterMap Contract.declaredTrait?).Nodup := by
  obtain ⟨hload, hnames, hplan, houtputs, houtputNames, hdeclared⟩ := memo_checks
  obtain ⟨output, houtput, hname⟩ := exists_noteOutput houtputNames
  obtain ⟨lines, -, hcontent, hlines, -⟩ := trait_names_distinct_iff (eq_ok_of_isOk hload _) hnames
    (by decide) (eq_ok_of_isOk hplan _) (eq_ok_of_isOk houtputs []) houtput hname
  have hlines := hlines.trans hdeclared
  exact ⟨output, houtput, hname, lines, hcontent, hlines, hlines ▸ by decide⟩

theorem note_checks :
    (Pool.load (noteFiles "Note")).isOk ∧
      ((Schema.ofPool (notePool "Note") ["note.proto"]).plan {}).isOk ∧
      ((notePlan "Note").generateFile .protojson "note.proto").isOk ∧
      (noteOutputs "Note").map (·.name) = ["note.plain.ir.json", "note.plain.rs"] ∧
      ((notePlan "Note").contractsIn .protojson "note.proto").flatMap (·.traitNames)
        = ["NoteIntoPlain", "NotePlainIntoPb", "NoteIntoPlain", "NotePlainIntoPb"] := by
  decide +kernel

/-- Two notes in different messages share the names of both traits. -/
theorem notes_share_trait_names :
    Pool.load (noteFiles "Note") = .ok (notePool "Note") ∧
      (Schema.ofPool (notePool "Note") ["note.proto"]).plan {} = .ok (notePlan "Note") ∧
      ∃ outputs, (notePlan "Note").generateFile .protojson "note.proto" = .ok outputs ∧
        ∃ output ∈ outputs, output.name = "note.plain.rs" ∧
          ∃ lines : List String, output.content = String.join (lines.map (· ++ "\n")) ∧
            lines.filterMap Contract.declaredTrait?
              = ["NoteIntoPlain", "NotePlainIntoPb", "NoteIntoPlain", "NotePlainIntoPb"] ∧
            ¬ (lines.filterMap Contract.declaredTrait?).Nodup := by
  obtain ⟨hload, hplan, houtputs, houtputNames, hdeclared⟩ := note_checks
  have houtputs : (notePlan "Note").generateFile .protojson "note.proto" = .ok (noteOutputs "Note") :=
    eq_ok_of_isOk houtputs []
  obtain ⟨output, houtput, hname⟩ := exists_noteOutput houtputNames
  obtain ⟨lines, hlines, hcontent⟩ := SchemaPlan.exists_fileLines houtputs houtput hname
  refine ⟨eq_ok_of_isOk hload _, eq_ok_of_isOk hplan _, _, houtputs, output, houtput, hname, lines,
    hcontent, ?_⟩
  rw [Contract.declared_fileLines hlines, hdeclared]
  exact ⟨rfl, by decide⟩

end PlainSchema
