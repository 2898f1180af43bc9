import PlainSchema.Proofs.Derive.Places

/-!
# New names, spelled out

The new full name of a type is its package, the Plain names of the messages around it from the
outside in, and its own name, where the Plain name of a message has the suffix exactly if the message
is generated: `plainNameAt?`.  Three computations agree on it, `new_names_agree`.

* **The index** that is filled with the messages in their order and asked by the longest front of a
  name, `Derivation.rename_scopeThrough`: a message adds its Plain name to the new name of the scope
  that declares it, generated or not.
* **The derived files**, in which messages are renamed in place from the inside out; that is
  `Derivation.typeAt?_derive`.
* **The plan** of a message, which records the new full name and its last part,
  `Derivation.newName_message`.
-/

namespace PlainSchema

open Proto

/-! ## Names along positions -/

/-- The messages at some positions, from the outside in. -/
def messagesAlong? (ms : List MessageDecl) : List Nat → Option (List MessageDecl)
  | [] => some []
  | i :: rest => (ms[i]?).bind fun m => (messagesAlong? m.messages rest).map (m :: ·)

/-- The full name of the innermost of some messages, each of which goes by a name. -/
def scopeThrough (name : MessageDecl → String) (scope : String) (chain : List MessageDecl) : String :=
  chain.foldl (fun scope m => inScope scope (name m)) scope

/-- The Plain name of a message: with the suffix exactly if the message is generated. -/
def Pool.plainBase (pool : Pool) (suffix : String) (m : MessageDecl) : String :=
  if (OptionExtensions.ofPool pool).message && m.options.generate then plainName m.name suffix
  else m.name

/-- The Plain full name of the type in a place. -/
def Pool.plainNameAt? (pool : Pool) (suffix : String) (place : Place) : Option String :=
  (pool.files[place.file]?).bind fun file =>
    (messagesAlong? file.messages place.messages).bind fun chain =>
      let scope := scopeThrough (pool.plainBase suffix) (packageScope file.package) chain
      match place.enum with
      | none => if chain.isEmpty then none else some scope
      | some i =>
        (((chain.getLast?.map (·.enums)).getD file.enums)[i]?).map fun e => inScope scope e.name

@[simp] theorem scopeThrough_nil (name : MessageDecl → String) (scope : String) :
    scopeThrough name scope [] = scope :=
  rfl

@[simp] theorem scopeThrough_cons (name : MessageDecl → String) (scope : String) (m : MessageDecl)
    (chain : List MessageDecl) :
    scopeThrough name scope (m :: chain) = scopeThrough name (inScope scope (name m)) chain :=
  rfl

theorem scopeThrough_concat (name : MessageDecl → String) (scope : String)
    (chain : List MessageDecl) (m : MessageDecl) :
    scopeThrough name scope (chain ++ [m]) = inScope (scopeThrough name scope chain) (name m) := by
  rw [scopeThrough, List.foldl_append]
  rfl

/-- A message stands at the end of the messages along its positions, in the scope of those around
it. -/
theorem exists_messagesAlong? {scope s : String} {ms : List MessageDecl} {m : MessageDecl}
    {positions : List Nat} (h : messageAt? scope ms positions = some (s, m)) :
    ∃ around, messagesAlong? ms positions = some (around ++ [m]) ∧
      s = scopeThrough (·.name) scope around := by
  induction positions generalizing scope ms with
  | nil => exact absurd h (by simp [messageAt?])
  | cons i rest ih =>
    cases rest with
    | nil =>
      obtain ⟨n, hn, heq⟩ := Option.map_eq_some_iff.mp h
      obtain ⟨rfl, rfl⟩ := Prod.mk.inj heq
      exact ⟨[], by rw [messagesAlong?, hn]; rfl, rfl⟩
    | cons j rest =>
      obtain ⟨n, hn, h⟩ := Option.bind_eq_some_iff.mp h
      obtain ⟨around, halong, hscope⟩ := ih h
      refine ⟨n :: around, ?_, hscope⟩
      rw [messagesAlong?, hn, Option.bind_some, halong, Option.map_some, List.cons_append]

/-- Every message along some positions is declared in the scope of those around it. -/
def DeclaredAlong (file : FileDecl) (scope : String) : List MessageDecl → Prop
  | [] => True
  | m :: chain => Declares file scope m ∧ DeclaredAlong file (inScope scope m.name) chain

theorem declaredAlong_of_messagesAlong? {file : FileDecl}
    (hsimple : ∀ d ∈ file.declared, IsSimple d.decl.name) {scope : String} {ms chain : List MessageDecl}
    {positions : List Nat} (hms : ∀ m ∈ ms, Declares file scope m)
    (h : messagesAlong? ms positions = some chain) : DeclaredAlong file scope chain := by
  induction positions generalizing scope ms chain with
  | nil =>
    rw [← Option.some.inj h]
    trivial
  | cons i rest ih =>
    obtain ⟨m, hm, h⟩ := Option.bind_eq_some_iff.mp h
    obtain ⟨chain, halong, rfl⟩ := Option.map_eq_some_iff.mp h
    have hdecl := hms m (List.mem_of_getElem? hm)
    have hname : m.name ≠ "" := by
      obtain ⟨d, hd, rfl, -⟩ := hdecl
      exact (hsimple d hd).1
    exact ⟨hdecl, ih (fun n hn => hdecl.nested hname hn) halong⟩

/-! ## The index and the plan -/

namespace Derivation

variable {files : List FileDecl} {generate : List String} {settings : Settings}
  {plan : SchemaPlan}

/-- A message moves with its scope and takes its Plain name, and its plan says so. -/
theorem newName_message (h : Derivation files generate settings plan) {file : FileDecl}
    (hfile : file ∈ files) {scope : String} {m : MessageDecl} (hm : Declares file scope m) :
    plan.renames.rename (inScope scope m.name)
        = inScope (plan.renames.rename scope) ((Pool.link files).plainBase settings.suffix m) ∧
      ∃ mp, plan.message? (inScope scope m.name) = some mp ∧
        mp.newFullName = plan.renames.rename (inScope scope m.name) ∧
        mp.newName = (Pool.link files).plainBase settings.suffix m := by
  obtain ⟨d, hd, rfl, hfull⟩ := hm
  let sm := SourceMessage.ofType (Pool.link files) (OptionExtensions.ofPool (Pool.link files))
    (linkMessage file d)
  have hsm : sm ∈ (Schema.ofPool (Pool.link files) generate).messages :=
    (mem_schema_messages generate).mpr ⟨file, hfile, d, hd, rfl⟩
  have hname : sm.fullName = inScope scope d.decl.name := hfull
  have hscope : (Schema.ofPool (Pool.link files) generate).scopeOf sm = scope :=
    inScope_left_injective d.decl.name ((h.wellScoped.fullName sm hsm).symm.trans hfull)
  have hbase : sm.newBase settings.suffix = (Pool.link files).plainBase settings.suffix d.decl := by
    rw [SourceMessage.newBase, Pool.plainBase]
    change (if (if (OptionExtensions.ofPool (Pool.link files)).message then d.decl.options
      else {}).generate then _ else _) = _
    cases (OptionExtensions.ofPool (Pool.link files)).message <;> rfl
  have hrename := Renames.rename_ofSchema h.wellScoped h.suffix hsm
  rw [← h.plans.renames, hscope, hname, hbase] at hrename
  obtain ⟨mp, -, hfound, hplan⟩ := h.plans.message? h.wellScoped hsm
  have hdots : '.' ∉ ((Pool.link files).plainBase settings.suffix d.decl).toList :=
    hbase ▸ sm.dot_notMem_newBase h.suffix (h.wellScoped.simple sm hsm)
  refine ⟨hrename, mp, hname ▸ hfound, hname ▸ hplan.outlines.newFullName, ?_⟩
  rw [hplan.outlines.newName, hname, hrename, lastName_inScope _ hdots]

/-- The new name of a chain of nested messages is made of their Plain names. -/
theorem rename_scopeThrough (h : Derivation files generate settings plan) {file : FileDecl}
    (hfile : file ∈ files) {scope : String} {chain : List MessageDecl}
    (hchain : DeclaredAlong file scope chain) :
    plan.renames.rename (scopeThrough (·.name) scope chain)
      = scopeThrough ((Pool.link files).plainBase settings.suffix) (plan.renames.rename scope)
          chain := by
  induction chain generalizing scope with
  | nil => rfl
  | cons m chain ih =>
    rw [scopeThrough_cons, scopeThrough_cons, ih hchain.2, (h.newName_message hfile hchain.1).1]

/-- The new name of a type is its Plain name. -/
theorem plainNameAt?_eq (h : Derivation files generate settings plan) {place : Place} {name : String}
    (hat : typeAt? files place = some name) :
    (Pool.link files).plainNameAt? settings.suffix place = some (plan.renames.rename name) := by
  obtain ⟨index, positions, enum⟩ := place
  obtain ⟨file, hget, hat⟩ := Option.bind_eq_some_iff.mp hat
  have hfile := List.mem_of_getElem? hget
  -- The new name of the messages on the way, for a message and for what it declares.
  have hscope : ∀ {chain}, messagesAlong? file.messages positions = some chain →
      plan.renames.rename (scopeThrough (·.name) (packageScope file.package) chain)
        = scopeThrough ((Pool.link files).plainBase settings.suffix) (packageScope file.package)
            chain := by
    intro chain halong
    have hchain := declaredAlong_of_messagesAlong? (h.simple.messages file hfile)
      (fun m hm => declares_top hm) halong
    rw [h.rename_scopeThrough hfile hchain, h.rename_package hfile]
  rw [Pool.plainNameAt?, show (Pool.link files).files = files from rfl, hget, Option.bind_some]
  dsimp only at hat ⊢
  cases positions with
  | nil =>
    cases enum with
    | none => exact absurd hat nofun
    | some i =>
      obtain ⟨e, he, rfl⟩ := Option.map_eq_some_iff.mp hat
      rw [h.rename_enumOf hfile (List.mem_of_getElem? he), messagesAlong?, Option.bind_some]
      change ((file.enums)[i]?).map _ = _
      rw [he]
      rfl
  | cons first rest =>
    cases enum with
    | none =>
      obtain ⟨⟨s, m⟩, hsm, rfl⟩ := Option.map_eq_some_iff.mp hat
      obtain ⟨around, halong, rfl⟩ := exists_messagesAlong? hsm
      rw [halong, Option.bind_some]
      dsimp only
      rw [← hscope halong, scopeThrough_concat, if_neg (by simp)]
    | some i =>
      obtain ⟨⟨s, m⟩, hsm, hat⟩ := Option.bind_eq_some_iff.mp hat
      obtain ⟨e, he, rfl⟩ := Option.map_eq_some_iff.mp hat
      obtain ⟨around, halong, rfl⟩ := exists_messagesAlong? hsm
      have hdecl : Declares file (scopeThrough (·.name) (packageScope file.package) around) m :=
        declares_of_messageAt? (h.simple.messages file hfile) (fun m hm => declares_top hm) hsm
      have hlast : (((around ++ [m]).getLast?.map (·.enums)).getD file.enums)[i]? = some e := by
        rw [List.getLast?_concat]
        exact he
      rw [halong, Option.bind_some]
      dsimp only
      rw [hlast, Option.map_some, ← hscope halong, scopeThrough_concat,
        h.rename_enumIn hfile hdecl (List.mem_of_getElem? he)]

/-- The plan of a message records its new full name and the last part of it. -/
theorem exists_plan_at (h : Derivation files generate settings plan) {place : Place}
    {name : String} (hat : typeAt? files place = some name) (hmessage : place.enum = none) :
    ∃ mp, plan.message? name = some mp ∧ mp.newFullName = plan.renames.rename name ∧
      ∃ scope, plan.renames.rename name = inScope scope mp.newName := by
  obtain ⟨index, positions, enum⟩ := place
  obtain rfl : enum = none := hmessage
  obtain ⟨file, hget, hat⟩ := Option.bind_eq_some_iff.mp hat
  have hfile := List.mem_of_getElem? hget
  cases positions with
  | nil => exact absurd hat nofun
  | cons first rest =>
    obtain ⟨⟨s, m⟩, hsm, rfl⟩ := Option.map_eq_some_iff.mp hat
    have hdecl : Declares file s m :=
      declares_of_messageAt? (h.simple.messages file hfile) (fun m hm => declares_top hm) hsm
    obtain ⟨hrename, mp, hfound, hnewFullName, hnewName⟩ := h.newName_message hfile hdecl
    exact ⟨mp, hfound, hnewFullName, plan.renames.rename s, by rw [hnewName]; exact hrename⟩

end Derivation

/-! ## All names -/

/-- **New names agree.**  For every pool that loads, with names that are identifiers, every suffix
without a dot and every plan: the index gives a type the new full name that its place spells out, the
derived files hold the type under that name in the same place, and the plan of a message records it
together with its last part. -/
theorem new_names_agree {declared : List FileDecl} {pool : Pool} {generate : List String}
    {settings : Settings} {plan : SchemaPlan} (hload : Pool.load declared = .ok pool)
    (hnames : SimpleNames pool.files) (hsuffix : '.' ∉ settings.suffix.toList)
    (hplan : (Schema.ofPool pool generate).plan settings = .ok plan) {place : Place} {name : String}
    (hat : typeAt? pool.files place = some name) :
    pool.plainNameAt? settings.suffix place = some (plan.renames.rename name) ∧
      typeAt? (plan.derive pool.files) place = some (plan.renames.rename name) ∧
      (place.enum = none → ∃ mp, plan.message? name = some mp ∧
        mp.newFullName = plan.renames.rename name ∧
        ∃ scope, plan.renames.rename name = inScope scope mp.newName) := by
  obtain ⟨hpool, hlinked⟩ := Pool.load_eq_ok hload
  have h : Derivation pool.files generate settings plan :=
    ⟨hlinked, hnames, hsuffix, hpool ▸ hplan⟩
  refine ⟨?_, h.typeAt?_derive hat, h.exists_plan_at hat⟩
  rw [hpool]
  exact h.plainNameAt?_eq hat

/-! ## An order with taxes -/

/-- A generated message around one that is not, which has a generated message with an enum in it. -/
def orderFile : FileDecl :=
  { name := "order.proto", package := "p"
    messages :=
      [{ name := "Order", options := { generate := true }
         messages :=
          [{ name := "Line"
             messages :=
              [{ name := "Tax", options := { generate := true }
                 enums := [{ name := "Kind", values := [("KIND_VAT", 0)] }] }] }] }] }

/-- The pool of an order. -/
def orderPool : Pool :=
  ((Pool.load [messageOptionsFile, orderFile]).toOption).getD {}

/-- The plan of an order. -/
def orderPlan : SchemaPlan :=
  ((Schema.ofPool orderPool []).plan {}).toOption.getD
    { suffix := "", messages := [], renames := {}, diagnostics := [] }

theorem load_order : Pool.load [messageOptionsFile, orderFile] = .ok orderPool :=
  eq_ok_of_isOk (by decide +kernel) _

theorem plan_order : (Schema.ofPool orderPool []).plan {} = .ok orderPlan :=
  eq_ok_of_isOk (by decide +kernel) _

/-- The suffix shows on the two generated messages and nowhere else. -/
theorem tax_names_agree :
    typeAt? orderPool.files ⟨1, [0, 0, 0], some 0⟩ = some ".p.Order.Line.Tax.Kind" ∧
      typeAt? (orderPlan.derive orderPool.files) ⟨1, [0, 0, 0], some 0⟩
        = some ".p.OrderPlain.Line.TaxPlain.Kind" ∧
      ∃ mp, orderPlan.message? ".p.Order.Line.Tax" = some mp ∧
        mp.newFullName = ".p.OrderPlain.Line.TaxPlain" := by
  have hnames : SimpleNames orderPool.files := by decide +kernel
  have hkind : typeAt? orderPool.files ⟨1, [0, 0, 0], some 0⟩ = some ".p.Order.Line.Tax.Kind" := by
    decide +kernel
  have htax : typeAt? orderPool.files ⟨1, [0, 0, 0], none⟩ = some ".p.Order.Line.Tax" := by
    decide +kernel
  have hrename : orderPlan.renames.rename ".p.Order.Line.Tax.Kind"
        = ".p.OrderPlain.Line.TaxPlain.Kind" ∧
      orderPlan.renames.rename ".p.Order.Line.Tax" = ".p.OrderPlain.Line.TaxPlain" := by
    decide +kernel
  obtain ⟨-, hderived, -⟩ := new_names_agree load_order hnames (by decide) plan_order hkind
  obtain ⟨-, -, hplanned⟩ := new_names_agree load_order hnames (by decide) plan_order htax
  obtain ⟨mp, hfound, hnew, -⟩ := hplanned rfl
  exact ⟨hkind, hrename.1 ▸ hderived, mp, hfound, hnew.trans hrename.2⟩

end PlainSchema
