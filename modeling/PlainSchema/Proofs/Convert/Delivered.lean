import PlainSchema.Contract.Basic
import PlainSchema.Proofs.Convert.Built
import PlainSchema.Proofs.Convert.Returned
import PlainSchema.Proofs.Convert.Received
import PlainSchema.Proofs.Convert.Transcoded

/-!
# Every well-typed message is flattened

Strict flattening has two ways to fail: a planned field finds no Plain field that takes what it
writes, or a caster is missing or fails.  `Flattening.Delivers` rules them out for one field, and
`SchemaPlan.IsCarriable` with `Casters.Cover` for all fields of a plan.  What a field writes depends
on its role.

```text
a tag, a text or bytes of a oneof   the populated member has a field: Flattening.exists_fillRole
a value of a source field           **the Plain field receives it**: GeneratedType.exists_carried
nothing                             virtual fields and companions stay unset
```

Messages inside messages are flattened too, or moved field by field; that they are less deep carries
the induction, `Converter.movesBelow`.  The main result is `toPlain_succeeds`.  Its conditions cannot
be left out: a map that is serialized is refused, `shipment_with_serialized_counts_refused`.
-/

namespace PlainSchema

open Proto

/-! ## Casters of contracts -/

namespace Contract

/-- Naming casters does not change which fields have one. -/
theorem exists_mem_nameCasters (params generics : List String) {fields : List FieldContract}
    {field : FieldContract} (hfield : field ∈ fields) :
    ∃ named ∈ nameCasters params generics fields, named.name = field.name ∧
      named.caster.isSome = field.caster.isSome := by
  induction fields generalizing params generics with
  | nil => exact absurd hfield List.not_mem_nil
  | cons first rest ih =>
    rw [nameCasters]
    cases hcaster : first.caster with
    | none =>
      rcases List.mem_cons.mp hfield with rfl | hfield
      · exact ⟨field, List.mem_cons_self, rfl, rfl⟩
      · obtain ⟨named, hnamed, hsame⟩ := ih _ _ hfield
        exact ⟨named, List.mem_cons_of_mem _ hnamed, hsame⟩
    | some caster =>
      rcases List.mem_cons.mp hfield with rfl | hfield
      · exact ⟨_, List.mem_cons_self, rfl, by rw [hcaster]; rfl⟩
      · obtain ⟨named, hnamed, hsame⟩ := ih _ _ hfield
        exact ⟨named, List.mem_cons_of_mem _ hnamed, hsame⟩

/-- The contract of a message lists a caster for every field that needs one. -/
theorem exists_caster {mp : MessagePlan} {fp : FieldPlan} (hfp : fp ∈ mp.fields)
    (hneeds : fp.needsCaster) (style : JsonStyle) :
    ∃ field ∈ (MessageContract.ofPlan mp style).fields, field.name = fp.shape.name ∧
      field.caster.isSome := by
  obtain ⟨field, hfield, hname, hcaster⟩ := exists_mem_nameCasters takenParams takenGenerics
    (List.mem_map_of_mem (f := FieldContract.ofPlan mp) hfp)
  refine ⟨field, hfield, hname, hcaster.trans ?_⟩
  cases htarget : fp.override? with
  | none => simp [FieldPlan.needsCaster, htarget] at hneeds
  | some target => simp [FieldContract.ofPlan, caster?, htarget, hneeds, guard]

end Contract

/-- There is a caster for every field that the contracts of a plan list, and each one turns every value
into one that its Plain field takes. -/
def Casters.Cover (casters : Casters (Value → Except String Value)) (plan : SchemaPlan)
    (plain : Pool) (style : JsonStyle) : Prop :=
  ∀ mp ∈ plan.messages, mp.generate → ∀ field ∈ (Contract.MessageContract.ofPlan mp style).fields,
    field.caster.isSome → ∃ f, casters.get? mp.newFullName field.name = some f ∧
      ∀ type, Converter.requireType plain mp.newFullName = .ok type →
        ∀ target, type.field? field.name = some target →
          ∀ value, ∃ w, f value = .ok w ∧ plain.accepts target w

/-- There is a caster for every planned field that needs one, and each one turns every value into one that
its Plain field takes. -/
def Casters.Serve (casters : Casters (Value → Except String Value)) (plan : SchemaPlan)
    (plain : Pool) : Prop :=
  ∀ mp ∈ plan.messages, mp.generate → ∀ fp ∈ mp.fields, fp.needsCaster →
    ∃ f, casters.get? mp.newFullName fp.shape.name = some f ∧
      ∀ type, Converter.requireType plain mp.newFullName = .ok type →
        ∀ target, type.field? fp.shape.name = some target →
          ∀ value, ∃ w, f value = .ok w ∧ plain.accepts target w

/-- Every planned field that needs a caster is listed by a contract. -/
theorem Casters.Cover.serve {casters : Casters (Value → Except String Value)} {plan : SchemaPlan}
    {plain : Pool} {style : JsonStyle} (h : casters.Cover plan plain style) :
    casters.Serve plan plain := by
  intro mp hmp hgenerate fp hfp hneeds
  obtain ⟨field, hfield, hname, hcaster⟩ := Contract.exists_caster hfp hneeds style
  rw [← hname]
  exact h mp hmp hgenerate field hfield hcaster

/-! ## Fields of a Plain message -/

namespace Flattening

variable {c : Flattening} {casters : Casters (Value → Except String Value)} {fp : FieldPlan}
  {target : Field} {value : Value}

theorem exists_set (h : c.plain.accepts target value) (out : Message) :
    ∃ out', c.set out target value = .ok out' := by
  rw [set, setField, Message.set?, if_pos h]
  exact ⟨_, rfl⟩

/-- The companions of a plan are fields of the Plain type that hold a text. -/
def NamesCompanions (c : Flattening) : Prop :=
  ∀ entry ∈ c.plan.crf, ∃ target, c.type.field? entry.crfField = some target ∧
    target.type = .scalar .string

theorem NamesCompanions.exists_fillCompanion (h : c.NamesCompanions) {path : SourcePath}
    (hpath : path ∈ c.plan.sourcePaths fp) (out : Message) :
    ∃ out', c.fillCompanion path out = .ok out' := by
  rw [MessagePlan.sourcePaths] at hpath
  split at hpath
  · obtain rfl := List.mem_singleton.mp hpath
    exact ⟨out, rfl⟩
  · next entry hentry =>
    obtain ⟨source, -, rfl⟩ := List.mem_map.mp hpath
    obtain ⟨target, htarget, htype⟩ := h entry (List.mem_of_find?_eq_some hentry)
    have haccepts : c.plain.accepts target (.string source) :=
      Pool.accepts_of_type (by rw [htype]; rfl)
    obtain ⟨out', hout'⟩ := exists_set haccepts out
    exact ⟨out', bind_eq_ok.mpr ⟨target, by rw [requireField, htarget], hout'⟩⟩

/-- A field is filled if what it is read from can be carried, and cast where it has to be. -/
theorem exists_fillValue (hmode : c.mode = .strict casters) (hcompanions : c.NamesCompanions)
    (hcarry : ∀ path ∈ c.plan.ownPaths fp, ∀ leaf value,
      c.source.read? c.pool path = some (leaf, value) →
        ∃ w, fp.carry c.pool c.plain c.nested leaf target.type value = .ok w ∧
          c.plain.accepts target w)
    (hcast : fp.needsCaster → ∃ f, casters.get? c.plan.newFullName fp.shape.name = some f ∧
      ∀ value, ∃ w, f value = .ok w ∧ c.plain.accepts target w) (out : Message) :
    ∃ out', c.fillValue fp target out = .ok out' := by
  rw [fillValue]
  cases hfirst : firstPopulated? c.pool c.source (c.plan.sourcePaths fp) with
  | none => exact ⟨out, rfl⟩
  | some found =>
    obtain ⟨path, leaf, value⟩ := found
    obtain ⟨hpath, hread⟩ := firstPopulated?_eq_some hfirst
    obtain ⟨carried, hcarried, haccepts⟩ := hcarry _ (List.mem_map_of_mem hpath) leaf value hread
    suffices hfilled : ∃ filled, c.fillTarget fp target leaf value out = .ok filled by
      obtain ⟨filled, hfilled⟩ := hfilled
      obtain ⟨out', hout'⟩ := hcompanions.exists_fillCompanion hpath filled
      exact ⟨out', bind_eq_ok.mpr ⟨filled, hfilled, hout'⟩⟩
    rw [fillTarget, adapted, hcarried]
    by_cases hneeds : fp.needsCaster
    · obtain ⟨f, hf, htotal⟩ := hcast hneeds
      obtain ⟨w, hw, haccepts⟩ := htotal carried
      obtain ⟨out', hout'⟩ := exists_set haccepts out
      exact ⟨out', by simp [hneeds, hmode, Mode.cast, hf, hw, hout', bind, Except.bind]⟩
    · obtain ⟨out', hout'⟩ := exists_set haccepts out
      exact ⟨out', by simp [hneeds, hout', bind, Except.bind]⟩

/-- The Plain field of a role has the type of what the role writes. -/
structure RoleTyped (role : Role) (type : FieldType) : Prop where
  dispatchTag : ∀ oneof, role = .dispatchTag oneof → ∃ name, type = .enum name
  discriminator : ∀ oneof, role = .discriminator oneof → type = .scalar .string
  payload : ∀ oneof, role = .payload oneof → type = .scalar .bytes

theorem exists_fillPayload {type : MessageType} (htype : c.source.type? c.pool = some type)
    {member : OneofMember} (hhas : hasNamed c.pool c.source member.name)
    (htarget : target.type = .scalar .bytes) (out : Message) :
    ∃ out', c.fillPayload member target.name target out = .ok out' := by
  obtain ⟨field, hfield, -⟩ := exists_of_hasNamed htype hhas
  rw [fillPayload, htype]
  dsimp only
  rw [hfield]
  exact exists_set (Pool.accepts_of_type (by rw [htarget]; rfl)) out

/-- The member that is found populated holds values. -/
theorem hasNamed_of_populated? {oneof : String} {index : Nat} {member : OneofMember}
    (h : c.populated? oneof = some (index, member)) : hasNamed c.pool c.source member.name := by
  obtain ⟨found, -, hindex, hmember⟩ := populated?_eq_some h
  have hpopulates : Restoring.Populates c.pool c.source found member := ⟨index, hindex, hmember⟩
  exact hpopulates.hasNamed.2

theorem exists_fillRole {type : MessageType} (htype : c.source.type? c.pool = some type) {role : Role}
    (htyped : RoleTyped role target.type) (out : Message) :
    ∃ out', c.fillRole role target out = .ok out' := by
  rw [fillRole.eq_def]
  cases hpopulated : c.populated? role.target with
  | none => cases role <;> exact ⟨out, rfl⟩
  | some found =>
    obtain ⟨index, member⟩ := found
    cases role with
    | dispatchTag oneof =>
      obtain ⟨name, hname⟩ := htyped.dispatchTag oneof rfl
      exact exists_set (Pool.accepts_of_type (by rw [hname]; rfl)) out
    | discriminator oneof =>
      dsimp only
      cases discriminatorOf? member with
      | none => exact ⟨out, rfl⟩
      | some tag =>
        exact exists_set (Pool.accepts_of_type (by rw [htyped.discriminator oneof rfl]; rfl)) out
    | payload oneof =>
      exact exists_fillPayload htype (hasNamed_of_populated? hpopulated) (htyped.payload oneof rfl) out
    | crfPath field => exact ⟨out, rfl⟩

/-- A planned field finds a Plain field that takes what the plan writes. -/
structure Delivers (c : Flattening) (casters : Casters (Value → Except String Value)) (fp : FieldPlan)
    (target : Field) : Prop where
  found : c.type.field? fp.shape.name = some target
  role : ∀ role, fp.origin.role = some role → RoleTyped role target.type
  carry : fp.isReversible → ∀ path ∈ c.plan.ownPaths fp, ∀ leaf value,
    c.source.read? c.pool path = some (leaf, value) →
    ∃ w, fp.carry c.pool c.plain c.nested leaf target.type value = .ok w ∧ c.plain.accepts target w
  cast : fp.needsCaster → ∃ f, casters.get? c.plan.newFullName fp.shape.name = some f ∧
    ∀ value, ∃ w, f value = .ok w ∧ c.plain.accepts target w

section Run

variable {type : MessageType} (hmode : c.mode = .strict casters) (hcompanions : c.NamesCompanions)
  (htype : c.source.type? c.pool = some type)
include hmode hcompanions htype

theorem Delivers.exists_fillField (h : c.Delivers casters fp target) (out : Message) :
    ∃ out', c.fillField out fp = .ok out' := by
  have hfound : requireField c.type fp.shape.name = .ok target := by rw [requireField, h.found]
  cases hrole : fp.origin.role with
  | some role =>
    obtain ⟨out', hout'⟩ := exists_fillRole htype (h.role role hrole) out
    cases role with
    | crfPath field => exact ⟨out, by simp [fillField, hfound, hrole, bind, Except.bind, pure, Except.pure]⟩
    | _ => exact ⟨out', by simp [fillField, hfound, hrole, hout', bind, Except.bind]⟩
  | none =>
    by_cases hvirtual : fp.origin.isVirtual
    · exact ⟨out, by simp [fillField, hfound, hrole, hvirtual, bind, Except.bind, pure, Except.pure]⟩
    · have hreversible : fp.isReversible := by simp [FieldPlan.isReversible, hvirtual, hrole]
      obtain ⟨out', hout'⟩ := exists_fillValue hmode hcompanions (h.carry hreversible) h.cast out
      exact ⟨out', by simp [fillField, hfound, hrole, hvirtual, hout', bind, Except.bind]⟩

/-- **A message whose fields are all delivered is flattened.** -/
theorem exists_run (h : ∀ fp ∈ c.plan.fields, ∃ target, c.Delivers casters fp target) :
    ∃ p, c.run = .ok p := by
  have hrun : ∃ p, c.run = .ok p ∧ True := by
    refine exists_foldlM (fun _ _ => True) trivial fun met fp rest out hsplit _ => ?_
    obtain ⟨target, hdelivers⟩ := h fp (by rw [hsplit]; exact List.mem_append_right _ List.mem_cons_self)
    obtain ⟨out', hout'⟩ := hdelivers.exists_fillField hmode hcompanions htype out
    exact ⟨out', by rw [fillStep, hout', hmode]; rfl, trivial⟩
  obtain ⟨p, hp, -⟩ := hrun
  exact ⟨p, hp⟩

end Run

end Flattening

/-! ## Plans whose fields are delivered -/

/-- Every planned field finds the type of what it carries in the derived files, and no plan serializes
a map. -/
structure SchemaPlan.IsCarriable (plan : SchemaPlan) (files : List FileDecl)
    (generate : List String) : Prop where
  entries : (Schema.ofPool (Pool.link files) generate).EntriesOfMaps
  maps : ∀ mp ∈ plan.messages, ∀ fp ∈ mp.fields, fp.origin.isSerialized → ¬ fp.shape.isMap
  references : KeepsPlannedReferences files generate plan
  apart : MapEntriesApart files generate plan
  enums : ∀ mp ∈ plan.messages, ∀ e ∈ mp.enums, plan.renames.rename e.fullName = e.fullName

/-- A message inside another one is not deeper. -/
theorem Message.Within.depth_le {inner m : Message} (h : inner.Within m) : inner.depth ≤ m.depth := by
  induction h with
  | refl => exact Nat.le_refl _
  | step hvalue hholds _ ih =>
    have := Message.depth_lt_of_holds hvalue hholds
    omega

/-- Well-typed messages of less than some depth can be moved to their Plain types. -/
def MovesBelow (source : Pool) (renames : Renames) (nested : ConvertNested) (depth : Nat) : Prop :=
  ∀ m : Message, m.WellTyped source → m.depth < depth → ∃ m', nested (renames.moved m.type) m = .ok m'

theorem MovesBelow.canMove {source : Pool} {renames : Renames} {nested : ConvertNested}
    {x inner : Message} (h : MovesBelow source renames nested x.depth) (hx : x.WellTyped source)
    (hinner : inner.Within x) {number : Nat} {value : Value}
    (hvalue : inner.value? number = some value) : value.CanMove nested renames := by
  intro m hholds
  have hdepth := Message.depth_lt_of_holds hvalue hholds
  have hle := hinner.depth_le
  exact h m ((hx.within hinner).nested hvalue hholds) (by omega)

section Planned

variable {files : List FileDecl} {generate : List String} {settings : Settings}
  {plan : SchemaPlan} {plain : Pool} {mp : MessagePlan} {file : FileDecl} {scope : String}
  {m : MessageDecl} {d : DeclaredMessage} {type' : MessageType} {fp : FieldPlan} {target : Field}
  (hg : GeneratedType files plan plain mp file scope m d type') (hlinked : type'.Linked)
  {sm : SourceMessage}
  (hplan : sm.IsPlanOf (Schema.ofPool (Pool.link files) generate) settings plan.renames mp)

include hg hlinked hplan

theorem GeneratedType.roleTyped (hcarriable : plan.IsCarriable files generate)
    (hmp : mp ∈ plan.messages) (hfp : fp ∈ mp.fields) (htarget : type'.field? fp.shape.name = some target)
    {role : Role} (hrole : fp.origin.role = some role) : Flattening.RoleTyped role target.type := by
  have hshaped := hplan.roleShaped hfp
  have hmap : ¬ fp.shape.isMap := by
    rw [hshaped.isMap (by rw [hrole]; rfl)]
    exact Bool.false_ne_true
  constructor
  · rintro oneof rfl
    obtain ⟨hkind, e, he, href, hname⟩ := hshaped.dispatchTag oneof hrole
    obtain ⟨name, htype, -⟩ :=
      hg.target_of_enum hlinked hfp htarget hkind hmap he href hname (hcarriable.enums mp hmp e he)
    exact ⟨name, htype⟩
  · rintro oneof rfl
    exact hg.target_of_isScalar hlinked hfp htarget (hshaped.discriminator oneof hrole) hmap
  · rintro oneof rfl
    exact hg.target_of_isScalar hlinked hfp htarget (hshaped.payload oneof hrole) hmap

/-- The Plain type has a text field for every companion. -/
theorem GeneratedType.namesCompanions (hgenerate : mp.generate) {entry : CrfEntry}
    (hentry : entry ∈ mp.crf) :
    ∃ target, type'.field? entry.crfField = some target ∧ target.type = .scalar .string := by
  obtain ⟨companion, hcompanion, hname, hshape, hmap⟩ := hplan.exists_companion hgenerate hentry
  obtain ⟨-, target, -, htarget, -⟩ := hg.exists_target hlinked hcompanion
  exact ⟨target, hname ▸ htarget, hg.target_of_isScalar hlinked hcompanion htarget hshape hmap⟩

end Planned

/-! ## Messages inside messages -/

namespace Converter

variable {c : Converter} {files : List FileDecl} {generate : List String} {settings : Settings}
  {casters : Casters (Value → Except String Value)} {x : Message} {mp : MessagePlan}
  {nested : ConvertNested} (hc : c.IsBuilt files generate settings)
include hc

/-- A Plain type can be found by its name, with and without the dot. -/
theorem IsBuilt.requireType_plain {name : String} {type' : MessageType}
    (hname : name ∈ messageNames c.source.files)
    (hmoved : "." ++ type'.fullName = c.plan.renames.rename ("." ++ name))
    (hfind : c.plain.message? type'.fullName = some type') :
    requireType c.plain type'.fullName = .ok type' ∧
      requireType c.plain ("." ++ type'.fullName) = .ok type' := by
  have hhead : type'.fullName.toList.head? ≠ some '.' := by
    obtain ⟨file, hfile, d, hd, rfl⟩ := PlainSchema.mem_messageNames.mp hname
    obtain ⟨rest, hrest, -, hhead⟩ := hc.derivation.beginsWithDot_rename hc.names
      ((mem_schema_messages generate).mpr ⟨file, hfile, d, hd, rfl⟩)
    change c.plan.renames.rename ("." ++ d.fullName) = _ at hrest
    rw [dot_append_injective (hmoved.trans hrest)]
    exact hhead
  constructor
  · rw [requireType, ← trimFront_dot hhead, trimFront_trimFront, trimFront_dot hhead, hfind]
  · rw [requireType, trimFront_dot hhead, hfind]

/-- The Plain type of a generated message can be found by the name that the plan has for it. -/
theorem IsBuilt.exists_generatedType (hmp : mp ∈ c.plan.messages) (hgenerate : mp.generate) :
    ∃ file scope m d type', GeneratedType c.source.files c.plan c.plain mp file scope m d type' ∧
      type'.Linked ∧ requireType c.plain mp.newFullName = .ok type' := by
  have h := hc.derivation
  obtain ⟨file, scope, m, d, type', hg⟩ := h.exists_generatedType hc.loadPlain hmp hgenerate
  refine ⟨file, scope, m, d, type', hg, hc.linkedPlain type' (Pool.message?_mem hg.found).1, ?_⟩
  obtain ⟨sm, hsm, -, hnew, -⟩ := h.exists_source hmp
  obtain ⟨file', hfile', d', hd', rfl⟩ := (mem_schema_messages generate).mp hsm
  rw [← hg.fullName, ← hg.links.fullName] at hnew ⊢
  exact (hc.requireType_plain (PlainSchema.mem_messageNames.mpr ⟨file', hfile', d', hd', rfl⟩) hnew
    (by rw [hg.links.fullName]; exact hg.found)).2

/-- What a well-typed message holds at a path of a planned field is carried into the Plain field. -/
theorem IsBuilt.exists_carried (hcarriable : c.plan.IsCarriable c.source.files generate)
    (halike : c.plan.MergesAlike (Schema.ofPool c.source generate) settings)
    (hmem : mp ∈ c.plan.messages) (hgenerate : mp.generate) {type type' : MessageType}
    (hrequire : requireType c.source mp.fullName = .ok type)
    (hrequire' : requireType c.plain mp.newFullName = .ok type') {fp : FieldPlan}
    (hfp : fp ∈ mp.fields) {target : Field} (htarget : type'.field? fp.shape.name = some target)
    (hx : x.WellTyped c.source) (htype : x.type? c.source = some type)
    (hmoves : MovesBelow c.source c.plan.renames nested x.depth) (hreversible : fp.isReversible)
    {path : List String} (hpath : path ∈ mp.ownPaths fp) {leaf : Field} {value : Value}
    (hread : x.read? c.source path = some (leaf, value)) :
    ∃ w, fp.carry c.source c.plain nested leaf target.type value = .ok w ∧
      c.plain.accepts target w := by
  obtain ⟨hresolved, hfits, -, hpresence, inner, hinner, hstored⟩ := hx.resolvePath htype hread
  obtain ⟨context, owner, own, field, hserves, hreads⟩ :=
    hc.exists_serves hcarriable.entries halike hmem hgenerate hrequire hfp hreversible hpath hresolved
  obtain ⟨file, scope, m, d, found, hg, hlinked, hfound⟩ := hc.exists_generatedType hmem hgenerate
  obtain rfl := Except.ok.inj (hfound.symm.trans hrequire')
  have hcarries := hg.carriesInto hc.derivation hlinked hfp htarget hserves hreads hc.loadPlain
    hcarriable.entries hcarriable.apart hcarriable.references hmem (hcarriable.maps mp hmem fp hfp)
  rw [← hc.source_eq] at hcarries
  exact hcarries.exists_carry hfits hpresence
    (fun m hholds => (hx.within hinner).nested hstored hholds) (hmoves.canMove hx hinner hstored)

/-- A generated message is flattened, if the messages inside it are. -/
theorem exists_byPlan_toPlain (hcarriable : c.plan.IsCarriable c.source.files generate)
    (halike : c.plan.MergesAlike (Schema.ofPool c.source generate) settings)
    (hserve : casters.Serve c.plan c.plain)
    (hmp : c.planFor? x.type .toPlain = some mp) (hx : x.WellTyped c.source)
    (hmoves : MovesBelow c.source c.plan.renames nested x.depth) :
    ∃ p, c.byPlan (.strict casters) nested c.source x mp .toPlain = .ok p := by
  obtain ⟨hmem, hgenerate, hname⟩ := mem_of_planFor? hmp
  obtain ⟨type, htype, -⟩ := hx x .refl
  obtain ⟨htypeMem, hfullName⟩ := Pool.message?_mem htype
  have hown := (hc.requireType_fullName htypeMem).2
  rw [hfullName, ← hname] at hown
  obtain ⟨source, -, hplan⟩ := exists_left_of_forall₂ hc.derivation.plans.messages hmem
  obtain ⟨file, scope, m, d, type', hg, hlinked, hrequire⟩ := hc.exists_generatedType hmem hgenerate
  rw [byPlan, hrequire]
  change ∃ p, Flattening.run _ = .ok p
  refine Flattening.exists_run rfl (fun entry hentry => hg.namesCompanions hlinked hplan hgenerate hentry)
    htype fun fp hfp => ?_
  obtain ⟨-, target, -, htarget, -⟩ := hg.exists_target hlinked hfp
  refine ⟨target, htarget, fun role hrole => hg.roleTyped hlinked hplan hcarriable hmem hfp htarget hrole,
    fun hreversible path hpath leaf value hread => ?_, fun hneeds => ?_⟩
  · exact IsBuilt.exists_carried hc hcarriable halike hmem hgenerate hown hrequire hfp htarget hx htype
      hmoves hreversible hpath hread
  · obtain ⟨f, hf, htotal⟩ := hserve mp hmem hgenerate fp hfp hneeds
    exact ⟨f, hf, htotal type' hrequire target htarget⟩

/-- A message that is not generated is moved field by field, if the messages inside it are. -/
theorem exists_transcode_toPlain (hcarriable : c.plan.IsCarriable c.source.files generate)
    (hmp : c.planFor? x.type .toPlain = none) (hx : x.WellTyped c.source)
    (hmoves : MovesBelow c.source c.plan.renames nested x.depth) :
    ∃ m, transcode c.source c.plain nested (c.plan.renames.moved x.type) x = .ok m := by
  obtain ⟨type, htype, hfits⟩ := hx x .refl
  obtain ⟨htypeMem, hfullName⟩ := Pool.message?_mem htype
  have h := hc.derivation
  have hlinkMem : type ∈ (Pool.link c.source.files).messages := hc.source_eq ▸ htypeMem
  obtain ⟨type', hfind, hmoved, hfields⟩ := h.exists_plainType hc.loadPlain hlinkMem
  have hlinked := hc.linkedPlain type' (Pool.message?_mem hfind).1
  have hrequire := (hc.requireType_plain (hc.mem_messageNames htypeMem) hmoved.dotted hfind).1
  rw [hmoved.fullName, hfullName] at hrequire
  have hkept : ∀ mp, c.plan.message? ("." ++ type.fullName) = some mp → ¬ mp.generate := by
    intro mp hfound hgenerate
    have hnone : c.planFor? x.type .toPlain = some mp :=
      Option.filter_eq_some_iff.mpr ⟨by rw [← hfullName, hc.dotted_fullName htypeMem]; exact hfound,
        hgenerate⟩
    rw [hmp] at hnone
    cases hnone
  rw [transcode, htype, hrequire]
  change ∃ m, List.foldlM _ _ (x.setFields c.source type) = _
  suffices h : ∃ m, List.foldlM _ _ (x.setFields c.source type) = Except.ok m ∧ True from
    h.imp fun _ h => h.1
  refine exists_foldlM (fun _ _ => True) trivial ?_
  rintro met ⟨field, value⟩ rest out hsplit -
  have hmem : (field, value) ∈ x.setFields c.source type := by
    rw [hsplit]
    exact List.mem_append_right _ List.mem_cons_self
  obtain ⟨hfield, hget⟩ := mem_setFields.mp hmem
  obtain ⟨-, hvalue⟩ := Message.value?_of_get? hget
  obtain ⟨target, htarget, hmovesTo⟩ := hfields hkept field hfield
  have hfind := hlinked.fieldByNumber?_number htarget
  rw [hmovesTo.number] at hfind
  have hreceives : ReceivesField c.source c.plain c.plan.renames field target := by
    rw [hc.source_eq]
    exact h.receives_of_movesTo hc.loadPlain hlinkMem hfield hcarriable.entries hmovesTo
  obtain ⟨w, hw, haccepts⟩ := exists_convertValue hreceives (hfits.fields field hfield value hvalue)
    (fun htracks => hfits.singular field hfield htracks (by rw [hvalue]; rfl))
    (hmoves.canMove hx .refl hvalue)
  dsimp only
  rw [hfind]
  exact ⟨out.set type' target w, bind_eq_ok.mpr ⟨w, hw, by rw [setField, Message.set?, if_pos haccepts]⟩,
    trivial⟩

/-- **Messages inside messages are moved level by level**, by their plans or field by field. -/
theorem movesBelow (hcarriable : c.plan.IsCarriable c.source.files generate)
    (halike : c.plan.MergesAlike (Schema.ofPool c.source generate) settings)
    (hserve : casters.Serve c.plan c.plain) (beyond : ConvertNested) (levels : Nat) :
    MovesBelow c.source c.plan.renames
      (c.convertWithin (.strict casters) .toPlain c.source beyond levels) (levels + 1) := by
  induction levels with
  | zero =>
    rintro ⟨type, fields, unknown⟩ - hdepth
    rw [Message.depth] at hdepth
    omega
  | succ levels ih =>
    intro m hm hdepth
    have hbelow : MovesBelow c.source c.plan.renames
        (c.convertWithin (.strict casters) .toPlain c.source beyond levels) m.depth :=
      fun inner hinner hlt => ih inner hinner (by omega)
    rw [convertWithin, if_neg (by omega), convertMessage]
    cases hmp : c.planFor? m.type .toPlain with
    | some mp => exact exists_byPlan_toPlain hc hcarriable halike hserve hmp hm hbelow
    | none => exact exists_transcode_toPlain hc hcarriable hmp hm hbelow

/-- Messages inside messages are moved, however deep they are. -/
theorem movesBelow_convertNested (hcarriable : c.plan.IsCarriable c.source.files generate)
    (halike : c.plan.MergesAlike (Schema.ofPool c.source generate) settings)
    (hserve : casters.Serve c.plan c.plain) (deeper depth : Nat) :
    MovesBelow c.source c.plan.renames
      (c.convertNested (.strict casters) .toPlain c.source (deeper + 1)) depth :=
  fun m hm _ => movesBelow hc hcarriable halike hserve _ m.depth m hm (Nat.lt_succ_self _)

/-- Strict flattening succeeds on every well-typed message of a generated type, if what is merged is
carried in one way. -/
theorem IsBuilt.exists_toPlain (hcarriable : c.plan.IsCarriable c.source.files generate)
    (halike : c.plan.MergesAlike (Schema.ofPool c.source generate) settings)
    (hserve : casters.Serve c.plan c.plain) (hx : x.WellTyped c.source)
    (hgenerated : (c.planFor? x.type .toPlain).isSome) :
    ∃ p, c.toPlain casters c.source x = .ok p := by
  obtain ⟨mp, hmp⟩ := Option.isSome_iff_exists.mp hgenerated
  rw [toPlain, convert, hmp]
  exact exists_byPlan_toPlain hc hcarriable halike hserve hmp hx
    (movesBelow_convertNested hc hcarriable halike hserve _ x.depth)

end Converter

/-! ## The main result -/

/-- **Strict flattening fails only through casters**: with a total caster for every field that the
contracts list, every well-typed message of a generated type is flattened, if no field is merged, no map
is serialized, and every planned reference leads to the type that it names. -/
theorem toPlain_succeeds {files : List FileDecl} {pool : Pool} {generate : List String}
    {settings : Settings} {plan : SchemaPlan} {c : Converter}
    {casters : Casters (Value → Except String Value)} {style : JsonStyle} {x : Message}
    (hload : Pool.load files = .ok pool) (hnames : ProperNames pool.files)
    (hsuffix : '.' ∉ settings.suffix.toList)
    (hplan : (Schema.ofPool pool generate).plan settings = .ok plan)
    (hconverter : Converter.ofPool pool plan = .ok c)
    (hcrf : ∀ mp ∈ plan.messages, mp.crf = [])
    (hcarriable : plan.IsCarriable pool.files generate)
    (hcover : casters.Cover plan c.plain style) (hx : x.WellTyped pool)
    (hgenerated : (c.planFor? x.type .toPlain).isSome) :
    ∃ p, c.toPlain casters pool x = .ok p := by
  have hbuilt := Converter.isBuilt_of_ofPool hload hnames hsuffix hplan hconverter
  obtain ⟨rfl, rfl⟩ := Converter.ofPool_eq_ok hconverter
  have halike := SchemaPlan.mergesAlike_of_crf hbuilt.derivation hcrf
  rw [← hbuilt.source_eq] at halike
  exact hbuilt.exists_toPlain hcarriable halike hcover.serve hx hgenerated

/-! ## A shipment -/

/-- A shipment of parts by road or by sea, with counts that may be serialized. -/
def shipmentFile (serialized : Bool) : FileDecl :=
  { name := "shipment.proto", package := "p"
    enums := [{ name := "Status", values := [("UNKNOWN", 0), ("SENT", 1)] }]
    messages :=
      [{ name := "UserId", options := { typeAlias := true }
         fields := [{ name := "value", number := 1, kind := .scalar .string }] },
        { name := "Road", fields := [{ name := "plate", number := 1, kind := .scalar .string }] },
        { name := "Sea", fields := [{ name := "vessel", number := 1, kind := .scalar .string }] },
        { name := "Shipment", options := { generate := true }
          oneofs := [{ name := "route", options := { enumDispatched := true } }]
          messages :=
            [{ name := "CountsEntry", isMapEntry := true
               fields :=
                 [{ name := "key", number := 1, kind := .scalar .string },
                   { name := "value", number := 2, kind := .scalar .int32 }] }]
          fields :=
            [{ name := "id", number := 1, kind := .scalar .string
               options := { overrideType := some { name := "Uuid" } } },
              { name := "owner", number := 2, kind := .message, typeRef := some ".p.UserId" },
              { name := "status", number := 3, kind := .enum, typeRef := some ".p.Status"
                options := { enumAsString := true } },
              { name := "counts", number := 4, kind := .message, label := .repeated
                typeRef := some ".p.Shipment.CountsEntry", options := { serialize := serialized } },
              { name := "road", number := 5, kind := .message, typeRef := some ".p.Road"
                oneofIndex := some 0 },
              { name := "sea", number := 6, kind := .message, typeRef := some ".p.Sea"
                oneofIndex := some 0 },
              { name := "parts", number := 7, kind := .message, label := .repeated
                typeRef := some ".p.Shipment" }] }] }

def shipmentFiles (serialized : Bool) : List FileDecl :=
  [{ messageOptionsFile with
      extensions := messageOptionsFile.extensions ++
        [{ name := "field", number := 2, kind := .scalar .string
           extendee := some ".plain.Options" },
          { name := "oneof", number := 3, kind := .scalar .string
            extendee := some ".plain.Options" }] },
    shipmentFile serialized]

def shipmentPool (serialized : Bool) : Pool :=
  (Pool.load (shipmentFiles serialized)).toOption.getD {}

def shipmentPlan (serialized : Bool) : SchemaPlan :=
  ((Schema.ofPool (shipmentPool serialized) []).plan {}).toOption.getD
    { suffix := "", messages := [], renames := {}, diagnostics := [] }

def shipmentConverter (serialized : Bool) : Converter :=
  (Converter.ofPool (shipmentPool serialized) (shipmentPlan serialized)).toOption.getD default


/-- The owner of a shipment. -/
def shipmentOwner : Message := { type := "p.UserId", fields := [(1, .string "A")] }

/-- The way of a shipment. -/
def shipmentRoute : Message := { type := "p.Sea", fields := [(1, .string "V")] }

/-- The part of a shipment. -/
def shipmentPart : Message := { type := "p.Shipment", fields := [(1, .string "8")] }

/-- A shipment by sea, with one part. -/
def shipment : Message :=
  { type := "p.Shipment"
    fields :=
      [(1, .string "7"), (2, .message shipmentOwner), (3, .enum 1), (4, .map [(.string "a", .i32 1)]),
        (6, .message shipmentRoute), (7, .list [.message shipmentPart])] }

/-- A caster for the id of a shipment. -/
def shipmentCasters : Casters (Value → Except String Value) :=
  ({} : Casters _).insert "p.ShipmentPlain" "id" fun
    | .string text => .ok (.string text)
    | _ => .ok (.string "")

/-- What can be read off a shipment, its files and their plan. -/
theorem shipment_checks (serialized : Bool) :
    (Pool.load (shipmentFiles serialized)).isOk ∧
      ProperNames (shipmentPool serialized).files ∧
      ((Schema.ofPool (shipmentPool serialized) []).plan {}).isOk ∧
      (Converter.ofPool (shipmentPool serialized) (shipmentPlan serialized)).isOk ∧
      (∀ mp ∈ (shipmentPlan serialized).messages, mp.crf = []) ∧
      ((shipmentConverter serialized).planFor? shipment.type .toPlain).isSome ∧
      (∀ m ∈ [shipment, shipmentOwner, shipmentRoute, shipmentPart],
        ∃ type ∈ m.type? (shipmentPool serialized), m.FitsType (shipmentPool serialized) type) ∧
      ∀ mp ∈ (shipmentPlan serialized).messages, mp.generate →
        ∀ field ∈ (Contract.MessageContract.ofPlan mp .protojson).fields, field.caster.isSome →
          mp.newFullName = ".p.ShipmentPlain" ∧ field.name = "id" ∧
            ∀ type ∈ (Converter.requireType (shipmentConverter serialized).plain
                mp.newFullName).toOption,
              ∀ target ∈ type.field? field.name, target.type = .scalar .string := by
  cases serialized <;> decide +kernel

section Shipment

variable (serialized : Bool)

theorem load_shipment : Pool.load (shipmentFiles serialized) = .ok (shipmentPool serialized) :=
  eq_ok_of_isOk (shipment_checks serialized).1 _

theorem plan_shipment :
    (Schema.ofPool (shipmentPool serialized) []).plan {} = .ok (shipmentPlan serialized) :=
  eq_ok_of_isOk (shipment_checks serialized).2.2.1 _

theorem ofPool_shipment :
    Converter.ofPool (shipmentPool serialized) (shipmentPlan serialized)
      = .ok (shipmentConverter serialized) :=
  eq_ok_of_isOk (shipment_checks serialized).2.2.2.1 _

theorem cover_shipment :
    shipmentCasters.Cover (shipmentPlan serialized) (shipmentConverter serialized).plain .protojson := by
  obtain ⟨-, -, -, -, -, -, -, hcasters⟩ := shipment_checks serialized
  intro mp hmp hgenerate field hfield hcaster
  obtain ⟨hname, hid, htyped⟩ := hcasters mp hmp hgenerate field hfield hcaster
  rw [hname, hid] at htyped ⊢
  refine ⟨_, rfl, fun type htype target htarget value => ?_⟩
  have htext := htyped type (by rw [htype]; rfl) target htarget
  have haccepts : ∀ text, (shipmentConverter serialized).plain.accepts target (.string text) :=
    fun text => Pool.accepts_of_type (by rw [htext]; rfl)
  cases value with
  | string text => exact ⟨.string text, rfl, haccepts text⟩
  | _ => exact ⟨.string "", rfl, haccepts ""⟩

theorem wellTyped_shipment : shipment.WellTyped (shipmentPool serialized) := by
  obtain ⟨-, -, -, -, -, -, hfits, -⟩ := shipment_checks serialized
  refine .of_fields (hfits _ List.mem_cons_self) fun entry hentry child hholds => ?_
  have hchild : child ∈ [shipmentOwner, shipmentRoute, shipmentPart] := by
    simp only [shipment, List.mem_cons, List.not_mem_nil, or_false] at hentry
    rcases hentry with rfl | rfl | rfl | rfl | rfl | rfl
    · exact absurd hholds nofun
    · cases hholds
      simp
    · exact absurd hholds nofun
    · cases hholds with
      | entry h => exact absurd h (by simp)
    · cases hholds
      simp
    · cases hholds with
      | item h => simp [Value.message.inj (List.mem_singleton.mp h)]
  refine .of_texts (hfits child (List.mem_cons_of_mem _ hchild)) ?_
  simp only [List.mem_cons, List.not_mem_nil, or_false] at hchild
  rcases hchild with rfl | rfl | rfl <;> simp [shipmentOwner, shipmentRoute, shipmentPart]

end Shipment

theorem derivation_shipment :
    Derivation (shipmentPool false).files [] {} (shipmentPlan false) := by
  obtain ⟨hpool, hlinked⟩ := Pool.load_eq_ok (load_shipment false)
  exact ⟨hlinked, (shipment_checks false).2.1.simple, by decide, hpool ▸ plan_shipment false⟩

theorem carriable_shipment : (shipmentPlan false).IsCarriable (shipmentPool false).files [] := by
  have hchecks : (Schema.ofPool (Pool.link (shipmentPool false).files) []).EntriesOfMaps ∧
      (∀ mp ∈ (shipmentPlan false).messages, ∀ fp ∈ mp.fields,
        fp.origin.isSerialized → ¬ fp.shape.isMap) ∧
      (∀ mp ∈ (shipmentPlan false).messages, ∀ fp ∈ mp.fields,
        ∀ ref ∈ fp.shape.declaredRef
          (fileEntries (shipmentPlan false).renames (shipmentPool false).files) mp.newFullName,
          (shipmentPlan false).renames.rename ref = ref) ∧
      findsEntries (shipmentPool false).files (shipmentPlan false) ∧
      ∀ mp ∈ (shipmentPlan false).messages, ∀ e ∈ mp.enums,
        (shipmentPlan false).renames.rename e.fullName = e.fullName := by
    decide +kernel
  obtain ⟨hentries, hmaps, hreferences, hfinds, henums⟩ := hchecks
  exact ⟨hentries, hmaps, derivation_shipment.keepsPlannedReferences hreferences,
    mapEntriesApart_of_findsEntries derivation_shipment hfinds, henums⟩

/-- A shipment is flattened. -/
theorem shipment_flattened :
    ∃ p, (shipmentConverter false).toPlain shipmentCasters (shipmentPool false) shipment = .ok p := by
  obtain ⟨-, hnames, -, -, hcrf, hgenerated, -⟩ := shipment_checks false
  exact toPlain_succeeds (load_shipment false) hnames (by decide) (plan_shipment false)
    (ofPool_shipment false) hcrf carriable_shipment (cover_shipment false) (wellTyped_shipment false)
    hgenerated

/-- With its counts serialized, the same shipment is not flattened: messages are serialized one by one,
and a map is neither a message nor a list of messages. -/
theorem shipment_with_serialized_counts_refused :
    (Schema.ofPool (shipmentPool true) []).plan {} = .ok (shipmentPlan true) ∧
      Converter.ofPool (shipmentPool true) (shipmentPlan true) = .ok (shipmentConverter true) ∧
      (∀ mp ∈ (shipmentPlan true).messages, mp.crf = []) ∧
      shipmentCasters.Cover (shipmentPlan true) (shipmentConverter true).plain .protojson ∧
      shipment.WellTyped (shipmentPool true) ∧
      ((shipmentConverter true).planFor? shipment.type .toPlain).isSome ∧
      (shipmentConverter true).toPlain shipmentCasters (shipmentPool true) shipment
        = .error (.invalidValue "counts") ∧
      ¬ (shipmentPlan true).IsCarriable (shipmentPool true).files [] := by
  have hmap : (∃ mp ∈ (shipmentPlan true).messages, ∃ fp ∈ mp.fields,
        fp.origin.isSerialized ∧ fp.shape.isMap) ∧
      errorOf? ((shipmentConverter true).toPlain shipmentCasters (shipmentPool true) shipment)
        = some (.invalidValue "counts") := by
    decide +kernel
  obtain ⟨⟨mp, hmp, fp, hfp, hserialized, hisMap⟩, herror⟩ := hmap
  obtain ⟨-, -, -, -, hcrf, hgenerated, -⟩ := shipment_checks true
  exact ⟨plan_shipment true, ofPool_shipment true, hcrf, cover_shipment true, wellTyped_shipment true,
    hgenerated, eq_error_of_errorOf? herror, fun h => h.maps mp hmp fp hfp hserialized hisMap⟩

end PlainSchema
