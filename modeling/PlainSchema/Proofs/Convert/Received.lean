import PlainSchema.Proofs.Convert.Built
import PlainSchema.Proofs.Convert.Carried
import PlainSchema.Proofs.Derive.PlannedFields
import PlainSchema.Proofs.Plan.Alike

/-!
# Values that Plain fields receive

A value that fits a source field is carried into a Plain field without an error, whatever way of
carrying its plan has, if the Plain field takes what is carried, `FieldPlan.CarriesInto`:
`FieldPlan.exists_carry`.

A planned field is read from its paths, each of which leads to a field of a source type, and carries what
is there: the plan serves the field, `Converter.IsBuilt.exists_serves`.  One of the fields is that of the
plan itself; the others are merged with it, and are served if they are carried in the same way,
`SchemaPlan.MergesAlike`.  Without merged fields there are no others, `SchemaPlan.mergesAlike_of_crf`.
-/

namespace PlainSchema

open Proto

variable {source plain : Pool} {nested : ConvertNested} {renames : Renames} {leaf target : Field}
  {type : FieldType} {v : Value}

/-! ## Moved values -/

/-- Every message that a value holds can be converted to the type that its own type moved to. -/
def Value.CanMove (nested : ConvertNested) (renames : Renames) (v : Value) : Prop :=
  ∀ m, v.Holds m → ∃ m', nested (renames.moved m.type) m = .ok m'

/-- Which single values a type takes is decided by its kind. -/
theorem FieldType.accepts_of_kind {type' : FieldType} (h : type.kind = type'.kind) (v : Value) :
    type.accepts v = type'.accepts v := by
  cases type with
  | scalar scalar =>
    cases type' with
    | scalar scalar' => rw [Kind.scalar.inj h]
    | message name group => cases group <;> exact absurd h nofun
    | enum name => exact absurd h nofun
  | message name group =>
    cases type' with
    | scalar scalar' => cases group <;> exact absurd h nofun
    | message name' group' => cases v <;> rfl
    | enum name => cases group <;> exact absurd h nofun
  | enum name =>
    cases type' with
    | scalar scalar' => exact absurd h nofun
    | message name group => cases group <;> exact absurd h nofun
    | enum name' => cases v <;> rfl

@[simp] theorem FieldType.accepts_moved (renames : Renames) (type : FieldType) (v : Value) :
    (type.moved renames).accepts v = type.accepts v :=
  accepts_of_kind (kind_moved renames type) v

/-- What takes single values of a field takes the lists of the field. -/
theorem Pool.accepts_items {pool : Pool} {items : List Value} (hlist : pool.isList leaf)
    (hitems : ∀ item ∈ items, leaf.type.accepts item) : pool.accepts leaf (.list items) := by
  rw [Pool.accepts, hlist, Bool.true_and, List.all_eq_true]
  exact hitems

theorem exists_convertSingle (hfits : type.Fits v)
    (hmoves : ∀ m, v = .message m → ∃ m', nested (renames.moved m.type) m = .ok m') :
    ∃ w, convertSingle nested (type.moved renames) v = .ok w ∧ type.accepts w := by
  cases v with
  | message m =>
    obtain ⟨group, rfl⟩ := hfits.exists_message
    obtain ⟨m', hm'⟩ := hmoves m rfl
    exact ⟨.message m', by rw [FieldType.moved, convertSingle, hm']; rfl, rfl⟩
  | _ => exact ⟨_, rfl, hfits.accepts⟩

/-- A value is carried as it is into a field that receives it. -/
theorem exists_convertValue (hreceives : ReceivesField source plain renames leaf target)
    (hv : source.Fits leaf v) (hpresence : leaf.tracksPresence → leaf.isSingular)
    (hmoves : v.CanMove nested renames) :
    ∃ w, convertValue plain nested target.type v = .ok w ∧ plain.accepts target w := by
  have hrepeated : leaf.label = .repeated → ¬ leaf.tracksPresence := by
    intro hlabel htracks
    have hsingular := hpresence htracks
    rw [Field.isSingular, hlabel] at hsingular
    exact absurd hsingular (by decide)
  cases hv with
  | @single v hsingular hfits =>
    have hmap : ¬ source.isMap leaf := by
      rw [Field.isSingular, bne_iff_ne] at hsingular
      exact fun hmap => hsingular (Pool.isMap_iff.mp hmap).1
    obtain ⟨w, hw, haccepts⟩ := exists_convertSingle hfits fun m heq => hmoves m (heq ▸ .message)
    rw [hreceives.single hmap]
    refine ⟨w, ?_, Pool.accepts_of_type ?_⟩
    · cases v with
      | list items => exact absurd hfits.accepts (FieldType.not_accepts_list _ _)
      | map entries => exact absurd hfits.accepts (FieldType.not_accepts_map _ _)
      | _ => exact hw
    · rwa [hreceives.single hmap, FieldType.accepts_moved]
  | @list items hlist hitems =>
    have hlabels := hlist
    rw [Pool.isList, Bool.and_eq_true, beq_iff_eq, Bool.not_eq_true', ← Bool.not_eq_true] at hlabels
    obtain ⟨hlabel, hmap⟩ := hlabels
    have htype := hreceives.single hmap
    have hsingle : ∀ item ∈ items, ∃ w, convertSingle nested target.type item = .ok w ∧
        target.type.accepts w := by
      intro item hitem
      rw [htype]
      simp only [FieldType.accepts_moved]
      exact exists_convertSingle (hitems item hitem) fun m heq => hmoves m (.item (heq ▸ hitem))
    obtain ⟨ws, hws, hall⟩ := exists_mapM hsingle
    refine ⟨.list ws, bind_eq_ok.mpr ⟨ws, hws, rfl⟩, Pool.accepts_items ?_ hall⟩
    exact hreceives.list hlist (hrepeated hlabel)
  | @map entries key val hentry hentries =>
    obtain ⟨hlabel, -⟩ := Pool.entryFields?_eq_some_iff.mp hentry
    obtain ⟨key', val', hentry', hkey, hval⟩ := hreceives.map key val hentry (hrepeated hlabel)
    have hsingle : ∀ entry ∈ entries, ∃ w : MapKey × Value,
        (do return (entry.1, ← convertSingle nested val'.type entry.2)) = Except.ok w ∧
          (key'.type.accepts w.1.toValue && val'.type.accepts w.2) := by
      rintro ⟨k, item⟩ hmem
      obtain ⟨hk, hitem⟩ := hentries _ hmem
      have hheld : ∀ m, item = .message m → ∃ m', nested (renames.moved m.type) m = .ok m' := by
        rintro m rfl
        exact hmoves m (.entry hmem)
      obtain ⟨w, hw, haccepts⟩ := exists_convertSingle hitem hheld
      refine ⟨(k, w), ?_, ?_⟩
      · rw [hval]
        exact bind_eq_ok.mpr ⟨w, hw, rfl⟩
      · rw [Bool.and_eq_true, FieldType.accepts_of_kind hkey, hval, FieldType.accepts_moved]
        exact ⟨hk, haccepts⟩
    obtain ⟨ws, hws, hall⟩ := exists_mapM hsingle
    refine ⟨.map ws, ?_, ?_⟩
    · rw [convertValue_map hentry']
      exact congrArg (Except.map Value.map) hws
    · rw [Pool.accepts, hentry']
      exact List.all_eq_true.mpr hall

/-! ## Scalars -/

/-- A Plain field of a scalar type has a list where the source field has one. -/
structure HoldsScalar (source plain : Pool) (leaf target : Field) (scalar : Scalar) : Prop where
  single : ¬ source.isMap leaf
  type : target.type = .scalar scalar
  list : source.isList leaf → ¬ leaf.tracksPresence → plain.isList target

/-- If every item becomes a scalar, so does the value or the list of them. -/
theorem HoldsScalar.exists_eachItem {scalar : Scalar} (h : HoldsScalar source plain leaf target scalar)
    (hv : source.Fits leaf v) (hpresence : leaf.tracksPresence → leaf.isSingular)
    {f : Value → Except ConvertError Value}
    (hitem : ∀ item, leaf.type.Fits item → (∀ m, item = .message m → v.Holds m) →
      ∃ w, f item = .ok w ∧ scalar.accepts w) :
    ∃ w, eachItem f v = .ok w ∧ plain.accepts target w := by
  have htarget : ∀ w, scalar.accepts w → target.type.accepts w := by
    intro w haccepts
    rw [h.type]
    exact haccepts
  cases hv with
  | @single v hsingular hfits =>
    obtain ⟨w, hw, haccepts⟩ := hitem v hfits fun m heq => heq ▸ .message
    refine ⟨w, ?_, Pool.accepts_of_type (htarget w haccepts)⟩
    rw [eachItem_of_ne_list (fun items heq => ?_), hw]
    exact FieldType.not_accepts_list leaf.type items (heq ▸ hfits.accepts)
  | @list items hlist hitems =>
    obtain ⟨ws, hws, hall⟩ := exists_mapM fun item hmem =>
      hitem item (hitems item hmem) fun m heq => .item (heq ▸ hmem)
    refine ⟨.list ws, bind_eq_ok.mpr ⟨ws, hws, rfl⟩,
      Pool.accepts_items (h.list hlist fun htracks => ?_) fun w hw => htarget w (hall w hw)⟩
    have hsingular := hpresence htracks
    rw [Pool.isList, Bool.and_eq_true, beq_iff_eq] at hlist
    rw [Field.isSingular, hlist.1] at hsingular
    exact absurd hsingular (by decide)
  | map hentry _ =>
    obtain ⟨hlabel, entry, hof, hisEntry, -⟩ := Pool.entryFields?_eq_some_iff.mp hentry
    exact absurd (Pool.isMap_iff.mpr ⟨hlabel, entry, hof, hisEntry⟩) h.single

/-! ## Ways of carrying -/

/-- The Plain field of a plan takes what the plan carries. -/
inductive FieldPlan.CarriesInto (source plain : Pool) (renames : Renames) (plan : FieldPlan)
    (leaf target : Field) : Prop
  | serialized {name : String} {group : Bool} (hserialized : plan.origin.isSerialized)
      (htype : leaf.type = .message name group) (htarget : HoldsScalar source plain leaf target .bytes)
  | unwrapped {name : String} {group : Bool} {wrapper : MessageType} {field : Field} {scalar : Scalar}
      (hserialized : ¬ plan.origin.isSerialized) (halias : plan.origin.aliasType.isSome)
      (htype : leaf.type = .message name group) (hwrapper : source.message? name = some wrapper)
      (hfield : wrapper.field? plan.aliasField = some field) (hsingular : field.isSingular)
      (hscalar : field.type = .scalar scalar) (htarget : HoldsScalar source plain leaf target scalar)
  | asString {name : String} (hserialized : ¬ plan.origin.isSerialized)
      (halias : ¬ plan.origin.aliasType.isSome) (hformat : plan.origin.enumFormat = some .asString)
      (htype : leaf.type = .enum name) (htarget : HoldsScalar source plain leaf target .string)
  | asInt {name : String} (hserialized : ¬ plan.origin.isSerialized)
      (halias : ¬ plan.origin.aliasType.isSome) (hformat : plan.origin.enumFormat = some .asInt)
      (htype : leaf.type = .enum name) (htarget : HoldsScalar source plain leaf target .int32)
  | copied (hserialized : ¬ plan.origin.isSerialized) (halias : ¬ plan.origin.aliasType.isSome)
      (hformat : plan.origin.enumFormat = none)
      (htarget : ReceivesField source plain renames leaf target)

/-- What a singular field of a well-typed message holds is of its type, also where it is the default. -/
theorem Message.FitsType.accepts_get_of_isSingular {m : Message} {type : MessageType} {field : Field}
    (h : m.FitsType source type) (hfield : field ∈ type.fields) (hsingular : field.isSingular) :
    field.type.accepts (m.get source field) := by
  rw [Message.get]
  cases hvalue : m.value? field.number with
  | some value => exact (accepts_of_isSingular hsingular (h.fields field hfield value hvalue).accepts).1
  | none =>
    rw [Field.isSingular, bne_iff_ne] at hsingular
    rw [Option.getD_none, Pool.default, if_neg hsingular]
    exact (accepts_of_isSingular (by rwa [Field.isSingular, bne_iff_ne]) (accepts_defaultOf source field)).1

theorem FieldType.Fits.exists_message_of_type {name : String} {group : Bool} {item : Value}
    (h : (FieldType.message name group).Fits item) : ∃ m, item = .message m ∧ m.type = name := by
  cases item with
  | message m => exact ⟨m, rfl, (Option.some.inj (h.named m rfl)).symm⟩
  | _ => exact absurd h.accepts nofun

theorem FieldType.Fits.exists_enum {name : String} {item : Value}
    (h : (FieldType.enum name).Fits item) : ∃ n, item = .enum n := by
  cases item with
  | enum n => exact ⟨n, rfl⟩
  | _ => exact absurd h.accepts nofun

/-- **Carrying succeeds**, and the Plain field takes the outcome. -/
theorem FieldPlan.CarriesInto.exists_carry {plan : FieldPlan}
    (h : plan.CarriesInto source plain renames leaf target) (hv : source.Fits leaf v)
    (hpresence : leaf.tracksPresence → leaf.isSingular)
    (hwell : ∀ m, v.Holds m → m.WellTyped source) (hmoves : v.CanMove nested renames) :
    ∃ w, plan.carry source plain nested leaf target.type v = .ok w ∧ plain.accepts target w := by
  rw [FieldPlan.carry]
  cases h with
  | serialized hserialized htype htarget =>
    rw [if_pos hserialized]
    refine htarget.exists_eachItem hv hpresence fun item hitem _ => ?_
    rw [htype] at hitem
    obtain ⟨m, rfl, -⟩ := hitem.exists_message_of_type
    exact ⟨_, rfl, rfl⟩
  | @unwrapped _ _ _ field _ hserialized halias htype hwrapper hfield hsingular hscalar htarget =>
    rw [if_neg hserialized, if_pos halias]
    refine htarget.exists_eachItem hv hpresence fun item hitem hholds => ?_
    rw [htype] at hitem
    obtain ⟨m, rfl, rfl⟩ := hitem.exists_message_of_type
    have hfits := (hwell m (hholds m rfl)).fitsType hwrapper
    have haccepts := hfits.accepts_get_of_isSingular (MessageType.field?_mem hfield).1 hsingular
    rw [hscalar] at haccepts
    have hnamed : valueNamed? source m plan.aliasField = some (m.get source field) := by
      simp [valueNamed?, Message.type?, hwrapper, hfield]
    refine ⟨m.get source field, ?_, haccepts⟩
    dsimp only
    rw [hnamed]
    rfl
  | asString hserialized halias hformat htype htarget =>
    rw [if_neg hserialized, if_neg halias, hformat]
    dsimp only
    rw [htype]
    refine htarget.exists_eachItem hv hpresence fun item hitem _ => ?_
    rw [htype] at hitem
    obtain ⟨n, rfl⟩ := hitem.exists_enum
    exact ⟨_, rfl, rfl⟩
  | asInt hserialized halias hformat htype htarget =>
    rw [if_neg hserialized, if_neg halias, hformat]
    refine htarget.exists_eachItem hv hpresence fun item hitem _ => ?_
    rw [htype] at hitem
    obtain ⟨n, rfl⟩ := hitem.exists_enum
    exact ⟨_, rfl, rfl⟩
  | copied hserialized halias hformat htarget =>
    rw [if_neg hserialized, if_neg halias, hformat]
    exact exists_convertValue htarget hv hpresence hmoves

/-! ## Reading source values -/

section Reading

variable {files : List FileDecl} {generate : List String} {m owner : SourceMessage}
  {type : MessageType} {leafView : SourceField} {path : List String} {x : Message} {leaf : Field}
  {value : Value}

/-- What is read along the path of a source field is stored in a field with that view. -/
theorem Leads.exists_read (hlinked : FilesLinked files)
    (hleads : Leads (Schema.ofPool (Pool.link files) generate) m path owner leafView)
    (hviews : m.ViewsType (Pool.link files) type) (hx : x.WellTyped (Pool.link files))
    (htype : x.type? (Pool.link files) = some type)
    (hread : x.read? (Pool.link files) path = some (leaf, value)) :
    ∃ (ownerType : MessageType) (inner : Message), owner.ViewsType (Pool.link files) ownerType ∧
      leaf ∈ ownerType.fields ∧
      leafView = SourceField.ofField (Pool.link files) (OptionExtensions.ofPool (Pool.link files)) leaf ∧
      inner.Within x ∧ inner.type? (Pool.link files) = some ownerType ∧
      inner.value? leaf.number = some value := by
  induction hleads generalizing x type with
  | @leaf m field hfield =>
    obtain ⟨found, hfound, hfind, hget⟩ := Message.read?_singleton.mp hread
    obtain rfl := Option.some.inj (htype.symm.trans hfound)
    obtain ⟨f, hf, hview, hname⟩ := hviews.exists_field (types_linked hlinked type hviews.mem) hfield
    obtain rfl := Option.some.inj (hfind.symm.trans hname)
    exact ⟨type, x, hviews, hf, hview, .refl, htype, (Message.value?_of_get? hget).2⟩
  | @hop m next owner field leafView path hfield hnext hpath ih =>
    have hne : path ≠ [] := by cases hpath <;> exact List.cons_ne_nil _ _
    obtain ⟨found, f, child, hfound, hfind, hget, hbelow⟩ := Message.read?_hop hne hread
    obtain rfl := Option.some.inj (htype.symm.trans hfound)
    obtain ⟨g, hg, rfl, hname⟩ := hviews.exists_field (types_linked hlinked type hviews.mem) hfield
    obtain rfl := Option.some.inj (hfind.symm.trans hname)
    have hvalue := (Message.value?_of_get? hget).2
    obtain ⟨-, hchild, hwell⟩ := hx.hop htype hg hvalue
    obtain ⟨nextType, hnextType, -⟩ := hwell child .refl
    rw [hnextType] at hchild
    obtain ⟨-, hself, group, htyped⟩ := Pool.exists_of_messageTypeOf? hchild
    have hname : f.type.typeName? = some nextType.fullName := by rw [htyped]; rfl
    obtain ⟨found, hviews', hfound⟩ := exists_viewsType_of_typeName? hlinked hname hnext
    obtain rfl := Option.some.inj (hself.symm.trans hfound)
    obtain ⟨ownerType, inner, howner, hleaf, hview, hinner, hinnerType, hstored⟩ :=
      ih hviews' hwell hnextType hbelow
    exact ⟨ownerType, inner, howner, hleaf, hview, hinner.trans (.step hvalue .message .refl), hinnerType,
      hstored⟩

end Reading

/-! ## Planned fields -/

/-- The type behind an alias has one field, a singular one with the scalar of the alias. -/
theorem exists_wrapperType {files : List FileDecl} {generate : List String}
    (hlinked : FilesLinked files) {name : String} {wrapper : Alias}
    (h : (Schema.ofPool (Pool.link files) generate).alias? ("." ++ name) = some wrapper) :
    ∃ type field scalar, (Pool.link files).message? name = some type ∧ type.isMapEntry = false ∧
      type.field? wrapper.field = some field ∧ field.isSingular ∧
      field.type = .scalar scalar ∧ wrapper.kind = .scalar scalar ∧
      ∀ other ∈ type.fields, other = field := by
  obtain ⟨m, hm, hname, field, hwraps⟩ := Schema.exists_wrapsScalar h
  obtain ⟨type, hviews⟩ := exists_viewsType hm
  obtain rfl := dot_append_injective (hviews.fullName.symm.trans hname)
  have hmem : field ∈ m.fields := hwraps.fields ▸ List.mem_singleton_self field
  obtain ⟨found, hfound, rfl, hfind⟩ := hviews.exists_field (types_linked hlinked type hviews.mem) hmem
  have honly : ∀ other ∈ type.fields, other = found := by
    have hlength : type.fields.length = 1 := by
      have hfields := congrArg List.length (hviews.fields.symm.trans hwraps.fields)
      rwa [List.length_map] at hfields
    obtain ⟨only, honly⟩ := List.length_eq_one_iff.mp hlength
    rw [honly] at hfound ⊢
    rw [List.mem_singleton.mp hfound]
    exact fun other hother => List.mem_singleton.mp hother
  have hscalar : found.type.kind.isScalar := hwraps.scalar
  have hsingle := hwraps.single
  rw [hwraps.wrapper]
  cases hkind : found.type.kind with
  | scalar scalar =>
    refine ⟨type, found, scalar, message?_fullName hlinked hviews.mem, ?_, hfind, ?_,
      FieldType.eq_scalar_of_kind hkind, hkind, honly⟩
    · rw [← hwraps.plain, hviews.view]
      rfl
    · rw [Field.isSingular, bne_iff_ne]
      intro hlabel
      simp [SourceField.isRepeated, SourceField.ofField, Field.cardinality, hlabel] at hsingle
  | _ => exact absurd hscalar (by rw [hkind]; exact Bool.false_ne_true)

namespace GeneratedType

variable {files : List FileDecl} {generate : List String} {settings : Settings}
  {plan : SchemaPlan} {mp : MessagePlan} {file : FileDecl} {scope : String}
  {m : MessageDecl} {d : DeclaredMessage} {type : MessageType} {fp : FieldPlan}
  {context : String} {owner own : MessageType} {field : Field}
  (hg : GeneratedType files plan plain mp file scope m d type)
  (h : Derivation files generate settings plan) (hlinked : type.Linked)
  (hfp : fp ∈ mp.fields) (htarget : type.field? fp.shape.name = some target)
  (hserves : fp.ServesField files generate plan.renames context owner leaf)
include hg hlinked hfp htarget hserves

theorem holdsScalar {scalar : Scalar} (hshape : fp.shape.IsScalar scalar)
    (hmap : ¬ (Pool.link files).isMap leaf) :
    HoldsScalar (Pool.link files) plain leaf target scalar := by
  have htype := hg.target_of_isScalar hlinked hfp htarget hshape (by rwa [hserves.isMap])
  refine ⟨hmap, htype, fun hisList hpresence => ?_⟩
  rw [Pool.isList, Bool.and_eq_true, beq_iff_eq] at hisList
  have hlabel := hg.label_target hlinked hfp htarget
  rw [hserves.list hisList.1 hpresence] at hlabel
  have hnone : plain.messageTypeOf? target = none := by
    rw [Pool.messageTypeOf?, htype]
  simp [Pool.isList, Pool.isMap, hnone, hlabel, Cardinality.label]

include h

/-- What a plan copies is of the type that the Plain field was made for, from whichever field it comes. -/
theorem movedInto (hreads : fp.ReadsField files generate plan.renames context own field)
    (hplain : Pool.load (plan.derive files) = .ok plain)
    (hentries : (Schema.ofPool (Pool.link files) generate).EntriesOfMaps)
    (hapart : MapEntriesApart files generate plan) (hkeeps : KeepsPlannedReferences files generate plan)
    (hmp : mp ∈ plan.messages) (hcopies : fp.Copies) :
    MovedInto (Pool.link files) plain plan.renames leaf target := by
  obtain ⟨hserialized, halias, hformat⟩ := hcopies
  cases hserves.carries with
  | copied _ _ _ hkind href =>
    cases hreads.stands.carries with
    | copied _ _ _ hkind' href' =>
      have hmoved := hg.movedInto_of_copied h hlinked hfp htarget hreads hkind' href' hplain hentries
        hapart hkeeps hmp
      have hsame : leaf.type = field.type :=
        h.eq_of_kind hplain (declared_of_mem h.linked hserves.owner_mem hserves.leaf_mem)
          (declared_of_mem h.linked hreads.owner_mem hreads.leaf_mem) (hkind.symm.trans hkind')
          (href.symm.trans href')
      exact hmoved.of_type hsame (hserves.isMap.symm.trans hreads.isMap_eq)
    | serialized hserialized' => exact absurd hserialized' hserialized
    | unwrapped _ halias' => exact absurd halias' halias
    | asString _ _ hformat' => exact absurd (hformat.symm.trans hformat') nofun
    | asInt _ _ hformat' => exact absurd (hformat.symm.trans hformat') nofun
  | serialized hserialized' => exact absurd hserialized' hserialized
  | unwrapped _ halias' => exact absurd halias' halias
  | asString _ _ hformat' => exact absurd (hformat.symm.trans hformat') nofun
  | asInt _ _ hformat' => exact absurd (hformat.symm.trans hformat') nofun

/-- **The Plain field of a plan takes what the plan carries**, unless the plan serializes a map. -/
theorem carriesInto (hreads : fp.ReadsField files generate plan.renames context own field)
    (hplain : Pool.load (plan.derive files) = .ok plain)
    (hentries : (Schema.ofPool (Pool.link files) generate).EntriesOfMaps)
    (hapart : MapEntriesApart files generate plan) (hkeeps : KeepsPlannedReferences files generate plan)
    (hmp : mp ∈ plan.messages) (hmaps : fp.origin.isSerialized → ¬ fp.shape.isMap) :
    fp.CarriesInto (Pool.link files) plain plan.renames leaf target := by
  have hscalar : ∀ {scalar}, fp.shape.IsScalar scalar → ¬ (Pool.link files).isMap leaf →
      HoldsScalar (Pool.link files) plain leaf target scalar :=
    fun hshape hmap => hg.holdsScalar hlinked hfp htarget hserves hshape hmap
  have henum : leaf.type.kind = .enum → ∃ name, leaf.type = .enum name ∧
      ¬ (Pool.link files).isMap leaf := by
    intro hkind
    obtain ⟨name, htype⟩ := FieldType.eq_enum_of_kind hkind
    refine ⟨name, htype, fun hmap => ?_⟩
    obtain ⟨-, entry, hof, -⟩ := Pool.isMap_iff.mp hmap
    rw [Pool.messageTypeOf?, htype] at hof
    cases hof
  cases hserves.carries with
  | serialized hserialized hoption hshape =>
    have hvalid := Schema.valid_field h.plans.findings (List.mem_map_of_mem hserves.owner_mem)
      (List.mem_map_of_mem hserves.leaf_mem)
    obtain ⟨name, htype⟩ := FieldType.eq_message_of_kind (hvalid.serialized hoption)
    exact .serialized hserialized htype
      (hscalar hshape (by rw [← hserves.isMap]; exact hmaps hserialized))
  | @unwrapped wrapper hserialized halias hwrapper hfield hkind href =>
    rw [PlanContext.aliasOf?] at hwrapper
    split at hwrapper
    · next hmessage =>
      obtain ⟨name, htype⟩ := FieldType.eq_message_of_kind hmessage
      have hname : (leaf.type.typeName?.map ("." ++ ·)).bind
          (Schema.ofPool (Pool.link files) generate).alias? = some wrapper := hwrapper
      rw [htype] at hname
      obtain ⟨found, field, scalar, hfound, hplainEntry, hfind, hsingular, hfieldType, hscalarKind, -⟩ :=
        exists_wrapperType h.linked hname
      refine .unwrapped hserialized halias htype hfound (by rw [hfield]; exact hfind) hsingular hfieldType
        (hscalar ⟨hkind.trans hscalarKind, href⟩ fun hmap => ?_)
      obtain ⟨-, entry, hof, hisEntry⟩ := Pool.isMap_iff.mp hmap
      rw [Pool.messageTypeOf?, htype] at hof
      obtain rfl := Option.some.inj (hof.symm.trans hfound)
      rw [hplainEntry] at hisEntry
      exact absurd hisEntry Bool.false_ne_true
    · cases hwrapper
  | asString hserialized halias hformat hkind hshape =>
    obtain ⟨name, htype, hmap⟩ := henum hkind
    exact .asString hserialized halias hformat htype (hscalar hshape hmap)
  | asInt hserialized halias hformat hkind hshape =>
    obtain ⟨name, htype, hmap⟩ := henum hkind
    exact .asInt hserialized halias hformat htype (hscalar hshape hmap)
  | copied hserialized halias hformat =>
    have hmoved := hg.movedInto h hlinked hfp htarget hserves hreads hplain hentries hapart hkeeps hmp
      ⟨hserialized, halias, hformat⟩
    refine .copied hserialized halias hformat (h.receives_of_movedInto hplain hserves.owner_mem
      hserves.leaf_mem hmoved fun hlabel hpresence => ?_)
    rw [hg.label_target hlinked hfp htarget, hserves.list hlabel hpresence]
    rfl

end GeneratedType

/-! ## Paths -/

/-- The field that a path of the schema leads to is the one that the path of names leads to. -/
theorem Leads.exists_leaf {files : List FileDecl} {generate : List String}
    (hlinked : FilesLinked files) {m owner : SourceMessage} {leafView : SourceField}
    {path : List String} {type : MessageType} {leaf : Field}
    (hleads : Leads (Schema.ofPool (Pool.link files) generate) m path owner leafView)
    (hviews : m.ViewsType (Pool.link files) type)
    (hresolve : (Pool.link files).resolvePath type path = some leaf) :
    ∃ ownerType, owner.ViewsType (Pool.link files) ownerType ∧ leaf ∈ ownerType.fields ∧
      leafView
        = SourceField.ofField (Pool.link files) (OptionExtensions.ofPool (Pool.link files)) leaf := by
  induction hleads generalizing type with
  | @leaf m field hfield =>
    obtain ⟨f, hf, hview, hname⟩ := hviews.exists_field (types_linked hlinked type hviews.mem) hfield
    obtain rfl := Option.some.inj (hname.symm.trans hresolve)
    exact ⟨type, hviews, hf, hview⟩
  | @hop m next owner field leafView path hfield hnext hpath ih =>
    have hne : path ≠ [] := by cases hpath <;> exact List.cons_ne_nil _ _
    obtain ⟨f, hf, rfl, hname⟩ := hviews.exists_field (types_linked hlinked type hviews.mem) hfield
    rw [Pool.resolvePath_cons hne, hname, Option.bind_some] at hresolve
    split at hresolve
    · obtain ⟨child, hchild, hresolve⟩ := Option.bind_eq_some_iff.mp hresolve
      obtain ⟨-, hself, group, htyped⟩ := Pool.exists_of_messageTypeOf? hchild
      have hname : f.type.typeName? = some child.fullName := by rw [htyped]; rfl
      obtain ⟨found, hviews', hfound⟩ := exists_viewsType_of_typeName? hlinked hname hnext
      obtain rfl := Option.some.inj (hself.symm.trans hfound)
      exact ih hviews' hresolve
    · cases hresolve

/-- A plan with a way back stands for a field of a source type. -/
theorem FieldPlan.Traces.exists_readsField {files : List FileDecl} {generate : List String}
    (hlinked : FilesLinked files) {m : SourceMessage}
    (hm : m ∈ (Schema.ofPool (Pool.link files) generate).messages) {context : String}
    {renames : Renames} {plan : FieldPlan}
    (h : plan.Traces (PlanContext.ofFile (Schema.ofPool (Pool.link files) generate) context)
      renames.rename m) (hreversible : plan.isReversible) :
    ∃ owner leaf, plan.ReadsField files generate renames context owner leaf := by
  rcases h with ⟨-, hnot⟩ | ⟨owner, leafView, hleads, hstands⟩
  · exact absurd hreversible hnot
  · obtain ⟨type, hviews⟩ := exists_viewsType (hleads.owner_mem hm)
    obtain ⟨leaf, hleaf, rfl, -⟩ :=
      hviews.exists_field (types_linked hlinked type hviews.mem) hleads.leaf_mem
    exact ⟨type, leaf, hviews.mem, hleaf, hviews.view ▸ hstands⟩

/-! ## Merged fields -/

/-- What is merged into one field is carried in one way. -/
def SchemaPlan.MergesAlike (plan : SchemaPlan) (schema : Schema) (settings : Settings) : Prop :=
  ∀ m ∈ schema.messages, ∀ mp ∈ plan.message? m.fullName, mp.generate →
    m.MergesAlike schema settings mp.newFullName

instance (plan : SchemaPlan) (schema : Schema) (settings : Settings) :
    Decidable (plan.MergesAlike schema settings) :=
  inferInstanceAs (Decidable (∀ _ ∈ _, ∀ _ ∈ _, _ → _))

/-- A plan without merged fields merges nothing. -/
theorem SchemaPlan.mergesAlike_of_crf {files : List FileDecl} {generate : List String}
    {settings : Settings} {plan : SchemaPlan} (h : Derivation files generate settings plan)
    (hcrf : ∀ mp ∈ plan.messages, mp.crf = []) :
    plan.MergesAlike (Schema.ofPool (Pool.link files) generate) settings := by
  intro m hm mp hmp hgenerate
  obtain ⟨found, -, hfound, hplanned⟩ := h.plans.message? h.wellScoped hm
  obtain rfl := Option.some.inj (hfound.symm.trans hmp)
  exact hplanned.mergesAlike_of_crf hgenerate (hcrf found (List.mem_of_find?_eq_some hfound))

namespace Converter.IsBuilt

variable {c : Converter} {files : List FileDecl} {generate : List String} {settings : Settings}
  (hc : c.IsBuilt files generate settings)

include hc

/-- A planned field carries what is at each of its paths like a candidate of the path. -/
theorem exists_alike (halike : c.plan.MergesAlike (Schema.ofPool c.source generate) settings)
    {mp : MessagePlan} (hmp : mp ∈ c.plan.messages) (hgenerate : mp.generate) {plan : FieldPlan}
    (hplan : plan ∈ mp.fields) (hreversible : plan.isReversible) {path : List String}
    (hpath : path ∈ mp.ownPaths plan) :
    ∃ source ∈ (Schema.ofPool (Pool.link c.source.files) generate).messages,
      source.IsPlanOf (Schema.ofPool (Pool.link c.source.files) generate) settings c.plan.renames mp ∧
      ∃ candidate ∈ source.candidates (Schema.ofPool (Pool.link c.source.files) generate) settings
          mp.newFullName,
        (c.plan.renames.retargetPlan candidate).isReversible ∧
        (c.plan.renames.retargetPlan candidate).origin.sourcePath = path ∧
        plan.CarriesLike (c.plan.renames.retargetPlan candidate) := by
  have h := hc.derivation
  obtain ⟨source, hsource, hplanned⟩ := exists_left_of_forall₂ h.plans.messages hmp
  rw [hc.source_eq] at halike
  have hfind : c.plan.message? source.fullName = some mp :=
    hplanned.outlines.fullName ▸ find?_eq_some_of_nodup h.fullNames_nodup hmp
  obtain ⟨candidate, hcandidate, hreversible', hpath', hlike⟩ := hplanned.exists_alike hgenerate hsource
    (fieldNames_ofPool hc.names) (halike source hsource mp hfind hgenerate) hplan hreversible hpath
  have hsame := sameOrigin_retargetPlan c.plan.renames candidate
  exact ⟨source, hsource, hplanned, candidate, hcandidate, hsame.isReversible ▸ hreversible',
    hsame.origin ▸ hpath', hlike⟩

/-- A planned field serves the field at each of its paths. -/
theorem exists_serves (hentries : (Schema.ofPool (Pool.link c.source.files) generate).EntriesOfMaps)
    (halike : c.plan.MergesAlike (Schema.ofPool c.source generate) settings) {mp : MessagePlan}
    (hmp : mp ∈ c.plan.messages) (hgenerate : mp.generate) {type : MessageType}
    (htype : requireType c.source mp.fullName = .ok type) {plan : FieldPlan} (hplan : plan ∈ mp.fields)
    (hreversible : plan.isReversible) {path : List String} (hpath : path ∈ mp.ownPaths plan)
    {leaf : Field} (hresolve : c.source.resolvePath type path = some leaf) :
    ∃ context owner own field,
      plan.ServesField c.source.files generate c.plan.renames context owner leaf ∧
        plan.ReadsField c.source.files generate c.plan.renames context own field := by
  have h := hc.derivation
  obtain ⟨source, hsource, hplanned, candidate, hcandidate, hreversible', hpath', hlike⟩ :=
    hc.exists_alike halike hmp hgenerate hplan hreversible hpath
  obtain ⟨viewed, hviews, -, hrequire⟩ := exists_type_ofPool h.linked hc.names hsource
  rw [hc.source_eq] at htype hresolve
  obtain rfl : viewed = type := by
    rw [hplanned.outlines.fullName, hrequire] at htype
    exact Except.ok.inj htype
  have hlist := (keepsList_candidates h.findsAll hsource hentries h.plans.findings hcandidate).retarget
    c.plan.renames
  rcases (traces_candidates hcandidate).retarget c.plan.renames with
    ⟨-, hnot⟩ | ⟨owner, leafView, hleads, hstands⟩
  · exact absurd hreversible' hnot
  rw [hpath'] at hleads
  obtain ⟨ownerType, howner, hleaf, rfl⟩ := hleads.exists_leaf h.linked hviews hresolve
  obtain ⟨own, field, hreads⟩ := (hplanned.traces plan hplan).exists_readsField h.linked hsource
    hreversible
  refine ⟨source.file, ownerType, own, field, ?_, hreads⟩
  have hother : (c.plan.renames.retargetPlan candidate).ServesField c.source.files generate
      c.plan.renames source.file ownerType leaf :=
    FieldPlan.ReadsField.serves ⟨howner.mem, hleaf, howner.view ▸ hstands⟩ h.linked hlist
  exact FieldPlan.ServesField.of_alike hother hlike

end Converter.IsBuilt

end PlainSchema
