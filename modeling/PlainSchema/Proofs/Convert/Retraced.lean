import PlainSchema.Proofs.Convert.Received
import PlainSchema.Proofs.Convert.Regained
import PlainSchema.Proofs.Convert.Transcoded
import PlainSchema.Proofs.Value.Part

/-!
# Messages that are moved there and back

A message without a plan holds the same after it was moved to the type of another pool and back, if
the fields of both types count as set alike, `Field.Resembles`, and the messages inside of it hold
the same, `same_of_transcode`.

```text
set in the message        stored under its number in both steps, and set there
not set in the message    moved in neither step
```

The type behind an alias has one field.  So a message of the type holds the same as one that is made of
nothing but the value of that field, `FieldPlan.Traces.same_of_wrapped`, unless the field tracks
presence and is not set: its default makes a message in which it is set.
-/

namespace PlainSchema

open Proto

variable {source plain : Pool} {there back : ConvertNested} {moves : String → String → Prop}
  {m m' m'' : Message} {type type' : MessageType} {name : String} {field target : Field}
  {value moved : Value}

/-! ## Fields that count as set alike -/

/-- A field counts as set in the same way as another one. -/
structure Field.Resembles (source plain : Pool) (field target : Field) : Prop where
  label : target.label = field.label
  oneof : target.oneof = field.oneof
  presence : target.tracksPresence = field.tracksPresence
  default : (∀ name group, field.type ≠ .message name group) →
    plain.defaultOf target.type = source.defaultOf field.type

theorem Pool.isDefault_list {pool : Pool} {items : List Value} (hlist : pool.isList field) :
    pool.isDefault field (.list items) = items.isEmpty := by
  rw [Pool.isList, Bool.and_eq_true, beq_iff_eq, Bool.not_eq_true'] at hlist
  rw [Pool.isDefault.eq_def, Pool.default, if_pos hlist.1, hlist.2]
  rfl

theorem Pool.isDefault_map {pool : Pool} {entries : List (MapKey × Value)} {entry : Field × Field}
    (hentry : pool.entryFields? field = some entry) :
    pool.isDefault field (.map entries) = entries.isEmpty := by
  obtain ⟨hlabel, type, htype, hmap, -⟩ := Pool.entryFields?_eq_some_iff.mp hentry
  rw [Pool.isDefault.eq_def, Pool.default, if_pos hlabel,
    if_pos (Pool.isMap_iff.mpr ⟨hlabel, type, htype, hmap⟩)]

namespace Field.Resembles

variable (h : field.Resembles source plain target)

include h

/-- A value is the default of its field exactly if what it was moved to is the default there. -/
theorem isDefault_eq (hfits : source.Fits field value) (haccepts : plain.accepts target moved)
    (hmoved : convertValue plain there target.type value = .ok moved) :
    plain.isDefault target moved = source.isDefault field value := by
  cases hfits with
  | @list items hlist =>
    obtain ⟨items', hitems, hmoved⟩ := bind_eq_ok.mp hmoved
    obtain rfl := Except.ok.inj hmoved
    rw [Pool.accepts, Bool.and_eq_true] at haccepts
    rw [Pool.isDefault_list hlist, Pool.isDefault_list haccepts.1, isEmpty_eq_of_mapM hitems]
  | @map entries key val hentry =>
    obtain ⟨entries', rfl, hempty⟩ : ∃ entries', moved = .map entries' ∧
        entries'.isEmpty = entries.isEmpty := by
      rw [convertValue] at hmoved
      split at hmoved
      · obtain ⟨entries', hentries, hmoved⟩ := bind_eq_ok.mp hmoved
        exact ⟨entries', (Except.ok.inj hmoved).symm, isEmpty_eq_of_mapM hentries⟩
      · exact ⟨entries, (Except.ok.inj hmoved).symm, rfl⟩
    rw [Pool.accepts] at haccepts
    cases hentry' : plain.entryFields? target with
    | none =>
      rw [hentry'] at haccepts
      cases haccepts
    | some entry => rw [Pool.isDefault_map hentry, Pool.isDefault_map hentry', hempty]
  | single hsingular hfits =>
    have hlabel : field.label ≠ .repeated := by simpa [Field.isSingular] using hsingular
    -- A message is no default, and everything else is moved as it is.
    cases value with
    | message inner =>
      obtain ⟨inner', rfl⟩ : ∃ inner', moved = .message inner' := by
        cases hname : target.type with
        | message name group =>
          rw [hname] at hmoved
          obtain ⟨inner', -, hmoved⟩ := bind_eq_ok.mp hmoved
          exact ⟨inner', (Except.ok.inj hmoved).symm⟩
        | _ =>
          rw [hname] at hmoved
          exact ⟨inner, (Except.ok.inj hmoved).symm⟩
      rfl
    | list items => exact absurd hfits.accepts (FieldType.not_accepts_list _ _)
    | map entries => exact absurd hfits.accepts (FieldType.not_accepts_map _ _)
    | _ =>
      obtain rfl := Except.ok.inj hmoved
      have hdefault : plain.default target = source.default field := by
        rw [Pool.default, Pool.default, if_neg hlabel, if_neg (h.label ▸ hlabel)]
        refine h.default fun name group hname => ?_
        have haccepts := hfits.accepts
        rw [hname] at haccepts
        cases haccepts
      rw [Pool.isDefault.eq_def, Pool.isDefault.eq_def, hdefault]

/-- What was moved from a set field is set. -/
theorem get?_eq (hget : m.get? source field = some value) (hfits : source.Fits field value)
    (haccepts : plain.accepts target moved)
    (hmoved : convertValue plain there target.type value = .ok moved)
    (hstored : m'.value? target.number = some moved) : m'.get? plain target = some moved := by
  obtain ⟨hhas, hvalue⟩ := Message.value?_of_get? hget
  rw [← hstored]
  refine Message.get?_of_has ?_
  rw [Message.has, hvalue] at hhas
  rw [Message.has, hstored]
  dsimp only at hhas ⊢
  rw [h.presence, h.isDefault_eq hfits haccepts hmoved]
  exact hhas

end Field.Resembles

/-! ## What is stored by a move -/

/-- No two set fields of a message are moved to fields that exclude each other. -/
def MovesApart (m : Message) (type type' : MessageType) : Prop :=
  ∀ field ∈ type.fields, ∀ other ∈ type.fields, (m.value? field.number).isSome →
    (m.value? other.number).isSome → ∀ target ∈ type'.fields, ∀ target' ∈ type'.fields,
      target.number = field.number → target'.number = other.number → ¬ target.Excludes target'

/-- Every set field that the other type has is stored there. -/
theorem exists_moved (htype : m.type? source = some type)
    (htype' : Converter.requireType plain name = .ok type') (hlinked : type.Linked)
    (hlinked' : type'.Linked) (hapart : MovesApart m type type')
    (h : Converter.transcode source plain there name m = .ok m') (hfield : field ∈ type.fields)
    (hget : m.get? source field = some value) (htarget : target ∈ type'.fields)
    (hnumber : target.number = field.number) :
    ∃ moved, m'.value? target.number = some moved ∧
      MovedFrom source plain there m type type' field target value moved := by
  rw [Converter.transcode, htype, htype'] at h
  -- What is met so far is stored, and no later field displaces it.
  have hall := foldlM_prefix (fun met (out : Message) =>
    (∀ entry ∈ met, entry ∈ m.setFields source type) → ∀ entry ∈ met, ∀ target ∈ type'.fields,
      target.number = entry.1.number → ∃ moved, out.value? target.number = some moved ∧
        MovedFrom source plain there m type type' entry.1 target entry.2 moved)
    (fun _ _ hentry => absurd hentry List.not_mem_nil) ?_ h
  · exact hall (fun _ hentry => hentry) (field, value) (mem_setFields.mpr ⟨hfield, hget⟩) target
      htarget hnumber
  rintro met ⟨last, found⟩ out out' hmotive hstep hset entry hentry target htarget hnumber
  obtain ⟨hlast, hgetLast⟩ := mem_setFields.mp (hset (last, found) (by simp))
  have hmet : ∀ entry ∈ met, entry ∈ m.setFields source type :=
    fun entry hentry => hset entry (List.mem_append_left _ hentry)
  dsimp only at hstep
  cases hwritten : type'.fieldByNumber? last.number with
  | none =>
    rw [hwritten] at hstep
    obtain rfl := Except.ok.inj hstep
    rcases List.mem_append.mp hentry with hentry | hentry
    · exact hmotive hmet entry hentry target htarget hnumber
    · obtain rfl := List.mem_singleton.mp hentry
      rw [← hnumber, hlinked'.fieldByNumber?_number htarget] at hwritten
      cases hwritten
  | some written =>
    rw [hwritten] at hstep
    obtain ⟨converted, hconverted, hstep⟩ := bind_eq_ok.mp hstep
    obtain ⟨haccepts, rfl⟩ := Restoring.setField_eq_ok hstep
    obtain ⟨hwrittenMem, hwrittenNumber⟩ := MessageType.fieldByNumber?_mem hwritten
    obtain ⟨hfieldEntry, hgetEntry⟩ := mem_setFields.mp (hset entry hentry)
    by_cases hsame : written.number = target.number
    · -- The last field is the one that is asked for.
      obtain rfl := hlinked'.eq_of_number hwrittenMem htarget hsame
      obtain rfl := hlinked.eq_of_number hfieldEntry hlast (hnumber.symm.trans hwrittenNumber)
      obtain rfl := Option.some.inj (hgetEntry.symm.trans hgetLast)
      exact ⟨converted, Message.value?_set_self _ _ _ _, hlast, htarget, hnumber, hgetEntry, hconverted,
        haccepts⟩
    · have hbefore : entry ∈ met := by
        rcases List.mem_append.mp hentry with hbefore | hentry
        · exact hbefore
        · obtain rfl := List.mem_singleton.mp hentry
          exact absurd (hwrittenNumber.trans hnumber.symm) hsame
      obtain ⟨moved, hmoved, hfrom⟩ := hmotive hmet entry hbefore target htarget hnumber
      refine ⟨moved, ?_, hfrom⟩
      rw [Message.value?_set_of_not_excludes hlinked' htarget hsame]
      · exact hmoved
      · refine hapart last hlast entry.1 hfieldEntry ?_ ?_ written hwrittenMem target htarget
          hwrittenNumber hnumber
        · rw [(Message.value?_of_get? hgetLast).2]
          rfl
        · rw [(Message.value?_of_get? hgetEntry).2]
          rfl

/-- A move makes a message of the type without unknown fields. -/
theorem unknown_of_transcode (htype : m.type? source = some type)
    (htype' : Converter.requireType plain name = .ok type')
    (h : Converter.transcode source plain there name m = .ok m') : m'.unknown = [] := by
  rw [Converter.transcode, htype, htype'] at h
  refine foldlM_invariant (fun out : Message => out.unknown = []) rfl ?_ h
  rintro out ⟨field, value⟩ out' - hout hstep
  dsimp only at hstep
  split at hstep
  · exact Except.ok.inj hstep ▸ hout
  · obtain ⟨converted, -, hstep⟩ := bind_eq_ok.mp hstep
    obtain ⟨-, rfl⟩ := Restoring.setField_eq_ok hstep
    rw [Message.unknown_set, hout]

/-! ## There and back -/

/-- **What is moved field by field and back holds the same**, if the messages inside of it do. -/
theorem same_of_transcode (hm : m.FitsType source type) (hknown : m.Declared source)
    (htype : m.type? source = some type) (htype' : Converter.requireType plain name = .ok type')
    (hfind : plain.message? type'.fullName = some type') (hlinked : type.Linked)
    (hlinked' : type'.Linked) (hrequire : Converter.requireType source m.type = .ok type)
    (hresembles : ∀ field ∈ type.fields, ∃ target ∈ type'.fields, target.number = field.number ∧
      field.Resembles source plain target)
    (hkeeps : ∀ field ∈ type.fields, ∀ target ∈ type'.fields, target.number = field.number →
      KeepsTypes source plain moves field target)
    (hregained : ∀ number value number' moved, m.value? number = some value →
      m'.value? number' = some moved → Regained there back moves (Message.Same source) value moved)
    (h : Converter.transcode source plain there name m = .ok m')
    (h' : Converter.transcode plain source back m.type m' = .ok m'') : m''.Same source m := by
  obtain ⟨hname, hmoved⟩ := exists_movedFrom htype htype' h
  have hplain : m'.type? plain = some type' := by
    rw [Message.type?, hname]
    exact hfind
  obtain ⟨hname', hreturned⟩ := exists_movedFrom hplain hrequire h'
  have hsource : ∀ target ∈ type'.fields, (m'.value? target.number).isSome →
      ∃ field value moved, MovedFrom source plain there m type type' field target value moved := by
    intro target htarget hsome
    obtain ⟨moved, hstored⟩ := Option.isSome_iff_exists.mp hsome
    obtain ⟨field, found, value, hnumber, hfrom⟩ := hmoved target.number moved hstored
    obtain rfl := hlinked'.eq_of_number hfrom.target_mem htarget hnumber
    exact ⟨field, value, moved, hfrom⟩
  -- The members of a oneof exclude each other on both sides, and one of them is set at most.
  have hapart : MovesApart m type type' := by
    intro field hfield other hother hset hset' target htarget target' htarget' hnumber hnumber'
      hexcludes
    obtain ⟨found, hfound, hfoundNumber, hlike⟩ := hresembles field hfield
    obtain rfl := hlinked'.eq_of_number hfound htarget (hfoundNumber.trans hnumber.symm)
    obtain ⟨found', hfound', hfoundNumber', hlike'⟩ := hresembles other hother
    obtain rfl := hlinked'.eq_of_number hfound' htarget' (hfoundNumber'.trans hnumber'.symm)
    obtain ⟨hne, i, hi, hi'⟩ := hexcludes
    have hexcludes : field.Excludes other :=
      ⟨hnumber ▸ hnumber' ▸ hne, i, hlike.oneof ▸ hi, hlike'.oneof ▸ hi'⟩
    rw [hm.oneofs field hfield other hother hexcludes hset] at hset'
    cases hset'
  have hapart' : MovesApart m' type' type := by
    intro target htarget target' htarget' hset hset' field hfield other hother hnumber hnumber'
      hexcludes
    obtain ⟨found, value, moved, hfrom⟩ := hsource target htarget hset
    obtain rfl := hlinked.eq_of_number hfrom.field_mem hfield (hfrom.number.symm.trans hnumber.symm)
    obtain ⟨found', value', moved', hfrom'⟩ := hsource target' htarget' hset'
    obtain rfl :=
      hlinked.eq_of_number hfrom'.field_mem hother (hfrom'.number.symm.trans hnumber'.symm)
    have hnone := hm.oneofs found hfield found' hother hexcludes (by rw [hfrom.stored]; rfl)
    rw [hfrom'.stored] at hnone
    cases hnone
  refine .intro htype (hname'.trans (Pool.message?_mem htype).2) ?_ ?_ ?_
  · rw [unknown_of_transcode hplain hrequire h', hknown.unknown]
  · intro field hfield
    cases hget : m.get? source field with
    | none =>
      -- What is set there after both steps was set at first.
      cases hget' : m''.get? source field with
      | none => exact .none
      | some returned =>
        obtain ⟨target, found, moved, hnumber, hback⟩ :=
          hreturned field.number returned (Message.value?_of_get? hget').2
        obtain rfl := hlinked.eq_of_number hback.target_mem hfield hnumber
        obtain ⟨first, value, _, hfrom⟩ :=
          hsource target hback.field_mem (by rw [hback.stored]; rfl)
        obtain rfl :=
          hlinked.eq_of_number hfrom.field_mem hfield (hfrom.number.symm.trans hback.number.symm)
        exact absurd (hget.symm.trans hfrom.set) (Option.some_ne_none _).symm
    | some value =>
      obtain ⟨target, htarget, hnumber, hlike⟩ := hresembles field hfield
      obtain ⟨moved, hstored, hfrom⟩ := exists_moved htype htype' hlinked hlinked' hapart h hfield hget
        htarget hnumber
      have hfits := hm.fields field hfield value hfrom.stored
      have hset := hlike.get?_eq hget hfits hfrom.accepts hfrom.converted hstored
      obtain ⟨returned, hstored', hback⟩ := exists_moved hplain hrequire hlinked' hlinked hapart' h'
        htarget hset hfield hnumber.symm
      have halike : returned.Alike (Message.Same source) value :=
        alike_of_convertValue hfrom.accepts (hkeeps field hfield target htarget hnumber)
          (hregained _ _ _ _ hfrom.stored hstored) hfrom.converted hback.converted
          (fun hsingular => by rw [Field.isSingular, hlike.label]; exact hsingular) hfits
      rw [Message.get?_of_alike hget hstored' halike]
      exact .some halike
  · intro number hother
    rw [hknown.others type htype number hother]
    cases hstored : m''.value? number with
    | none => rfl
    | some returned =>
      obtain ⟨_, found, _, hnumber, hback⟩ := hreturned number returned hstored
      exact absurd hnumber (hother found hback.target_mem)

/-! ## Values that are wrapped again -/

section Wrapped

variable {pool : Pool} {type : MessageType} {field leaf : Field} {m : Message} {value : Value}

/-- The default of a scalar field does not count as set. -/
theorem Pool.isDefault_default {scalar : Scalar} (hsingular : field.isSingular)
    (htype : field.type = .scalar scalar) : pool.isDefault field (pool.default field) := by
  have hlabel : field.label ≠ .repeated := by simpa [Field.isSingular] using hsingular
  have hdefault : pool.default field = scalar.default := by
    rw [Pool.default, if_neg hlabel, htype]
    rfl
  rw [Pool.isDefault.eq_def, hdefault]
  cases scalar <;> rfl

/-- A message of a type with one field holds the same as one with nothing but that field. -/
theorem Message.same_of_only {scalar : Scalar} (htype : m.type? pool = some type)
    (honly : ∀ other ∈ type.fields, other = field) (hfield : field ∈ type.fields)
    (hsingular : field.isSingular) (hscalar : field.type = .scalar scalar)
    (hknown : m.Declared pool) (hset : field.tracksPresence → m.has pool field) :
    (Message.set { type := type.fullName } type field (m.get pool field)).Same pool m := by
  refine .intro htype ?_ ?_ ?_ ?_
  · rw [type_set]
    exact (Pool.message?_mem htype).2
  · rw [unknown_set, hknown.unknown]
  · intro other hother
    obtain rfl := honly other hother
    have hstored := value?_set_self { type := type.fullName } type other (m.get pool other)
    cases hget : m.get? pool other with
    | some value =>
      have hsame : m.get pool other = value := by
        rw [Message.get, (value?_of_get? hget).2, Option.getD_some]
      rw [hsame] at hstored ⊢
      rw [get?_congr (hstored.trans (value?_of_get? hget).2.symm), hget]
      exact .some .refl
    | none =>
      -- What is not set there is not set here, since it holds the default.
      have hnot : m.has pool other = false := by
        rw [has_eq_isSome_get?, hget]
        rfl
      have hpresence : other.tracksPresence = false := by
        rw [← Bool.not_eq_true]
        exact fun htracks => absurd (hset htracks) (by simp [hnot])
      have hdefault : pool.isDefault other (m.get pool other) := by
        rw [Message.get]
        cases hvalue : m.value? other.number with
        | none => exact Pool.isDefault_default hsingular hscalar
        | some value =>
          rw [has, hvalue, hpresence] at hnot
          simpa using hnot
      rw [get?_eq_none]
      · exact .none
      · rw [has, hstored]
        simp [hpresence, hdefault]
  · intro number hother
    rw [hknown.others type htype number hother]
    cases hstored : Message.value? _ number with
    | none => rfl
    | some value =>
      rcases value?_of_set hstored with ⟨hnumber, -⟩ | hnone
      · exact absurd hnumber (hother field hfield)
      · cases hnone

/-- The messages that a value holds are of the type of its field, unless the field is a map. -/
theorem Pool.Fits.exists_type_of_holds (h : pool.Fits field value) (hmap : ¬ pool.isMap field)
    (hholds : value.Holds m) : ∃ group, field.type = .message m.type group := by
  cases hholds with
  | message => exact h.exists_message.2
  | item hitem =>
    cases h with
    | list _ hitems => exact (hitems _ hitem).exists_message
    | single _ hfits => exact absurd hfits.accepts (FieldType.not_accepts_list _ _)
  | entry =>
    cases h with
    | map hentry =>
      obtain ⟨hlabel, type, htype, hisEntry, -⟩ := Pool.entryFields?_eq_some_iff.mp hentry
      exact absurd (Pool.isMap_iff.mpr ⟨hlabel, type, htype, hisEntry⟩) hmap
    | single _ hfits => exact absurd hfits.accepts (FieldType.not_accepts_map _ _)

section Planned

variable {files : List FileDecl} {generate : List String} {context : String} {ref : String → String}
  {source : SourceMessage} {plan : FieldPlan} {x : Message}

/-- **A wrapper holds the same as one with nothing but the wrapped field**, which is set if it tracks
presence. -/
theorem FieldPlan.Traces.same_of_wrapped (hlinked : FilesLinked files)
    (h : plan.Traces (PlanContext.ofFile (Schema.ofPool (Pool.link files) generate) context) ref source)
    (hviews : source.ViewsType (Pool.link files) type) (hx : x.WellTyped (Pool.link files))
    (hknown : x.Known (Pool.link files)) (htype : x.type? (Pool.link files) = some type)
    (hreversible : plan.isReversible) (hserialized : ¬ plan.origin.isSerialized)
    (halias : plan.origin.aliasType.isSome)
    (hread : x.read? (Pool.link files) plan.origin.sourcePath = some (leaf, value))
    (hholds : value.Holds m) {wrapper : MessageType}
    (hwrapper : m.type? (Pool.link files) = some wrapper)
    (hfield : wrapper.field? plan.aliasField = some field)
    (hset : field.tracksPresence → m.has (Pool.link files) field) :
    (Message.set { type := wrapper.fullName } wrapper field (m.get (Pool.link files) field)).Same
      (Pool.link files) m := by
  rcases h with ⟨-, hnot⟩ | ⟨owner, leafView, hleads, hstands⟩
  · exact absurd hreversible hnot
  obtain ⟨ownerType, inner, howner, hleaf, rfl, hinner, hinnerType, hstored⟩ :=
    hleads.exists_read hlinked hviews hx htype hread
  have hfits := ((hx.within hinner).fitsType hinnerType).fields leaf hleaf value hstored
  cases hstands.carries with
  | serialized hserialized' => exact absurd hserialized' hserialized
  | asString _ halias' => exact absurd halias halias'
  | asInt _ halias' => exact absurd halias halias'
  | copied _ halias' => exact absurd halias halias'
  | @unwrapped found _ _ haliasOf haliasField =>
    rw [PlanContext.aliasOf?] at haliasOf
    split at haliasOf
    · next hmessage =>
      obtain ⟨name, hname⟩ := FieldType.eq_message_of_kind hmessage
      have hfound : (leaf.type.typeName?.map ("." ++ ·)).bind
          (Schema.ofPool (Pool.link files) generate).alias? = some found := haliasOf
      rw [hname] at hfound
      obtain ⟨wrapperType, only, scalar, hwrapperType, hplainEntry, hfind, hsingular, hscalar, -, honly⟩ :=
        exists_wrapperType hlinked hfound
      have hmap : ¬ (Pool.link files).isMap leaf := by
        intro hmap
        obtain ⟨-, entry, hof, hisEntry⟩ := Pool.isMap_iff.mp hmap
        rw [Pool.messageTypeOf?, hname] at hof
        obtain rfl := Option.some.inj (hof.symm.trans hwrapperType)
        exact absurd (hplainEntry.symm.trans hisEntry) Bool.false_ne_true
      obtain ⟨group, hof⟩ := hfits.exists_type_of_holds hmap hholds
      obtain ⟨rfl, -⟩ := FieldType.message.inj (hname.symm.trans hof)
      obtain rfl := Option.some.inj (hwrapper.symm.trans hwrapperType)
      rw [haliasField, hfind] at hfield
      obtain rfl := Option.some.inj hfield
      have hwithin : m.Within x := .trans (.step hstored hholds .refl) hinner
      exact Message.same_of_only hwrapper honly (MessageType.field?_mem hfind).1 hsingular hscalar
        (hknown m hwithin) hset
    · cases haliasOf

end Planned

end Wrapped

end PlainSchema
