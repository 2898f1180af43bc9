import PlainSchema.Convert.Converter
import PlainSchema.Proofs.Convert.Carried
import PlainSchema.Proofs.Convert.Stored

/-!
# Messages that are moved field by field

A message without a plan is moved to the type of another pool field by field number.  What was moved
there can be moved back, as long as fields of one number hold messages of corresponding types,
`exists_transcode`.
-/

namespace PlainSchema

open Proto

variable {source plain : Pool} {there back : ConvertNested} {moves : String → String → Prop}
  {m m' : Message} {type type' : MessageType} {name : String}

/-- The value of a field was moved from the field with the same number. -/
structure MovedFrom (source plain : Pool) (there : ConvertNested) (m : Message)
    (type type' : MessageType) (field target : Field) (value moved : Value) : Prop where
  field_mem : field ∈ type.fields
  target_mem : target ∈ type'.fields
  number : target.number = field.number
  set : m.get? source field = some value
  converted : convertValue plain there target.type value = .ok moved
  accepts : plain.accepts target moved

theorem MovedFrom.stored {field target : Field} {value moved : Value}
    (h : MovedFrom source plain there m type type' field target value moved) :
    m.value? field.number = some value :=
  (Message.value?_of_get? h.set).2

theorem mem_setFields {pool : Pool} {field : Field} {value : Value} :
    (field, value) ∈ m.setFields pool type ↔ field ∈ type.fields ∧ m.get? pool field = some value := by
  rw [Message.setFields, List.mem_filterMap]
  constructor
  · rintro ⟨found, hfound, hmap⟩
    obtain ⟨stored, hget, heq⟩ := Option.map_eq_some_iff.mp hmap
    obtain ⟨rfl, rfl⟩ := Prod.mk.inj heq
    exact ⟨hfound, hget⟩
  · rintro ⟨hfield, hget⟩
    exact ⟨field, hfield, by rw [hget, Option.map_some]⟩

theorem exists_requireType (htype : m.type? source = some type)
    (h : Converter.transcode source plain there name m = .ok m') :
    ∃ type', Converter.requireType plain name = .ok type' := by
  rw [Converter.transcode, htype] at h
  obtain ⟨_, -, h⟩ := bind_eq_ok.mp h
  obtain ⟨type', htype', -⟩ := bind_eq_ok.mp h
  exact ⟨type', htype'⟩

/-- What a message holds after it was moved was moved from a field of the same number. -/
theorem exists_movedFrom (htype : m.type? source = some type)
    (htype' : Converter.requireType plain name = .ok type')
    (h : Converter.transcode source plain there name m = .ok m') :
    m'.type = type'.fullName ∧ ∀ number moved, m'.value? number = some moved →
      ∃ field target value, target.number = number ∧
        MovedFrom source plain there m type type' field target value moved := by
  rw [Converter.transcode, htype, htype'] at h
  refine foldlM_invariant (fun out : Message => out.type = type'.fullName ∧
    ∀ number moved, out.value? number = some moved → ∃ field target value, target.number = number ∧
      MovedFrom source plain there m type type' field target value moved)
    ⟨rfl, fun _ _ hmoved => by simp [Message.value?] at hmoved⟩ ?_ h
  rintro out ⟨field, value⟩ out' hmem hmotive hstep
  obtain ⟨hout, hmoved⟩ := hmotive
  obtain ⟨hfield, hget⟩ := mem_setFields.mp hmem
  dsimp only at hstep
  cases htarget : type'.fieldByNumber? field.number with
  | none =>
    rw [htarget] at hstep
    obtain rfl := Except.ok.inj hstep
    exact ⟨hout, hmoved⟩
  | some target =>
    rw [htarget] at hstep
    obtain ⟨converted, hconverted, hstep⟩ := bind_eq_ok.mp hstep
    obtain ⟨haccepts, rfl⟩ := Restoring.setField_eq_ok hstep
    obtain ⟨htargetMem, hnumber⟩ := MessageType.fieldByNumber?_mem htarget
    refine ⟨(Message.type_set _ _ _ _).trans hout, fun number moved hvalue => ?_⟩
    rcases Message.value?_of_set hvalue with ⟨hsame, rfl⟩ | hbefore
    · exact ⟨field, target, value, hsame, hfield, htargetMem, hnumber, hget, hconverted, haccepts⟩
    · exact hmoved number moved hbefore

/-- What was moved field by field is moved back field by field. -/
theorem exists_transcode (hm : m.FitsType source type) (htype : m.type? source = some type)
    (htype' : Converter.requireType plain name = .ok type')
    (hfind : plain.message? type'.fullName = some type') (hlinked : type.Linked)
    (hlinked' : type'.Linked) (hrequire : Converter.requireType source m.type = .ok type)
    (hkeeps : ∀ field ∈ type.fields, ∀ target ∈ type'.fields, target.number = field.number →
      KeepsTypes source plain moves field target)
    (hreturns : ∀ number value number' moved, m.value? number = some value →
      m'.value? number' = some moved → Returns there back moves value moved)
    (h : Converter.transcode source plain there name m = .ok m') :
    ∃ m'', Converter.transcode plain source back m.type m' = .ok m'' ∧ m''.type = m.type := by
  obtain ⟨hname, hmoved⟩ := exists_movedFrom htype htype' h
  have hplain : m'.type? plain = some type' := by
    rw [Message.type?, hname]
    exact hfind
  rw [Converter.transcode, hplain, hrequire, ← (Pool.message?_mem htype).2]
  change ∃ m'', List.foldlM _ _ (m'.setFields plain type') = _ ∧ _
  refine exists_foldlM (fun _ (out : Message) => out.type = type.fullName) rfl ?_
  rintro met ⟨target, moved⟩ rest out hsplit hout
  have hmem : (target, moved) ∈ m'.setFields plain type' := by
    rw [hsplit]
    simp
  obtain ⟨htarget, hget⟩ := mem_setFields.mp hmem
  have hstored := (Message.value?_of_get? hget).2
  obtain ⟨field, found, value, hnumber, hfrom⟩ := hmoved target.number moved hstored
  obtain rfl := hlinked'.eq_of_number hfrom.target_mem htarget hnumber
  have hfits := hm.fields field hfrom.field_mem value hfrom.stored
  obtain ⟨v, hv, hvfits⟩ := convertValue_returns hfrom.accepts
    (hkeeps field hfrom.field_mem found htarget hfrom.number)
    (hreturns _ _ _ _ hfrom.stored hstored) hfrom.converted hfits
  refine ⟨out.set type field v, ?_, (Message.type_set _ _ _ _).trans hout⟩
  dsimp only
  rw [hfrom.number, hlinked.fieldByNumber?_number hfrom.field_mem]
  dsimp only
  rw [hv]
  change setField source out type field v = _
  rw [setField, Message.set?, if_pos hvfits.accepts]

end PlainSchema
