import PlainSchema.Proofs.Value.Fields
import PlainSchema.Wire.Decode

/-!
# What bytes decode to

The records of a byte sequence are taken up one after another, so what every record keeps is kept in
the end, `Wire.mergeAll_invariant`.  A message keeps its type, `Wire.type_decode?`, and what it holds in
a singular field is of the type of the field, `Wire.accepts_of_decode?`.
-/

namespace PlainSchema.Wire

theorem mergeAll_invariant {α : Type} {step : Step α} (motive : α → Prop)
    (hstep : ∀ x number wireType bytes x' rest, motive x →
      step x number wireType bytes = some (x', rest) → motive x')
    {x y : α} {bytes : List UInt8} (hx : motive x) (h : mergeAll step x bytes = some y) : motive y := by
  rw [mergeAll] at h
  generalize bytes.length = fuel at h
  induction fuel generalizing x bytes with
  | zero =>
    cases bytes with
    | nil => exact Option.some.inj h ▸ hx
    | cons b bytes => cases h
  | succ fuel ih =>
    cases bytes with
    | nil => exact Option.some.inj h ▸ hx
    | cons b bytes =>
      obtain ⟨⟨number, wireType, rest⟩, -, h⟩ := Option.bind_eq_some_iff.mp h
      obtain ⟨⟨x', rest'⟩, hnext, h⟩ := Option.bind_eq_some_iff.mp h
      exact ih (hstep _ _ _ _ _ _ hx hnext) h

variable {pool : Pool} {m m' : Message} {levels number wireType : Nat} {bytes rest : List UInt8}

/-- A record sets a field of a message, or adds to what is unknown. -/
theorem type_messageStep (h : messageStep pool levels m number wireType bytes = some (m', rest)) :
    m'.type = m.type := by
  unfold messageStep at h
  obtain ⟨type, -, h⟩ := Option.bind_eq_some_iff.mp h
  cases hfield : pool.fieldByNumber? type number with
  | some field =>
    rw [hfield] at h
    obtain ⟨⟨value, rest'⟩, -, h⟩ := Option.bind_eq_some_iff.mp h
    cases h
    exact Message.type_set _ _ _ _
  | none =>
    rw [hfield] at h
    obtain ⟨⟨value, rest'⟩, -, h⟩ := Option.bind_eq_some_iff.mp h
    cases h
    rfl

/-- Bytes are decoded to a message of the type that they are read for. -/
theorem type_decode? {type : String} (h : decode? pool type bytes = some m) : m.type = type :=
  mergeAll_invariant (fun m : Message => m.type = type)
    (fun _ _ _ _ _ _ hm hstep => (type_messageStep hstep).trans hm) rfl h

/-- Without bytes nothing is set. -/
theorem decode?_nil (pool : Pool) (type : String) : decode? pool type [] = some { type := type } := by
  rw [decode?, mergeAll, mergeAllFrom]

/-! ## Values of singular fields -/

section Accepts

variable {type : FieldType} {found : UnknownValue} {inside : Inside} {before : Option Value}
  {value : Value} {field : Field}

theorem accepts_of_scalarOfWire? {scalar : Proto.Scalar}
    (h : scalarOfWire? scalar found = some value) : scalar.accepts value := by
  unfold scalarOfWire? at h
  split at h
  case h_9 =>
    obtain ⟨text, -, rfl⟩ := Option.map_eq_some_iff.mp h
    rfl
  case h_16 => cases h
  all_goals
    obtain rfl := Option.some.inj h
    rfl

theorem accepts_of_singleOfWire? (h : singleOfWire? type found = some value) :
    type.accepts value := by
  unfold singleOfWire? at h
  split at h
  · exact accepts_of_scalarOfWire? h
  · obtain rfl := Option.some.inj h
    rfl
  · cases h

/-- A record is merged into a value of the type of its field. -/
theorem accepts_of_mergeSingle
    (h : mergeSingle inside type before number wireType bytes = some (value, rest)) :
    type.accepts value := by
  unfold mergeSingle at h
  split at h
  · next name group =>
    obtain ⟨step, -, h⟩ := Option.bind_eq_some_iff.mp h
    cases group with
    | true =>
      obtain ⟨_, -, h⟩ := Option.bind_eq_some_iff.mp h
      obtain ⟨_, -, h⟩ := Option.bind_eq_some_iff.mp h
      cases h
      rfl
    | false =>
      obtain ⟨_, -, h⟩ := Option.bind_eq_some_iff.mp h
      obtain ⟨_, -, h⟩ := Option.bind_eq_some_iff.mp h
      obtain ⟨_, -, h⟩ := Option.bind_eq_some_iff.mp h
      cases h
      rfl
  · obtain ⟨_, -, h⟩ := Option.bind_eq_some_iff.mp h
    obtain ⟨read, hread, h⟩ := Option.bind_eq_some_iff.mp h
    cases h
    exact accepts_of_singleOfWire? hread

theorem accepts_of_mergeField (hsingular : field.isSingular)
    (h : mergeField pool inside levels field before wireType bytes = some (value, rest)) :
    field.type.accepts value := by
  have hlabel : field.label ≠ .repeated := bne_iff_ne.mp hsingular
  unfold mergeField at h
  cases hentry : pool.entryFields? field with
  | some entry => exact absurd (Pool.entryFields?_eq_some_iff.mp hentry).1 hlabel
  | none =>
    rw [hentry, if_neg hlabel] at h
    exact accepts_of_mergeSingle h

end Accepts

/-- A field of a type hides the extensions of its number. -/
theorem eq_of_fieldByNumber? {type : MessageType} {field other : Field} (hlinked : type.Linked)
    (hother : other ∈ type.fields) (h : pool.fieldByNumber? type number = some field)
    (hnumber : field.number = other.number) : field = other := by
  have hown : type.fieldByNumber? other.number = some other := hlinked.fieldByNumber?_number hother
  rw [Pool.fieldByNumber?, Option.orElse_eq_orElse, Option.orElse_eq_or, Option.or_eq_some_iff] at h
  rcases h with hfield | ⟨hnone, hextension⟩
  · exact hlinked.eq_of_number (MessageType.fieldByNumber?_mem hfield).1 hother hnumber
  · obtain ⟨e, he, rfl⟩ := Option.map_eq_some_iff.mp hextension
    have hfound : e.field.number = number := by
      have hboth := List.find?_some he
      rw [Bool.and_eq_true, beq_iff_eq, beq_iff_eq] at hboth
      exact hboth.2
    rw [← hnumber, hfound, hnone] at hown
    cases hown

/-- A message of a type whose singular fields hold values of their types. -/
structure SinglesFit (pool : Pool) (type : MessageType) (m : Message) : Prop where
  typed : pool.message? m.type = some type
  accepts : ∀ field ∈ type.fields, field.isSingular → ∀ value, m.value? field.number = some value →
    field.type.accepts value

theorem SinglesFit.messageStep {type : MessageType} (hm : SinglesFit pool type m)
    (hlinked : type.Linked) (h : messageStep pool levels m number wireType bytes = some (m', rest)) :
    SinglesFit pool type m' := by
  have htype := type_messageStep h
  unfold Wire.messageStep at h
  obtain ⟨found, hfound, h⟩ := Option.bind_eq_some_iff.mp h
  obtain rfl := Option.some.inj (hm.typed.symm.trans hfound)
  refine ⟨htype ▸ hm.typed, fun other hother hsingular value hvalue => ?_⟩
  cases hfield : pool.fieldByNumber? type number with
  | some field =>
    rw [hfield] at h
    obtain ⟨⟨written, rest'⟩, hwritten, h⟩ := Option.bind_eq_some_iff.mp h
    cases h
    rcases Message.value?_of_set hvalue with ⟨hnumber, rfl⟩ | hbefore
    · -- The record is one of this very field.
      obtain rfl := eq_of_fieldByNumber? hlinked hother hfield hnumber
      exact accepts_of_mergeField hsingular hwritten
    · exact hm.accepts other hother hsingular value hbefore
  | none =>
    rw [hfield] at h
    obtain ⟨⟨_, rest'⟩, -, h⟩ := Option.bind_eq_some_iff.mp h
    cases h
    exact hm.accepts other hother hsingular value hvalue

/-- What bytes hold in a singular field is of the type of the field. -/
theorem accepts_of_decode? {type : MessageType} {field : Field} {value : Value}
    (hlinked : type.Linked) (hfound : pool.message? type.fullName = some type)
    (h : decode? pool type.fullName bytes = some m) (hfield : field ∈ type.fields)
    (hsingular : field.isSingular) (hvalue : m.value? field.number = some value) :
    field.type.accepts value := by
  have hnew : SinglesFit pool type { type := type.fullName } :=
    ⟨hfound, fun _ _ _ _ hnone => absurd hnone nofun⟩
  exact (mergeAll_invariant (SinglesFit pool type)
    (fun _ _ _ _ _ _ hm hstep => hm.messageStep hlinked hstep) hnew h).accepts field hfield hsingular
    value hvalue

end PlainSchema.Wire
