import PlainSchema.Proofs.Data.Lists
import PlainSchema.Proofs.Pool.Linked
import PlainSchema.Value.Message

/-!
# What a written field does to the others

A message after a write holds the new value, none of the other members of the oneof of the written
field, and everything else as before: `value?_set_self`, `value?_set_excluded`, `value?_set_of_ne`.
-/

namespace PlainSchema

/-- Two fields are different members of one oneof. -/
def Field.Excludes (field other : Field) : Prop :=
  field.number ≠ other.number ∧ ∃ i, field.oneof = some i ∧ other.oneof = some i

theorem Field.excludes_iff {field other : Field} :
    field.Excludes other ↔ field.number ≠ other.number ∧ field.oneof.isSome ∧
      field.oneof = other.oneof := by
  constructor
  · rintro ⟨hne, i, hi, hi'⟩
    exact ⟨hne, by rw [hi]; rfl, hi.trans hi'.symm⟩
  · rintro ⟨hne, hsome, heq⟩
    obtain ⟨i, hi⟩ := Option.isSome_iff_exists.mp hsome
    exact ⟨hne, i, hi, heq ▸ hi⟩

instance (field other : Field) : Decidable (field.Excludes other) :=
  decidable_of_iff _ Field.excludes_iff.symm

namespace Message

variable {pool : Pool} {m : Message} {type : MessageType} {field other : Field} {value : Value}

@[simp] theorem type_put (m : Message) (number : Nat) (value : Value) :
    (m.put number value).type = m.type := rfl

@[simp] theorem unknown_put (m : Message) (number : Nat) (value : Value) :
    (m.put number value).unknown = m.unknown := rfl

theorem value?_put (m : Message) (number : Nat) (value : Value) (k : Nat) :
    (m.put number value).value? k = if k = number then some value else m.value? k :=
  lookup_insertNumber number value k m.fields

@[simp] theorem type_clearSiblings (m : Message) (type : MessageType) (field : Field) :
    (m.clearSiblings type field).type = m.type := by
  rw [clearSiblings]
  split <;> rfl

@[simp] theorem unknown_clearSiblings (m : Message) (type : MessageType) (field : Field) :
    (m.clearSiblings type field).unknown = m.unknown := by
  rw [clearSiblings]
  split <;> rfl

@[simp] theorem type_set (m : Message) (type : MessageType) (field : Field) (value : Value) :
    (m.set type field value).type = m.type := by
  simp [set]

@[simp] theorem unknown_set (m : Message) (type : MessageType) (field : Field) (value : Value) :
    (m.set type field value).unknown = m.unknown := by
  simp [set]

/-- The fields that a write clears are the members that the written field excludes. -/
theorem any_siblings (type : MessageType) {index : Nat} (honeof : field.oneof = some index) (k : Nat) :
    ((type.oneofFields index).filter (·.number != field.number)).any (·.number == k) ↔
      ∃ other ∈ type.fields, other.number = k ∧ field.Excludes other := by
  rw [List.any_eq_true]
  constructor
  · rintro ⟨other, hmem, hk⟩
    obtain ⟨hmem, hne⟩ := List.mem_filter.mp hmem
    obtain ⟨hmem, hindex⟩ := List.mem_filter.mp hmem
    refine ⟨other, hmem, by simpa using hk, fun heq => ?_, index, honeof, by simpa using hindex⟩
    simp [heq] at hne
  · rintro ⟨other, hmem, hk, hne, i, hi, hother⟩
    have hindex : i = index := Option.some.inj (hi.symm.trans honeof)
    refine ⟨other, List.mem_filter.mpr ⟨List.mem_filter.mpr ⟨hmem, ?_⟩, ?_⟩, by simpa using hk⟩
    · simp [hother, hindex]
    · simpa using fun heq => hne heq.symm

theorem value?_clearSiblings (m : Message) (type : MessageType) (field : Field) (k : Nat)
    [Decidable (∃ other ∈ type.fields, other.number = k ∧ field.Excludes other)] :
    (m.clearSiblings type field).value? k
      = if ∃ other ∈ type.fields, other.number = k ∧ field.Excludes other then none
        else m.value? k := by
  cases honeof : field.oneof with
  | none =>
    rw [clearSiblings, honeof, if_neg]
    rintro ⟨-, -, -, -, i, hi, -⟩
    simp [honeof] at hi
  | some index =>
    have hany := any_siblings type honeof k
    have hlookup : (m.clearSiblings type field).value? k
        = if !((type.oneofFields index).filter (·.number != field.number)).any (·.number == k)
          then m.value? k else none := by
      rw [clearSiblings, honeof]
      exact lookup_filter (fun n => !((type.oneofFields index).filter
        (·.number != field.number)).any (·.number == n)) k m.fields
    rw [hlookup]
    by_cases hexists : ∃ other ∈ type.fields, other.number = k ∧ field.Excludes other
    · rw [if_pos hexists, hany.mpr hexists]
      rfl
    · rw [if_neg hexists, Bool.eq_false_iff.mpr fun h => hexists (hany.mp h)]
      rfl

/-! ## Reading after a write -/

@[simp] theorem value?_set_self (m : Message) (type : MessageType) (field : Field) (value : Value) :
    (m.set type field value).value? field.number = some value := by
  rw [set, value?_put, if_pos rfl]

/-- A write leaves every field alone that is not in a oneof with the written one. -/
theorem value?_set_of_not_excludes (hlinked : type.Linked) (hmem : other ∈ type.fields)
    (hne : field.number ≠ other.number) (hexcludes : ¬ field.Excludes other) :
    (m.set type field value).value? other.number = m.value? other.number := by
  classical
  rw [set, value?_put, if_neg fun heq => hne heq.symm, value?_clearSiblings, if_neg]
  rintro ⟨found, hfound, hnumber, hex⟩
  exact hexcludes (hlinked.eq_of_number hfound hmem hnumber ▸ hex)

theorem value?_set_excluded (hmem : other ∈ type.fields) (hexcludes : field.Excludes other) :
    (m.set type field value).value? other.number = none := by
  classical
  rw [set, value?_put, if_neg fun heq => hexcludes.1 heq.symm, value?_clearSiblings, if_pos]
  exact ⟨other, hmem, rfl, hexcludes⟩

/-- What is stored after a write was stored before, or was written. -/
theorem value?_of_set {number : Nat} {found : Value}
    (h : (m.set type field value).value? number = some found) :
    (field.number = number ∧ value = found) ∨ m.value? number = some found := by
  classical
  rw [set, value?_put] at h
  by_cases hnumber : number = field.number
  · rw [if_pos hnumber] at h
    exact Or.inl ⟨hnumber.symm, Option.some.inj h⟩
  · rw [if_neg hnumber, value?_clearSiblings] at h
    split at h
    · exact absurd h (by simp)
    · exact Or.inr h

/-! ## Fields that count as set -/

theorem has_of_tracksPresence (hpresence : field.tracksPresence) :
    m.has pool field = (m.value? field.number).isSome := by
  rw [has]
  cases m.value? field.number <;> simp [hpresence]

theorem has_of_message {child : Message} (hvalue : m.value? field.number = some (.message child)) :
    m.has pool field := by
  rw [has, hvalue]
  simp [Pool.isDefault]

theorem get?_of_has (hhas : m.has pool field) : m.get? pool field = m.value? field.number := by
  rw [get?, if_pos hhas]

theorem has_congr {m' : Message} (h : m.value? field.number = m'.value? field.number) :
    m.has pool field = m'.has pool field := by
  rw [has, has, h]

theorem get?_congr {m' : Message} (h : m.value? field.number = m'.value? field.number) :
    m.get? pool field = m'.get? pool field := by
  rw [get?, get?, has_congr h, h]

theorem value?_of_get? (h : m.get? pool field = some value) :
    m.has pool field ∧ m.value? field.number = some value := by
  rw [get?] at h
  split at h
  · next hhas => exact ⟨hhas, h⟩
  · exact absurd h (by simp)

end Message

end PlainSchema
