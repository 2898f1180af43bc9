import Mathlib.Data.List.Forall2
import PlainSchema.Proofs.Value.WellTyped

/-!
# Messages that hold the same

Two messages hold the same when the same fields count as set in both and the values there are alike:
`Message.Same`.  What is stored without counting as set makes no difference, such as an empty text in a
field that does not track presence.

```text
scalars, texts, bytes, enum values   equal
messages                             hold the same
lists and maps                       item by item, and entry by entry under equal keys
```
-/

namespace PlainSchema

open Proto

variable {pool : Pool} {type : MessageType} {field : Field} {m m' : Message} {value value' : Value}
  {r : Message → Message → Prop}

/-! ## Values -/

/-- Two values are alike when the messages in them are related one by one, and the rest is equal. -/
inductive Value.Alike (r : Message → Message → Prop) : Value → Value → Prop
  | refl {v : Value} : Alike r v v
  | message {m m' : Message} (h : r m m') : Alike r (.message m) (.message m')
  | list {items items' : List Value} (h : List.Forall₂ (Alike r) items items') :
      Alike r (.list items) (.list items')
  | map {entries entries' : List (MapKey × Value)}
      (hkeys : entries.map (·.1) = entries'.map (·.1))
      (hvalues : List.Forall₂ (Alike r) (entries.map (·.2)) (entries'.map (·.2))) :
      Alike r (.map entries) (.map entries')

namespace Value.Alike

theorem exists_message (h : Alike r value (.message m')) :
    value = .message m' ∨ ∃ m, value = .message m ∧ r m m' := by
  cases h with
  | refl => exact Or.inl rfl
  | message hsame => exact Or.inr ⟨_, rfl, hsame⟩

/-- Of alike values both are the default of a field or neither one is. -/
theorem isDefault_eq (h : Alike r value value') (pool : Pool) (field : Field) :
    pool.isDefault field value = pool.isDefault field value' := by
  cases h with
  | refl => rfl
  | message => rfl
  | @list items items' hitems =>
    have hlength : items.isEmpty = items'.isEmpty := by
      cases hitems <;> rfl
    rw [Pool.isDefault.eq_def, Pool.isDefault.eq_def]
    cases pool.default field with
    | list items => exact hlength
    | _ => rfl
  | @map entries entries' hkeys =>
    have hlength : entries.isEmpty = entries'.isEmpty := by
      simpa using congrArg List.isEmpty hkeys
    rw [Pool.isDefault.eq_def, Pool.isDefault.eq_def]
    cases pool.default field with
    | map entries => exact hlength
    | _ => rfl

end Value.Alike

/-! ## Messages -/

/-- Two messages of one type hold the same: every field of the type counts as set in both or in
neither, with alike values, and nothing else in them differs. -/
inductive Message.Same (pool : Pool) : Message → Message → Prop
  | intro {m m' : Message} {type : MessageType} (htype : m'.type? pool = some type)
      (hname : m.type = m'.type) (hunknown : m.unknown = m'.unknown)
      (hfields : ∀ field ∈ type.fields,
        Option.Rel (Value.Alike (Same pool)) (m.get? pool field) (m'.get? pool field))
      (hothers : ∀ number, (∀ field ∈ type.fields, field.number ≠ number) →
        m.value? number = m'.value? number) : Same pool m m'

namespace Message

theorem get?_eq_none (h : ¬ m.has pool field) : m.get? pool field = none :=
  if_neg h

/-- A field counts as set exactly if it can be read. -/
theorem has_eq_isSome_get? : m.has pool field = (m.get? pool field).isSome := by
  cases hhas : m.has pool field with
  | false => rw [get?_eq_none (by simp [hhas])]; rfl
  | true =>
    rw [get?_of_has hhas]
    rw [has] at hhas
    split at hhas
    · exact absurd hhas Bool.false_ne_true
    · next hvalue => rw [hvalue]; rfl

/-- Alike values that are stored in one field, and count as set there in one message, count as set in
the other one too. -/
theorem get?_of_alike (hget : m'.get? pool field = some value')
    (hstored : m.value? field.number = some value) (h : value.Alike r value') :
    m.get? pool field = some value := by
  obtain ⟨hhas, hstored'⟩ := value?_of_get? hget
  have hset : m.has pool field := by
    rw [has, hstored'] at hhas
    rw [has, hstored]
    dsimp only at hhas ⊢
    rw [h.isDefault_eq]
    exact hhas
  rw [get?_of_has hset, hstored]

namespace Same

theorem type_eq (h : m.Same pool m') : m.type = m'.type := by
  cases h with
  | intro _ hname => exact hname

theorem rel_get? (h : m.Same pool m') (htype : m'.type? pool = some type)
    (hfield : field ∈ type.fields) :
    Option.Rel (Value.Alike (Same pool)) (m.get? pool field) (m'.get? pool field) := by
  cases h with
  | intro hfound _ _ hfields =>
    obtain rfl := Option.some.inj (htype.symm.trans hfound)
    exact hfields field hfield

/-- The same fields count as set. -/
theorem has_eq (h : m.Same pool m') (htype : m'.type? pool = some type)
    (hfield : field ∈ type.fields) : m.has pool field = m'.has pool field := by
  rw [has_eq_isSome_get?, has_eq_isSome_get?]
  have hrel := h.rel_get? htype hfield
  generalize m.get? pool field = found at hrel ⊢
  generalize m'.get? pool field = found' at hrel ⊢
  cases hrel <;> rfl

/-- What is set in one of them is set in the other one, to an alike value. -/
theorem exists_get? (h : m.Same pool m') (htype : m'.type? pool = some type)
    (hfield : field ∈ type.fields) (hget : m'.get? pool field = some value') :
    ∃ value, m.get? pool field = some value ∧ value.Alike (Same pool) value' := by
  have hrel := h.rel_get? htype hfield
  rw [hget] at hrel
  cases hrel' : m.get? pool field with
  | none =>
    rw [hrel'] at hrel
    cases hrel
  | some value =>
    rw [hrel'] at hrel
    cases hrel with
    | some halike => exact ⟨value, rfl, halike⟩

end Same

end Message

end PlainSchema
