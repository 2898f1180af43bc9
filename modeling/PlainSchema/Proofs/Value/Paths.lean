import PlainSchema.Proofs.Names.Paths
import PlainSchema.Proofs.Value.Fields
import PlainSchema.Value.Path

/-!
# Reading along paths after a write

`Message.at?` is the value that a message stores at the end of a path.  A write puts its value
there, `at?_writeIn?_self`, and leaves the value at the end of another path alone when neither path
goes on from the other, unless the two paths part between members of one oneof,
`at?_writeIn?_of_partAt`.
-/

namespace PlainSchema

namespace Message

variable {pool : Pool} {m m' child : Message} {type : MessageType} {field : Field} {value : Value}
  {name : String} {rest : List String}

/-- The value that is stored under a field name. -/
def stored? (pool : Pool) (m : Message) (name : String) : Option Value := do
  let field ← (← m.type? pool).field? name
  m.value? field.number

/-- The value that is stored at the end of a path, the message itself when the path is empty. -/
def at? (pool : Pool) : Message → List String → Option Value
  | m, [] => some (.message m)
  | m, name :: rest =>
    match m.stored? pool name with
    | some (.message child) => at? pool child rest
    | some value => if rest.isEmpty then some value else none
    | none => none

theorem stored?_eq (htype : m.type? pool = some type) (hfield : type.field? name = some field) :
    m.stored? pool name = m.value? field.number := by
  simp [stored?, htype, hfield]

theorem at?_singleton : m.at? pool [name] = m.stored? pool name := by
  rw [at?]
  cases hstored : m.stored? pool name with
  | none => rfl
  | some value => cases value <;> simp [at?]

theorem at?_hop (hstored : m.stored? pool name = some (.message child)) :
    m.at? pool (name :: rest) = child.at? pool rest := by
  rw [at?, hstored]

/-- A path with more than one name goes through a stored message. -/
theorem exists_hop (hrest : rest ≠ []) (h : m.at? pool (name :: rest) = some value) :
    ∃ child, m.stored? pool name = some (.message child) ∧ child.at? pool rest = some value := by
  rw [at?] at h
  split at h
  · next child hstored => exact ⟨child, hstored, h⟩
  · simp [hrest] at h
  · exact absurd h (by simp)

/-- A message at the end of a path is below the message stored under the first name. -/
theorem exists_child {inner : Message} (h : m.at? pool (name :: rest) = some (.message inner)) :
    ∃ child, m.stored? pool name = some (.message child) ∧
      child.at? pool rest = some (.message inner) := by
  cases rest with
  | nil =>
    rw [at?_singleton] at h
    exact ⟨inner, h, rfl⟩
  | cons next rest => exact exists_hop (by simp) h

theorem exists_stored (h : m.at? pool (name :: rest) = some value) :
    ∃ value, m.stored? pool name = some value := by
  rw [at?] at h
  split at h
  · next child hstored => exact ⟨_, hstored⟩
  · next found _ hstored => exact ⟨found, hstored⟩
  · exact absurd h (by simp)

theorem exists_of_stored? (h : m.stored? pool name = some value) :
    ∃ type field, m.type? pool = some type ∧ type.field? name = some field ∧
      m.value? field.number = some value := by
  simp only [stored?, Option.bind_eq_bind, Option.bind_eq_some_iff] at h
  obtain ⟨type, htype, field, hfield, hvalue⟩ := h
  exact ⟨type, field, htype, hfield, hvalue⟩

theorem at?_congr {m' : Message} (h : m'.stored? pool name = m.stored? pool name) :
    m'.at? pool (name :: rest) = m.at? pool (name :: rest) := by
  rw [at?, at?, h]

theorem at?_append {front : List String} (h : m.at? pool front = some (.message child)) :
    m.at? pool (front ++ rest) = child.at? pool rest := by
  induction front generalizing m with
  | nil => rw [at?] at h; cases h; rfl
  | cons name front ih =>
    cases front with
    | nil =>
      rw [at?_singleton] at h
      exact at?_hop h
    | cons next front =>
      obtain ⟨inner, hstored, h⟩ := exists_hop (by simp) h
      rw [List.cons_append, at?_hop hstored]
      exact ih h

/-- A path that goes on behind a front goes through a message at the end of the front. -/
theorem exists_at?_of_append {front : List String} (hrest : rest ≠ [])
    (h : m.at? pool (front ++ rest) = some value) :
    ∃ child, m.at? pool front = some (.message child) ∧ child.at? pool rest = some value := by
  induction front generalizing m with
  | nil => exact ⟨m, rfl, h⟩
  | cons name front ih =>
    obtain ⟨inner, hstored, h⟩ := exists_hop (by simp [hrest]) h
    obtain ⟨child, hchild, h⟩ := ih h
    exact ⟨child, (at?_hop hstored).trans hchild, h⟩

/-! ## Single writes -/

theorem writeIn?_singleton (h : writeIn? pool value m [name] = some m') :
    ∃ type field, m.type? pool = some type ∧ type.field? name = some field ∧
      pool.accepts field value ∧ m' = m.set type field value := by
  simp only [writeIn?, Option.bind_eq_bind, Option.bind_eq_some_iff, set?] at h
  obtain ⟨type, htype, field, hfield, h⟩ := h
  split at h
  · next haccepts => exact ⟨type, field, htype, hfield, haccepts, (Option.some.inj h).symm⟩
  · exact absurd h (by simp)

/-- A write through a hop goes on in the stored message, or in a new one. -/
theorem writeIn?_hop (hrest : rest ≠ []) (h : writeIn? pool value m (name :: rest) = some m') :
    ∃ type field typeName group inner inner', m.type? pool = some type ∧
      type.field? name = some field ∧ field.type = .message typeName group ∧
      (m.value? field.number = some (.message inner) ∨
        (¬ m.has pool field ∧ inner = { type := typeName })) ∧
      writeIn? pool value inner rest = some inner' ∧
      m' = m.set type field (.message inner') := by
  rw [writeIn?.eq_3 _ _ _ _ _ (by simpa using hrest)] at h
  simp only [Option.bind_eq_bind, Option.bind_eq_some_iff] at h
  obtain ⟨type, htype, field, hfield, h⟩ := h
  split at h
  · next typeName group hmessage =>
    have hwritten : ∀ inner, ((writeIn? pool value inner rest).bind fun inner' =>
        pure (m.set type field (.message inner'))) = some m' →
        ∃ inner', writeIn? pool value inner rest = some inner' ∧
          m' = m.set type field (.message inner') := by
      intro inner h
      obtain ⟨inner', hwrite, h⟩ := Option.bind_eq_some_iff.mp h
      exact ⟨inner', hwrite, (Option.some.inj h).symm⟩
    split at h
    · split at h
      · next found hvalue =>
        obtain ⟨inner', hwrite, hset⟩ := hwritten found h
        exact ⟨type, field, typeName, group, found, inner', htype, hfield, hmessage, Or.inl hvalue,
          hwrite, hset⟩
      · exact absurd h (by simp)
    · next hhas =>
      obtain ⟨inner', hwrite, hset⟩ := hwritten _ h
      exact ⟨type, field, typeName, group, _, inner', htype, hfield, hmessage, Or.inr ⟨hhas, rfl⟩,
        hwrite, hset⟩
  · exact absurd h (by simp)

theorem type_writeIn? {path : List String} (h : writeIn? pool value m path = some m') :
    m'.type = m.type := by
  cases path with
  | nil => simp [writeIn?] at h
  | cons name rest =>
    by_cases hrest : rest = []
    · subst hrest
      obtain ⟨type, field, -, -, -, rfl⟩ := writeIn?_singleton h
      simp
    · obtain ⟨type, field, -, -, -, -, -, -, -, -, -, rfl⟩ := writeIn?_hop hrest h
      simp

theorem type?_set (htype : m.type? pool = some type) (field : Field) (value : Value) :
    (m.set type field value).type? pool = some type := by
  rw [type?, type_set]
  exact htype

/-- A write puts its value at the end of its path. -/
theorem at?_writeIn?_self {path : List String} (h : writeIn? pool value m path = some m') :
    m'.at? pool path = some value := by
  induction path generalizing m m' with
  | nil => simp [writeIn?] at h
  | cons name rest ih =>
    by_cases hrest : rest = []
    · subst hrest
      obtain ⟨type, field, htype, hfield, -, rfl⟩ := writeIn?_singleton h
      rw [at?_singleton, stored?_eq (type?_set htype field value) hfield, value?_set_self]
    · obtain ⟨type, field, _, _, _, inner', htype, hfield, -, -, hwrite, rfl⟩ :=
        writeIn?_hop hrest h
      have hstored : (m.set type field (.message inner')).stored? pool name
          = some (.message inner') := by
        rw [stored?_eq (type?_set htype field _) hfield, value?_set_self]
      rw [at?_hop hstored]
      exact ih hwrite

/-! ## What a write leaves alone -/

/-- A write changes no value under another field name, unless the two fields exclude each other. -/
theorem stored?_set_of_ne {other : String} (hpool : pool.Linked) (htype : m.type? pool = some type)
    (hfield : type.field? name = some field) (hne : other ≠ name)
    (hfree : ∀ found, type.field? other = some found → ¬ field.Excludes found) (value : Value) :
    (m.set type field value).stored? pool other = m.stored? pool other := by
  have hlinked : type.Linked := hpool type (Pool.message?_mem htype).1
  have hset : (m.set type field value).type? pool = some type := type?_set htype field value
  cases hother : type.field? other with
  | none => simp [stored?, htype, hset, hother]
  | some found =>
    rw [stored?_eq htype hother, stored?_eq hset hother]
    obtain ⟨hmem, hname⟩ := MessageType.field?_mem hother
    obtain ⟨hmem', hname'⟩ := MessageType.field?_mem hfield
    refine value?_set_of_not_excludes hlinked hmem (fun heq => hne ?_) (hfree found hother)
    rw [← hname, ← hname', hlinked.eq_of_number hmem' hmem heq]

/-- A write leaves the value at the end of another path alone when the paths part, unless they part
between fields that exclude each other. -/
theorem at?_writeIn?_of_partAt {p q front : List String} {left right : String} {kept : Value}
    (hpool : pool.Linked) (hparts : PartAt front left right p q)
    (hat : m.at? pool p = some kept) (hwrite : writeIn? pool value m q = some m')
    (hfree : ∀ inner type found field, m.at? pool front = some (.message inner) →
      inner.type? pool = some type → type.field? left = some found →
      type.field? right = some field → ¬ field.Excludes found) :
    m'.at? pool p = some kept := by
  obtain ⟨⟨p, rfl⟩, ⟨q, rfl⟩, hne⟩ := hparts
  induction front generalizing m m' with
  | nil =>
    simp only [List.nil_append, List.cons_append] at hat hwrite ⊢
    suffices hstored : m'.stored? pool left = m.stored? pool left by
      rw [at?_congr hstored, hat]
    by_cases hrest : q = []
    · subst hrest
      obtain ⟨type, field, htype, hfield, -, rfl⟩ := writeIn?_singleton hwrite
      exact stored?_set_of_ne hpool htype hfield hne
        (fun found hfound => hfree m type found field rfl htype hfound hfield) value
    · obtain ⟨type, field, _, _, _, inner', htype, hfield, -, -, -, rfl⟩ := writeIn?_hop hrest hwrite
      exact stored?_set_of_ne hpool htype hfield hne
        (fun found hfound => hfree m type found field rfl htype hfound hfield) _
  | cons name front ih =>
    simp only [List.cons_append] at hat hwrite ⊢
    obtain ⟨child, hstored, hat⟩ := exists_hop (by simp) hat
    obtain ⟨type, field, _, _, inner, inner', htype, hfield, -, hinner, hinside, rfl⟩ :=
      writeIn?_hop (by simp) hwrite
    rw [stored?_eq htype hfield] at hstored
    have hchild : inner = child := by
      rcases hinner with hvalue | ⟨hhas, -⟩
      · rw [hvalue] at hstored
        cases hstored
        rfl
      · exact absurd (has_of_message hstored) hhas
    subst hchild
    have hstored' : (m.set type field (.message inner')).stored? pool name
        = some (.message inner') := by
      rw [stored?_eq (type?_set htype field _) hfield, value?_set_self]
    rw [at?_hop hstored']
    refine ih ?_ hat hinside
    have hfront : m.at? pool (name :: front) = inner.at? pool front :=
      at?_hop ((stored?_eq htype hfield).trans hstored)
    rwa [← hfront]

end Message

end PlainSchema
