import PlainSchema.Proofs.Value.Paths

/-!
# The types of the messages along a path

A write creates the messages that are missing on its way, each of the type that the path leads to.
So the messages along a path keep their types as long as no write puts a value of its own in their
place, `TypedAlong.writeIn?`.
-/

namespace PlainSchema

variable {pool : Pool} {m m' : Message} {type : MessageType} {field : Field} {value : Value}
  {path : List String}

/-- The message type that a path leads to. -/
def Pool.typeAt? (pool : Pool) : MessageType → List String → Option MessageType
  | type, [] => some type
  | type, name :: rest => do
    let next ← pool.messageTypeOf? (← type.field? name)
    pool.typeAt? next rest

/-- A path goes on from the message of a singular field. -/
theorem Pool.resolvePath_cons {name : String} {rest : List String} (hrest : rest ≠ []) :
    pool.resolvePath type (name :: rest) = (type.field? name).bind fun field =>
      if field.isSingular then
        (pool.messageTypeOf? field).bind fun child => pool.resolvePath child rest
      else none := by
  obtain ⟨second, rest, rfl⟩ := List.exists_cons_of_ne_nil hrest
  change ((type.field? name).bind fun field => (guard field.isSingular : Option Unit).bind
    fun _ => (pool.messageTypeOf? field).bind fun child => pool.resolvePath child (second :: rest)) = _
  refine Option.bind_congr fun field _ => ?_
  rw [guard]
  split <;> rfl

/-- The messages that stand along a path are of the types that the path leads to. -/
def TypedAlong (pool : Pool) : MessageType → Message → List String → Prop
  | type, m, [] => m.type? pool = some type
  | type, m, name :: rest =>
    m.type? pool = some type ∧
      ∀ child field next, m.stored? pool name = some (.message child) →
        type.field? name = some field → pool.messageTypeOf? field = some next →
        TypedAlong pool next child rest

namespace TypedAlong

theorem type? (h : TypedAlong pool type m path) : m.type? pool = some type := by
  cases path with
  | nil => exact h
  | cons name rest => exact h.1

/-- Nothing stands along a path of a new message. -/
theorem new {name : String} (htype : pool.message? name = some type) (path : List String) :
    TypedAlong pool type { type := name } path := by
  cases path with
  | nil => exact htype
  | cons first rest =>
    refine ⟨htype, fun child field next hstored => ?_⟩
    obtain ⟨_, _, -, -, hvalue⟩ := Message.exists_of_stored? hstored
    simp [Message.value?] at hvalue

theorem type?_eq {front : List String} {inner : Message} {next : MessageType}
    (h : TypedAlong pool type m front) (hat : m.at? pool front = some (.message inner))
    (hnext : pool.typeAt? type front = some next) : inner.type? pool = some next := by
  induction front generalizing m type with
  | nil =>
    rw [Message.at?] at hat
    cases hat
    rw [Pool.typeAt?] at hnext
    exact Option.some.inj hnext ▸ h
  | cons name front ih =>
    obtain ⟨child, hstored, hat⟩ := Message.exists_child hat
    simp only [Pool.typeAt?, Option.bind_eq_bind, Option.bind_eq_some_iff] at hnext
    obtain ⟨field, hfield, found, hfound, hnext⟩ := hnext
    exact ih (h.2 child field found hstored hfield hfound) hat hnext

/-- What is stored under another name after a write was stored there before. -/
theorem stored?_of_set {name other : String} (hpool : pool.Linked)
    (htype : m.type? pool = some type) (hfield : type.field? name = some field)
    (hne : other ≠ name) {found : Value}
    (h : (m.set type field value).stored? pool other = some found) :
    m.stored? pool other = some found := by
  by_cases hexcludes : ∃ excluded, type.field? other = some excluded ∧ field.Excludes excluded
  · obtain ⟨excluded, hother, hexcludes⟩ := hexcludes
    rw [Message.stored?_eq (Message.type?_set htype field value) hother,
      Message.value?_set_excluded (MessageType.field?_mem hother).1 hexcludes] at h
    exact absurd h (by simp)
  · rw [← h]
    refine (Message.stored?_set_of_ne hpool htype hfield hne (fun excluded hother hex => ?_) _).symm
    exact hexcludes ⟨excluded, hother, hex⟩

theorem set (hpool : pool.Linked) (h : TypedAlong pool type m path) {name : String}
    (hfield : type.field? name = some field) (hfree : ¬ [name] <+: path) (value : Value) :
    TypedAlong pool type (m.set type field value) path := by
  cases path with
  | nil => exact Message.type?_set h field value
  | cons first rest =>
    obtain ⟨htype, hrest⟩ := h
    have hne : first ≠ name := fun heq => hfree (by simp [heq])
    refine ⟨Message.type?_set htype field value, fun child hop next hstored => ?_⟩
    exact hrest child hop next (stored?_of_set hpool htype hfield hne hstored)

/-- A write leaves the types along a path alone unless it puts its value there. -/
theorem writeIn? (hpool : pool.Linked) {written : List String} (h : TypedAlong pool type m path)
    (hfree : ¬ written <+: path) (hwrite : Message.writeIn? pool value m written = some m') :
    TypedAlong pool type m' path := by
  induction path generalizing m m' type written with
  | nil =>
    rw [TypedAlong, Message.type?, Message.type_writeIn? hwrite]
    exact h
  | cons first rest ih =>
    cases written with
    | nil => exact absurd List.nil_prefix hfree
    | cons name below =>
      by_cases hbelow : below = []
      · subst hbelow
        obtain ⟨found, field, hfound, hfield, -, rfl⟩ := Message.writeIn?_singleton hwrite
        obtain rfl := Option.some.inj (hfound.symm.trans h.type?)
        exact h.set hpool hfield hfree value
      · obtain ⟨found, field, typeName, group, inner, inner', hfound, hfield, hmessage, hinner,
          hinside, rfl⟩ := Message.writeIn?_hop hbelow hwrite
        obtain rfl := Option.some.inj (hfound.symm.trans h.type?)
        by_cases hname : first = name
        · subst hname
          refine ⟨Message.type?_set hfound field _, fun child hop next hstored hhop hnext => ?_⟩
          rw [Message.stored?_eq (Message.type?_set hfound field _) hfield,
            Message.value?_set_self] at hstored
          cases hstored
          obtain rfl := Option.some.inj (hfield.symm.trans hhop)
          have hfree' : ¬ below <+: rest := fun hprefix =>
            hfree (List.cons_prefix_cons.mpr ⟨rfl, hprefix⟩)
          refine ih ?_ hfree' hinside
          rcases hinner with hvalue | ⟨-, rfl⟩
          · refine h.2 inner field next ?_ hfield hnext
            rw [Message.stored?_eq hfound hfield, hvalue]
          · rw [Pool.messageTypeOf?, hmessage] at hnext
            exact new hnext rest
        · refine h.set hpool hfield (fun hprefix => hname ?_) _
          exact (List.cons_prefix_cons.mp hprefix).1.symm

end TypedAlong

/-! ## What a write brings in -/

theorem Message.at?_new {typeName : String} (hne : path ≠ []) :
    ({ type := typeName } : Message).at? pool path = none := by
  cases path with
  | nil => exact absurd rfl hne
  | cons first rest =>
    by_contra hsome
    obtain ⟨found, hfound⟩ := Option.ne_none_iff_exists'.mp hsome
    obtain ⟨stored, hstored⟩ := Message.exists_stored hfound
    obtain ⟨_, _, -, -, hvalue⟩ := Message.exists_of_stored? hstored
    simp [Message.value?] at hvalue

/-- A write puts nothing in a place that is apart from its path. -/
theorem Message.at?_of_writeIn? {p q : List String} {found : Value} (hpool : pool.Linked)
    (hapart : Apart p q) (hwrite : Message.writeIn? pool value m q = some m')
    (hat : m'.at? pool p = some found) : m.at? pool p = some found := by
  obtain ⟨front, left, right, hparts⟩ := apart_iff.mp hapart
  obtain ⟨⟨p, rfl⟩, ⟨q, rfl⟩, hne⟩ := hparts
  clear hapart
  -- The paths part behind `front`; in front of it both go through the same messages.
  induction front generalizing m m' with
  | nil =>
    simp only [List.nil_append, List.cons_append] at hat hwrite ⊢
    obtain ⟨stored, hstored⟩ := Message.exists_stored hat
    suffices hbefore : m.stored? pool left = some stored by
      rw [← hat]
      exact Message.at?_congr (hbefore.trans hstored.symm)
    by_cases hrest : q = []
    · subst hrest
      obtain ⟨type, field, htype, hfield, -, rfl⟩ := Message.writeIn?_singleton hwrite
      exact TypedAlong.stored?_of_set hpool htype hfield hne hstored
    · obtain ⟨type, field, _, _, _, inner', htype, hfield, -, -, -, rfl⟩ :=
        Message.writeIn?_hop hrest hwrite
      exact TypedAlong.stored?_of_set hpool htype hfield hne hstored
  | cons name front ih =>
    simp only [List.cons_append] at hat hwrite ⊢
    obtain ⟨child, hstored, hbelow⟩ := Message.exists_hop (by simp) hat
    obtain ⟨type, field, _, _, inner, inner', htype, hfield, -, hinner, hinside, rfl⟩ :=
      Message.writeIn?_hop (by simp) hwrite
    rw [Message.stored?_eq (Message.type?_set htype field _) hfield,
      Message.value?_set_self] at hstored
    obtain rfl : inner' = child := by simpa using hstored
    have hbefore : inner.at? pool (front ++ [left] ++ p) = some found := ih hbelow hinside
    rcases hinner with hvalue | ⟨-, rfl⟩
    · rw [Message.at?_hop ((Message.stored?_eq htype hfield).trans hvalue)]
      exact hbefore
    · -- A message that was created on the way held nothing.
      rw [Message.at?_new (by simp)] at hbefore
      exact absurd hbefore (by simp)

end PlainSchema
