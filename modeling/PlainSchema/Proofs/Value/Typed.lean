import PlainSchema.Proofs.Value.WellTyped
import PlainSchema.Proofs.Value.Written

/-!
# Messages whose fields hold what they declare

A message is typed when every message in it, itself included, has a type in the pool and stores only
values that its fields can hold.  That is what a well-typed message is apart from its oneofs,
`Message.WellTyped.typed`, and it is all that a walk along a path needs: what stands on the way to a
field is a message of the type that the path leads to, `Message.Typed.typedAlong` and
`Message.Typed.exists_message_on`, and what is read at the end of a path is read from the field that the
path leads to, `Message.Typed.resolvePath_of_read?`.

A field that is written leaves a message typed exactly if the value is one that the field can hold,
`Message.Typed.set_iff`.
-/

namespace PlainSchema

open Proto

variable {pool : Pool} {type next : MessageType} {field leaf : Field} {m m' child : Message}
  {value : Value} {name : String} {rest path : List String}

/-- A singular field of messages holds a message. -/
theorem Pool.Fits.eq_message (h : pool.Fits field value) (hsingular : field.isSingular)
    (htype : pool.messageTypeOf? field = some type) : ∃ inner, value = .message inner := by
  have hlabel : field.label ≠ .repeated := bne_iff_ne.mp hsingular
  cases h with
  | list hlist =>
    rw [Pool.isList, Bool.and_eq_true, beq_iff_eq] at hlist
    exact absurd hlist.1 hlabel
  | map hentry => simp [Pool.entryFields?, hlabel] at hentry
  | single _ hfits =>
    have haccepts := hfits.accepts
    rw [Pool.messageTypeOf?] at htype
    split at htype
    · next child group hmessage =>
      rw [hmessage] at haccepts
      cases value with
      | message inner => exact ⟨inner, rfl⟩
      | _ => exact absurd haccepts Bool.false_ne_true
    · cases htype

namespace Message

/-- Every message in a message has a type, and its fields hold values that fit them. -/
def Typed (pool : Pool) (m : Message) : Prop :=
  ∀ inner : Message, inner.Within m → ∃ type, inner.type? pool = some type ∧
    ∀ field ∈ type.fields, ∀ value, inner.value? field.number = some value → pool.Fits field value

theorem WellTyped.typed (h : m.WellTyped pool) : m.Typed pool := by
  intro inner hinner
  obtain ⟨type, htype, hfits⟩ := h inner hinner
  exact ⟨type, htype, hfits.fields⟩

namespace Typed

theorem nested {number : Nat} (h : m.Typed pool) (hvalue : m.value? number = some value)
    (hholds : value.Holds child) : child.Typed pool :=
  fun _ hinner => h _ (hinner.trans (.step hvalue hholds .refl))

theorem fits (h : m.Typed pool) (htype : m.type? pool = some type) (hfield : field ∈ type.fields)
    (hvalue : m.value? field.number = some value) : pool.Fits field value := by
  obtain ⟨found, hfound, hfits⟩ := h m .refl
  obtain rfl := Option.some.inj (htype.symm.trans hfound)
  exact hfits field hfield value hvalue

/-- A message with nothing set is typed. -/
theorem new (htype : pool.message? name = some type) : Typed pool { type := name } := by
  intro inner hinner
  cases hinner with
  | refl => exact ⟨type, htype, fun _ _ _ hvalue => nomatch hvalue⟩
  | step hvalue => cases hvalue

/-- A message stored in a field is typed and of the type of the field. -/
theorem hop (h : m.Typed pool) (htype : m.type? pool = some type) (hfield : field ∈ type.fields)
    (hvalue : m.value? field.number = some (.message child)) :
    field.isSingular ∧ pool.messageTypeOf? field = child.type? pool ∧ child.Typed pool := by
  obtain ⟨hsingular, group, hgroup⟩ := (h.fits htype hfield hvalue).exists_message
  refine ⟨hsingular, ?_, h.nested hvalue .message⟩
  rw [Pool.messageTypeOf?, hgroup]
  rfl

/-! ## Along a path -/

/-- What stands along a path is of the types that the path leads to. -/
theorem typedAlong (hm : m.Typed pool) (htype : m.type? pool = some type) (path : List String) :
    TypedAlong pool type m path := by
  induction path generalizing m type with
  | nil => exact htype
  | cons name rest ih =>
    refine ⟨htype, fun child field next hstored hfield hnext => ?_⟩
    rw [stored?_eq htype hfield] at hstored
    obtain ⟨-, hchild, htyped⟩ := hm.hop htype (MessageType.field?_mem hfield).1 hstored
    exact ih htyped (hchild.symm.trans hnext)

/-- On the way to a field stand messages. -/
theorem exists_message_on (hm : m.Typed pool) (htype : m.type? pool = some type)
    (hresolve : pool.resolvePath type path = some leaf) {front : List String} {found : Value}
    (hfront : front <+: path) (hproper : front ≠ path) (hat : m.at? pool front = some found) :
    ∃ inner, found = .message inner := by
  induction front generalizing m type path with
  | nil => exact ⟨m, (Option.some.inj hat).symm⟩
  | cons name front ih =>
    obtain ⟨rest, rfl⟩ := hfront
    have hrest : front ++ rest ≠ [] := by
      intro hnil
      obtain ⟨rfl, rfl⟩ := List.append_eq_nil_iff.mp hnil
      exact hproper rfl
    obtain ⟨field, next, hfield, hsingular, hnext, hresolve⟩ := Pool.resolvePath_hop hrest hresolve
    have hmem := (MessageType.field?_mem hfield).1
    obtain ⟨stored, hstored⟩ := exists_stored hat
    have hvalue := (stored?_eq htype hfield).symm.trans hstored
    obtain ⟨child, rfl⟩ := (hm.fits htype hmem hvalue).eq_message hsingular hnext
    obtain ⟨-, hchild, htyped⟩ := hm.hop htype hmem hvalue
    rw [at?_hop hstored] at hat
    exact ih htyped (hchild.symm.trans hnext) hresolve (List.prefix_append _ _)
      (by simpa using hproper) hat

/-- In a typed message every write goes through that fits the field its path leads to. -/
theorem exists_writeIn? (hm : m.Typed pool) (htype : m.type? pool = some type)
    (hresolve : pool.resolvePath type path = some leaf) (haccepts : pool.accepts leaf value) :
    ∃ m', writeIn? pool value m path = some m' :=
  Message.exists_writeIn? (hm.typedAlong htype path) hresolve haccepts
    fun _ _ _ hfront hproper hat => hm.exists_message_on htype hresolve hfront hproper hat

/-- What is read at the end of a path is read from the field that the path leads to. -/
theorem resolvePath_of_read? (hm : m.Typed pool) (htype : m.type? pool = some type)
    (h : m.read? pool path = some (leaf, value)) : pool.resolvePath type path = some leaf := by
  induction path generalizing m type with
  | nil => exact absurd h (by simp [read?])
  | cons name rest ih =>
    by_cases hrest : rest = []
    · subst hrest
      obtain ⟨found, hfound, hfield, -⟩ := read?_singleton.mp h
      obtain rfl := Option.some.inj (htype.symm.trans hfound)
      exact hfield
    · obtain ⟨found, field, child, hfound, hfield, hchild, h⟩ := read?_hop hrest h
      obtain rfl := Option.some.inj (htype.symm.trans hfound)
      obtain ⟨hsingular, hnext, htyped⟩ := hm.hop htype (MessageType.field?_mem hfield).1
        (value?_of_get? hchild).2
      obtain ⟨next, hchildType, -⟩ := htyped child .refl
      rw [Pool.resolvePath_cons hrest, hfield, Option.bind_some, if_pos hsingular, hnext, hchildType]
      exact ih htyped hchildType h

/-! ## Writing a field -/

/-- A message with a field written is typed exactly if the value is one that the field can hold. -/
theorem set_iff (hlinked : type.Linked) (hm : m.Typed pool) (htype : m.type? pool = some type)
    (hfield : field ∈ type.fields) (hvalue : ∀ inner, value.Holds inner → inner.Typed pool) :
    (m.set type field value).Typed pool ↔ pool.Fits field value := by
  have hset : (m.set type field value).type? pool = some type := type?_set htype field value
  refine ⟨fun h => h.fits hset hfield (value?_set_self m type field value), fun hfits inner hinner => ?_⟩
  cases hinner with
  | refl =>
    refine ⟨type, hset, fun other hother found hfound => ?_⟩
    rcases value?_of_set hfound with ⟨hnumber, rfl⟩ | hbefore
    · rwa [← hlinked.eq_of_number hfield hother hnumber]
    · exact hm.fits htype hother hbefore
  | step hfound hholds h =>
    rcases value?_of_set hfound with ⟨-, rfl⟩ | hbefore
    · exact hvalue _ hholds inner h
    · exact hm.nested hbefore hholds inner h

end Typed

/-! ## One step of a write along a path -/

/-- A write along a path goes on in the message that its first name leads to, a new one if none is set
there. -/
structure WritesThrough (pool : Pool) (value : Value) (m m' : Message) (type : MessageType) (field : Field)
    (next : MessageType) (inner inner' : Message) (rest : List String) : Prop where
  singular : field.isSingular
  messageType : pool.messageTypeOf? field = some next
  typed : inner.Typed pool
  type? : inner.type? pool = some next
  before : m.value? field.number = some (.message inner) ∨
    (¬ m.has pool field ∧ inner = { type := next.fullName })
  write : writeIn? pool value inner rest = some inner'
  after : m' = m.set type field (.message inner')

/-- The message that is written into is one that the field of the step can hold. -/
theorem WritesThrough.fits {inner inner' : Message}
    (h : WritesThrough pool value m m' type field next inner inner' rest) :
    pool.Fits field (.message inner') := by
  obtain ⟨-, hfound, group, hgroup⟩ := Pool.exists_of_messageTypeOf? h.messageType
  have hname : inner'.type = next.fullName := by
    rw [type_writeIn? h.write]
    exact (Pool.message?_mem h.type?).2.symm
  refine .single h.singular ⟨?_, ?_⟩
  · rw [hgroup]
    rfl
  · rintro _ ⟨⟩
    rw [hgroup, hname]
    rfl

theorem Typed.exists_writesThrough (hm : m.Typed pool) (htype : m.type? pool = some type)
    (hrest : rest ≠ []) (hresolve : pool.resolvePath type (name :: rest) = some leaf)
    (hwrite : writeIn? pool value m (name :: rest) = some m') :
    ∃ field next inner inner', type.field? name = some field ∧
      pool.resolvePath next rest = some leaf ∧
      WritesThrough pool value m m' type field next inner inner' rest := by
  obtain ⟨field, next, hfield, hsingular, hnext, hresolve⟩ := Pool.resolvePath_hop hrest hresolve
  obtain ⟨found, written, child, group, inner, inner', hfound, hwritten, hmessage, hinner, hinside, rfl⟩ :=
    writeIn?_hop hrest hwrite
  obtain rfl := Option.some.inj (htype.symm.trans hfound)
  obtain rfl := Option.some.inj (hfield.symm.trans hwritten)
  have hname : pool.message? child = some next := by
    rw [← hnext, Pool.messageTypeOf?, hmessage]
  obtain ⟨-, hfull⟩ := Pool.message?_mem hname
  have hbefore : inner.Typed pool ∧ inner.type? pool = some next := by
    rcases hinner with hstored | ⟨-, rfl⟩
    · obtain ⟨-, hchild, htyped⟩ := hm.hop htype (MessageType.field?_mem hfield).1 hstored
      exact ⟨htyped, hchild.symm.trans hnext⟩
    · exact ⟨.new hname, hname⟩
  exact ⟨field, next, inner, inner', hfield, hresolve, hsingular, hnext, hbefore.1, hbefore.2,
    hinner.imp_right fun hnew => ⟨hnew.1, hfull ▸ hnew.2⟩, hinside, rfl⟩

end Message

end PlainSchema
