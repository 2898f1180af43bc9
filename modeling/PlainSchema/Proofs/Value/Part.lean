import PlainSchema.Proofs.Value.Same
import PlainSchema.Proofs.Value.Written

/-!
# Messages that are put together

A message that is put together to hold the same as another one is part of it all along,
`Message.Part`: what counts as set in it counts as set in the other one too, and a message stands where
the other one has a message.  Nothing is said about the other values, which may still be missing or
wrong.

```text
a new message                  Part.new
a message with a write         Part.writeIn?, at a path that is read in the other one
what stands in another place   Part.at?_writeIn?, left as it is
```
-/

namespace PlainSchema

open Proto

variable {pool : Pool} {type : MessageType} {field leaf : Field} {m m' child child' out : Message}
  {value value' found : Value} {name : String} {path : List String}

/-- Two values that may stand in the same place: messages that are related, or no messages. -/
inductive Value.Part (r : Message → Message → Prop) : Value → Value → Prop
  | message {m m' : Message} (h : r m m') : Part r (.message m) (.message m')
  | other {v v' : Value} (hv : ∀ m, v ≠ .message m) (hv' : ∀ m, v' ≠ .message m) : Part r v v'

theorem Value.Part.of_message {r : Message → Message → Prop}
    (h : Part r (.message m) (.message m')) : r m m' := by
  cases h with
  | message hpart => exact hpart
  | other hv => exact absurd rfl (hv m)

/-- Alike values may stand in the same place, if the messages in them may. -/
theorem Value.Part.of_alike {r s : Message → Message → Prop} (h : value.Alike r value')
    (hmessage : ∀ m m', value' = .message m' → m = m' ∨ r m m' → s m m') : value.Part s value' := by
  cases h with
  | refl =>
    cases value with
    | message m => exact .message (hmessage m m rfl (Or.inl rfl))
    | _ => exact .other (fun _ => nofun) (fun _ => nofun)
  | message hrelated => exact .message (hmessage _ _ rfl (Or.inr hrelated))
  | list => exact .other (fun _ => nofun) (fun _ => nofun)
  | map => exact .other (fun _ => nofun) (fun _ => nofun)

/-- A message is part of another one of its type: it holds nothing where the other one holds nothing,
and parts of the messages in the other one. -/
inductive Message.Part (pool : Pool) : Message → Message → Prop
  | intro {m m' : Message} {type : MessageType} (htype : m'.type? pool = some type)
      (hname : m.type = m'.type) (hunknown : m.unknown = [])
      (hothers : ∀ number, (∀ field ∈ type.fields, field.number ≠ number) → m.value? number = none)
      (hhas : ∀ field ∈ type.fields, m.has pool field → m'.has pool field)
      (hvalues : ∀ field ∈ type.fields, ∀ value value', m.get? pool field = some value →
        m'.get? pool field = some value' → Value.Part (Part pool) value value') : Part pool m m'

namespace Message

/-- A message holds nothing that its type does not name. -/
structure Declared (pool : Pool) (m : Message) : Prop where
  unknown : m.unknown = []
  others : ∀ type, m.type? pool = some type → ∀ number,
    (∀ field ∈ type.fields, field.number ≠ number) → m.value? number = none

/-- No message in a message, itself included, has unknown fields. -/
def Known (pool : Pool) (m : Message) : Prop :=
  ∀ inner : Message, inner.Within m → inner.Declared pool

/-- A message with values of its fields alone holds nothing else. -/
theorem Declared.of_fields (hunknown : m.unknown = [])
    (hfields : ∀ type ∈ m.type? pool, ∀ entry ∈ m.fields, ∃ field ∈ type.fields,
      field.number = entry.1) : m.Declared pool := by
  refine ⟨hunknown, fun type htype number hother => ?_⟩
  cases hvalue : m.value? number with
  | none => rfl
  | some value =>
    obtain ⟨field, hfield, hnumber⟩ := hfields type htype _ (mem_of_lookup hvalue)
    exact absurd hnumber (hother field hfield)

theorem Known.within {inner : Message} (h : m.Known pool) (hinner : inner.Within m) :
    inner.Known pool :=
  fun _ hdeep => h _ (hdeep.trans hinner)

/-- A message holds the same as itself. -/
theorem Same.refl (htype : m.type? pool = some type) : m.Same pool m := by
  refine .intro htype rfl rfl ?_ fun _ _ => rfl
  intro field _
  cases m.get? pool field with
  | none => exact .none
  | some value => exact .some .refl

/-- A message at the end of a path is nested in the message that the path starts in. -/
theorem within_of_at? (h : m.at? pool path = some (.message child)) : child.Within m := by
  induction path generalizing m with
  | nil =>
    obtain rfl := Value.message.inj (Option.some.inj h)
    exact .refl
  | cons name rest ih =>
    obtain ⟨next, hstored, h⟩ := exists_child h
    obtain ⟨_, _, -, -, hvalue⟩ := exists_of_stored? hstored
    exact .trans (ih h) (.step hvalue .message .refl)

/-! ## Parts -/

namespace Part

theorem type_eq (h : m.Part pool m') : m.type = m'.type := by
  cases h with
  | intro _ hname => exact hname

theorem type?_eq (h : m.Part pool m') : m.type? pool = m'.type? pool :=
  congrArg pool.message? h.type_eq

section Fields

variable (h : m.Part pool m') (htype : m'.type? pool = some type) (hfield : field ∈ type.fields)

include h

theorem unknown_eq_nil : m.unknown = [] := by
  cases h with
  | intro _ _ hunknown => exact hunknown

include htype

theorem value?_eq_none {number : Nat} (hnumber : ∀ field ∈ type.fields, field.number ≠ number) :
    m.value? number = none := by
  cases h with
  | intro hfound _ _ hothers =>
    obtain rfl := Option.some.inj (htype.symm.trans hfound)
    exact hothers number hnumber

include hfield

theorem has_of_has (hhas : m.has pool field) : m'.has pool field := by
  cases h with
  | intro hfound _ _ _ hset =>
    obtain rfl := Option.some.inj (htype.symm.trans hfound)
    exact hset field hfield hhas

theorem of_get? (hget : m.get? pool field = some value) (hget' : m'.get? pool field = some value') :
    value.Part (Part pool) value' := by
  cases h with
  | intro hfound _ _ _ _ hvalues =>
    obtain rfl := Option.some.inj (htype.symm.trans hfound)
    exact hvalues field hfield value value' hget hget'

/-- What is not set in the whole message is not set in a part of it. -/
theorem get?_eq_none_of (hget : m'.get? pool field = none) : m.get? pool field = none := by
  apply get?_eq_none
  intro hhas
  have hset := h.has_of_has htype hfield hhas
  rw [has_eq_isSome_get?, hget] at hset
  exact absurd hset Bool.false_ne_true

end Fields

/-- A message that holds the same is part of the other one, if that holds nothing unknown. -/
theorem of_same (h : m.Same pool m') (hm : m'.WellTyped pool) (hknown : m'.Known pool) :
    m.Part pool m' := by
  -- By induction on how deep the whole message is: the messages in it are less deep.
  induction hdepth : m'.depth using Nat.strong_induction_on generalizing m m' with
  | _ depth ih =>
    obtain ⟨hunknown, hothers⟩ := hknown m' .refl
    cases h with
    | intro htype hname hunknown' hfields hothers' =>
      refine .intro htype hname (hunknown'.trans hunknown) ?_ ?_ ?_
      · intro number hnumber
        rw [hothers' number hnumber]
        exact hothers _ htype number hnumber
      · intro field hfield hhas
        have hrel := hfields field hfield
        rw [has_eq_isSome_get?] at hhas ⊢
        generalize m.get? pool field = found at hrel hhas
        generalize m'.get? pool field = found' at hrel ⊢
        cases hrel with
        | some => rfl
        | none => exact absurd hhas Bool.false_ne_true
      · intro field hfield value value' hget hget'
        have hrel := hfields field hfield
        rw [hget, hget'] at hrel
        have hstored := (value?_of_get? hget').2
        cases hrel with
        | some halike =>
          refine .of_alike halike ?_
          rintro inner whole rfl hor
          have hwhole := hm.nested hstored .message
          have hless : whole.depth < depth := by
            rw [← hdepth]
            exact depth_lt_of_holds hstored .message
          refine ih whole.depth hless ?_ hwhole (hknown.within (.step hstored .message .refl)) rfl
          rcases hor with rfl | hsame
          · obtain ⟨wholeType, hwholeType, -⟩ := hwhole _ .refl
            exact .refl hwholeType
          · exact hsame

/-- A value that is like a value in a message may stand in its place. -/
theorem of_alike (h : value.Alike (Same pool) value')
    (hwell : ∀ m, value' = .message m → m.WellTyped pool ∧ m.Known pool) :
    value.Part (Part pool) value' := by
  refine .of_alike h ?_
  rintro inner whole hwhole hor
  obtain ⟨hm, hknown⟩ := hwell whole hwhole
  refine of_same ?_ hm hknown
  rcases hor with rfl | hsame
  · obtain ⟨type, htype, -⟩ := hm _ .refl
    exact .refl htype
  · exact hsame

/-- A part holds the same if it holds the same in every field. -/
theorem same (h : m.Part pool m') (hdeclared : m'.Declared pool) (htype : m'.type? pool = some type)
    (hfields : ∀ field ∈ type.fields,
      Option.Rel (Value.Alike (Same pool)) (m.get? pool field) (m'.get? pool field)) :
    m.Same pool m' := by
  refine .intro htype h.type_eq (h.unknown_eq_nil.trans hdeclared.unknown.symm) hfields ?_
  intro number hnumber
  rw [h.value?_eq_none htype hnumber, hdeclared.others type htype number hnumber]

/-- A new message is part of every message of its type. -/
theorem new (htype : m'.type? pool = some type) : Part pool { type := m'.type } m' := by
  refine .intro htype rfl rfl (fun _ _ => rfl) (fun _ _ hhas => ?_) fun _ _ _ _ hget => ?_
  · exact absurd hhas Bool.false_ne_true
  · have hstored := (value?_of_get? hget).2
    cases hstored

/-- A part with a field written that is set in the whole message. -/
theorem set (hlinked : type.Linked) (h : m.Part pool m') (htype : m'.type? pool = some type)
    (hfield : field ∈ type.fields) (hget : m'.get? pool field = some value')
    (hvalue : value.Part (Part pool) value') : (m.set type field value).Part pool m' := by
  -- What is stored after the write was written, or was stored before.
  have hstored : ∀ other ∈ type.fields, ∀ found,
      (m.set type field value).value? other.number = some found →
        (other = field ∧ value = found) ∨ m.value? other.number = some found := by
    intro other hother found hfound
    rcases value?_of_set hfound with ⟨hnumber, heq⟩ | hbefore
    · exact Or.inl ⟨hlinked.eq_of_number hother hfield hnumber.symm, heq⟩
    · exact Or.inr hbefore
  refine .intro htype ?_ ?_ ?_ ?_ ?_
  · rw [type_set]
    exact h.type_eq
  · rw [unknown_set]
    exact h.unknown_eq_nil
  · intro number hnumber
    by_contra hsome
    obtain ⟨found, hfound⟩ := Option.ne_none_iff_exists'.mp hsome
    rcases value?_of_set hfound with ⟨heq, -⟩ | hbefore
    · exact hnumber field hfield heq
    · rw [h.value?_eq_none htype hnumber] at hbefore
      cases hbefore
  · intro other hother hhas
    obtain ⟨found, hfound⟩ := Option.isSome_iff_exists.mp (by
      rw [has_eq_isSome_get?] at hhas
      exact hhas)
    rcases hstored other hother found (value?_of_get? hfound).2 with ⟨rfl, -⟩ | hbefore
    · exact (value?_of_get? hget).1
    · refine h.has_of_has htype hother ?_
      rw [has_congr (hbefore.trans (value?_of_get? hfound).2.symm)]
      exact hhas
  · intro other hother found found' hfound hfound'
    rcases hstored other hother found (value?_of_get? hfound).2 with ⟨rfl, rfl⟩ | hbefore
    · obtain rfl := Option.some.inj (hget.symm.trans hfound')
      exact hvalue
    · refine h.of_get? htype hother ?_ hfound'
      rw [get?_congr (hbefore.trans (value?_of_get? hfound).2.symm)]
      exact hfound

/-- A part with a value written along a path that is read in the whole message. -/
theorem writeIn? (hpool : pool.Linked) (h : m.Part pool m') (hm : m'.WellTyped pool)
    (hread : m'.read? pool path = some (leaf, found)) (hvalue : value.Part (Part pool) found)
    (hwrite : Message.writeIn? pool value m path = some out) : out.Part pool m' := by
  induction path generalizing m m' out with
  | nil => cases hwrite
  | cons name rest ih =>
    obtain ⟨type, htype, -⟩ := hm m' .refl
    have hlinked : type.Linked := hpool type (Pool.message?_mem htype).1
    by_cases hrest : rest = []
    · subst hrest
      obtain ⟨_, hread, hleaf, hget⟩ := read?_singleton.mp hread
      obtain rfl := Option.some.inj (htype.symm.trans hread)
      obtain ⟨_, field, hwritten, hfield, -, rfl⟩ := writeIn?_singleton hwrite
      obtain rfl := Option.some.inj (htype.symm.trans (h.type?_eq.symm.trans hwritten))
      obtain rfl := Option.some.inj (hleaf.symm.trans hfield)
      exact h.set hlinked htype (MessageType.field?_mem hfield).1 hget hvalue
    · obtain ⟨_, hop, whole, hfound, hhop, hget, hread⟩ := read?_hop hrest hread
      obtain rfl := Option.some.inj (htype.symm.trans hfound)
      obtain ⟨_, field, typeName, group, inner, inner', hwritten, hfield, hmessage, hinner, hinside,
        rfl⟩ := writeIn?_hop hrest hwrite
      obtain rfl := Option.some.inj (htype.symm.trans (h.type?_eq.symm.trans hwritten))
      obtain rfl := Option.some.inj (hhop.symm.trans hfield)
      have hmem := (MessageType.field?_mem hfield).1
      have hstored := (value?_of_get? hget).2
      have hwhole := hm.nested hstored .message
      have hpart : inner.Part pool whole := by
        rcases hinner with hstored' | ⟨-, rfl⟩
        · have hget' : m.get? pool hop = some (.message inner) := by
            rw [get?_of_has (has_of_message hstored'), hstored']
          exact (h.of_get? htype hmem hget' hget).of_message
        · -- A message that is created on the way has the type of the one it is part of.
          obtain ⟨wholeType, hwholeType, -⟩ := hwhole whole .refl
          obtain ⟨-, group', hgroup⟩ := ((hm.fitsType htype).fields hop hmem _ hstored).exists_message
          obtain ⟨rfl, -⟩ := FieldType.message.inj (hmessage.symm.trans hgroup)
          exact .new hwholeType
      exact h.set hlinked htype hmem hget (.message (ih hpart hwhole hread hinside))

/-- The messages at the end of one path are part of one another. -/
theorem of_at? (h : m.Part pool m') (hat : m.at? pool path = some (.message child))
    (hat' : m'.at? pool path = some (.message child')) : child.Part pool child' := by
  induction path generalizing m m' with
  | nil =>
    obtain rfl := Value.message.inj (Option.some.inj hat)
    obtain rfl := Value.message.inj (Option.some.inj hat')
    exact h
  | cons name rest ih =>
    obtain ⟨next, hstored, hat⟩ := exists_child hat
    obtain ⟨next', hstored', hat'⟩ := exists_child hat'
    obtain ⟨type, field, htype, hfield, hvalue⟩ := exists_of_stored? hstored
    rw [stored?_eq (h.type?_eq.symm.trans htype) hfield] at hstored'
    have hget : m.get? pool field = some (.message next) := by
      rw [get?_of_has (has_of_message hvalue), hvalue]
    have hget' : m'.get? pool field = some (.message next') := by
      rw [get?_of_has (has_of_message hstored'), hstored']
    have hnext := h.of_get? (h.type?_eq.symm.trans htype) (MessageType.field?_mem hfield).1 hget hget'
    exact ih hnext.of_message hat hat'

/-- A write leaves the value in a place that is apart from its path as it is, if the whole message
holds a value in either place: then no two members of a oneof stand where the paths part. -/
theorem at?_writeIn? (hpool : pool.Linked) {p q : List String} (h : m.Part pool m')
    (hm : m'.WellTyped pool) (hapart : Apart p q) (hp : (m'.at? pool p).isSome)
    (hq : (m'.at? pool q).isSome) (hwrite : Message.writeIn? pool value m q = some out)
    (hat : m.at? pool p = some found) : out.at? pool p = some found := by
  obtain ⟨front, left, right, hparts⟩ := apart_iff.mp hapart
  refine at?_writeIn?_of_partAt hpool hparts hat hwrite ?_
  intro inner type hleft hright hinner htype hfield hother hexcludes
  obtain ⟨hfront, hfront', -⟩ := hparts
  -- Both members would be set in the whole message.
  have hsome := isSome_at?_of_prefix hfront hp
  have hsome' := isSome_at?_of_prefix hfront' hq
  obtain ⟨_, hat⟩ := Option.isSome_iff_exists.mp hsome
  obtain ⟨whole, hwhole, -⟩ := exists_at?_of_append (by simp) hat
  have hwholeType : whole.type? pool = some type := (h.of_at? hinner hwhole).type?_eq.symm.trans htype
  rw [at?_append hwhole, at?_singleton, stored?_eq hwholeType hfield] at hsome
  rw [at?_append hwhole, at?_singleton, stored?_eq hwholeType hother] at hsome'
  have hnone := ((hm.within (within_of_at? hwhole)).fitsType hwholeType).oneofs hright
    (MessageType.field?_mem hother).1 hleft (MessageType.field?_mem hfield).1 hexcludes hsome'
  rw [hnone] at hsome
  exact absurd hsome Bool.false_ne_true

end Part

/-- The default of a field that is set in a message may stand there, if the field holds single values. -/
theorem Part.defaultOf (hm : m.WellTyped pool) (htype : m.type? pool = some type)
    (hfield : field ∈ type.fields) (hpresence : field.tracksPresence)
    (hget : m.get? pool field = some value) :
    (pool.defaultOf field.type).Part (Part pool) value := by
  have hstored := (value?_of_get? hget).2
  have hfits := hm.fitsType htype
  have hsingular := hfits.singular field hfield hpresence (by rw [hstored]; rfl)
  have hsingle := (hfits.fields field hfield value hstored).of_isSingular hsingular
  have hnone : (∀ child, pool.defaultOf field.type ≠ .message child) →
      (∀ child, value ≠ .message child) →
      (pool.defaultOf field.type).Part (Part pool) value := .other
  have hkind : (∀ group, field.type ≠ .message (field.type.typeName?.getD "") group) →
      ∀ child, value ≠ .message child := by
    rintro hkind child rfl
    obtain ⟨group, hgroup⟩ := hsingle.exists_message
    rw [hgroup] at hkind
    exact hkind group rfl
  cases htypeOf : field.type with
  | message name group =>
    have haccepts := hsingle.accepts
    rw [htypeOf] at haccepts
    cases value with
    | message child =>
      have hchild := hsingle.named child rfl
      rw [htypeOf] at hchild
      obtain rfl := Option.some.inj hchild
      obtain ⟨childType, hchildType, -⟩ := hm.nested hstored .message child .refl
      exact .message (.new hchildType)
    | _ => exact absurd haccepts Bool.false_ne_true
  | scalar scalar =>
    rw [htypeOf] at hnone hkind
    refine hnone (fun _ => ?_) (hkind fun _ => nofun)
    cases scalar <;> nofun
  | enum name =>
    rw [htypeOf] at hnone hkind
    exact hnone (fun _ => nofun) (hkind fun _ => nofun)

/-! ## Alike values -/

/-- What is read at the end of a path in one message stands there in another one, in a value that is
like it. -/
def AlikeAt (pool : Pool) (m m' : Message) (path : List String) : Prop :=
  ∃ value leaf found, m.at? pool path = some value ∧ m'.read? pool path = some (leaf, found) ∧
    value.Alike (Same pool) found

/-- What was written along a path is there. -/
theorem AlikeAt.of_writeIn? (hread : m'.read? pool path = some (leaf, found))
    (halike : value.Alike (Same pool) found)
    (hwrite : Message.writeIn? pool value m path = some out) : AlikeAt pool out m' path :=
  ⟨value, leaf, found, at?_writeIn?_self hwrite, hread, halike⟩

/-- What is alike stays alike when something is written in another place. -/
theorem AlikeAt.writeIn? (hpool : pool.Linked) {p q : List String} (h : AlikeAt pool m m' p)
    (hpart : m.Part pool m') (hm : m'.WellTyped pool) (hapart : Apart p q)
    (hq : (m'.at? pool q).isSome) (hwrite : Message.writeIn? pool value m q = some out) :
    AlikeAt pool out m' p := by
  obtain ⟨kept, leaf, whole, hat, hread, halike⟩ := h
  refine ⟨kept, leaf, whole, ?_, hread, halike⟩
  exact hpart.at?_writeIn? hpool hm hapart (by rw [at?_of_read? hread]; rfl) hq hwrite hat

/-- Where a value is like one of a field, or stands below the field, the field is set. -/
theorem AlikeAt.has {rest : List String} (h : AlikeAt pool m m' (name :: rest))
    (htype : m.type? pool = some type) (htype' : m'.type? pool = some type)
    (hfield : type.field? name = some field) : m.has pool field := by
  obtain ⟨kept, leaf, whole, hat, hread, halike⟩ := h
  by_cases hrest : rest = []
  · subst hrest
    obtain ⟨_, hread, hleaf, hget⟩ := read?_singleton.mp hread
    obtain rfl := Option.some.inj (htype'.symm.trans hread)
    obtain rfl := Option.some.inj (hfield.symm.trans hleaf)
    rw [at?_singleton, stored?_eq htype hfield] at hat
    rw [has_eq_isSome_get?, get?_of_alike hget hat halike]
    rfl
  · obtain ⟨child, hstored, -⟩ := exists_hop hrest hat
    rw [stored?_eq htype hfield] at hstored
    exact has_of_message hstored

/-- A field holds the same where a value is like the one that is read. -/
theorem AlikeAt.rel_get? (h : AlikeAt pool m m' [name]) (htype : m.type? pool = some type)
    (htype' : m'.type? pool = some type) (hfield : type.field? name = some field) :
    Option.Rel (Value.Alike (Same pool)) (m.get? pool field) (m'.get? pool field) := by
  obtain ⟨kept, leaf, whole, hat, hread, halike⟩ := h
  obtain ⟨_, hread, hleaf, hget⟩ := read?_singleton.mp hread
  obtain rfl := Option.some.inj (htype'.symm.trans hread)
  obtain rfl := Option.some.inj (hfield.symm.trans hleaf)
  rw [at?_singleton, stored?_eq htype hfield] at hat
  rw [hget, get?_of_alike hget hat halike]
  exact .some halike

/-- What is read below the message at the end of a path is read in that message. -/
theorem read?_append (hm : m.WellTyped pool) {rest : List String} (hrest : rest ≠ [])
    (hat : m.at? pool path = some (.message child)) :
    m.read? pool (path ++ rest) = child.read? pool rest := by
  induction path generalizing m with
  | nil =>
    obtain rfl := Value.message.inj (Option.some.inj hat)
    rfl
  | cons name front ih =>
    obtain ⟨next, hstored, hat⟩ := exists_child hat
    obtain ⟨type, field, htype, hfield, hvalue⟩ := exists_of_stored? hstored
    obtain ⟨hsingular, -, hnext⟩ := hm.hop htype (MessageType.field?_mem hfield).1 hvalue
    have hget : m.get? pool field = some (.message next) := by
      rw [get?_of_has (has_of_message hvalue), hvalue]
    rw [List.cons_append, read?.eq_3 _ _ _ _ (by simpa using fun _ => hrest), htype,
      Option.bind_eq_bind, Option.bind_some, hfield, Option.bind_eq_bind, Option.bind_some]
    simp only [hsingular, guard_true, hget]
    exact ih hnext hat

/-- What can be read from a message can be read from one that holds the same. -/
theorem Same.isSome_read? (h : m.Same pool m') (hread : (m'.read? pool path).isSome) :
    (m.read? pool path).isSome := by
  induction path generalizing m m' with
  | nil => exact absurd hread (by simp [read?])
  | cons name rest ih =>
    obtain ⟨⟨leaf, value⟩, hfound⟩ := Option.isSome_iff_exists.mp hread
    have htype : m.type? pool = m'.type? pool := by rw [type?, h.type_eq, type?]
    by_cases hrest : rest = []
    · subst hrest
      obtain ⟨type, htype', hfield, hget⟩ := read?_singleton.mp hfound
      obtain ⟨value', hget', -⟩ := h.exists_get? htype' (MessageType.field?_mem hfield).1 hget
      rw [read?_singleton.mpr ⟨type, htype.trans htype', hfield, hget'⟩]
      rfl
    · obtain ⟨type, field, child, htype', hfield, hget, hbelow⟩ := read?_hop hrest hfound
      obtain ⟨value', hget', halike⟩ := h.exists_get? htype' (MessageType.field?_mem hfield).1 hget
      rw [read?.eq_3 _ _ _ _ (by simpa using hrest), htype', Option.bind_eq_bind, Option.bind_some,
        hfield, Option.bind_eq_bind, Option.bind_some] at hfound
      rw [read?.eq_3 _ _ _ _ (by simpa using hrest), htype, htype', Option.bind_eq_bind,
        Option.bind_some, hfield, Option.bind_eq_bind, Option.bind_some]
      obtain ⟨_, hguard, -⟩ := Option.bind_eq_some_iff.mp hfound
      rw [hguard]
      rcases halike.exists_message with rfl | ⟨inner, rfl, hsame⟩
      · simp [hget', hbelow]
      · simpa [hget'] using ih hsame (by rw [hbelow]; rfl)

/-- Alike values at the end of a path are so in the messages that the path goes through. -/
theorem AlikeAt.of_append {front rest : List String} (h : AlikeAt pool m m' (front ++ rest))
    (hm : m'.WellTyped pool) (hrest : rest ≠ []) (hat : m.at? pool front = some (.message child))
    (hat' : m'.at? pool front = some (.message child')) : AlikeAt pool child child' rest := by
  obtain ⟨kept, leaf, whole, hkept, hread, halike⟩ := h
  rw [at?_append hat] at hkept
  rw [read?_append hm hrest hat'] at hread
  exact ⟨kept, leaf, whole, hkept, hread, halike⟩

/-- A write of a field is one along the path of its name. -/
theorem writeIn?_field (htype : m.type? pool = some type) (hfield : type.field? name = some field)
    (haccepts : pool.accepts field value) :
    Message.writeIn? pool value m [name] = some (m.set type field value) := by
  rw [Message.writeIn?, htype, Option.bind_eq_bind, Option.bind_some, hfield, Option.bind_eq_bind,
    Option.bind_some, set?, if_pos haccepts]

end Message

end PlainSchema
