import PlainSchema.Proofs.Value.Typed
import PlainSchema.Value.InPlace

/-!
# Writes in place are all or nothing

The descent of a write changes the message before it knows its end: it creates what is missing and
clears the siblings of what it reaches into.  The look at the path and the value before it begins is
therefore only good for something if nothing can go wrong afterwards.

* **The look ahead.**  `Message.Settable` is what it asks for: the path leads to a field by the types
  alone, the field takes the value, and messages in the value are of the type of the field.
* **The descent.**  In a well-typed message, what stands on the way to a field is a message of the type
  that the path leads to.  So a write that gets past the look ahead goes through,
  `Typed.exists_writeIn?`, and the descent in place ends like it, `setIn_of_writeIn?`.

The main result, `writes_all_or_nothing`, says this of the four ways to write.
-/

namespace PlainSchema

open Proto

variable {pool : Pool} {type : MessageType} {field leaf : Field} {m m' : Message} {value : Value}
  {name : String} {path : List String}

/-! ## Setting a field twice -/

theorem insertNumber_insertNumber {α : Type} (number : Nat) (first second : α)
    (entries : List (Nat × α)) :
    insertNumber number second (insertNumber number first entries)
      = insertNumber number second entries := by
  induction entries with
  | nil => simp [insertNumber]
  | cons entry rest ih =>
    obtain ⟨n, v⟩ := entry
    by_cases hn : n = number
    · simp [insertNumber, hn]
    · by_cases hlt : number < n
      · simp [insertNumber, hn, hlt]
      · simp [insertNumber, hn, hlt, ih]

theorem mem_insertNumber {α : Type} {number : Nat} {value : α} {entries : List (Nat × α)}
    {entry : Nat × α} (h : entry ∈ insertNumber number value entries) :
    entry = (number, value) ∨ entry ∈ entries := by
  induction entries with
  | nil => simpa [insertNumber] using h
  | cons head rest ih =>
    rw [insertNumber] at h
    split at h
    · simp only [List.mem_cons] at h ⊢
      tauto
    · split at h
      · simpa using h
      · simp only [List.mem_cons] at h ⊢
        rcases h with h | h
        · exact Or.inr (Or.inl h)
        · exact (ih h).imp_right Or.inr

namespace Message

/-- The siblings of a field that was set are cleared already. -/
theorem clearSiblings_set (m : Message) (type : MessageType) (field : Field) (value : Value) :
    (m.set type field value).clearSiblings type field = m.set type field value := by
  rw [set, clearSiblings, clearSiblings]
  cases field.oneof with
  | none => rfl
  | some index =>
    -- Neither what survived the first clearing nor the new entry is a sibling.
    simp only [put, Message.mk.injEq, true_and, and_true, List.filter_eq_self]
    intro entry hentry
    rcases mem_insertNumber hentry with rfl | hkept
    · simp
    · exact (List.mem_filter.mp hkept).2

theorem set_set (m : Message) (type : MessageType) (field : Field) (first second : Value) :
    (m.set type field first).set type field second = m.set type field second := by
  conv_lhs => rw [set, clearSiblings_set]
  rw [set, set, put, put, insertNumber_insertNumber]
  rfl

/-! ## The descent -/

theorem fieldNamed?_eq (htype : m.type? pool = some type) (hfield : type.field? name = some field) :
    m.fieldNamed? pool name = some (type, field) := by
  simp [fieldNamed?, htype, hfield]

/-- A message that is missing is created, and one that is there is left as it is. -/
theorem ensureSet_eq {child : String} {group : Bool} (hmessage : field.type = .message child group) :
    m.ensureSet pool type field child
      = (true, if m.has pool field then m else m.set type field (.message { type := child })) := by
  have haccepts : pool.accepts field (.message { type := child }) := by
    change field.type.accepts _
    rw [hmessage]
    rfl
  rw [ensureSet, trySet, if_pos haccepts]
  split <;> rfl

/-- A descent that can be made is made in place, with the same outcome. -/
theorem setIn_of_writeIn? (h : writeIn? pool value m path = some m') :
    setIn pool value m path = (true, m') := by
  induction path generalizing m m' with
  | nil => cases h
  | cons name rest ih =>
    by_cases hrest : rest = []
    · subst hrest
      obtain ⟨type, field, htype, hfield, haccepts, rfl⟩ := writeIn?_singleton h
      rw [setIn, fieldNamed?_eq htype hfield]
      exact if_pos haccepts
    · obtain ⟨type, field, child, group, inner, inner', htype, hfield, hmessage, hinner, hwrite, rfl⟩ :=
        writeIn?_hop hrest h
      rw [setIn.eq_3 _ _ _ _ _ (by simpa using hrest), fieldNamed?_eq htype hfield]
      simp only [hmessage, ensureSet_eq hmessage]
      rcases hinner with hvalue | ⟨hhas, rfl⟩
      · rw [if_pos (has_of_message hvalue), hvalue]
        simp only [ih hwrite]
      · rw [if_neg hhas, value?_set_self]
        simp only [ih hwrite, set_set]

end Message

/-! ## The look ahead -/

/-- A value is a message or a list with it as an item. -/
def Value.Carries (value : Value) (inner : Message) : Prop :=
  value = .message inner ∨ ∃ items, value = .list items ∧ .message inner ∈ items

/-- A type that a form fits takes the values of the form. -/
theorem FieldType.accepts_of_form {form : Form} {type : FieldType} (hfits : form.fits type)
    (hholds : form.holds value) : type.accepts value := by
  cases form <;> cases value <;> try exact absurd hholds Bool.false_ne_true
  all_goals
    cases type with
    | scalar scalar => cases scalar <;> first | rfl | exact absurd hfits Bool.false_ne_true
    | enum name => first | rfl | exact absurd hfits Bool.false_ne_true
    | message child group => exact absurd hfits Bool.false_ne_true

/-- Only a field of messages takes a value with a message. -/
theorem Value.Carries.exists_message {inner : Message} (h : value.Carries inner)
    (haccepts : pool.accepts field value) : ∃ child group, field.type = .message child group := by
  have htype : field.type.accepts (.message inner) := by
    rcases h with rfl | ⟨items, rfl, hmem⟩
    · exact haccepts
    · rw [Pool.accepts, Bool.and_eq_true, List.all_eq_true] at haccepts
      exact haccepts.2 _ hmem
  cases hfield : field.type with
  | message child group => exact ⟨child, group, rfl⟩
  | enum name =>
    rw [hfield] at htype
    exact absurd htype Bool.false_ne_true
  | scalar scalar =>
    rw [hfield] at htype
    cases scalar <;> exact absurd htype Bool.false_ne_true

namespace Message

/-- The check of the types of messages looks at the messages that a value carries. -/
theorem sameType_iff (haccepts : pool.accepts field value) :
    sameType field value ↔ ∀ inner, value.Carries inner → field.type.typeName? = some inner.type := by
  constructor
  · intro hsame inner hcarries
    obtain ⟨child, group, hmessage⟩ := hcarries.exists_message haccepts
    rw [sameType, hmessage] at hsame
    rw [hmessage]
    rcases hcarries with rfl | ⟨items, rfl, hmem⟩
    · exact congrArg some (beq_iff_eq.mp hsame).symm
    · exact congrArg some (beq_iff_eq.mp (List.all_eq_true.mp hsame _ hmem)).symm
  · intro hnamed
    rw [sameType]
    cases hmessage : field.type with
    | scalar scalar => rfl
    | enum name => rfl
    | message child group =>
      have hsame : ∀ inner, value.Carries inner → (inner.type == child) = true := by
        intro inner hcarries
        have hname := hnamed inner hcarries
        rw [hmessage] at hname
        exact beq_iff_eq.mpr (Option.some.inj hname).symm
      cases value with
      | message inner => exact hsame inner (Or.inl rfl)
      | list items =>
        refine List.all_eq_true.mpr fun item hitem => ?_
        cases item with
        | message inner => exact hsame inner (Or.inr ⟨items, rfl, hitem⟩)
        | _ => rfl
      | _ => rfl

/-- A value can be set at the end of a path: the path leads to a field that takes it, and the messages
in it are of the type of the field. -/
structure Settable (pool : Pool) (m : Message) (path : List String) (value : Value) (field : Field) :
    Prop where
  resolves : m.resolve? pool path = some field
  accepts : pool.accepts field value
  types : ∀ inner, value.Carries inner → field.type.typeName? = some inner.type

/-- A value of a form can be set in every field of a type that the form fits. -/
theorem settable_of_form {form : Form} (hresolve : m.resolve? pool path = some field)
    (hfits : form.fits field.type) (hholds : form.holds value) :
    m.Settable pool path value field := by
  have hcarries : ∀ inner, ¬ value.Carries inner := by
    rintro inner (rfl | ⟨items, rfl, -⟩) <;> cases form <;> exact absurd hholds Bool.false_ne_true
  have haccepts := FieldType.accepts_of_form hfits hholds
  refine ⟨hresolve, ?_, fun inner h => absurd h (hcarries inner)⟩
  cases value with
  | list items => exact absurd haccepts (field.type.not_accepts_list _)
  | map entries => exact absurd haccepts (field.type.not_accepts_map _)
  | _ => exact haccepts

/-- A value that can be set is set, if the descent can be made. -/
theorem setValue_of_settable (h : m.Settable pool path value field)
    (hwrite : writeIn? pool value m path = some m') :
    m.setValue pool path value = (true, m') ∧ m.write? pool path value = some m' := by
  have hsame := (sameType_iff h.accepts).mpr h.types
  constructor
  · rw [setValue, h.resolves]
    simp only [h.accepts, hsame, Bool.and_self, if_true, setIn_of_writeIn? hwrite]
  · obtain ⟨type, htype, hresolve⟩ := Option.bind_eq_some_iff.mp h.resolves
    simp [write?, htype, hresolve, h.accepts, hsame, hwrite, guard]

theorem setValue_of_not_settable (h : ∀ field, ¬ m.Settable pool path value field) :
    m.setValue pool path value = (false, m) := by
  rw [setValue]
  split
  · next field hresolve =>
    refine if_neg fun hfits => h field ?_
    obtain ⟨haccepts, hsame⟩ := Bool.and_eq_true_iff.mp hfits
    exact ⟨hresolve, haccepts, (sameType_iff haccepts).mp hsame⟩
  · rfl

/-- A write in place ends like the write that gives a message back: with its message, or refused with the
message as it was. -/
theorem setValue_eq (hdescent : ∀ field, m.Settable pool path value field →
      ∃ m', writeIn? pool value m path = some m') :
    m.setValue pool path value
      = ((m.write? pool path value).isSome, (m.write? pool path value).getD m) := by
  by_cases hsettable : ∃ field, m.Settable pool path value field
  · obtain ⟨field, hsettable⟩ := hsettable
    obtain ⟨m', hwrite⟩ := hdescent field hsettable
    obtain ⟨hset, hwritten⟩ := setValue_of_settable hsettable hwrite
    rw [hset, hwritten]
    rfl
  · have hnone : m.write? pool path value = none := by
      by_contra hsome
      obtain ⟨m', hwrite⟩ := Option.ne_none_iff_exists'.mp hsome
      obtain ⟨type, field, htype, hresolve, haccepts, hsame, -⟩ := write?_eq_some hwrite
      refine hsettable ⟨field, ?_, haccepts, (sameType_iff haccepts).mp hsame⟩
      rw [resolve?, htype]
      exact hresolve
    rw [setValue_of_not_settable fun field h => hsettable ⟨field, h⟩, hnone]
    rfl

/-! ## All or nothing -/

/-- A write goes through exactly when a condition holds, and otherwise leaves the message as it was. -/
structure AllOrNothing (m : Message) (outcome : Bool × Message) (condition : Prop) : Prop where
  done_iff : outcome.1 = true ↔ condition
  unchanged : outcome.1 = false → outcome.2 = m

namespace AllOrNothing

variable {condition : Prop}

theorem refused (h : ¬ condition) : m.AllOrNothing (false, m) condition :=
  ⟨⟨nofun, fun hcondition => absurd hcondition h⟩, fun _ => rfl⟩

theorem congr {other : Prop} {outcome : Bool × Message} (h : m.AllOrNothing outcome condition)
    (hiff : condition ↔ other) : m.AllOrNothing outcome other :=
  ⟨h.done_iff.trans hiff, h.unchanged⟩

/-- A check of the field before a write adds its property to what has to hold. -/
theorem setWhere {p : Field → Bool} (h : m.AllOrNothing (m.setValue pool path value)
      (∃ field, m.Settable pool path value field)) :
    m.AllOrNothing (m.setWhere pool path p value)
      (∃ field, m.Settable pool path value field ∧ p field) := by
  rw [Message.setWhere]
  cases hresolve : m.resolve? pool path with
  | none =>
    refine .refused ?_
    rintro ⟨field, hsettable, -⟩
    exact absurd (hsettable.resolves.symm.trans hresolve) nofun
  | some field =>
    have hfield : ∀ found, m.Settable pool path value found → found = field :=
      fun found hfound => Option.some.inj (hfound.resolves.symm.trans hresolve)
    by_cases hp : p field
    · simp only [hp, if_true]
      refine h.congr ⟨?_, fun ⟨found, hfound, _⟩ => ⟨found, hfound⟩⟩
      rintro ⟨found, hfound⟩
      exact ⟨found, hfound, hfield found hfound ▸ hp⟩
    · simp only [hp, if_false, Bool.false_eq_true]
      refine .refused ?_
      rintro ⟨found, hfound, hfits⟩
      exact hp (hfield found hfound ▸ hfits)

end AllOrNothing

/-- A write into a well-typed message is all or nothing. -/
theorem WellTyped.allOrNothing (hm : m.WellTyped pool) (path : List String) (value : Value) :
    m.AllOrNothing (m.setValue pool path value) (∃ field, m.Settable pool path value field) := by
  by_cases hsettable : ∃ field, m.Settable pool path value field
  · obtain ⟨field, hsettable⟩ := hsettable
    obtain ⟨type, htype, hresolve⟩ := Option.bind_eq_some_iff.mp hsettable.resolves
    obtain ⟨m', hwrite⟩ := hm.typed.exists_writeIn? htype hresolve hsettable.accepts
    rw [(setValue_of_settable hsettable hwrite).1]
    exact ⟨⟨fun _ => ⟨field, hsettable⟩, fun _ => rfl⟩, nofun⟩
  · rw [setValue_of_not_settable fun field h => hsettable ⟨field, h⟩]
    exact .refused hsettable

end Message

/-- **Writes are all or nothing.**  A write into a well-typed message goes through exactly when its path
leads to a field that takes the value and the messages in the value are of the type of the field.  A
typed write asks in addition for a field that is singular, a list or a singular message, and for a type
that the form fits.  A write that does not go through leaves the message as it was. -/
theorem writes_all_or_nothing (hm : m.WellTyped pool) (path : List String) :
    (∀ value, m.AllOrNothing (m.setValue pool path value)
      (∃ field, m.Settable pool path value field)) ∧
    (∀ form value, m.AllOrNothing (m.setAs pool path form value)
      (∃ field, m.Settable pool path value field ∧ field.isSingular ∧ form.fits field.type)) ∧
    (∀ form items, m.AllOrNothing (m.setList pool path form items)
      (∃ field, m.Settable pool path (.list items) field ∧ pool.isList field ∧
        form.fits field.type)) ∧
    ∀ inner, m.AllOrNothing (m.setMessage pool path inner)
      (∃ field, m.Settable pool path (.message inner) field ∧ field.isSingular ∧
        ∃ child group, field.type = .message child group) := by
  refine ⟨hm.allOrNothing path, fun form value => ?_, fun form items => ?_, fun inner => ?_⟩
  · exact (hm.allOrNothing path value).setWhere.congr (by simp only [Bool.and_eq_true])
  · exact (hm.allOrNothing path (.list items)).setWhere.congr (by simp only [Bool.and_eq_true])
  · refine (hm.allOrNothing path (.message inner)).setWhere.congr (exists_congr fun field => ?_)
    refine and_congr_right fun hsettable => ?_
    rw [Bool.and_eq_true]
    refine and_congr_right fun _ => ?_
    -- That the type is the one of the message is part of what has to hold already.
    obtain hname := hsettable.types inner (Or.inl rfl)
    cases htype : field.type with
    | message child group =>
      rw [htype] at hname
      simp [← Option.some.inj hname]
    | _ => simp

/-! ## A booking -/

/-- A booking by a guest or by a customer. -/
def bookingFile : FileDecl :=
  { name := "booking.proto", package := "p"
    messages :=
      [{ name := "Customer", fields := [{ name := "name", number := 1, kind := .scalar .string }] },
        { name := "Booking", oneofs := [{ name := "buyer" }]
          fields :=
            [{ name := "guest", number := 1, kind := .scalar .string, oneofIndex := some 0 },
              { name := "customer", number := 2, kind := .message, typeRef := some ".p.Customer"
                oneofIndex := some 0 }] }] }

def bookingPool : Pool :=
  (Pool.load [bookingFile]).toOption.getD {}

/-- A booking by a guest. -/
def guestBooking : Message :=
  { type := "p.Booking", fields := [(1, .string "G")] }

/-- A name goes into the customer of a booking, and a number does not; the guest stays then. -/
theorem guest_stays_when_refused :
    guestBooking.WellTyped bookingPool ∧
      (guestBooking.setValue bookingPool ["customer", "name"] (.string "A")).1 = true ∧
      (guestBooking.setValue bookingPool ["customer", "name"] (.i32 7)).2 = guestBooking ∧
      (guestBooking.setAs bookingPool ["customer", "name"] .i32 (.i32 7)).2 = guestBooking := by
  have hm : guestBooking.WellTyped bookingPool := .of_texts (by decide +kernel) (by simp [guestBooking])
  obtain ⟨hvalue, hform, -⟩ := writes_all_or_nothing hm ["customer", "name"]
  refine ⟨hm, (hvalue _).done_iff.mpr ?_, (hvalue _).unchanged (by decide +kernel),
    (hform _ _).unchanged (by decide +kernel)⟩
  obtain ⟨field, hfield, htext⟩ : ∃ field ∈ guestBooking.resolve? bookingPool ["customer", "name"],
      field.type = .scalar .string := by decide +kernel
  exact ⟨field, Message.settable_of_form hfield (by rw [htext]; rfl : Form.string.fits field.type) rfl⟩

end PlainSchema
