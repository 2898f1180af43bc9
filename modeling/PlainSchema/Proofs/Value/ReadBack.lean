import PlainSchema.Proofs.Value.InPlace

/-!
# Reading what was written

A write goes down its path message by message, and so does a read.  As long as a read goes the way of the
write, it goes from the messages that were there before to the ones that are there after, and where none
was there it finds nothing in the one that was created: `Message.Typed.exists_descent`.  What remains is
to compare two messages one of which is the other with a field written.

* **At the end of the path** stands the value, if it counts as set, `Message.get?_set_self`.
* **Above the end** stand messages.
* **Beside the path** a read leaves the way of the write with another name.  If that is the name of another
  member of the oneof that the write reaches into, the member was cleared; everything else is as it was,
  `Message.get?_set_of_ne`.

The main result is `reads_after_write`.
-/

namespace PlainSchema

open Proto

variable {pool : Pool} {type next : MessageType} {field other leaf : Field}
  {m m' inner inner' child : Message} {value found : Value} {name left right : String}
  {rest path front : List String}

/-- A value counts as set in a field: the field records that it was set, or the value is not its
default. -/
def Pool.countsAsSet (pool : Pool) (field : Field) (value : Value) : Bool :=
  field.tracksPresence || !pool.isDefault field value

/-- Where a path first differs from another one, it names another member of the same oneof. -/
def Pool.PartsInOneof (pool : Pool) (type : MessageType) (q path : List String) : Prop :=
  ∃ front left right, PartAt front left right q path ∧
    ∃ next field other, pool.typeAt? type front = some next ∧ next.field? right = some field ∧
      next.field? left = some other ∧ field.Excludes other

/-- What is read after a value was written at the end of a path that leads to a field. -/
structure ReadsAfter (pool : Pool) (type : MessageType) (m m' : Message) (path : List String)
    (field : Field) (value : Value) : Prop where
  /-- At the end of the path the value is read, if it counts as set. -/
  written : m'.read? pool path = if pool.countsAsSet field value then some (field, value) else none
  /-- Above the end of the path messages are read. -/
  above : ∀ front, front ≠ [] → front <+: path → front ≠ path → ∃ hop inner,
    pool.resolvePath type front = some hop ∧ m'.read? pool front = some (hop, .message inner)
  /-- Of a oneof on the path no other member is left. -/
  cleared : ∀ q, pool.PartsInOneof type q path → m'.read? pool q = none
  /-- Everywhere else, what is read is what was read before. -/
  apart : ∀ q, Apart q path → ¬ pool.PartsInOneof type q path → m'.read? pool q = m.read? pool q

namespace Message

/-! ## One message -/

theorem get?_set_self (m : Message) (type : MessageType) (field : Field) (value : Value) :
    (m.set type field value).get? pool field
      = if pool.countsAsSet field value then some value else none := by
  rw [get?, has, value?_set_self]
  rfl

theorem get?_set_message (m : Message) (type : MessageType) (field : Field) (child : Message) :
    (m.set type field (.message child)).get? pool field = some (.message child) := by
  rw [get?_of_has (has_of_message (value?_set_self _ _ _ _)), value?_set_self]

/-- A write changes nothing in another field, unless the two exclude each other. -/
theorem get?_set_of_ne (hlinked : type.Linked) (hfield : field ∈ type.fields) (hother : other ∈ type.fields)
    (hne : other ≠ field) (hexcludes : ¬ field.Excludes other) (value : Value) :
    (m.set type field value).get? pool other = m.get? pool other := by
  refine get?_congr (value?_set_of_not_excludes hlinked hother (fun heq => hne ?_) hexcludes)
  exact (hlinked.eq_of_number hfield hother heq).symm

theorem get?_set_excluded (hother : other ∈ type.fields) (hexcludes : field.Excludes other)
    (value : Value) : (m.set type field value).get? pool other = none := by
  rw [get?, has, value?_set_excluded hother hexcludes]
  rfl

/-! ## One name of a path -/

/-- A read takes the first name of its path in the field of the name. -/
theorem read?_cons (htype : m.type? pool = some type) (hfield : type.field? name = some field)
    (hrest : rest ≠ []) : m.read? pool (name :: rest) =
      if field.isSingular then
        match m.get? pool field with
        | some (.message child) => child.read? pool rest
        | _ => none
      else none := by
  rw [read?.eq_3 _ _ _ _ (by simpa using hrest), htype]
  simp only [Option.bind_eq_bind, Option.bind_some, hfield, guard]
  split <;> rfl

/-- A read begins with the value of the field that its first name is of. -/
theorem read?_congr (htype : m.type? pool = some type) (htype' : m'.type? pool = some type)
    (h : ∀ field, type.field? name = some field → m'.get? pool field = m.get? pool field) :
    m'.read? pool (name :: rest) = m.read? pool (name :: rest) := by
  cases hfield : type.field? name with
  | none => cases rest <;> simp [read?, htype, htype', hfield]
  | some field =>
    by_cases hrest : rest = []
    · subst hrest
      simp [read?, htype, htype', hfield, h field hfield]
    · rw [read?_cons htype hfield hrest, read?_cons htype' hfield hrest, h field hfield]

theorem read?_eq_none (htype : m.type? pool = some type) (hfield : type.field? name = some field)
    (hget : m.get? pool field = none) : m.read? pool (name :: rest) = none := by
  by_cases hrest : rest = []
  · subst hrest
    simp [read?, htype, hfield, hget]
  · rw [read?_cons htype hfield hrest, hget]
    split <;> rfl

/-- In a new message nothing is read. -/
theorem read?_new (hrest : rest ≠ []) : read? pool { type := name } rest = none := by
  by_contra hsome
  obtain ⟨⟨leaf, value⟩, hread⟩ := Option.ne_none_iff_exists'.mp hsome
  have hat := at?_of_read? hread
  rw [at?_new hrest] at hat
  cases hat

/-! ## Down the path -/

/-- The messages behind a front, before and after a write that goes on from there.  A read that goes on
from the front goes on in them. -/
structure Descent (pool : Pool) (value : Value) (type : MessageType) (m m' : Message)
    (front below : List String) (next : MessageType) (inner inner' : Message) : Prop where
  typeAt? : pool.typeAt? type front = some next
  resolves : ∀ rest ≠ [], pool.resolvePath type (front ++ rest) = pool.resolvePath next rest
  typed : inner.Typed pool
  type? : inner.type? pool = some next
  write : writeIn? pool value inner below = some inner'
  before : ∀ rest ≠ [], m.read? pool (front ++ rest) = inner.read? pool rest
  after : ∀ rest ≠ [], m'.read? pool (front ++ rest) = inner'.read? pool rest

theorem Typed.exists_descent {below : List String} (hm : m.Typed pool)
    (htype : m.type? pool = some type) (hbelow : below ≠ [])
    (hresolve : pool.resolvePath type (front ++ below) = some leaf)
    (hwrite : writeIn? pool value m (front ++ below) = some m') :
    ∃ next inner inner', Descent pool value type m m' front below next inner inner' := by
  induction front generalizing m m' type with
  | nil => exact ⟨type, m, m', rfl, fun _ _ => rfl, hm, htype, hwrite, fun _ _ => rfl, fun _ _ => rfl⟩
  | cons name front ih =>
    have hmore : ∀ rest ≠ [], front ++ rest ≠ [] := fun rest hrest hnil =>
      hrest (List.append_eq_nil_iff.mp hnil).2
    obtain ⟨field, child, first, first', hfield, hresolve, hthrough⟩ :=
      hm.exists_writesThrough htype (hmore below hbelow) hresolve hwrite
    obtain ⟨next, inner, inner', hdescent⟩ := ih hthrough.typed hthrough.type? hresolve hthrough.write
    refine ⟨next, inner, inner', ?_, ?_, hdescent.typed, hdescent.type?, hdescent.write, ?_, ?_⟩
    · rw [Pool.typeAt?, hfield, Option.bind_eq_bind, Option.bind_some, hthrough.messageType]
      exact hdescent.typeAt?
    · intro rest hrest
      rw [List.cons_append, Pool.resolvePath_cons (hmore rest hrest), hfield, Option.bind_some,
        if_pos hthrough.singular, hthrough.messageType]
      exact hdescent.resolves rest hrest
    · intro rest hrest
      rw [List.cons_append, read?_cons htype hfield (hmore rest hrest), if_pos hthrough.singular]
      rw [← hdescent.before rest hrest]
      rcases hthrough.before with hstored | ⟨hhas, rfl⟩
      · rw [get?_of_has (has_of_message hstored), hstored]
      · -- Where no message was there, nothing is read in the one that was created.
        rw [get?, if_neg hhas, read?_new (hmore rest hrest)]
    · intro rest hrest
      rw [hthrough.after, List.cons_append, read?_cons (type?_set htype field _) hfield (hmore rest hrest),
        if_pos hthrough.singular, get?_set_message]
      exact hdescent.after rest hrest

namespace Descent

variable {below : List String} (h : Descent pool value type m m' front below next inner inner')

include h

/-- A write into the last message writes its field. -/
theorem exists_set (hresolve : pool.resolvePath type (front ++ [right]) = some leaf)
    (hbelow : below = [right]) : next.field? right = some leaf ∧ inner' = inner.set next leaf value := by
  have hfield : next.field? right = some leaf := (h.resolves [right] (by simp)).symm.trans hresolve
  have hwrite := h.write
  rw [hbelow] at hwrite
  obtain ⟨found, field, hfound, hright, -, rfl⟩ := writeIn?_singleton hwrite
  obtain rfl := Option.some.inj (h.type?.symm.trans hfound)
  obtain rfl := Option.some.inj (hfield.symm.trans hright)
  exact ⟨hfield, rfl⟩

/-- The message behind the front has one field written, whatever is below it. -/
theorem exists_written (hbelow : below = right :: rest) :
    ∃ field written, next.field? right = some field ∧ inner' = inner.set next field written := by
  have hwrite := h.write
  rw [hbelow] at hwrite
  by_cases hrest : rest = []
  · subst hrest
    obtain ⟨found, field, hfound, hfield, -, rfl⟩ := writeIn?_singleton hwrite
    obtain rfl := Option.some.inj (h.type?.symm.trans hfound)
    exact ⟨field, value, hfield, rfl⟩
  · obtain ⟨found, field, _, _, _, _, hfound, hfield, -, -, -, rfl⟩ := writeIn?_hop hrest hwrite
    obtain rfl := Option.some.inj (h.type?.symm.trans hfound)
    exact ⟨field, _, hfield, rfl⟩

end Descent

/-! ## Reading after a write -/

/-- A write that goes through is one that can be made, and its descent ends with its message. -/
theorem Typed.exists_of_setValue (hm : m.Typed pool) (htype : m.type? pool = some type)
    (h : m.setValue pool path value = (true, m')) : ∃ field, m.Settable pool path value field ∧
      pool.resolvePath type path = some field ∧ writeIn? pool value m path = some m' := by
  by_cases hsettable : ∃ field, m.Settable pool path value field
  · obtain ⟨field, hsettable⟩ := hsettable
    obtain ⟨found, hfound, hresolve⟩ := Option.bind_eq_some_iff.mp hsettable.resolves
    obtain rfl := Option.some.inj (htype.symm.trans hfound)
    obtain ⟨written, hwrite⟩ := hm.exists_writeIn? htype hresolve hsettable.accepts
    rw [(setValue_of_settable hsettable hwrite).1] at h
    obtain ⟨-, rfl⟩ := Prod.mk.inj h
    exact ⟨field, hsettable, hresolve, hwrite⟩
  · rw [setValue_of_not_settable fun field hfield => hsettable ⟨field, hfield⟩] at h
    cases h

variable (hm : m.Typed pool) (htype : m.type? pool = some type)
  (hresolve : pool.resolvePath type path = some leaf) (hwrite : writeIn? pool value m path = some m')

include hm htype hresolve hwrite

theorem read?_writeIn?_self : m'.read? pool path
    = if pool.countsAsSet leaf value then some (leaf, value) else none := by
  obtain rfl | ⟨front, right, rfl⟩ := path.eq_nil_or_concat'
  · cases hwrite
  obtain ⟨next, inner, inner', hdescent⟩ := hm.exists_descent htype (by simp) hresolve hwrite
  obtain ⟨hfield, rfl⟩ := hdescent.exists_set hresolve rfl
  have htype' := type?_set hdescent.type? leaf value
  rw [hdescent.after [right] (by simp)]
  simp only [read?, htype', hfield, get?_set_self, Option.bind_eq_bind, Option.bind_some]
  split <;> rfl

theorem exists_read?_above (hne : front ≠ []) (hfront : front <+: path) (hproper : front ≠ path) :
    ∃ hop inner, pool.resolvePath type front = some hop ∧
      m'.read? pool front = some (hop, .message inner) := by
  obtain ⟨rest, rfl⟩ := hfront
  have hrest : rest ≠ [] := by
    rintro rfl
    exact hproper (by simp)
  obtain rfl | ⟨front, right, rfl⟩ := front.eq_nil_or_concat'
  · exact absurd rfl hne
  rw [List.append_assoc, List.singleton_append] at hresolve hwrite
  obtain ⟨next, inner, inner', hdescent⟩ := hm.exists_descent htype (by simp) hresolve hwrite
  rw [hdescent.resolves _ (by simp)] at hresolve
  obtain ⟨field, _, _, child', hfield, -, hthrough⟩ :=
    hdescent.typed.exists_writesThrough hdescent.type? hrest hresolve hdescent.write
  refine ⟨field, child', (hdescent.resolves [right] (by simp)).trans hfield, ?_⟩
  rw [hdescent.after [right] (by simp), hthrough.after, read?_singleton]
  exact ⟨next, type?_set hdescent.type? field _, hfield, get?_set_message _ _ _ _⟩

theorem read?_writeIn?_cleared {q : List String} (hparts : pool.PartsInOneof type q path) :
    m'.read? pool q = none := by
  obtain ⟨front, left, right, ⟨⟨left', rfl⟩, ⟨below, rfl⟩, -⟩, next, field, other, hnext, hfield, hother,
    hexcludes⟩ := hparts
  rw [List.append_assoc, List.singleton_append] at hresolve hwrite ⊢
  obtain ⟨found, inner, inner', hdescent⟩ := hm.exists_descent htype (by simp) hresolve hwrite
  obtain rfl := Option.some.inj (hnext.symm.trans hdescent.typeAt?)
  obtain ⟨written, value, hwritten, rfl⟩ := hdescent.exists_written rfl
  obtain rfl := Option.some.inj (hfield.symm.trans hwritten)
  rw [hdescent.after _ (by simp)]
  exact read?_eq_none (type?_set hdescent.type? field value) hother
    (get?_set_excluded (MessageType.field?_mem hother).1 hexcludes value)

theorem read?_writeIn?_apart (hpool : pool.Linked) {q : List String} (hapart : Apart q path)
    (hparts : ¬ pool.PartsInOneof type q path) : m'.read? pool q = m.read? pool q := by
  obtain ⟨front, left, right, hpart⟩ := apart_iff.mp hapart
  obtain ⟨⟨left', rfl⟩, ⟨below, rfl⟩, hne⟩ := id hpart
  have hfree : ∀ next field other, pool.typeAt? type front = some next →
      next.field? right = some field → next.field? left = some other → ¬ field.Excludes other :=
    fun next field other hnext hfield hother hexcludes =>
      hparts ⟨front, left, right, hpart, next, field, other, hnext, hfield, hother, hexcludes⟩
  rw [List.append_assoc, List.singleton_append] at hresolve hwrite ⊢
  obtain ⟨next, inner, inner', hdescent⟩ := hm.exists_descent htype (by simp) hresolve hwrite
  obtain ⟨field, written, hfield, rfl⟩ := hdescent.exists_written rfl
  have hlinked : next.Linked := hpool next (Pool.message?_mem hdescent.type?).1
  rw [hdescent.after _ (by simp), hdescent.before _ (by simp)]
  refine read?_congr hdescent.type? (type?_set hdescent.type? field written) fun other hother => ?_
  obtain ⟨hmem, hname⟩ := MessageType.field?_mem hfield
  obtain ⟨hmem', hname'⟩ := MessageType.field?_mem hother
  refine get?_set_of_ne hlinked hmem hmem' ?_ (hfree next field other hdescent.typeAt? hfield hother) written
  rintro rfl
  exact hne (hname'.symm.trans hname)

/-- A read that goes on behind the written value goes on in the message that was written. -/
theorem resolvePath_of_read?_below (hsettable : m.Settable pool path value leaf)
    (hvalue : ∀ inner, value.Holds inner → inner.Typed pool) (hrest : rest ≠ [])
    (hread : m'.read? pool (path ++ rest) = some (field, found)) :
    pool.resolvePath type (path ++ rest) = some field := by
  obtain rfl | ⟨front, right, rfl⟩ := path.eq_nil_or_concat'
  · cases hwrite
  obtain ⟨next, inner, inner', hdescent⟩ := hm.exists_descent htype (by simp) hresolve hwrite
  obtain ⟨hfield, rfl⟩ := hdescent.exists_set hresolve rfl
  rw [List.append_assoc, List.singleton_append, hdescent.after _ (by simp),
    read?_cons (type?_set hdescent.type? leaf value) hfield hrest, get?_set_self] at hread
  rw [List.append_assoc, List.singleton_append, hdescent.resolves _ (by simp),
    Pool.resolvePath_cons hrest, hfield, Option.bind_some]
  split at hread
  · next hsingular =>
    rw [if_pos hsingular]
    split at hread
    · next child hget =>
      obtain rfl : value = .message child := by
        split at hget
        · exact Option.some.inj hget
        · cases hget
      have htyped := hvalue child .message
      obtain ⟨childType, hchild, -⟩ := htyped child .refl
      have hnext : pool.messageTypeOf? leaf = some childType := by
        have hcarries : (Value.message child).Carries child := Or.inl rfl
        obtain ⟨name, group, hmessage⟩ := hcarries.exists_message hsettable.accepts
        have hname := hsettable.types child hcarries
        rw [hmessage] at hname
        rw [Pool.messageTypeOf?, hmessage, show name = child.type from Option.some.inj hname]
        exact hchild
      rw [hnext]
      exact htyped.resolvePath_of_read? hchild hread
    · cases hread
  · cases hread

end Message

/-- **What is read after a write.**  In a typed message, where a write went through, the value is read at
the end of its path if it counts as set, messages are read above, the other members of a oneof on the path
are gone, and all else is read as before.  What is read, in any typed message and at any path, is read
from the field that the path leads to, and so it is after the write if the messages in the value are
typed. -/
theorem reads_after_write {files : List FileDecl} (hload : Pool.load files = .ok pool)
    (hm : m.Typed pool) (htype : m.type? pool = some type)
    (hwrite : m.setValue pool path value = (true, m')) :
    (∃ field, pool.resolvePath type path = some field ∧ ReadsAfter pool type m m' path field value) ∧
    (∀ q leaf found, m.read? pool q = some (leaf, found) → pool.resolvePath type q = some leaf) ∧
    ((∀ inner, value.Holds inner → inner.Typed pool) →
      ∀ q leaf found, m'.read? pool q = some (leaf, found) → pool.resolvePath type q = some leaf) := by
  have hpool := Pool.linked_of_load hload
  obtain ⟨field, hsettable, hresolve, hwrite⟩ := hm.exists_of_setValue htype hwrite
  have hreads : ReadsAfter pool type m m' path field value := {
    written := Message.read?_writeIn?_self hm htype hresolve hwrite
    above := fun _ hne hfront hproper =>
      Message.exists_read?_above hm htype hresolve hwrite hne hfront hproper
    cleared := fun _ hparts => Message.read?_writeIn?_cleared hm htype hresolve hwrite hparts
    apart := fun _ hapart hparts =>
      Message.read?_writeIn?_apart hm htype hresolve hwrite hpool hapart hparts }
  refine ⟨⟨field, hresolve, hreads⟩, fun _ _ _ hread => hm.resolvePath_of_read? htype hread, ?_⟩
  intro hvalue q leaf found hread
  have hself : q = path → pool.resolvePath type q = some leaf := by
    rintro rfl
    rw [hreads.written] at hread
    split at hread
    · obtain ⟨rfl, -⟩ := Prod.mk.inj (Option.some.inj hread)
      exact hresolve
    · cases hread
  rcases isPrefix_or_partAt q path with hprefix | ⟨rest, rfl⟩ | hparts
  · by_cases hsame : q = path
    · exact hself hsame
    · have hne : q ≠ [] := by
        rintro rfl
        exact absurd hread (by simp [Message.read?])
      obtain ⟨hop, inner, hhop, habove⟩ := hreads.above q hne hprefix hsame
      obtain ⟨rfl, -⟩ := Prod.mk.inj (Option.some.inj (habove.symm.trans hread))
      exact hhop
  · by_cases hrest : rest = []
    · exact hself (by rw [hrest, List.append_nil])
    · exact Message.resolvePath_of_read?_below hm htype hresolve hwrite hsettable hvalue hrest hread
  · by_cases hcleared : pool.PartsInOneof type q path
    · rw [hreads.cleared q hcleared] at hread
      cases hread
    · rw [hreads.apart q (apart_iff.mpr hparts) hcleared] at hread
      exact hm.resolvePath_of_read? htype hread

/-! ## A booking with a customer -/

theorem load_booking : Pool.load [bookingFile] = .ok bookingPool :=
  eq_ok_of_isOk (by decide +kernel) _

def bookingType : MessageType :=
  (bookingPool.message? "p.Booking").getD default

/-- The booking of a guest after a name was written into its customer. -/
def customerBooking : Message :=
  (guestBooking.setValue bookingPool ["customer", "name"] (.string "A")).2

/-- A name that is written into the customer of a booking is read there, and the guest is gone. -/
theorem name_of_customer_is_read :
    guestBooking.Typed bookingPool ∧
      guestBooking.setValue bookingPool ["customer", "name"] (.string "A") = (true, customerBooking) ∧
      (∃ field, customerBooking.read? bookingPool ["customer", "name"] = some (field, .string "A")) ∧
      (∃ hop inner, customerBooking.read? bookingPool ["customer"] = some (hop, .message inner)) ∧
      customerBooking.read? bookingPool ["guest"] = none := by
  have hm : guestBooking.Typed bookingPool :=
    (Message.WellTyped.of_texts (by decide +kernel) (by simp [guestBooking])).typed
  have htype : guestBooking.type? bookingPool = some bookingType := by
    have hsome : (bookingPool.message? "p.Booking").isSome := by decide +kernel
    obtain ⟨type, hfound⟩ := Option.isSome_iff_exists.mp hsome
    rw [bookingType, hfound]
    exact hfound
  have hdone : (guestBooking.setValue bookingPool ["customer", "name"] (.string "A")).1 = true := by
    decide +kernel
  have hwrite : guestBooking.setValue bookingPool ["customer", "name"] (.string "A")
      = (true, customerBooking) := Prod.ext hdone rfl
  obtain ⟨⟨field, hfield, hreads⟩, -, -⟩ := reads_after_write load_booking hm htype hwrite
  refine ⟨hm, hwrite, ⟨field, ?_⟩, ?_, ?_⟩
  · have hset : ∀ field ∈ bookingPool.resolvePath bookingType ["customer", "name"],
        bookingPool.countsAsSet field (.string "A") := by decide +kernel
    rw [hreads.written, if_pos (hset field hfield)]
  · obtain ⟨hop, inner, -, habove⟩ := hreads.above ["customer"] (by simp) (by decide) (by decide)
    exact ⟨hop, inner, habove⟩
  · obtain ⟨customer, hcustomer, guest, hguest, hexcludes⟩ :
        ∃ customer ∈ bookingType.field? "customer", ∃ guest ∈ bookingType.field? "guest",
          customer.Excludes guest := by decide +kernel
    exact hreads.cleared ["guest"] ⟨[], "guest", "customer", ⟨by simp, by simp, by decide⟩, bookingType,
      customer, guest, rfl, hcustomer, hguest, hexcludes⟩

end PlainSchema
