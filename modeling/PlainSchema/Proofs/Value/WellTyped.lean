import Mathlib.Data.Option.Basic
import PlainSchema.Convert.Basic
import PlainSchema.Proofs.Value.Hops

/-!
# Well-typed messages

A message is well typed when every message in it, itself included, has a type in the pool, stores
only values that its fields can hold, and at most one member of every oneof.  A path that can be read
then leads to a field of the type, `Pool.resolvePath_of_read?`, and no message that is read holds two
members of one oneof, `Message.WellTyped.not_both`.
-/

namespace PlainSchema

open Proto

variable {pool : Pool} {type : MessageType} {field leaf other : Field} {m child : Message}
  {value : Value}

/-! ## Values that fit -/

/-- A single value is one of a type, a message one of the very type that is named. -/
structure FieldType.Fits (type : FieldType) (value : Value) : Prop where
  accepts : type.accepts value
  named : ∀ m, value = .message m → type.typeName? = some m.type

/-- A value is one that a field can hold. -/
inductive Pool.Fits (pool : Pool) (field : Field) : Value → Prop
  | list {items : List Value} (hlist : pool.isList field)
      (hitems : ∀ item ∈ items, field.type.Fits item) : Fits pool field (.list items)
  | map {entries : List (MapKey × Value)} {key val : Field}
      (hentry : pool.entryFields? field = some (key, val))
      (hentries : ∀ entry ∈ entries, key.type.accepts entry.1.toValue ∧ val.type.Fits entry.2) :
      Fits pool field (.map entries)
  | single {value : Value} (hsingular : field.isSingular) (hfits : field.type.Fits value) :
      Fits pool field value

theorem FieldType.not_accepts_list (type : FieldType) (items : List Value) :
    ¬ type.accepts (.list items) := by
  cases type with
  | scalar scalar => cases scalar <;> exact Bool.false_ne_true
  | message name group => exact Bool.false_ne_true
  | enum name => exact Bool.false_ne_true

theorem FieldType.not_accepts_map (type : FieldType) (entries : List (MapKey × Value)) :
    ¬ type.accepts (.map entries) := by
  cases type with
  | scalar scalar => cases scalar <;> exact Bool.false_ne_true
  | message name group => exact Bool.false_ne_true
  | enum name => exact Bool.false_ne_true

/-- A single value of a field's type fits the field. -/
theorem Pool.accepts_of_type {pool : Pool} {field : Field} {value : Value}
    (h : field.type.accepts value) : pool.accepts field value := by
  cases value with
  | list items => exact absurd h (FieldType.not_accepts_list _ _)
  | map entries => exact absurd h (FieldType.not_accepts_map _ _)
  | _ => exact h

/-- Only a type of messages fits a message. -/
theorem FieldType.Fits.exists_message {type : FieldType} (h : type.Fits (.message m)) :
    ∃ group, type = .message m.type group := by
  have hname := h.named m rfl
  cases type with
  | scalar scalar => exact absurd hname (by simp [FieldType.typeName?])
  | enum name => exact absurd h.accepts Bool.false_ne_true
  | message name group =>
    obtain rfl : name = m.type := by simpa [FieldType.typeName?] using hname
    exact ⟨group, rfl⟩

theorem entryFields?_of_isSingular {pool : Pool} {field : Field} (h : field.isSingular) :
    pool.entryFields? field = none := by
  have hlabel : ¬ field.label = .repeated := by simpa [Field.isSingular] using h
  rw [Pool.entryFields?]
  unfold guard
  rw [if_neg hlabel]
  rfl

namespace Pool.Fits

/-- A singular field takes a single value of its type. -/
theorem of_isSingular (h : pool.Fits field value) (hsingular : field.isSingular) :
    field.type.Fits value := by
  cases h with
  | list hlist =>
    rw [Pool.isList, Bool.and_eq_true, beq_iff_eq] at hlist
    rw [Field.isSingular, hlist.1] at hsingular
    exact absurd hsingular (by decide)
  | map hentry =>
    rw [entryFields?_of_isSingular hsingular] at hentry
    cases hentry
  | single _ hfits => exact hfits

theorem accepts (h : pool.Fits field value) : pool.accepts field value := by
  cases h with
  | list hlist hitems =>
    rw [Pool.accepts, hlist, Bool.true_and, List.all_eq_true]
    exact fun item hitem => (hitems item hitem).accepts
  | map hentry hentries =>
    rw [Pool.accepts, hentry]
    simp only [List.all_eq_true, Bool.and_eq_true]
    exact fun entry hmem => ⟨(hentries entry hmem).1, (hentries entry hmem).2.accepts⟩
  | single hsingular hfits =>
    have haccepts := hfits.accepts
    cases value with
    | list items => exact absurd haccepts (FieldType.not_accepts_list _ _)
    | map entries => exact absurd haccepts (FieldType.not_accepts_map _ _)
    | _ => exact haccepts

theorem sameType (h : pool.Fits field value) : Message.sameType field value := by
  rw [Message.sameType]
  cases htype : field.type with
  | scalar scalar => rfl
  | enum name => rfl
  | message name group =>
    have hnamed : ∀ {m : Message}, field.type.Fits (.message m) → (m.type == name) = true := by
      intro m hfits
      have hname := hfits.named m rfl
      rw [htype] at hname
      simpa using (Option.some.inj hname).symm
    cases h with
    | list hlist hitems =>
      refine List.all_eq_true.mpr fun item hitem => ?_
      cases item with
      | message m => exact hnamed (hitems _ hitem)
      | _ => rfl
    | map hentry hentries => rfl
    | single hsingular hfits =>
      cases value with
      | list items => exact absurd hfits.accepts (FieldType.not_accepts_list _ _)
      | message m => exact hnamed hfits
      | _ => rfl

/-- A message fits only a singular field of its type. -/
theorem exists_message (h : pool.Fits field (.message m)) :
    field.isSingular ∧ ∃ group, field.type = .message m.type group := by
  cases h with
  | single hsingular hfits => exact ⟨hsingular, hfits.exists_message⟩

end Pool.Fits

/-! ## Checking values -/

/-- Whether a message is of the very type that is named. -/
def Value.isOf (type : FieldType) : Value → Bool
  | .message m => type.typeName? == some m.type
  | _ => true

/-- The items of a list. -/
def Value.items? : Value → Option (List Value)
  | .list items => some items
  | _ => none

/-- The entries of a map. -/
def Value.entries? : Value → Option (List (MapKey × Value))
  | .map entries => some entries
  | _ => none

theorem Value.eq_list_of_items? {items : List Value} (h : items ∈ value.items?) :
    value = .list items := by
  cases value with
  | list found => exact congrArg Value.list (Option.some.inj h)
  | _ => exact absurd h nofun

theorem Value.eq_map_of_entries? {entries : List (MapKey × Value)} (h : entries ∈ value.entries?) :
    value = .map entries := by
  cases value with
  | map found => exact congrArg Value.map (Option.some.inj h)
  | _ => exact absurd h nofun

theorem FieldType.fits_iff {type : FieldType} :
    type.Fits value ↔ type.accepts value ∧ value.isOf type := by
  constructor
  · rintro ⟨haccepts, hnamed⟩
    refine ⟨haccepts, ?_⟩
    cases value with
    | message m => exact beq_iff_eq.mpr (hnamed m rfl)
    | _ => rfl
  · rintro ⟨haccepts, hof⟩
    refine ⟨haccepts, ?_⟩
    rintro m rfl
    exact beq_iff_eq.mp hof

instance (type : FieldType) (value : Value) : Decidable (type.Fits value) :=
  decidable_of_iff _ FieldType.fits_iff.symm

theorem Pool.fits_iff :
    pool.Fits field value ↔ (field.isSingular ∧ field.type.Fits value) ∨
      (∃ items ∈ value.items?, pool.isList field ∧ ∀ item ∈ items, field.type.Fits item) ∨
      ∃ entries ∈ value.entries?, ∃ entry ∈ pool.entryFields? field,
        ∀ e ∈ entries, entry.1.type.accepts e.1.toValue ∧ entry.2.type.Fits e.2 := by
  constructor
  · intro h
    cases h with
    | list hlist hitems => exact Or.inr (Or.inl ⟨_, rfl, hlist, hitems⟩)
    | map hentry hentries => exact Or.inr (Or.inr ⟨_, rfl, _, hentry, hentries⟩)
    | single hsingular hfits => exact Or.inl ⟨hsingular, hfits⟩
  · rintro (⟨hsingular, hfits⟩ | ⟨items, hvalue, hlist, hitems⟩ | ⟨entries, hvalue, entry, hentry,
      hentries⟩)
    · exact .single hsingular hfits
    · obtain rfl := Value.eq_list_of_items? hvalue
      exact .list hlist hitems
    · obtain rfl := Value.eq_map_of_entries? hvalue
      exact .map hentry hentries

instance (pool : Pool) (field : Field) (value : Value) : Decidable (pool.Fits field value) :=
  decidable_of_iff _ Pool.fits_iff.symm

/-! ## Messages inside messages -/

/-- A value is a message, or has it as an item or as the value of an entry. -/
inductive Value.Holds : Value → Message → Prop
  | message {m : Message} : Holds (.message m) m
  | item {items : List Value} {m : Message} (h : .message m ∈ items) : Holds (.list items) m
  | entry {entries : List (MapKey × Value)} {key : MapKey} {m : Message}
      (h : (key, .message m) ∈ entries) : Holds (.map entries) m

/-- A message is another one or nested in it. -/
inductive Message.Within : Message → Message → Prop
  | refl {m : Message} : Within m m
  | step {inner child m : Message} {number : Nat} {value : Value}
      (hvalue : m.value? number = some value) (hholds : value.Holds child)
      (h : Within inner child) : Within inner m

theorem Message.Within.trans {inner middle outer : Message} (h : inner.Within middle)
    (h' : middle.Within outer) : inner.Within outer := by
  induction h' with
  | refl => exact h
  | step hvalue hholds _ ih => exact .step hvalue hholds ih

/-- Messages that hold none but each other have none but each other inside. -/
theorem Message.Within.mem_of_closed {inner m : Message} {parts : List Message} (h : inner.Within m)
    (hparts : ∀ part ∈ parts, ∀ entry ∈ part.fields, ∀ child, entry.2.Holds child → child ∈ parts)
    (hm : m ∈ parts) : inner ∈ parts := by
  induction h with
  | refl => exact hm
  | step hvalue hholds _ ih => exact ih (hparts _ hm _ (mem_of_lookup hvalue) _ hholds)

theorem Value.depth_le_of_holds (h : value.Holds m) : m.depth ≤ value.depth := by
  cases h with
  | message => exact Nat.le_refl _
  | @item items m hmem =>
    change m.depth ≤ Value.listDepth items
    induction items with
    | nil => simp at hmem
    | cons item items ih =>
      rw [Value.listDepth]
      rcases List.mem_cons.mp hmem with rfl | hmem
      · exact Nat.le_max_left _ _
      · have := ih hmem
        omega
  | @entry entries key m hmem =>
    change m.depth ≤ Value.mapDepth entries
    induction entries with
    | nil => simp at hmem
    | cons entry entries ih =>
      rw [Value.mapDepth]
      rcases List.mem_cons.mp hmem with rfl | hmem
      · exact Nat.le_max_left _ _
      · have := ih hmem
        omega

theorem Message.depth_lt_of_value? {number : Nat} (h : m.value? number = some value) :
    value.depth < m.depth := by
  obtain ⟨type, fields, unknown⟩ := m
  have hfields : fields.lookup number = some value := h
  rw [Message.depth]
  suffices hle : value.depth ≤ Message.fieldsDepth fields by omega
  clear h
  induction fields with
  | nil => simp at hfields
  | cons field fields ih =>
    rw [Message.fieldsDepth]
    rw [List.lookup_cons] at hfields
    split at hfields
    · obtain rfl := Option.some.inj hfields
      exact Nat.le_max_left _ _
    · have := ih hfields
      omega

/-- A message that is nested in another one is less deep. -/
theorem Message.depth_lt_of_holds {number : Nat} (hvalue : m.value? number = some value)
    (hholds : value.Holds child) : child.depth < m.depth := by
  have hvalue := Message.depth_lt_of_value? hvalue
  have hholds := Value.depth_le_of_holds hholds
  omega

/-! ## Well-typed messages -/

/-- The fields of a message hold values that fit, those that record that they were set single ones, and
its oneofs one member each. -/
structure Message.FitsType (pool : Pool) (type : MessageType) (m : Message) : Prop where
  fields : ∀ field ∈ type.fields, ∀ value, m.value? field.number = some value → pool.Fits field value
  singular : ∀ field ∈ type.fields, field.tracksPresence → (m.value? field.number).isSome →
    field.isSingular
  oneofs : ∀ field ∈ type.fields, ∀ other ∈ type.fields, field.Excludes other →
    (m.value? field.number).isSome → m.value? other.number = none

/-- The default of a type is one of its values. -/
theorem accepts_defaultOf (pool : Pool) (field : Field) :
    pool.accepts field (pool.defaultOf field.type) := by
  cases htype : field.type with
  | scalar scalar =>
    have haccepts : field.type.accepts scalar.default := by
      rw [htype]
      cases scalar <;> rfl
    cases scalar <;> exact haccepts
  | message name group =>
    change field.type.accepts (.message { type := name }) = true
    rw [htype]
    rfl
  | enum name =>
    change field.type.accepts (.enum _) = true
    rw [htype]
    rfl

instance (pool : Pool) (type : MessageType) (m : Message) : Decidable (m.FitsType pool type) :=
  decidable_of_iff
    ((∀ field ∈ type.fields, ∀ value ∈ m.value? field.number, pool.Fits field value) ∧
      (∀ field ∈ type.fields, field.tracksPresence → (m.value? field.number).isSome →
        field.isSingular) ∧
      ∀ field ∈ type.fields, ∀ other ∈ type.fields, field.Excludes other →
        (m.value? field.number).isSome → (m.value? other.number).isNone)
    ⟨fun ⟨hfields, hsingular, honeofs⟩ => ⟨hfields, hsingular, fun field hfield other hother hexcludes
        hsome => Option.isNone_iff_eq_none.mp (honeofs field hfield other hother hexcludes hsome)⟩,
      fun h => ⟨h.fields, h.singular, fun field hfield other hother hexcludes hsome =>
        Option.isNone_iff_eq_none.mpr (h.oneofs field hfield other hother hexcludes hsome)⟩⟩

namespace Message.FitsType

/-- What is read from a field is a value of the field, if it is a single one of some type. -/
theorem accepts_get (h : m.FitsType pool type) (hfield : field ∈ type.fields) {single : FieldType}
    (hsingle : single.accepts (m.get pool field)) : pool.accepts field (m.get pool field) := by
  rw [Message.get] at hsingle ⊢
  cases hvalue : m.value? field.number with
  | some value =>
    rw [Option.getD_some]
    exact (h.fields field hfield value hvalue).accepts
  | none =>
    rw [hvalue, Option.getD_none] at hsingle
    rw [Option.getD_none]
    by_cases hlabel : field.label = .repeated
    · rw [Pool.default, if_pos hlabel] at hsingle
      split at hsingle
      · exact absurd hsingle (single.not_accepts_map _)
      · exact absurd hsingle (single.not_accepts_list _)
    · rw [Pool.default, if_neg hlabel]
      exact accepts_defaultOf pool field

/-- A list that counts as set has items. -/
theorem ne_nil_of_get? (h : m.FitsType pool type) (hfield : field ∈ type.fields)
    (hget : m.get? pool field = some value) : value ≠ .list [] := by
  rintro rfl
  obtain ⟨hhas, hvalue⟩ := value?_of_get? hget
  cases h.fields field hfield _ hvalue with
  | list hlist hitems =>
    have hlabel : field.label = .repeated := by
      rw [Pool.isList, Bool.and_eq_true, beq_iff_eq] at hlist
      exact hlist.1
    have hmap : pool.isMap field = false := by
      rw [Pool.isList, Bool.and_eq_true, Bool.not_eq_true'] at hlist
      exact hlist.2
    have hempty : pool.default field = .list [] := by
      rw [Pool.default, if_pos hlabel, hmap]
      rfl
    have hdefault : pool.isDefault field (.list []) := by
      rw [Pool.isDefault.eq_def, hempty]
      rfl
    rw [Message.has, hvalue] at hhas
    simp only [hdefault, Bool.not_true, Bool.or_false] at hhas
    have hsingular := h.singular field hfield hhas (by rw [hvalue]; rfl)
    rw [Field.isSingular, hlabel] at hsingular
    exact absurd hsingular (by decide)
  | single hsingular hfits => exact FieldType.not_accepts_list _ _ hfits.accepts

end Message.FitsType

/-- Every message in a message fits its type. -/
def Message.WellTyped (pool : Pool) (m : Message) : Prop :=
  ∀ inner : Message, inner.Within m → ∃ type, inner.type? pool = some type ∧ inner.FitsType pool type

namespace Message

namespace WellTyped

theorem within {inner : Message} (h : m.WellTyped pool) (hinner : inner.Within m) :
    inner.WellTyped pool :=
  fun _ hdeep => h _ (hdeep.trans hinner)

theorem nested {number : Nat} (h : m.WellTyped pool) (hvalue : m.value? number = some value)
    (hholds : value.Holds child) : child.WellTyped pool :=
  h.within (.step hvalue hholds .refl)

theorem fitsType (h : m.WellTyped pool) (htype : m.type? pool = some type) :
    m.FitsType pool type := by
  obtain ⟨found, hfound, hfits⟩ := h m .refl
  obtain rfl := Option.some.inj (htype.symm.trans hfound)
  exact hfits

/-- A message stored in a field is well typed and of the type of the field. -/
theorem hop (h : m.WellTyped pool) (htype : m.type? pool = some type) (hfield : field ∈ type.fields)
    (hvalue : m.value? field.number = some (.message child)) :
    field.isSingular ∧ pool.messageTypeOf? field = child.type? pool ∧ child.WellTyped pool := by
  obtain ⟨hsingular, group, hgroup⟩ := ((h.fitsType htype).fields field hfield _ hvalue).exists_message
  refine ⟨hsingular, ?_, h.nested hvalue .message⟩
  rw [Pool.messageTypeOf?, hgroup]
  rfl

end WellTyped

/-- A message is well typed when it fits its type and the messages in its fields are well typed. -/
theorem WellTyped.of_fields (hfits : ∃ type ∈ m.type? pool, m.FitsType pool type)
    (hfields : ∀ entry ∈ m.fields, ∀ child, entry.2.Holds child → child.WellTyped pool) :
    m.WellTyped pool := by
  intro inner hinner
  cases hinner with
  | refl => exact hfits
  | @step _ _ number value hvalue hholds h =>
    exact hfields (number, value) (mem_of_lookup hvalue) _ hholds inner h

/-- A message with nothing but texts is well typed when it fits its type. -/
theorem WellTyped.of_texts (hfits : ∃ type ∈ m.type? pool, m.FitsType pool type)
    (htexts : ∀ entry ∈ m.fields, ∃ text, entry.2 = .string text) : m.WellTyped pool := by
  refine .of_fields hfits fun entry hentry child hholds => ?_
  obtain ⟨text, htext⟩ := htexts entry hentry
  rw [htext] at hholds
  exact absurd hholds nofun

/-! ## Reading along a path -/

variable {name : String} {rest path : List String}

theorem read?_singleton :
    m.read? pool [name] = some (leaf, value) ↔
      ∃ type, m.type? pool = some type ∧ type.field? name = some leaf ∧
        m.get? pool leaf = some value := by
  simp [read?, Option.bind_eq_some_iff]

/-- A path with more than one name is read through the message stored under its first name. -/
theorem read?_hop (hrest : rest ≠ []) (h : m.read? pool (name :: rest) = some (leaf, value)) :
    ∃ type field child, m.type? pool = some type ∧ type.field? name = some field ∧
      m.get? pool field = some (.message child) ∧ child.read? pool rest = some (leaf, value) := by
  rw [read?.eq_3 _ _ _ _ (by simpa using hrest)] at h
  obtain ⟨type, htype, h⟩ := Option.bind_eq_some_iff.mp h
  obtain ⟨field, hfield, h⟩ := Option.bind_eq_some_iff.mp h
  obtain ⟨_, -, h⟩ := Option.bind_eq_some_iff.mp h
  split at h
  · next child hchild => exact ⟨type, field, child, htype, hfield, hchild, h⟩
  · exact absurd h (by simp)

/-- What is read at the end of a path is stored there. -/
theorem at?_of_read? (h : m.read? pool path = some (leaf, value)) : m.at? pool path = some value := by
  induction path generalizing m with
  | nil => exact absurd h (by simp [read?])
  | cons name rest ih =>
    by_cases hrest : rest = []
    · subst hrest
      obtain ⟨type, htype, hfield, hget⟩ := read?_singleton.mp h
      rw [at?_singleton, stored?_eq htype hfield]
      exact (value?_of_get? hget).2
    · obtain ⟨type, field, child, htype, hfield, hchild, h⟩ := read?_hop hrest h
      rw [at?_hop ((stored?_eq htype hfield).trans (value?_of_get? hchild).2)]
      exact ih h

/-- A path that is read in a well-typed message leads to the field that is read, and the value there
fits the field. -/
theorem WellTyped.resolvePath (hm : m.WellTyped pool) (htype : m.type? pool = some type)
    (h : m.read? pool path = some (leaf, value)) :
    pool.resolvePath type path = some leaf ∧ pool.Fits leaf value ∧ value ≠ .list [] ∧
      (leaf.tracksPresence → leaf.isSingular) ∧
      ∃ inner : Message, inner.Within m ∧ inner.value? leaf.number = some value := by
  induction path generalizing m type with
  | nil => exact absurd h (by simp [read?])
  | cons name rest ih =>
    by_cases hrest : rest = []
    · subst hrest
      obtain ⟨found, hfound, hfield, hget⟩ := read?_singleton.mp h
      obtain rfl := Option.some.inj (htype.symm.trans hfound)
      have hvalue := (value?_of_get? hget).2
      have hmem := (MessageType.field?_mem hfield).1
      have hfits := hm.fitsType htype
      exact ⟨hfield, hfits.fields leaf hmem value hvalue, hfits.ne_nil_of_get? hmem hget,
        fun htracks => hfits.singular leaf hmem htracks (by rw [hvalue]; rfl), m, .refl, hvalue⟩
    · obtain ⟨found, field, child, hfound, hfield, hchild, h⟩ := read?_hop hrest h
      obtain rfl := Option.some.inj (htype.symm.trans hfound)
      have hvalue := (value?_of_get? hchild).2
      obtain ⟨hsingular, hnext, hwell⟩ := hm.hop htype (MessageType.field?_mem hfield).1 hvalue
      obtain ⟨next, hchildType, -⟩ := hwell child .refl
      obtain ⟨hresolved, hfits, hne, hpresence, inner, hinner, hat⟩ := ih hwell hchildType h
      refine ⟨?_, hfits, hne, hpresence, inner, .trans hinner (.step hvalue .message .refl), hat⟩
      rw [Pool.resolvePath_cons hrest, hfield, Option.bind_some, if_pos hsingular, hnext, hchildType]
      exact hresolved

/-- No message along the paths that are read holds two members of one oneof. -/
theorem WellTyped.not_both (hm : m.WellTyped pool) (htype : m.type? pool = some type)
    {front : List String} {inner : MessageType} {left right : String}
    (hinner : pool.typeAt? type front = some inner) (hleft : (m.at? pool (front ++ [left])).isSome)
    (hright : (m.at? pool (front ++ [right])).isSome) (hfield : inner.field? left = some field)
    (hother : inner.field? right = some other) : ¬ field.Excludes other := by
  induction front generalizing m type with
  | nil =>
    obtain rfl := Option.some.inj hinner
    intro hexcludes
    rw [List.nil_append, at?_singleton, stored?_eq htype hfield] at hleft
    rw [List.nil_append, at?_singleton, stored?_eq htype hother] at hright
    rw [(hm.fitsType htype).oneofs field (MessageType.field?_mem hfield).1 other
      (MessageType.field?_mem hother).1 hexcludes hleft] at hright
    exact absurd hright (by simp)
  | cons name front ih =>
    obtain ⟨value, hvalue⟩ := Option.isSome_iff_exists.mp hleft
    obtain ⟨value', hvalue'⟩ := Option.isSome_iff_exists.mp hright
    obtain ⟨child, hstored, hbelow⟩ := exists_hop (by simp) hvalue
    obtain ⟨child', hstored', hbelow'⟩ := exists_hop (by simp) hvalue'
    obtain rfl : child = child' := by simpa using hstored.symm.trans hstored'
    simp only [Pool.typeAt?, Option.bind_eq_bind, Option.bind_eq_some_iff] at hinner
    obtain ⟨hop, hhop, next, hnext, hinner⟩ := hinner
    rw [stored?_eq htype hhop] at hstored
    obtain ⟨-, hchild, hwell⟩ := hm.hop htype (MessageType.field?_mem hhop).1 hstored
    exact ih hwell (hchild.symm.trans hnext) hinner (Option.isSome_iff_exists.mpr ⟨_, hbelow⟩)
      (Option.isSome_iff_exists.mpr ⟨_, hbelow'⟩)

end Message

end PlainSchema
