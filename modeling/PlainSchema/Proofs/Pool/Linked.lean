import PlainSchema.Proofs.Pool.Loaded

/-!
# Linked message types

The message types of a pool that loads are well formed: no two fields of a type share a name or a
number, a field stands in a oneof that exists, and the members of a oneof record that they were
set, `types_linked`.
-/

namespace PlainSchema

open Proto

/-- A message type as a pool holds it. -/
structure MessageType.Linked (type : MessageType) : Prop where
  names : (type.fields.map (·.name)).Nodup
  numbers : (type.fields.map (·.number)).Nodup
  oneofs : ∀ field ∈ type.fields, ∀ i, field.oneof = some i → i < type.oneofs.length
  presence : ∀ field ∈ type.fields, field.oneof.isSome → field.tracksPresence

/-- The message types of a pool are linked. -/
def Pool.Linked (pool : Pool) : Prop :=
  ∀ type ∈ pool.messages, type.Linked

theorem linkMessage_linked {files : List FileDecl} {file : FileDecl} {d : DeclaredMessage}
    (h : FieldsLinked files d) : (linkMessage file d).Linked := by
  have hperm : (linkMessage file d).fields.Perm
      (d.decl.fields.map (linkField file.dialect d.fullName)) := sortBy_perm _ _
  have hfield : ∀ {field : Field}, field ∈ (linkMessage file d).fields →
      ∃ decl ∈ d.decl.fields, linkField file.dialect d.fullName decl = field := by
    intro field hmem
    exact List.mem_map.mp (hperm.mem_iff.mp hmem)
  refine ⟨?_, ?_, ?_, ?_⟩
  · rw [(hperm.map _).nodup_iff, List.map_map]
    exact h.names
  · rw [(hperm.map _).nodup_iff, List.map_map]
    have hnumbers := h.numbers
    rw [List.nodup_iff_pairwise_ne, List.pairwise_map] at hnumbers ⊢
    refine hnumbers.imp_of_mem fun {a b} ha hb hne heq => hne ?_
    have hpos := h.usable a ha
    have hpos' := h.usable b hb
    simp only [isFieldNumber, isNumberInRange, Bool.and_eq_true, decide_eq_true_eq] at hpos hpos'
    simp only [Function.comp_apply, linkField] at heq
    omega
  · intro field hmem i hi
    obtain ⟨decl, hdecl, rfl⟩ := hfield hmem
    obtain ⟨index, hindex, rfl⟩ := Option.map_eq_some_iff.mp hi
    have hrange := h.oneofs decl hdecl index hindex
    have hlength : (linkMessage file d).oneofs.length = d.decl.oneofs.length := by
      simp [linkMessage, linkOneofs]
    simp only [Int.ofNat_eq_natCast] at hrange
    omega
  · intro field hmem honeof
    obtain ⟨decl, hdecl, rfl⟩ := hfield hmem
    have hindex : decl.oneofIndex.isSome := by simpa [linkField] using honeof
    simp [linkField, FieldDecl.tracksPresence, hindex]

theorem types_linked {files : List FileDecl} (h : FilesLinked files) :
    (Pool.link files).Linked := by
  intro type htype
  obtain ⟨file, hfile, htype⟩ := List.mem_flatMap.mp htype
  obtain ⟨d, hd, rfl⟩ := List.mem_map.mp htype
  exact linkMessage_linked (h.messages file hfile d hd)

/-- The message types of a pool that loads are linked. -/
theorem Pool.linked_of_load {files : List FileDecl} {pool : Pool} (h : Pool.load files = .ok pool) :
    pool.Linked := by
  obtain ⟨heq, hlinked⟩ := Pool.load_eq_ok h
  rw [heq]
  exact types_linked hlinked

namespace MessageType

variable {type : MessageType} {field other : Field}

theorem field?_mem {name : String} (h : type.field? name = some field) :
    field ∈ type.fields ∧ field.name = name :=
  ⟨List.mem_of_find?_eq_some h, by simpa using List.find?_some h⟩

theorem Linked.field?_name (h : type.Linked) (hfield : field ∈ type.fields) :
    type.field? field.name = some field :=
  find?_eq_some_of_nodup h.names hfield

theorem Linked.eq_of_number (h : type.Linked) (hfield : field ∈ type.fields)
    (hother : other ∈ type.fields) (heq : field.number = other.number) : field = other :=
  List.inj_on_of_nodup_map h.numbers hfield hother heq

theorem fieldByNumber?_mem {number : Nat} (h : type.fieldByNumber? number = some field) :
    field ∈ type.fields ∧ field.number = number :=
  ⟨List.mem_of_find?_eq_some h, by simpa using List.find?_some h⟩

theorem Linked.fieldByNumber?_number (h : type.Linked) (hfield : field ∈ type.fields) :
    type.fieldByNumber? field.number = some field :=
  find?_eq_some_of_nodup h.numbers hfield

end MessageType

theorem Pool.message?_mem {pool : Pool} {name : String} {type : MessageType}
    (h : pool.message? name = some type) : type ∈ pool.messages ∧ type.fullName = name :=
  ⟨List.mem_of_find?_eq_some h, by simpa using List.find?_some h⟩

/-- The message type of a field is found by the name in the type of the field. -/
theorem Pool.exists_of_messageTypeOf? {pool : Pool} {field : Field} {type : MessageType}
    (h : pool.messageTypeOf? field = some type) :
    type ∈ pool.messages ∧ pool.message? type.fullName = some type ∧
      ∃ group, field.type = .message type.fullName group := by
  rw [Pool.messageTypeOf?] at h
  split at h
  · next name group htype =>
    obtain ⟨hmem, rfl⟩ := Pool.message?_mem h
    exact ⟨hmem, h, group, htype⟩
  · exact absurd h nofun

/-! ## Kinds -/

section Kinds

variable {type : FieldType}

theorem FieldType.eq_message_of_kind (h : type.kind = .message) :
    ∃ name, type = .message name false := by
  cases type with
  | message name group => cases group with
    | false => exact ⟨name, rfl⟩
    | true => exact absurd h nofun
  | _ => exact absurd h nofun

theorem FieldType.eq_enum_of_kind (h : type.kind = .enum) : ∃ name, type = .enum name := by
  cases type with
  | message name group => cases group <;> exact absurd h nofun
  | enum name => exact ⟨name, rfl⟩
  | scalar scalar => exact absurd h nofun

theorem FieldType.eq_scalar_of_kind {scalar : Scalar} (h : type.kind = .scalar scalar) :
    type = .scalar scalar := by
  cases type with
  | message name group => cases group <;> exact absurd h nofun
  | enum name => exact absurd h nofun
  | scalar scalar => rw [Kind.scalar.inj h]

end Kinds

/-! ## Maps -/

theorem Pool.isMap_iff {pool : Pool} {field : Field} :
    pool.isMap field ↔ field.label = .repeated ∧
      ∃ entry, pool.messageTypeOf? field = some entry ∧ entry.isMapEntry := by
  rw [Pool.isMap, Bool.and_eq_true, beq_iff_eq]
  refine and_congr_right fun _ => ?_
  cases pool.messageTypeOf? field <;> simp

/-- A map field has an entry type with a key and a value. -/
theorem Pool.entryFields?_eq_some_iff {pool : Pool} {field key val : Field} :
    pool.entryFields? field = some (key, val) ↔ field.label = .repeated ∧
      ∃ entry, pool.messageTypeOf? field = some entry ∧ entry.isMapEntry ∧
        entry.fieldByNumber? 1 = some key ∧ entry.fieldByNumber? 2 = some val := by
  have hguard : ∀ {p : Prop} [Decidable p] {u : Unit}, guard p = some u ↔ p := by
    intro p _ u
    by_cases hp : p <;> simp [guard, hp, failure]
  constructor
  · intro h
    obtain ⟨_, hlabel, h⟩ := Option.bind_eq_some_iff.mp h
    obtain ⟨entry, hentry, h⟩ := Option.bind_eq_some_iff.mp h
    obtain ⟨_, hmap, h⟩ := Option.bind_eq_some_iff.mp h
    obtain ⟨key', hkey, h⟩ := Option.bind_eq_some_iff.mp h
    obtain ⟨val', hval, h⟩ := Option.bind_eq_some_iff.mp h
    obtain ⟨rfl, rfl⟩ := Prod.mk.inj (Option.some.inj h)
    exact ⟨hguard.mp hlabel, entry, hentry, hguard.mp hmap, hkey, hval⟩
  · rintro ⟨hlabel, entry, hentry, hmap, hkey, hval⟩
    refine Option.bind_eq_some_iff.mpr ⟨(), hguard.mpr hlabel, ?_⟩
    refine Option.bind_eq_some_iff.mpr ⟨entry, hentry, ?_⟩
    refine Option.bind_eq_some_iff.mpr ⟨(), hguard.mpr hmap, ?_⟩
    refine Option.bind_eq_some_iff.mpr ⟨key, hkey, ?_⟩
    exact Option.bind_eq_some_iff.mpr ⟨val, hval, rfl⟩

end PlainSchema
