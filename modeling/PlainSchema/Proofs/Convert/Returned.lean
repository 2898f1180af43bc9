import PlainSchema.Proofs.Convert.Carried
import PlainSchema.Proofs.Convert.Stored
import PlainSchema.Proofs.Convert.Strict
import PlainSchema.Proofs.Plan.Members

/-!
# The way back of a converted message

A Plain message that a conversion made is converted back through the paths that its values were read
from, `Restoring.Undoes.writePath_eq`.
-/

namespace PlainSchema

open Proto

/-- The default of a field that has a scalar value is that of a scalar type. -/
theorem Pool.default_cases (pool : Pool) (field : Field) :
    pool.default field = .map [] ∨ pool.default field = .list [] ∨
      (∃ n, pool.default field = .enum n) ∨ (∃ m, pool.default field = .message m) ∨
      ∃ scalar : Scalar, pool.default field = scalar.default := by
  rw [Pool.default]
  split
  · split
    · exact Or.inl rfl
    · exact Or.inr (Or.inl rfl)
  · cases field.type with
    | scalar scalar => exact Or.inr (Or.inr (Or.inr (Or.inr ⟨scalar, rfl⟩)))
    | message name group => exact Or.inr (Or.inr (Or.inr (Or.inl ⟨_, rfl⟩)))
    | enum name => exact Or.inr (Or.inr (Or.inl ⟨_, rfl⟩))

/-- The only text that is the default of a field is the empty one. -/
theorem Pool.default_eq_string {pool : Pool} {field : Field} {text : String}
    (h : pool.default field = .string text) : text = "" := by
  rcases pool.default_cases field with heq | heq | ⟨n, heq⟩ | ⟨m, heq⟩ | ⟨scalar, heq⟩
  all_goals rw [heq] at h
  case inr.inr.inr.inr =>
    cases scalar with
    | string => exact (Value.string.inj h).symm
    | _ => exact absurd h nofun
  all_goals exact absurd h nofun

/-- The only bytes that are the default of a field are none. -/
theorem Pool.default_eq_bytes {pool : Pool} {field : Field} {bytes : List UInt8}
    (h : pool.default field = .bytes bytes) : bytes = [] := by
  rcases pool.default_cases field with heq | heq | ⟨n, heq⟩ | ⟨m, heq⟩ | ⟨scalar, heq⟩
  all_goals rw [heq] at h
  case inr.inr.inr.inr =>
    cases scalar with
    | bytes => exact (Value.bytes.inj h).symm
    | _ => exact absurd h nofun
  all_goals exact absurd h nofun

/-- The number of an enum value. -/
def Value.tag? : Value → Option Int32
  | .enum n => some n
  | _ => none

theorem isSome_of_has {pool : Pool} {m : Message} {field : Field} (h : m.has pool field) :
    (m.value? field.number).isSome := by
  rw [Message.has] at h
  split at h
  · exact absurd h Bool.false_ne_true
  · next hvalue =>
    rw [hvalue]
    rfl

theorem exists_of_hasNamed {pool : Pool} {m : Message} {type : MessageType} {name : String}
    (htype : m.type? pool = some type) (h : hasNamed pool m name) :
    ∃ field, type.field? name = some field ∧ m.has pool field := by
  rw [hasNamed, htype, Option.bind_some] at h
  cases hfield : type.field? name with
  | none =>
    rw [hfield] at h
    exact absurd h Bool.false_ne_true
  | some field =>
    rw [hfield] at h
    exact ⟨field, rfl, h⟩

/-- A path is read through a field that is set. -/
theorem hasNamed_of_read? {pool : Pool} {m : Message} {names : List String} {name : String}
    {found : Field × Value} (hhead : names.head? = some name) (h : m.read? pool names = some found) :
    hasNamed pool m name := by
  obtain ⟨leaf, value⟩ := found
  obtain ⟨rest, rfl⟩ := List.head?_eq_some_iff.mp hhead
  have hset : ∃ type field value, m.type? pool = some type ∧ type.field? name = some field ∧
      m.get? pool field = some value := by
    by_cases hrest : rest = []
    · subst hrest
      obtain ⟨type, htype, hfield, hget⟩ := Message.read?_singleton.mp h
      exact ⟨type, leaf, value, htype, hfield, hget⟩
    · obtain ⟨type, field, child, htype, hfield, hget, -⟩ := Message.read?_hop hrest h
      exact ⟨type, field, _, htype, hfield, hget⟩
  obtain ⟨type, field, value, htype, hfield, hget⟩ := hset
  rw [hasNamed, htype, Option.bind_some, hfield]
  exact (Message.value?_of_get? hget).1

/-- **Of the members of a oneof only one holds a value.** -/
theorem SourceMessage.IsPlanOf.eq_of_hasNamed {schema : Schema} {settings : Settings} {renames : Renames}
    {m : SourceMessage} {mp : MessagePlan} (h : m.IsPlanOf schema settings renames mp)
    (hgenerate : mp.generate) (hnames : (m.fields.map (·.name)).Nodup) {pool : Pool}
    {type : MessageType} (hviews : m.ViewsType pool type) (hlinked : type.Linked) {x : Message}
    (hx : x.WellTyped pool) (htype : x.type? pool = some type) {oneof : OneofPlan}
    (honeof : oneof ∈ mp.oneofs) {first second : OneofMember} (hfirst : first ∈ oneof.members)
    (hsecond : second ∈ oneof.members) (hhas : hasNamed pool x first.name)
    (hhas' : hasNamed pool x second.name) : first = second := by
  obtain ⟨field, hfield, hset⟩ := exists_of_hasNamed htype hhas
  obtain ⟨other, hother, hset'⟩ := exists_of_hasNamed htype hhas'
  obtain ⟨hmem, hname⟩ := MessageType.field?_mem hfield
  obtain ⟨hmem', hname'⟩ := MessageType.field?_mem hother
  have hnumber : field.number = other.number := by
    by_contra hne
    have hexcludes :=
      h.excludes_of_members hgenerate hviews hlinked honeof hfirst hsecond hfield hother hne
    have hnone := (hx.fitsType htype).oneofs field hmem other hmem' hexcludes (isSome_of_has hset)
    have hsome := isSome_of_has hset'
    rw [hnone] at hsome
    exact absurd hsome Bool.false_ne_true
  obtain rfl := hlinked.eq_of_number hmem hmem' hnumber
  exact List.inj_on_of_nodup_map (h.members_nodup hgenerate hnames honeof) hfirst hsecond
    (hname.symm.trans hname')

namespace Restoring

variable {c : Restoring} {fillers casters : Casters (Value → Except String Value)}
  {there : ConvertNested}  {x : Message} {type : MessageType} {schema : Schema} {settings : Settings} {renames : Renames}
  {source : SourceMessage} {plan : FieldPlan} {target leaf : Field} {found value : Value}
  {path : SourcePath} {selection : Selection}

/-- The conversion that a conversion back undoes. -/
abbrev forward (c : Restoring) (fillers : Casters (Value → Except String Value))
    (there : ConvertNested) (x : Message) (type : MessageType) : Flattening where
  pool := c.source
  plain := c.pool
  mode := .strict fillers
  nested := there
  plan := c.plan
  type := type
  source := x

/-- A conversion back of a Plain message that was made from a well-typed message by the same plan,
without casters. -/
structure Undoes (c : Restoring) (fillers : Casters (Value → Except String Value))
    (there : ConvertNested) (x : Message) (type : MessageType)
    (casters : Casters (Value → Except String Value)) (schema : Schema) (settings : Settings)
    (renames : Renames) (source : SourceMessage) : Prop where
  restores : c.Restores casters schema settings renames source
  linked : type.Linked
  found : c.pool.message? type.fullName = some type
  run : (c.forward fillers there x type).run = .ok c.plain
  typed : x.type? c.source = some c.type
  wellTyped : x.WellTyped c.source
  noCaster : ∀ plan ∈ c.plan.fields, ¬ plan.needsCaster
  findings : ∀ finding ∈ schema.findings, ¬ finding.isError
  /-- Companions stand in no oneof. -/
  companions : ∀ entry ∈ c.plan.crf, ∀ field, type.field? entry.crfField = some field →
    field.oneof = none
  /-- There are tags for all members. -/
  counts : ∀ oneof ∈ c.plan.oneofs, oneof.members.length < 2147483648
  /-- A tag that is not set selects no member. -/
  tags : ∀ oneof ∈ c.plan.oneofs, ∀ dispatch ∈ oneof.dispatch,
    ∀ field ∈ type.field? dispatch.fieldName, ∀ n ∈ (c.pool.default field).tag?, n = 0
  /-- What a field of a dispatched oneof is read from starts in a member of the oneof. -/
  dispatched : ∀ plan ∈ c.plan.fields, plan.isReversible → ∀ oneof ∈ c.plan.oneofs,
    plan.origin.oneofGroup = some oneof.name → oneof.dispatch.isSome →
    ∀ path ∈ c.plan.ownPaths plan, ∃ member ∈ oneof.members, path.head? = some member.name
  /-- The members that payloads hold can be decoded. -/
  payloads : ∀ plan ∈ c.plan.fields, ∀ oneof, plan.origin.role = some (.payload oneof) →
    ∀ index member field, (c.forward fillers there x type).populated? oneof = some (index, member) →
      c.type.field? member.name = some field →
      (Message.set { type := x.type } c.type field (x.get c.source field)).Survives c.source
  returns : ∀ plan ∈ c.plan.fields, plan.isReversible → ∀ target path leaf found value,
    type.field? plan.shape.name = some target → c.plain.value? target.number = some value →
    (c.forward fillers there x type).CameFrom c.plain plan target path leaf found value →
    plan.ReturnsValue c.source c.pool there c.nested leaf target found value

/-- A member of a oneof is the populated one. -/
def Populates (pool : Pool) (x : Message) (oneof : OneofPlan) (member : OneofMember) : Prop :=
  ∃ index, populatedMember? pool x oneof = some index ∧ oneof.members[index]? = some member

theorem Populates.hasNamed {pool : Pool} {oneof : OneofPlan} {member : OneofMember}
    (h : Populates pool x oneof member) : member ∈ oneof.members ∧ hasNamed pool x member.name := by
  obtain ⟨index, hindex, hmember⟩ := h
  obtain ⟨hlt, hhas, -⟩ := List.findIdx?_eq_some_iff_getElem.mp hindex
  rw [List.getElem?_eq_getElem hlt] at hmember
  obtain rfl := Option.some.inj hmember
  exact ⟨List.getElem_mem hlt, hhas⟩

/-- The member of a oneof that alone holds a value is the populated one. -/
theorem populates_of_hasNamed {pool : Pool} {oneof : OneofPlan} {member : OneofMember}
    (hmember : member ∈ oneof.members)
    (hhas : hasNamed pool x member.name)
    (halone : ∀ other ∈ oneof.members, hasNamed pool x other.name → other = member) :
    Populates pool x oneof member := by
  have hsome : (populatedMember? pool x oneof).isSome :=
    List.findIdx?_isSome.trans (List.any_eq_true.mpr ⟨member, hmember, hhas⟩)
  obtain ⟨index, hindex⟩ := Option.isSome_iff_exists.mp hsome
  obtain ⟨hlt, hfound, -⟩ := List.findIdx?_eq_some_iff_getElem.mp hindex
  refine ⟨index, hindex, ?_⟩
  rw [List.getElem?_eq_getElem hlt, halone _ (List.getElem_mem hlt) hfound]

/-- The selected members are the populated ones of dispatched oneofs. -/
def SelectsPopulated (c : Restoring) (x : Message) (selection : Selection) : Prop :=
  ∀ selected ∈ selection, ∃ oneof ∈ c.plan.oneofs, oneof.name = selected.1 ∧
    oneof.dispatch.isSome ∧ Populates c.source x oneof selected.2

/-- What a Plain field is adapted to: nothing if it is not set, and else its value as the field has it
that the value was read from. -/
inductive AdaptsTo (c : Restoring) (flattening : Flattening) (selection : Selection)
    (plan : FieldPlan) : Prop
  | unset (h : c.adapted selection plan = .ok none) : AdaptsTo c flattening selection plan
  | write {target leaf : Field} {path : SourcePath} {found value v : Value}
      (htarget : flattening.type.field? plan.shape.name = some target)
      (hvalue : c.plain.value? target.number = some value)
      (hfrom : flattening.CameFrom c.plain plan target path leaf found value)
      (hcarry : plan.carry c.source c.pool flattening.nested leaf target.type found = .ok value)
      (huncarry : plan.uncarry c.source c.nested leaf value = .ok v)
      (hfits : c.source.Fits leaf v)
      (h : c.adapted selection plan = .ok (some ⟨path.names, v⟩)) :
      AdaptsTo c flattening selection plan

namespace Undoes

variable (hc : c.Undoes fillers there x type casters schema settings renames source)

include hc

theorem follows : (c.forward fillers there x type).Follows fillers schema settings renames source where
  mode := rfl
  linked := hc.linked
  isPlan := hc.restores.isPlan
  generate := hc.restores.generate

theorem type?_plain : c.plain.type? c.pool = some type := by
  rw [Message.type?, Flattening.type_run hc.run]
  exact hc.found

/-- Every planned field is a field of the Plain message. -/
theorem exists_target (hplan : plan ∈ c.plan.fields) :
    ∃ target, type.field? plan.shape.name = some target := by
  obtain ⟨lists, hlists, -⟩ := Flattening.exists_writes (hc.follows.foldlM_eq_ok hc.run)
  obtain ⟨written, -, hwrites⟩ := exists_right_of_forall₂ hlists hplan
  rw [Flattening.writes] at hwrites
  obtain ⟨target, htarget, -⟩ := bind_eq_ok.mp hwrites
  exact ⟨target, Flattening.requireField_eq_ok htarget⟩

theorem exists_cameFrom (hplan : plan ∈ c.plan.fields) (hreversible : plan.isReversible)
    (htarget : type.field? plan.shape.name = some target)
    (hvalue : c.plain.value? target.number = some value) :
    ∃ path leaf found, (c.forward fillers there x type).CameFrom c.plain plan target path leaf found value :=
  hc.follows.exists_cameFrom hc.companions hc.run hplan hreversible htarget hvalue

/-- What a companion records is one of the origins of its field. -/
theorem not_strays (plan : FieldPlan) : ¬ c.Strays plan := by
  rintro ⟨entry, hentry, hne, hnot⟩
  have hmem := List.mem_of_find?_eq_some hentry
  rw [recordedPath] at hne hnot
  split at hne
  · next text hnamed =>
    obtain ⟨field, hfield, hget⟩ := exists_field_of_valueNamed? hc.type?_plain hnamed
    rw [Message.get] at hget
    cases hvalue : c.plain.value? field.number with
    | none =>
      rw [hvalue] at hget
      obtain rfl := Pool.default_eq_string hget
      exact hne (by decide +kernel)
    | some value =>
      rw [hvalue, Option.getD_some] at hget
      obtain ⟨-, -, -, -, -, -, recorded, hrecorded, heq⟩ :=
        hc.follows.exists_merged hc.run hmem hfield hvalue
      obtain rfl : text = recorded := Value.string.inj (hget.symm.trans heq)
      refine hnot ?_
      simp only [hnamed]
      rw [MessagePlan.ownPaths, MessagePlan.sourcePaths, hentry]
      exact List.mem_map.mpr ⟨_, List.mem_map.mpr ⟨text, hrecorded, rfl⟩, rfl⟩
  · exact hne rfl

/-- A value is written back through the path that it was read from. -/
theorem writePath_eq
    (hfrom : (c.forward fillers there x type).CameFrom c.plain plan target path leaf found value)
    (selected : Option OneofMember) : c.writePath plan selected = path.names := by
  have hmem := hfrom.mem
  rw [MessagePlan.sourcePaths] at hmem
  rw [writePath]
  cases hentry : c.plan.mergedField? plan.shape.name with
  | none =>
    rw [hentry] at hmem
    rw [List.mem_singleton.mp hmem]
  | some entry =>
    rw [hentry] at hmem
    obtain ⟨text, -, rfl⟩ := List.mem_map.mp hmem
    obtain ⟨field, hfield, hstored⟩ := hfrom.recorded _ _ rfl
    have hnamed : valueNamed? c.pool c.plain entry.crfField = some (.string text) := by
      rw [valueNamed?, hc.type?_plain, Option.bind_eq_bind, Option.bind_some, hfield]
      simp [Message.get, hstored]
    have hne : Crf.fieldNamesOf text ≠ [] := by
      intro hnil
      have hread := hfrom.read
      rw [hnil, Message.read?] at hread
      exact absurd hread (by simp)
    have hrecorded : c.recordedPath entry = Crf.fieldNamesOf text := by
      rw [recordedPath, hnamed]
    simp only [hrecorded]
    rw [if_pos (by simpa using hne)]

/-! ## Selected members -/

theorem oneof?_name {oneof : OneofPlan} (honeof : oneof ∈ c.plan.oneofs) :
    c.plan.oneof? oneof.name = some oneof :=
  hc.restores.isPlan.oneof?_name hc.restores.generate hc.restores.oneofNames honeof

/-- The populated member that a role of a oneof found. -/
theorem populates {oneof : OneofPlan} (honeof : oneof ∈ c.plan.oneofs) {index : Nat}
    {member : OneofMember}
    (h : (c.forward fillers there x type).populated? oneof.name = some (index, member)) :
    populatedMember? c.source x oneof = some index ∧ oneof.members[index]? = some member := by
  obtain ⟨found, hfound, hindex, hmember⟩ := Flattening.populated?_eq_some h
  obtain rfl := Option.some.inj ((hc.oneof?_name honeof).symm.trans hfound)
  exact ⟨hindex, hmember⟩

/-- A tag that was written selects the populated member. -/
theorem exists_selectedMember_of_value? {oneof : OneofPlan} (honeof : oneof ∈ c.plan.oneofs)
    {dispatch : DispatchPlan} (hdispatch : dispatch ∈ oneof.dispatch) {field : Field}
    (hfield : type.field? dispatch.fieldName = some field)
    (hvalue : c.plain.value? field.number = some value) :
    ∃ member, selectedMember c.pool c.plain oneof = .ok (some member) ∧
      Populates c.source x oneof member := by
  obtain ⟨plan, hplan, hname, hrole⟩ :=
    hc.restores.isPlan.exists_dispatchTag hc.restores.generate honeof hdispatch
  obtain ⟨written, hwrites, hmem⟩ := hc.follows.mem_roleWrites hc.run hplan hrole (by rintro _ ⟨⟩)
    (hname ▸ hfield) hvalue
  obtain ⟨index, member, hpopulated, heq⟩ := Flattening.tag_of_roleWrites hmem hwrites
  obtain ⟨hindex, hmember⟩ := hc.populates honeof hpopulated
  obtain ⟨hlt, -⟩ := List.getElem?_eq_some_iff.mp hmember
  have hcount := hc.counts oneof honeof
  have hnumber : (Int32.ofNat (index + 1)).toInt = ((index + 1 : Nat) : Int) :=
    Int32.toInt_ofNat_of_lt (by omega)
  have htag : oneof.dispatch.bind (fun dispatch => valueNamed? c.pool c.plain dispatch.fieldName)
      = some (.enum (Int32.ofNat (index + 1))) := by
    rw [Option.mem_def.mp hdispatch, Option.bind_some, valueNamed?, hc.type?_plain,
      Option.bind_eq_bind, Option.bind_some, hfield, Option.bind_eq_bind, Option.bind_some,
      Message.get, hvalue, Option.getD_some]
    exact congrArg some heq
  have hposition : ((Int32.ofNat (index + 1)).toInt - 1).toNat = index := by omega
  refine ⟨member, ?_, index, hindex, hmember⟩
  rw [selectedMember, htag]
  dsimp only
  rw [if_neg (by omega), if_pos (by omega), hposition, hmember]

/-- A tag selects the populated member, if it selects one at all. -/
theorem exists_selectedMember {oneof : OneofPlan} (honeof : oneof ∈ c.plan.oneofs) :
    ∃ found, selectedMember c.pool c.plain oneof = .ok found ∧
      ∀ member, found = some member → oneof.dispatch.isSome ∧ Populates c.source x oneof member := by
  rw [selectedMember]
  split
  · next tag htag =>
    obtain ⟨dispatch, hdispatch, hnamed⟩ := Option.bind_eq_some_iff.mp htag
    obtain ⟨field, hfield, hget⟩ := exists_field_of_valueNamed? hc.type?_plain hnamed
    rw [Message.get] at hget
    cases hvalue : c.plain.value? field.number with
    | none =>
      rw [hvalue, Option.getD_none] at hget
      have hdefault : tag ∈ (c.pool.default field).tag? := by rw [hget]; rfl
      obtain rfl := hc.tags oneof honeof dispatch hdispatch field hfield tag hdefault
      exact ⟨none, rfl, by rintro _ ⟨⟩⟩
    | some value =>
      obtain ⟨member, hselected, hpopulates⟩ :=
        hc.exists_selectedMember_of_value? honeof hdispatch hfield hvalue
      rw [selectedMember, htag] at hselected
      refine ⟨some member, hselected, ?_⟩
      rintro _ ⟨⟩
      exact ⟨by rw [hdispatch]; rfl, hpopulates⟩
  · exact ⟨none, rfl, by rintro _ ⟨⟩⟩

theorem exists_selectMembers :
    ∃ selection, selectMembers c.mode c.pool c.plain c.plan.oneofs = .ok selection ∧
      c.SelectsPopulated x selection := by
  rw [selectMembers]
  refine exists_foldlM (fun (_ : List OneofPlan) => c.SelectsPopulated x)
    (fun _ hmem => absurd hmem List.not_mem_nil) ?_
  intro met oneof rest selection hsplit hselection
  have honeof : oneof ∈ c.plan.oneofs := by simp [hsplit]
  obtain ⟨found, hfound, hpopulates⟩ := hc.exists_selectedMember honeof
  rw [hc.restores.mode, Mode.settle_strict, hfound]
  cases found with
  | none => exact ⟨selection, rfl, hselection⟩
  | some member =>
    refine ⟨selection ++ [(oneof.name, member)], rfl, fun selected hmem => ?_⟩
    rcases List.mem_append.mp hmem with hmem | hmem
    · exact hselection selected hmem
    · rw [List.mem_singleton.mp hmem]
      obtain ⟨hdispatch, hpopulates⟩ := hpopulates member rfl
      exact ⟨oneof, honeof, rfl, hdispatch, hpopulates⟩

theorem eq_of_hasNamed {oneof : OneofPlan} (honeof : oneof ∈ c.plan.oneofs)
    {first second : OneofMember} (hfirst : first ∈ oneof.members) (hsecond : second ∈ oneof.members)
    (hhas : hasNamed c.source x first.name) (hhas' : hasNamed c.source x second.name) :
    first = second :=
  hc.restores.isPlan.eq_of_hasNamed hc.restores.generate (hc.restores.names source hc.restores.mem)
    hc.restores.views (hc.restores.linked c.type hc.restores.views.mem) hc.wellTyped hc.typed honeof
    hfirst hsecond hhas hhas'

/-- The member that a value was read from is the selected one. -/
theorem checkSelected_eq_ok (hselection : c.SelectsPopulated x selection)
    (hplan : plan ∈ c.plan.fields) (hreversible : plan.isReversible)
    (hfrom : (c.forward fillers there x type).CameFrom c.plain plan target path leaf found value) :
    checkSelected plan (selectedFor selection plan) path.names = .ok () := by
  rw [checkSelected.eq_def]
  split
  · next group member first hgroup hselected hhead =>
    rw [selectedFor, hgroup, Option.bind_some] at hselected
    obtain ⟨oneof, honeof, hname, hdispatch, hpopulates⟩ :=
      hselection (group, member) (mem_of_lookup hselected)
    obtain ⟨hmember, hhas⟩ := hpopulates.hasNamed
    obtain ⟨other, hother, heq⟩ := hc.dispatched plan hplan hreversible oneof honeof
      (hname ▸ hgroup) hdispatch path.names (List.mem_map_of_mem hfrom.mem)
    obtain rfl : first = other.name := Option.some.inj (hhead.symm.trans heq)
    have hread : hasNamed c.source x other.name := hasNamed_of_read? hhead hfrom.read
    exact if_pos (congrArg OneofMember.name (hc.eq_of_hasNamed honeof hmember hother hhas hread))
  · rfl

/-- A Plain field that is set is adapted to the field that it was read from. -/
theorem adaptsTo (hselection : c.SelectsPopulated x selection) (hplan : plan ∈ c.plan.fields)
    (hreversible : plan.isReversible) :
    AdaptsTo c (c.forward fillers there x type) selection plan := by
  obtain ⟨target, htarget⟩ := hc.exists_target hplan
  cases hget : c.plain.get? c.pool target with
  | none =>
    refine .unset ?_
    rw [adapted, hc.type?_plain]
    simp only [Option.map_some, Option.getD_some, requireField, htarget, hget, bind, Except.bind]
    rfl
  | some value =>
    have hvalue := (Message.value?_of_get? hget).2
    obtain ⟨path, leaf, found, hfrom⟩ := hc.exists_cameFrom hplan hreversible htarget hvalue
    obtain ⟨hresolved, -⟩ := hc.wellTyped.resolvePath hc.typed hfrom.read
    have hcarry : plan.carry c.source c.pool there leaf target.type found = .ok value := by
      obtain ⟨carried, hcarried, hrest⟩ := bind_eq_ok.mp hfrom.adapted
      rw [if_neg (hc.noCaster plan hplan)] at hrest
      rw [← Except.ok.inj hrest]
      exact hcarried
    obtain ⟨v, hv, hfits⟩ := FieldPlan.exists_uncarry
      (hc.returns plan hplan hreversible target path leaf found value htarget hvalue hfrom) hcarry
    refine .write htarget hvalue hfrom hcarry hv hfits ?_
    have hcheck := hc.checkSelected_eq_ok hselection hplan hreversible hfrom
    rw [selectedFor] at hcheck
    rw [adapted, hc.type?_plain]
    simp only [Option.map_some, Option.getD_some, requireField, htarget, hget, bind, Except.bind,
      hc.writePath_eq hfrom, hcheck, hresolved, hc.noCaster plan hplan, Bool.false_eq_true, if_false,
      hv]
    rfl

/-- A Plain field that is set can be adapted to the field that it was read from. -/
theorem exists_adapted (hselection : c.SelectsPopulated x selection) (hplan : plan ∈ c.plan.fields)
    (hreversible : plan.isReversible) :
    ∃ result, c.adapted selection plan = .ok result ∧ ∀ write, result = some write →
      ∃ leaf found, x.read? c.source write.path = some (leaf, found) ∧
        c.source.resolvePath c.type write.path = some leaf ∧ c.source.Fits leaf write.value := by
  cases hc.adaptsTo hselection hplan hreversible with
  | unset h => exact ⟨none, h, nofun⟩
  | write _ _ hfrom _ _ hfits h =>
    refine ⟨_, h, ?_⟩
    rintro _ ⟨⟩
    exact ⟨_, _, hfrom.read, (hc.wellTyped.resolvePath hc.typed hfrom.read).1, hfits⟩

end Undoes

end Restoring

end PlainSchema
