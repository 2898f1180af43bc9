import PlainSchema.Proofs.Convert.Payloads
import PlainSchema.Proofs.Convert.Tags
import PlainSchema.Proofs.Plan.Discriminated

/-!
# What comes out of a payload

A payload puts back the member that is populated in it, with the value there, unless the discriminator
names another member, `Restoring.PayloadAt.exists_packs_of_restoreStep`.  No other step touches a
member of the oneof, so a member that the source message holds came out of the payload,
`Restoring.PayloadAt.fromPayload_run`, what the payload puts back stays,
`Restoring.PayloadAt.fromPayload_of_allows`, and everything else is as it would be with any other
payload, `Restoring.PayloadAt.agreeOutside_run`.

The members of two oneofs are apart, and no Plain field with a way back is read from a member whose
oneof has a payload.  Merged fields are another matter: a companion leads a field anywhere, so the plan
must have none.
-/

namespace PlainSchema

open Proto

/-- A message holds fields of its type, and nothing else. -/
structure Message.HoldsOnly (type : MessageType) (m : Message) : Prop where
  typed : m.type = type.fullName
  unknown : m.unknown = []
  fields : ∀ number, (m.value? number).isSome → ∃ field ∈ type.fields, field.number = number

section HoldsOnly

variable {pool : Pool} {type : MessageType} {m next : Message} {touched : Field → Prop}

theorem Message.HoldsOnly.new : Message.HoldsOnly type { type := type.fullName } :=
  ⟨rfl, rfl, fun _ hsome => absurd hsome Bool.false_ne_true⟩

theorem Message.HoldsOnly.set (h : m.HoldsOnly type) {field : Field} (hfield : field ∈ type.fields)
    (value : Value) : (m.set type field value).HoldsOnly type where
  typed := by
    rw [Message.type_set]
    exact h.typed
  unknown := by
    rw [Message.unknown_set]
    exact h.unknown
  fields number hsome := by
    obtain ⟨found, hfound⟩ := Option.isSome_iff_exists.mp hsome
    rcases Message.value?_of_set hfound with ⟨hnumber, -⟩ | hbefore
    · exact ⟨field, hfield, hnumber⟩
    · exact h.fields number (by rw [hbefore]; rfl)

theorem Message.HoldsOnly.type? (h : m.HoldsOnly type)
    (hfound : pool.message? type.fullName = some type) : m.type? pool = some type := by
  rw [Message.type?, h.typed]
  exact hfound

variable {α : Type} {mode : Mode} {steps : Message → α → Except ConvertError Message}
  {xs : List α}

theorem holdsOnly_foldlM (hsteps : ∀ x ∈ xs, ActsOnOne pool type (fun _ => True) (steps · x))
    (htype : m.type? pool = some type) (hm : m.HoldsOnly type)
    (h : xs.foldlM (fun out x => mode.settle out (steps out x)) m = .ok next) :
    next.HoldsOnly type := by
  refine (foldlM_invariant (fun out : Message => out.type? pool = some type ∧ out.HoldsOnly type)
    ⟨htype, hm⟩ ?_ h).2
  intro before x after hx hbefore hstep
  refine ⟨(hsteps x hx).type? hbefore.1 hstep, ?_⟩
  rcases (hsteps x hx).eq_or_set hbefore.1 hstep with rfl | ⟨field, hfield, -, value, rfl⟩
  · exact hbefore.2
  · exact hbefore.2.set hfield value

/-- Steps on touched fields change nothing outside. -/
theorem agreeOutside_foldlM_self (hlinked : type.Linked) (hclosed : type.ClosedUnderOneofs touched)
    (hsteps : ∀ x ∈ xs, ActsOnOne pool type touched (steps · x)) (htype : m.type? pool = some type)
    (h : xs.foldlM (fun out x => mode.settle out (steps out x)) m = .ok next) :
    AgreeOutside pool type touched m next := by
  refine foldlM_invariant (AgreeOutside pool type touched m) (.refl htype) ?_ h
  intro before x after hx hbefore hstep
  exact hbefore.trans ((hsteps x hx).agreeOutside_self hlinked hclosed hbefore.right hstep)

end HoldsOnly

namespace Restoring

variable {c : Restoring} {oneof : OneofPlan} {member tagged : OneofMember} {plan : FieldPlan}
  {before after : List FieldPlan} {selection : Selection} {payload out out' m m' p' : Message}
  {index : Nat} {e : ConvertError}

/-- The source message holds fields of its type only. -/
theorem holdsOnly_run (hfound : c.source.message? c.type.fullName = some c.type)
    (hrun : c.run = .ok m) : m.HoldsOnly c.type := by
  obtain ⟨selection, hselection⟩ := exists_selection_of_run hrun
  obtain ⟨out, hfields, hlast⟩ := exists_folds_of_run hselection hrun
  have hnew : Message.type? c.source { type := c.type.fullName } = some c.type := hfound
  have htype := type?_foldlM_restoreStep hnew hfields
  rw [settle_restoreStep] at hfields
  have hout := holdsOnly_foldlM (fun _ _ => actsOnOne_restoreStep) hnew .new hfields
  exact holdsOnly_foldlM (fun _ _ => actsOnOne_ensureSelected.mono fun _ _ _ => trivial) htype hout
    hlast

/-! ## Tags and payloads -/

/-- The text of the discriminator of a oneof without leading dots, empty if there is none. -/
def tagText (c : Restoring) (oneof : OneofPlan) : String :=
  match valueNamed? c.pool c.plain (oneof.name ++ "_disc") with
  | some (.string text) => Text.trimFront text '.'
  | _ => ""

/-- The discriminator of a oneof names an enum value of a member. -/
def TagNames (c : Restoring) (oneof : OneofPlan) (member : OneofMember) : Prop :=
  ∃ value ∈ member.withEnums, Text.trimFront value '.' = c.tagText oneof

/-- The discriminator of a oneof names a member, or nothing. -/
def TagAllows (c : Restoring) (oneof : OneofPlan) (member : OneofMember) : Prop :=
  c.tagText oneof = "" ∨ c.TagNames oneof member

/-- The payload of a oneof can be decoded, and a member is populated in it. -/
structure Packs (c : Restoring) (oneof : OneofPlan) (payload : Message) (member : OneofMember) :
    Prop where
  decodes : ∃ bytes, valueNamed? c.pool c.plain oneof.name = some (.bytes bytes) ∧
    Wire.decode? c.source c.type.fullName bytes = some payload
  populates : Populates c.source payload oneof member

/-- The error of a payload that holds a member under a discriminator that does not name it. -/
inductive TagError (c : Restoring) (oneof : OneofPlan) (member : OneofMember) : ConvertError → Prop
  | mismatch {tagged : OneofMember} (hmem : tagged ∈ oneof.members)
      (hnames : c.TagNames oneof tagged) :
      TagError c oneof member (.dispatchMismatch oneof.name tagged.name member.name)
  | unknown (hnone : ∀ tagged ∈ oneof.members, ¬ c.TagNames oneof tagged) :
      TagError c oneof member (.unknownDiscriminator oneof.name (c.tagText oneof))

theorem any_names_iff :
    member.withEnums.any (⟨c.tagText oneof⟩ : Discriminator).names ↔ c.TagNames oneof member := by
  rw [List.any_eq_true, TagNames]
  exact exists_congr fun value => and_congr_right fun _ => beq_iff_eq.trans eq_comm

/-- The discriminator that is read is the text without leading dots, if that names anything. -/
theorem discriminator?_eq
    (hfield : discriminatorField? c.plan oneof.name = some (oneof.name ++ "_disc")) :
    c.discriminator? oneof.name
      = if c.tagText oneof = "" then none else some ⟨c.tagText oneof⟩ := by
  rw [discriminator?, hfield, tagText]
  simp only [Option.bind_eq_bind, Option.bind_some]
  cases valueNamed? c.pool c.plain (oneof.name ++ "_disc") with
  | none => rfl
  | some value =>
    cases value with
    | string text =>
      simp only [Option.bind_some, Discriminator.ofName, Discriminator.isEmpty,
        String.isEmpty_iff]
    | _ => rfl

theorem Packs.type?_payload (h : c.Packs oneof payload member)
    (hfound : c.source.message? c.type.fullName = some c.type) :
    payload.type? c.source = some c.type := by
  obtain ⟨bytes, -, hdecode⟩ := h.decodes
  rw [Message.type?, Wire.type_decode? hdecode]
  exact hfound

/-- A payload that holds a member has bytes. -/
theorem Packs.exists_cons (h : c.Packs oneof payload member) :
    ∃ b bytes, valueNamed? c.pool c.plain oneof.name = some (.bytes (b :: bytes)) ∧
      Wire.decode? c.source c.type.fullName (b :: bytes) = some payload := by
  obtain ⟨bytes, hvalue, hdecode⟩ := h.decodes
  cases bytes with
  | nil =>
    rw [Wire.decode?_nil] at hdecode
    obtain rfl := Option.some.inj hdecode
    exact absurd h.populates.hasNamed.2 (not_hasNamed_new _ _ _)
  | cons b bytes => exact ⟨b, bytes, hvalue, hdecode⟩

/-! ## The payload among the fields -/

/-- The place of a payload among the fields of a plan.  The fields of the members of its oneof are the
ones at an index, and no other step touches them. -/
structure PayloadAt (c : Restoring) (oneof : OneofPlan) (index : Nat) (before : List FieldPlan)
    (plan : FieldPlan) (after : List FieldPlan) : Prop where
  linked : c.source.Linked
  found : c.source.message? c.type.fullName = some c.type
  oneof?_name : c.plan.oneof? oneof.name = some oneof
  split : c.plan.fields = before ++ plan :: after
  role : plan.origin.role = some (.payload oneof.name)
  name : plan.shape.name = oneof.name
  discriminator : discriminatorField? c.plan oneof.name = some (oneof.name ++ "_disc")
  members : (oneof.members.map (·.name)).Nodup
  /-- Two members have no enum value in common. -/
  distinct : ∀ first ∈ oneof.members, ∀ second ∈ oneof.members, c.TagNames oneof first →
    c.TagNames oneof second → first = second
  fields : ∀ member ∈ oneof.members, ∀ field, c.type.field? member.name = some field →
    field.tracksPresence ∧ field.oneof = some index
  isMemberOf : ∀ field ∈ c.type.fields, field.oneof = some index → c.IsMemberOf oneof.name field
  namesNoTag : NamesNoTag c.plan oneof.name
  ignores : ∀ other, other ∈ before ∨ other ∈ after → Ignores c.plan oneof.name other
  others : ∀ other, other ∈ before ∨ other ∈ after → ∀ selection,
    ActsOnOne c.source c.type (fun field => field.oneof ≠ some index)
      (c.restoreStep selection · other)
  selected : ∀ selection, selectMembers c.mode c.pool c.plain c.plan.oneofs = .ok selection →
    ∀ selected ∈ selection, ∀ field, c.type.field? selected.2.name = some field →
      field.oneof ≠ some index

/-- What a message holds of the members of a oneof is what came out of its payload. -/
structure FromPayload (c : Restoring) (oneof : OneofPlan) (payload : Message) (member : OneofMember)
    (m : Message) : Prop where
  packs : c.Packs oneof payload member
  allows : c.TagAllows oneof member
  value : ∀ field, c.type.field? member.name = some field →
    m.value? field.number = payload.value? field.number
  alone : ∀ other ∈ oneof.members, hasNamed c.source m other.name → other = member

theorem closedUnderOneofs_eq (type : MessageType) (index : Nat) :
    type.ClosedUnderOneofs fun field => field.oneof = some index := by
  rintro field other - hfield ⟨-, i, hi, hi'⟩
  exact hi'.trans (hi.symm.trans hfield)

theorem closedUnderOneofs_ne (type : MessageType) (index : Nat) :
    type.ClosedUnderOneofs fun field => field.oneof ≠ some index := by
  rintro field other - hfield ⟨-, i, hi, hi'⟩ hother
  exact hfield (hi.trans (hi'.symm.trans hother))

namespace PayloadAt

variable (h : c.PayloadAt oneof index before plan after)

include h

theorem linkedType : c.type.Linked :=
  h.linked c.type (Pool.message?_mem h.found).1

theorem isMemberOf_iff {field : Field} (hfield : field ∈ c.type.fields) :
    c.IsMemberOf oneof.name field ↔ field.oneof = some index := by
  refine ⟨?_, h.isMemberOf field hfield⟩
  rintro ⟨found, hfound, member, hmember, hfield⟩
  obtain rfl := Option.some.inj (h.oneof?_name.symm.trans hfound)
  exact (h.fields member hmember field hfield).2

theorem mem : plan ∈ c.plan.fields := by
  rw [h.split]
  exact List.mem_append_right _ List.mem_cons_self

theorem not_isReversible : ¬ plan.isReversible :=
  fun hreversible => FieldPlan.role_ne hreversible _ h.role

theorem restoreField_eq (selection : Selection) (out : Message) :
    c.restoreField selection out plan = c.restorePayload plan oneof.name out := by
  rw [restoreField, h.role]

/-! ## The check of a discriminator -/

theorem checkDiscriminator_of_names (htagged : tagged ∈ oneof.members)
    (hnames : c.TagNames oneof tagged) :
    checkDiscriminator oneof ⟨c.tagText oneof⟩ member
      = if tagged.name = member.name then .ok ()
        else .error (.dispatchMismatch oneof.name tagged.name member.name) := by
  rw [checkDiscriminator]
  cases hfind : oneof.members.find? fun member =>
      member.withEnums.any (⟨c.tagText oneof⟩ : Discriminator).names with
  | none =>
    exact absurd (any_names_iff.mpr hnames) (List.find?_eq_none.mp hfind tagged htagged)
  | some found =>
    have hfound : c.TagNames oneof found := any_names_iff.mp (by simpa using List.find?_some hfind)
    obtain rfl := h.distinct found (List.mem_of_find?_eq_some hfind) tagged htagged hfound hnames
    rfl

omit h in
theorem checkDiscriminator_of_none (hnone : ∀ tagged ∈ oneof.members, ¬ c.TagNames oneof tagged) :
    checkDiscriminator oneof ⟨c.tagText oneof⟩ member
      = .error (.unknownDiscriminator oneof.name (c.tagText oneof)) := by
  rw [checkDiscriminator, List.find?_eq_none.mpr fun tagged htagged hany =>
    hnone tagged htagged (any_names_iff.mp hany)]

/-- A discriminator that names something lets the member through that it names, and no other. -/
theorem tagNames_of_checkDiscriminator (hmember : member ∈ oneof.members)
    (hcheck : checkDiscriminator oneof ⟨c.tagText oneof⟩ member = .ok ()) :
    c.TagNames oneof member := by
  by_cases hnames : ∃ tagged ∈ oneof.members, c.TagNames oneof tagged
  · obtain ⟨tagged, htagged, hnames⟩ := hnames
    rw [h.checkDiscriminator_of_names htagged hnames] at hcheck
    by_cases hsame : tagged.name = member.name
    · rwa [← List.inj_on_of_nodup_map h.members htagged hmember hsame]
    · rw [if_neg hsame] at hcheck
      cases hcheck
  · rw [checkDiscriminator_of_none fun tagged htagged hnamed =>
      hnames ⟨tagged, htagged, hnamed⟩] at hcheck
    cases hcheck

theorem checkDiscriminator_eq_error (hmember : member ∈ oneof.members)
    (hnot : ¬ c.TagNames oneof member) (herror : c.TagError oneof member e) :
    checkDiscriminator oneof ⟨c.tagText oneof⟩ member = .error e := by
  cases herror with
  | unknown hnone => exact checkDiscriminator_of_none hnone
  | @mismatch tagged htagged hnames =>
    rw [h.checkDiscriminator_of_names htagged hnames, if_neg]
    intro hsame
    exact hnot (List.inj_on_of_nodup_map h.members htagged hmember hsame ▸ hnames)

/-! ## The step of the payload -/

theorem restorePayload_of_packs (hpacks : c.Packs oneof payload member) {field : Field}
    (hfield : c.type.field? member.name = some field) (out : Message) :
    c.restorePayload plan oneof.name out
      = (if c.tagText oneof = "" then .ok () else checkDiscriminator oneof ⟨c.tagText oneof⟩ member)
        >>= fun _ => setField c.source out c.type field (payload.get c.source field) := by
  obtain ⟨b, bytes, hvalue, hdecode⟩ := hpacks.exists_cons
  obtain ⟨position, hposition, hmember⟩ := hpacks.populates
  rw [restorePayload, h.name]
  simp only [hvalue, hdecode, h.oneof?_name, hposition, hmember, Option.bind_eq_bind,
    Option.bind_some, Option.pure_def, hfield, discriminator?_eq h.discriminator]
  by_cases htag : c.tagText oneof = ""
  · simp only [htag, if_true]
    rfl
  · simp only [htag, if_false]

/-- Under its own tag, or none, a member is put back with the value in the payload. -/
theorem restorePayload_of_allows (hpacks : c.Packs oneof payload member)
    (hallows : c.TagAllows oneof member) {field : Field}
    (hfield : c.type.field? member.name = some field) (out : Message) :
    c.restorePayload plan oneof.name out
      = setField c.source out c.type field (payload.get c.source field) := by
  rw [h.restorePayload_of_packs hpacks hfield]
  by_cases htag : c.tagText oneof = ""
  · rw [if_pos htag]
    rfl
  · have hnames := hallows.resolve_left htag
    rw [if_neg htag, h.checkDiscriminator_of_names hpacks.populates.hasNamed.1 hnames, if_pos rfl]
    rfl

/-- A payload is refused under the tag of another member, or under one that names none. -/
theorem restorePayload_eq_error (hpacks : c.Packs oneof payload member)
    (htag : c.tagText oneof ≠ "") (hnot : ¬ c.TagNames oneof member)
    (herror : c.TagError oneof member e) (out : Message) :
    c.restorePayload plan oneof.name out = .error e := by
  obtain ⟨hmember, hnamed⟩ := hpacks.populates.hasNamed
  obtain ⟨field, hfield, -⟩ := exists_of_hasNamed (hpacks.type?_payload h.found) hnamed
  rw [h.restorePayload_of_packs hpacks hfield, if_neg htag,
    h.checkDiscriminator_eq_error hmember hnot herror]
  rfl

/-- What the step of a payload writes came out of it, under its own tag or none. -/
theorem exists_packs_of_restoreStep (hstep : c.restoreStep selection out plan = .ok out') :
    out' = out ∨ ∃ payload member field, c.Packs oneof payload member ∧ c.TagAllows oneof member ∧
      c.type.field? member.name = some field ∧
      out' = out.set c.type field (payload.get c.source field) := by
  rw [restoreStep, leftBehind_of_not_isReversible h.not_isReversible, h.restoreField_eq] at hstep
  rcases Mode.settle_eq_ok hstep with rfl | hstep
  · exact Or.inl rfl
  rcases restorePayload_eq_ok hstep with rfl | ⟨found, bytes, payload, position, member, field, hfound,
    hvalue, hdecode, hposition, hmember, hcheck, hfield, rfl⟩
  · exact Or.inl rfl
  obtain rfl := Option.some.inj (h.oneof?_name.symm.trans hfound)
  rw [h.name] at hvalue
  refine Or.inr ⟨payload, member, field, ⟨⟨bytes, hvalue, hdecode⟩, position, hposition, hmember⟩, ?_,
    hfield, rfl⟩
  by_cases htag : c.tagText oneof = ""
  · exact Or.inl htag
  · have hread := discriminator?_eq h.discriminator
    rw [if_neg htag] at hread
    exact Or.inr (h.tagNames_of_checkDiscriminator (List.mem_of_getElem? hmember) (hcheck _ hread))

theorem actsOnOne_restoreStep :
    ActsOnOne c.source c.type (fun field => field.oneof = some index)
      (c.restoreStep selection · plan) := by
  have hfield : ActsOnOne c.source c.type (c.IsMemberOf oneof.name)
      (c.restoreField selection · plan) := by
    simp only [h.restoreField_eq]
    exact actsOnOne_restorePayload
  exact (hfield.settle fun out _ => leftBehind_of_not_isReversible h.not_isReversible out).mono
    fun field hmem => (h.isMemberOf_iff hmem).mp

/-! ## Runs -/

/-- In a run nothing is written to the members of a oneof but by the step of its payload. -/
theorem exists_restoreStep_of_run (hrun : c.run = .ok m) :
    ∃ selection first second, c.restoreStep selection first plan = .ok second ∧
      ∀ field ∈ c.type.fields, field.oneof = some index →
        first.value? field.number = none ∧ m.value? field.number = second.value? field.number := by
  obtain ⟨selection, hselection⟩ := exists_selection_of_run hrun
  obtain ⟨third, hfields, hlast⟩ := exists_folds_of_run hselection hrun
  rw [h.split] at hfields
  obtain ⟨first, hfirst, hrest⟩ := foldlM_append_eq_ok.mp hfields
  obtain ⟨second, hsecond, hthird⟩ := foldlM_cons_eq_ok.mp hrest
  have hnew : Message.type? c.source { type := c.type.fullName } = some c.type := h.found
  have hclosed := closedUnderOneofs_ne c.type index
  have hfirstType := type?_foldlM_restoreStep hnew hfirst
  have hsettled : c.mode.settle first (c.restoreStep selection first plan) = .ok second := by
    rw [restoreStep, Mode.settle_settle]
    exact hsecond
  have hacts : ActsOnOne c.source c.type (fun field => field.oneof = some index)
      (c.restoreStep selection · plan) := h.actsOnOne_restoreStep
  have hsecondType := hacts.type? hfirstType hsettled
  rw [settle_restoreStep] at hfirst hthird
  have hbefore := agreeOutside_foldlM_self h.linkedType hclosed
    (fun other hother => h.others other (Or.inl hother) selection) hnew hfirst
  have hafter := agreeOutside_foldlM_self h.linkedType hclosed
    (fun other hother => h.others other (Or.inr hother) selection) hsecondType hthird
  have hselected := agreeOutside_foldlM_self h.linkedType hclosed
    (fun selected hmem => actsOnOne_ensureSelected.mono fun field _ =>
      h.selected selection hselection selected hmem field) hafter.right hlast
  refine ⟨selection, first, second, hsecond, fun field hmem hindex => ⟨?_, ?_⟩⟩
  · exact (hbefore.agree field hmem (not_not.mpr hindex)).symm
  · exact ((hafter.trans hselected).agree field hmem (not_not.mpr hindex)).symm

/-- Of the members of a oneof a write leaves only the one that it sets. -/
theorem eq_of_isSome_set {field other : Field} (hfield : field ∈ c.type.fields)
    (hother : other ∈ c.type.fields) (hindex : field.oneof = some index)
    (hindex' : other.oneof = some index) {value : Value}
    (hsome : ((out.set c.type field value).value? other.number).isSome) : field = other := by
  by_contra hne
  have hnumber : field.number ≠ other.number :=
    fun heq => hne (h.linkedType.eq_of_number hfield hother heq)
  rw [Message.value?_set_excluded hother ⟨hnumber, index, hindex, hindex'⟩] at hsome
  exact absurd hsome Bool.false_ne_true

theorem eq_of_field? (hmember : member ∈ oneof.members) (htagged : tagged ∈ oneof.members)
    {field : Field} (hfield : c.type.field? member.name = some field)
    (hfield' : c.type.field? tagged.name = some field) : member = tagged :=
  List.inj_on_of_nodup_map h.members hmember htagged
    ((MessageType.field?_mem hfield).2.symm.trans (MessageType.field?_mem hfield').2)

/-- What a member is put back with decides what the source message holds of the oneof. -/
theorem fromPayload_of_set (hpacks : c.Packs oneof payload member) (hallows : c.TagAllows oneof member)
    {field : Field} (hfield : c.type.field? member.name = some field)
    (htype : m.type? c.source = some c.type)
    (hsame : ∀ other ∈ c.type.fields, other.oneof = some index → m.value? other.number
      = (out.set c.type field (payload.get c.source field)).value? other.number) :
    c.FromPayload oneof payload member m := by
  obtain ⟨hmember, hnamed⟩ := hpacks.populates.hasNamed
  obtain ⟨hmem, -⟩ := MessageType.field?_mem hfield
  obtain ⟨-, hindex⟩ := h.fields member hmember field hfield
  refine ⟨hpacks, hallows, fun found hfound => ?_, fun other hother hhas => ?_⟩
  · obtain rfl := Option.some.inj (hfield.symm.trans hfound)
    obtain ⟨field, hfield', hset⟩ := exists_of_hasNamed (hpacks.type?_payload h.found) hnamed
    obtain rfl := Option.some.inj (hfield.symm.trans hfield')
    obtain ⟨value, hvalue⟩ := Option.isSome_iff_exists.mp (isSome_of_has hset)
    rw [hsame _ hmem hindex, Message.value?_set_self, Message.get, hvalue]
    rfl
  · obtain ⟨otherField, hotherField, hset⟩ := exists_of_hasNamed htype hhas
    obtain ⟨hotherMem, -⟩ := MessageType.field?_mem hotherField
    obtain ⟨-, hotherIndex⟩ := h.fields other hother otherField hotherField
    have hsome := isSome_of_has hset
    rw [hsame otherField hotherMem hotherIndex] at hsome
    obtain rfl := h.eq_of_isSome_set hmem hotherMem hindex hotherIndex hsome
    exact h.eq_of_field? hother hmember hotherField hfield

/-- **A member that the source message holds came out of the payload**, alone, and with the value
there. -/
theorem fromPayload_run (hrun : c.run = .ok m) (hmember : member ∈ oneof.members)
    (hhas : hasNamed c.source m member.name) : ∃ payload, c.FromPayload oneof payload member m := by
  obtain ⟨selection, first, second, hstep, hsame⟩ := h.exists_restoreStep_of_run hrun
  have htype := (holdsOnly_run h.found hrun).type? h.found
  -- What the message holds of the member is what the step wrote.
  obtain ⟨field, hfield, hset⟩ := exists_of_hasNamed htype hhas
  obtain ⟨hmem, -⟩ := MessageType.field?_mem hfield
  obtain ⟨-, hindex⟩ := h.fields member hmember field hfield
  have hsome := isSome_of_has hset
  rw [(hsame field hmem hindex).2] at hsome
  rcases h.exists_packs_of_restoreStep hstep with rfl | ⟨payload, packed, written, hpacks, hallows,
    hwritten, rfl⟩
  · rw [(hsame field hmem hindex).1] at hsome
    exact absurd hsome Bool.false_ne_true
  obtain ⟨hpacked, -⟩ := hpacks.populates.hasNamed
  obtain ⟨hwrittenMem, -⟩ := MessageType.field?_mem hwritten
  obtain ⟨-, hwrittenIndex⟩ := h.fields packed hpacked written hwritten
  obtain rfl := h.eq_of_isSome_set hwrittenMem hmem hwrittenIndex hindex hsome
  obtain rfl := h.eq_of_field? hpacked hmember hwritten hfield
  exact ⟨payload, h.fromPayload_of_set hpacks hallows hwritten htype fun other hother hother' =>
    (hsame other hother hother').2⟩

/-- **A member is put back under its own tag, or under none**: what bytes hold of a singular member can
be set. -/
theorem fromPayload_of_allows (hrun : c.run = .ok m) (hpacks : c.Packs oneof payload member)
    (hallows : c.TagAllows oneof member)
    (hsingular : ∀ field, c.type.field? member.name = some field → field.isSingular) :
    c.FromPayload oneof payload member m := by
  obtain ⟨selection, first, second, hstep, hsame⟩ := h.exists_restoreStep_of_run hrun
  have htype := (holdsOnly_run h.found hrun).type? h.found
  obtain ⟨-, hnamed⟩ := hpacks.populates.hasNamed
  obtain ⟨field, hfield, hset⟩ := exists_of_hasNamed (hpacks.type?_payload h.found) hnamed
  obtain ⟨hmem, -⟩ := MessageType.field?_mem hfield
  have haccepts : c.source.accepts field (payload.get c.source field) := by
    obtain ⟨bytes, -, hdecode⟩ := hpacks.decodes
    obtain ⟨value, hvalue⟩ := Option.isSome_iff_exists.mp (isSome_of_has hset)
    rw [Message.get, hvalue, Option.getD_some]
    exact Pool.accepts_of_type (Wire.accepts_of_decode? h.linkedType h.found hdecode hmem
      (hsingular field hfield) hvalue)
  rw [restoreStep, h.restoreField_eq, h.restorePayload_of_allows hpacks hallows hfield, setField,
    Message.set?, if_pos haccepts, Mode.settle_ok] at hstep
  obtain rfl := Except.ok.inj hstep
  exact h.fromPayload_of_set hpacks hallows hfield htype fun other hother hother' =>
    (hsame other hother hother').2

/-- Another payload changes nothing but the members of its oneof. -/
theorem agreeOutside_run (hbeside : c.plain.AgreeBeside c.pool oneof.name p') (hrun : c.run = .ok m)
    (hrun' : (c.withPlain p').run = .ok m') :
    AgreeOutside c.source c.type (c.IsMemberOf oneof.name) m m' := by
  obtain ⟨selection, hselection⟩ := exists_selection_of_run hrun
  have hacts : ActsOnOne c.source c.type (fun field => field.oneof = some index)
      ((c.withPlain p').restoreStep selection · plan) := by
    have hfield : ActsOnOne c.source c.type (c.IsMemberOf oneof.name)
        ((c.withPlain p').restoreField selection · plan) := by
      unfold restoreField
      rw [h.role]
      exact actsOnOne_restorePayload (c := c.withPlain p')
    exact (hfield.settle fun out _ => leftBehind_of_not_isReversible h.not_isReversible out).mono
      fun field hmem => (h.isMemberOf_iff hmem).mp
  have hagree := Restoring.agreeOutside_run h.linked h.found (closedUnderOneofs_eq c.type index) h.split
    h.namesNoTag h.ignores hbeside hselection h.actsOnOne_restoreStep hacts hrun hrun'
  exact ⟨hagree.left, hagree.right, fun field hmem hfree =>
    hagree.agree field hmem fun hindex => hfree (h.isMemberOf field hmem hindex)⟩

end PayloadAt

end Restoring

end PlainSchema
