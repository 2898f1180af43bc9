import PlainSchema.Proofs.Convert.Companions
import PlainSchema.Proofs.Plan.Members
import PlainSchema.Proofs.Value.WellTyped

/-!
# What the tag of a oneof decides

The tag of an enum-dispatched oneof selects a member by its place.  A tag that selects none ends a
strict conversion, and with any other tag the message comes back with the selected member set and no
other one, in both modes.

A Plain field that is set and is to be written through a path of another member contradicts the tag.
The check for this asks for the group of the field, which for a merged field is the group of its first
origin, so the cases are:

* a field of the group of the oneof is refused, by name of the two members;
* a field outside the group is written, and lost when the selected member is set in the end.

**A conversion obeys a tag exactly if no field outside the group contradicts it.**  That holds of every
Plain message when the fields that are read from members are in the group and no companion strays.
-/

namespace PlainSchema

open Proto

/-! ## The member that a tag selects -/

section Selection

open Restoring

variable {pool : Pool} {p : Message} {oneof : OneofPlan} {dispatch : DispatchPlan} {tag : Int32}
  {mode : Mode} {oneofs : List OneofPlan} {selection : Selection} {member : OneofMember}

/-- A member is selected by its place among the members, counted from one. -/
theorem selectedMember_eq_some (hdispatch : oneof.dispatch = some dispatch)
    (htag : valueNamed? pool p dispatch.fieldName = some (.enum tag)) {i : Nat}
    (hmember : oneof.members[i]? = some member) (hi : tag.toInt = i + 1) :
    selectedMember pool p oneof = .ok (some member) := by
  unfold selectedMember
  rw [hdispatch, Option.bind_some, htag]
  have hnonzero : tag.toInt ≠ 0 := by omega
  have hpositive : 0 < tag.toInt := by omega
  have hplace : (tag.toInt - 1).toNat = i := by omega
  simp only [hnonzero, hpositive, if_true, if_false, hplace, hmember]

theorem selectedMember_eq_error (hdispatch : oneof.dispatch = some dispatch)
    (htag : valueNamed? pool p dispatch.fieldName = some (.enum tag))
    (hrange : ¬ (0 ≤ tag.toInt ∧ tag.toInt ≤ oneof.members.length)) :
    selectedMember pool p oneof
      = .error (.unknownDiscriminator oneof.name (toString tag.toInt)) := by
  unfold selectedMember
  rw [hdispatch, Option.bind_some, htag]
  have hnonzero : tag.toInt ≠ 0 := by omega
  by_cases hpositive : 0 < tag.toInt
  · have hnone : oneof.members[(tag.toInt - 1).toNat]? = none := by
      apply List.getElem?_eq_none
      omega
    simp only [hnonzero, hpositive, if_true, if_false, hnone]
  · simp only [hnonzero, hpositive, if_false]

/-- The only error that a tag leads to. -/
theorem eq_of_selectedMember_eq_error {e : ConvertError}
    (h : selectedMember pool p oneof = .error e) :
    ∃ text, e = .unknownDiscriminator oneof.name text := by
  unfold selectedMember at h
  split at h
  · next found _ =>
    by_cases hzero : found.toInt = 0
    · simp [hzero] at h
    · simp only [hzero, if_false] at h
      split at h
      · exact absurd h nofun
      · exact ⟨_, (Except.error.inj h).symm⟩
  · exact absurd h nofun

/-- A strict conversion reads all tags first. -/
theorem selectMembers_eq_error (casters : Casters (Value → Except String Value))
    (honeof : oneof ∈ oneofs) {e : ConvertError} (herror : selectedMember pool p oneof = .error e) :
    ∃ other ∈ oneofs, ∃ text,
      selectMembers (.strict casters) pool p oneofs
        = .error (.unknownDiscriminator other.name text) := by
  have hstep : ∀ before, ∃ e, selectNext (.strict casters) pool p before oneof = .error e := by
    intro before
    unfold selectNext
    rw [Mode.settle_strict, herror]
    exact ⟨e, rfl⟩
  obtain ⟨other, hother, before, found, hfound, hrun⟩ := exists_error_foldlM honeof hstep []
  unfold selectNext at hfound
  rw [Mode.settle_strict] at hfound
  cases hselected : selectedMember pool p other with
  | error e' =>
    rw [hselected] at hfound
    obtain rfl : e' = found := Except.error.inj hfound
    obtain ⟨text, rfl⟩ := eq_of_selectedMember_eq_error hselected
    exact ⟨other, hother, text, hrun⟩
  | ok picked =>
    rw [hselected] at hfound
    cases picked <;> exact absurd hfound nofun

theorem exists_selectMembers_lenient (pool : Pool) (p : Message) (oneofs : List OneofPlan)
    (casters : Casters (Value → Value)) :
    ∃ selection, selectMembers (.lenient casters) pool p oneofs = .ok selection := by
  rw [selectMembers_eq]
  apply exists_foldlM_of_total
  intro before oneof
  unfold selectNext
  exact Mode.exists_settle_lenient casters before _

/-- Each oneof is asked once, in turn. -/
theorem selectMembers_sublist (h : selectMembers mode pool p oneofs = .ok selection) :
    (selection.map (·.1)).Sublist (oneofs.map (·.name)) := by
  rw [selectMembers_eq] at h
  refine foldlM_prefix (fun (met : List OneofPlan) (selection : Selection) =>
    (selection.map (·.1)).Sublist (met.map (·.name))) (List.Sublist.refl _) ?_ h
  intro met oneof before after hbefore hstep
  rw [List.map_append]
  rcases selectNext_eq_ok hstep with rfl | ⟨member, -, rfl⟩
  · exact hbefore.trans (List.sublist_append_left _ _)
  · rw [List.map_append]
    exact hbefore.append (List.Sublist.refl _)

/-- A selected member stays selected, whatever the other tags say. -/
theorem mem_selectMembers_of_selected (honeof : oneof ∈ oneofs)
    (hselected : selectedMember pool p oneof = .ok (some member))
    (h : selectMembers mode pool p oneofs = .ok selection) : (oneof.name, member) ∈ selection := by
  rw [selectMembers_eq] at h
  refine foldlM_prefix (fun (met : List OneofPlan) (selection : Selection) =>
    oneof ∈ met → (oneof.name, member) ∈ selection) (by simp) ?_ h honeof
  intro met other before after hbefore hstep hmem
  rcases List.mem_append.mp hmem with hmem | hmem
  · rcases selectNext_eq_ok hstep with rfl | ⟨picked, -, rfl⟩
    · exact hbefore hmem
    · exact List.mem_append_left _ (hbefore hmem)
  · obtain rfl := List.mem_singleton.mp hmem
    unfold selectNext at hstep
    rw [hselected] at hstep
    have hok := (Mode.settle_ok mode before (before ++ [(oneof.name, member)])).symm.trans hstep
    rw [← Except.ok.inj hok]
    exact List.mem_append_right _ List.mem_cons_self

end Selection

/-! ## One member at a time -/

/-- Of the fields that exclude each other a message stores one at most. -/
def Message.StoresApart (type : MessageType) (m : Message) : Prop :=
  ∀ field ∈ type.fields, ∀ other ∈ type.fields, field.Excludes other →
    (m.value? field.number).isSome → m.value? other.number = none

section StoresApart

variable {pool : Pool} {type : MessageType} {m next : Message} {mode : Mode}
  {step : Message → Except ConvertError Message} {may : Field → Prop}

theorem Message.StoresApart.new (type : MessageType) (name : String) :
    Message.StoresApart type { type := name } := by
  intro _ _ _ _ _ hsome
  exact absurd hsome Bool.false_ne_true

theorem Message.StoresApart.set (h : m.StoresApart type) (hlinked : type.Linked) {written : Field}
    (hwritten : written ∈ type.fields) (value : Value) :
    (m.set type written value).StoresApart type := by
  intro field hfield other hother hexcludes hsome
  by_cases hcleared : written.Excludes other
  · exact Message.value?_set_excluded hother hcleared
  by_cases hcleared' : written.Excludes field
  · rw [Message.value?_set_excluded hfield hcleared'] at hsome
    exact absurd hsome (by simp)
  -- Neither of the two is in the oneof of the written field, so neither of them is that field.
  have hne : written.number ≠ field.number := by
    intro heq
    obtain rfl := hlinked.eq_of_number hwritten hfield heq
    exact hcleared hexcludes
  have hne' : written.number ≠ other.number := by
    intro heq
    obtain rfl := hlinked.eq_of_number hwritten hother heq
    obtain ⟨hnumber, i, hi, hi'⟩ := hexcludes
    exact hcleared' ⟨hnumber.symm, i, hi', hi⟩
  rw [Message.value?_set_of_not_excludes hlinked hfield hne hcleared'] at hsome
  rw [Message.value?_set_of_not_excludes hlinked hother hne' hcleared]
  exact h field hfield other hother hexcludes hsome

theorem ActsOnOne.type? (h : ActsOnOne pool type may step) (htype : m.type? pool = some type)
    (hstep : mode.settle m (step m) = .ok next) : next.type? pool = some type := by
  rcases h.eq_or_set htype hstep with rfl | ⟨field, -, -, value, rfl⟩
  · exact htype
  · exact Message.type?_set htype field value

theorem ActsOnOne.storesApart (h : ActsOnOne pool type may step) (hlinked : type.Linked)
    (htype : m.type? pool = some type) (hm : m.StoresApart type)
    (hstep : mode.settle m (step m) = .ok next) : next.StoresApart type := by
  rcases h.eq_or_set htype hstep with rfl | ⟨field, hfield, -, value, rfl⟩
  · exact hm
  · exact hm.set hlinked hfield value

variable {α : Type} {steps : Message → α → Except ConvertError Message} {mays : α → Field → Prop}
  {xs : List α} (hsteps : ∀ x ∈ xs, ActsOnOne pool type (mays x) (steps · x))

include hsteps

theorem type?_foldlM_actsOnOne (htype : m.type? pool = some type)
    (h : xs.foldlM (fun out x => mode.settle out (steps out x)) m = .ok next) :
    next.type? pool = some type :=
  foldlM_invariant (fun out : Message => out.type? pool = some type) htype
    (fun _ x _ hx hbefore hstep => (hsteps x hx).type? hbefore hstep) h

theorem storesApart_foldlM (hlinked : type.Linked) (htype : m.type? pool = some type)
    (hm : m.StoresApart type)
    (h : xs.foldlM (fun out x => mode.settle out (steps out x)) m = .ok next) :
    next.StoresApart type := by
  refine (foldlM_invariant (fun out : Message => out.type? pool = some type ∧ out.StoresApart type)
    ⟨htype, hm⟩ ?_ h).2
  intro before x after hx hbefore hstep
  exact ⟨(hsteps x hx).type? hbefore.1 hstep,
    (hsteps x hx).storesApart hlinked hbefore.1 hbefore.2 hstep⟩

end StoresApart

/-- A message holds the member of a oneof in one place and no other member of it. -/
def Message.HoldsMemberAt (pool : Pool) (m : Message) (oneof : OneofPlan) (i : Nat) : Prop :=
  ∀ j member, oneof.members[j]? = some member → (hasNamed pool m member.name ↔ j = i)

namespace Restoring

variable {c : Restoring} {casters : Casters (Value → Except String Value)} {selection : Selection}
  {oneof : OneofPlan} {member other : OneofMember} {plan : FieldPlan} {out out' m : Message}
  {after : Selection}

/-- The same conversion in some mode and with some conversion of the messages inside. -/
def inMode (c : Restoring) (mode : Mode) (nested : ConvertNested) : Restoring :=
  { c with mode, nested }

theorem hasNamed_eq {pool : Pool} {type : MessageType} {field : Field} {name : String}
    (htype : m.type? pool = some type) (hfield : type.field? name = some field) :
    hasNamed pool m name = m.has pool field := by
  simp [hasNamed, htype, hfield]

/-- A field that counts as set has a value to write back. -/
theorem exists_value_of_hasNamed {pool : Pool} {name : String} (h : hasNamed pool m name) :
    ∃ type field, m.type? pool = some type ∧ type.field? name = some field ∧
      ∃ value, m.get? pool field = some value := by
  unfold hasNamed at h
  cases htype : m.type? pool with
  | none => simp [htype] at h
  | some type =>
    cases hfield : type.field? name with
    | none => simp [htype, hfield] at h
    | some field =>
      have hhas : m.has pool field := by simpa [htype, hfield] using h
      refine ⟨type, field, rfl, hfield, ?_⟩
      rw [Message.get?_of_has hhas]
      cases hvalue : m.value? field.number with
      | none => simp [Message.has, hvalue] at hhas
      | some value => exact ⟨value, rfl⟩

theorem exists_selection_of_run (h : c.run = .ok m) :
    ∃ selection, selectMembers c.mode c.pool c.plain c.plan.oneofs = .ok selection := by
  unfold run at h
  obtain ⟨selection, hselection, -⟩ := bind_eq_ok.mp h
  exact ⟨selection, hselection⟩

/-! ## Setting the selected members -/

/-- A selected member can always be set. -/
theorem exists_ensureSelected_default (c : Restoring) (out : Message) (member : OneofMember) :
    ∃ out', c.ensureSelected out member = .ok out' := by
  unfold ensureSelected
  split
  · exact ⟨out, rfl⟩
  · next field hfield =>
    split
    · exact ⟨out, rfl⟩
    · refine ⟨out.set c.type field (c.source.defaultOf field.type), ?_⟩
      rw [setField, Message.set?, if_pos (accepts_defaultOf c.source field)]

theorem isSome_ensureSelected {mode : Mode} {field : Field}
    (hfield : c.type.field? member.name = some field) (hpresence : field.tracksPresence)
    (h : mode.settle out (c.ensureSelected out member) = .ok out') :
    (out'.value? field.number).isSome := by
  obtain ⟨found, hfound⟩ := exists_ensureSelected_default c out member
  rw [hfound, Mode.settle_ok] at h
  obtain rfl := Except.ok.inj h
  unfold ensureSelected at hfound
  rw [hfield] at hfound
  dsimp only at hfound
  split at hfound
  · next hhas =>
    obtain rfl := Except.ok.inj hfound
    rwa [Message.has_of_tracksPresence hpresence] at hhas
  · obtain ⟨-, rfl⟩ := setField_eq_ok hfound
    rw [Message.value?_set_self]
    rfl

namespace Restores

variable {schema : Schema} {settings : Settings} {renames : Renames} {source : SourceMessage}
  (hc : c.Restores casters schema settings renames source)

include hc

/-- A member of a oneof of the plan is a field in a oneof of the type. -/
theorem exists_memberField (honeof : oneof ∈ c.plan.oneofs) (hmember : member ∈ oneof.members) :
    ∃ field ∈ c.type.fields, c.type.field? member.name = some field ∧ ∃ index,
      field.oneof = some index ∧ (source.oneofs.map (·.name))[index]? = some oneof.name := by
  obtain ⟨index, found, hfound, hname, hplans⟩ := hc.isPlan.exists_plansOneof hc.generate honeof
  obtain ⟨sourceField, hsource, hsourceName, hindex⟩ := hplans.exists_field hmember
  obtain ⟨field, hfield, rfl, hfind⟩ :=
    hc.views.exists_field (hc.linked c.type hc.views.mem) hsource
  rw [hsourceName] at hfind
  refine ⟨field, hfield, hfind, index, hindex, ?_⟩
  rw [List.getElem?_map, show source.oneofs[index]? = some found from hfound, Option.map_some, hname]

/-- The fields of members of different oneofs do not exclude each other. -/
theorem not_excludes_of_name_ne {oneof' : OneofPlan} (honeof : oneof ∈ c.plan.oneofs)
    (honeof' : oneof' ∈ c.plan.oneofs) (hne : oneof.name ≠ oneof'.name)
    (hmember : member ∈ oneof.members) (hother : other ∈ oneof'.members) {field field' : Field}
    (hfield : c.type.field? member.name = some field)
    (hfield' : c.type.field? other.name = some field') :
    field.number ≠ field'.number ∧ ¬ field.Excludes field' := by
  obtain ⟨first, hfirst, hfind, index, hindex, hname⟩ := hc.exists_memberField honeof hmember
  obtain rfl := Option.some.inj (hfield.symm.trans hfind)
  obtain ⟨second, hsecond, hfind', index', hindex', hname'⟩ := hc.exists_memberField honeof' hother
  obtain rfl := Option.some.inj (hfield'.symm.trans hfind')
  have hindices : index ≠ index' := by
    rintro rfl
    exact hne (Option.some.inj (hname.symm.trans hname'))
  constructor
  · intro heq
    have hsame := (hc.linked c.type hc.views.mem).eq_of_number hfirst hsecond heq
    rw [hsame, hindex'] at hindex
    exact hindices (Option.some.inj hindex).symm
  · rintro ⟨-, i, hi, hi'⟩
    rw [hindex] at hi
    rw [hindex'] at hi'
    exact hindices (Option.some.inj (hi.trans hi'.symm))

/-- No oneof has two selected members. -/
theorem selection_nodup {mode : Mode}
    (hselection : selectMembers mode c.pool c.plain c.plan.oneofs = .ok selection) :
    (selection.map (·.1)).Nodup := by
  have hnames := hc.oneofNames
  rw [← hc.isPlan.map_name_oneofs hc.generate] at hnames
  exact hnames.sublist (selectMembers_sublist hselection)

theorem lookup_selected {mode : Mode} (honeof : oneof ∈ c.plan.oneofs)
    (hselected : selectedMember c.pool c.plain oneof = .ok (some member))
    (hselection : selectMembers mode c.pool c.plain c.plan.oneofs = .ok selection) :
    selection.lookup oneof.name = some member :=
  lookup_eq_some_of_nodup (hc.selection_nodup hselection)
    (mem_selectMembers_of_selected honeof hselected hselection)

/-- Once a selected member is set, the members selected after it leave it set. -/
theorem isSome_foldlM_ensureSelected {mode : Mode} (honeof : oneof ∈ c.plan.oneofs)
    (hmember : member ∈ oneof.members) {field : Field}
    (hfield : c.type.field? member.name = some field) (htype : out.type? c.source = some c.type)
    (hset : (out.value? field.number).isSome)
    (hafter : ∀ selected ∈ after, selected.1 ≠ oneof.name ∧
      ∃ found ∈ c.plan.oneofs, found.name = selected.1 ∧ selected.2 ∈ found.members)
    (h : after.foldlM (fun out selected => mode.settle out (c.ensureSelected out selected.2)) out
      = .ok out') : (out'.value? field.number).isSome := by
  refine (foldlM_invariant (fun out : Message => out.type? c.source = some c.type ∧
    (out.value? field.number).isSome) ⟨htype, hset⟩ ?_ h).2
  intro first selected second hselected hfirst hstep
  obtain ⟨hne, found, hfound, hname, hmember'⟩ := hafter selected hselected
  rcases actsOnOne_ensureSelected.eq_or_set hfirst.1 hstep with rfl | ⟨written, -, hwritten, value, rfl⟩
  · exact hfirst
  · obtain ⟨hnumber, hexcludes⟩ := hc.not_excludes_of_name_ne hfound honeof (hname ▸ hne) hmember'
      hmember hwritten hfield
    refine ⟨Message.type?_set hfirst.1 written value, ?_⟩
    rw [Message.value?_set_of_not_excludes (hc.linked c.type hc.views.mem)
      (MessageType.field?_mem hfield).1 hnumber hexcludes]
    exact hfirst.2

theorem isSome_of_selection {mode : Mode} (honeof : oneof ∈ c.plan.oneofs)
    (hmember : member ∈ oneof.members)
    (hselected : selectedMember c.pool c.plain oneof = .ok (some member))
    (hselection : selectMembers mode c.pool c.plain c.plan.oneofs = .ok selection) {field : Field}
    (hfield : c.type.field? member.name = some field) (htype : out.type? c.source = some c.type)
    (h : selection.foldlM (fun out selected => mode.settle out (c.ensureSelected out selected.2)) out
      = .ok m) : (m.value? field.number).isSome := by
  obtain ⟨before, after, rfl⟩ :=
    List.append_of_mem (mem_selectMembers_of_selected honeof hselected hselection)
  obtain ⟨first, hfirst, hrest⟩ := foldlM_append_eq_ok.mp h
  obtain ⟨second, hsecond, hrest⟩ := foldlM_cons_eq_ok.mp hrest
  have hfirstType := type?_foldlM_actsOnOne
    (fun (selected : String × OneofMember) _ => actsOnOne_ensureSelected) htype hfirst
  have hsecondType := actsOnOne_ensureSelected.type? hfirstType hsecond
  have hset := isSome_ensureSelected hfield (hc.presence oneof honeof member hmember field hfield)
    hsecond
  apply hc.isSome_foldlM_ensureSelected honeof hmember hfield hsecondType hset ?_ hrest
  intro selected hafter
  have hnodup := hc.selection_nodup hselection
  rw [List.map_append, List.map_cons, List.nodup_middle, List.nodup_cons] at hnodup
  refine ⟨fun heq => hnodup.1 ?_, mem_selectMembers hselection (by simp [hafter])⟩
  have hmem : selected.1 ∈ (before ++ after).map (·.1) :=
    List.mem_map_of_mem (List.mem_append_right _ hafter)
  rwa [heq, List.map_append] at hmem

/-- Where one member at a time is stored, no other member stands beside one that is set. -/
theorem holdsMemberAt_of_storesApart {i : Nat} (honeof : oneof ∈ c.plan.oneofs)
    (hi : oneof.members[i]? = some member) {field : Field}
    (hfield : c.type.field? member.name = some field) (htype : m.type? c.source = some c.type)
    (hapart : m.StoresApart c.type) (hset : (m.value? field.number).isSome) :
    m.HoldsMemberAt c.source oneof i := by
  have hlinked := hc.linked c.type hc.views.mem
  have hmember : member ∈ oneof.members := List.mem_of_getElem? hi
  obtain ⟨hfieldMem, hfieldName⟩ := MessageType.field?_mem hfield
  intro j other hj
  have hother : other ∈ oneof.members := List.mem_of_getElem? hj
  obtain ⟨otherField, hotherMem, hotherField, -⟩ := hc.exists_memberField honeof hother
  rw [hasNamed_eq htype hotherField,
    Message.has_of_tracksPresence (hc.presence oneof honeof other hother otherField hotherField)]
  constructor
  · intro hsome
    have hnumber : field.number = otherField.number := by
      by_contra hne
      have hexcludes := hc.isPlan.excludes_of_members hc.generate hc.views hlinked honeof hmember
        hother hfield hotherField hne
      rw [hapart field hfieldMem otherField hotherMem hexcludes hset] at hsome
      exact absurd hsome (by simp)
    have hname : other.name = member.name := by
      rw [← (MessageType.field?_mem hotherField).2, ← hfieldName,
        hlinked.eq_of_number hfieldMem hotherMem hnumber]
    have hnodup := hc.isPlan.members_nodup hc.generate (hc.names source hc.mem) honeof
    have hat : (oneof.members.map (·.name))[j]? = (oneof.members.map (·.name))[i]? := by
      rw [List.getElem?_map, List.getElem?_map, hj, hi, Option.map_some, Option.map_some, hname]
    exact (List.getElem?_inj (by simpa using (List.getElem?_eq_some_iff.mp hj).1) hnodup).mp hat
  · rintro rfl
    obtain rfl := Option.some.inj (hj.symm.trans hi)
    obtain rfl := Option.some.inj (hfield.symm.trans hotherField)
    exact hset

/-- A run ends with the selected member set, and with no other member of its oneof. -/
theorem holdsMemberAt_run {mode : Mode} {nested : ConvertNested} {i : Nat}
    (honeof : oneof ∈ c.plan.oneofs)
    (hselected : selectedMember c.pool c.plain oneof = .ok (some member))
    (hi : oneof.members[i]? = some member) (h : (c.inMode mode nested).run = .ok m) :
    m.HoldsMemberAt c.source oneof i := by
  have hlinked := hc.linked c.type hc.views.mem
  have hmember : member ∈ oneof.members := List.mem_of_getElem? hi
  obtain ⟨field, -, hfield, -⟩ := hc.exists_memberField honeof hmember
  obtain ⟨selection, hselection⟩ := exists_selection_of_run h
  obtain ⟨out, hfields, hlast⟩ := exists_folds_of_run hselection h
  have hnew : Message.type? c.source { type := c.type.fullName } = some c.type := hc.found
  have hrestores : ∀ plan ∈ c.plan.fields, ActsOnOne c.source c.type (fun _ => True)
      ((c.inMode mode nested).restoreStep selection · plan) :=
    fun _ _ => actsOnOne_restoreStep (c := c.inMode mode nested)
  have hensures : ∀ selected ∈ selection, ActsOnOne c.source c.type
      (fun field => c.type.field? selected.2.name = some field) (c.ensureSelected · selected.2) :=
    fun _ _ => actsOnOne_ensureSelected
  rw [settle_restoreStep] at hfields
  have htype := type?_foldlM_actsOnOne hrestores hnew hfields
  have hapart := storesApart_foldlM hrestores hlinked hnew (.new _ _) hfields
  apply hc.holdsMemberAt_of_storesApart honeof hi hfield
  · exact type?_foldlM_actsOnOne hensures htype hlast
  · exact storesApart_foldlM hensures hlinked htype hapart hlast
  · exact hc.isSome_of_selection honeof hmember hselected hselection hfield htype hlast

end Restores

/-! ## Fields that contradict a tag -/

/-- A Plain field that is set is to be written through a path that starts with another member of a
oneof than the selected one. -/
structure Contradicts (c : Restoring) (selection : Selection) (oneof : OneofPlan)
    (member : OneofMember) (plan : FieldPlan) (other : OneofMember) : Prop where
  plan_mem : plan ∈ c.plan.fields
  reversible : plan.isReversible
  set : hasNamed c.pool c.plain plan.shape.name
  other_mem : other ∈ oneof.members
  ne : other.name ≠ member.name
  head : (c.writePath plan (selectedFor selection plan)).head? = some other.name

instance (selection : Selection) (oneof : OneofPlan) (member : OneofMember) (plan : FieldPlan)
    (other : OneofMember) : Decidable (c.Contradicts selection oneof member plan other) :=
  decidable_of_iff
    (plan ∈ c.plan.fields ∧ plan.isReversible ∧ hasNamed c.pool c.plain plan.shape.name ∧
      other ∈ oneof.members ∧ other.name ≠ member.name ∧
      (c.writePath plan (selectedFor selection plan)).head? = some other.name)
    ⟨fun ⟨hplan, hreversible, hset, hother, hne, hhead⟩ =>
        ⟨hplan, hreversible, hset, hother, hne, hhead⟩,
      fun h => ⟨h.plan_mem, h.reversible, h.set, h.other_mem, h.ne, h.head⟩⟩

namespace Contradicts

variable (h : c.Contradicts selection oneof member plan other)
  (hgroup : plan.origin.oneofGroup = some oneof.name)
  (hlookup : selection.lookup oneof.name = some member)

include h hgroup hlookup

/-- A field of the group of the oneof is refused. -/
theorem adapted_eq_error :
    c.adapted selection plan = .error (.dispatchMismatch oneof.name member.name other.name) := by
  obtain ⟨type, field, htype, hfield, value, hvalue⟩ := exists_value_of_hasNamed h.set
  have hselected : (plan.origin.oneofGroup.bind fun oneof => List.lookup oneof selection)
      = some member := by
    rw [hgroup, Option.bind_some, hlookup]
  have hhead := h.head
  unfold selectedFor at hhead
  rw [hselected] at hhead
  have hcheck : checkSelected plan (some member) (c.writePath plan (some member))
      = .error (.dispatchMismatch oneof.name member.name other.name) := by
    unfold checkSelected
    rw [hgroup, hhead]
    exact if_neg fun heq => h.ne heq.symm
  unfold adapted
  simp only [htype, Option.map_some, Option.getD_some, requireField, hfield, hvalue, hselected, hcheck,
    bind, Except.bind]

theorem restoreField_eq_error (out : Message) :
    c.restoreField selection out plan
      = .error (.dispatchMismatch oneof.name member.name other.name) := by
  rw [restoreField_eq_restoreValue h.reversible]
  unfold restoreValue
  rw [h.adapted_eq_error hgroup hlookup]
  rfl

theorem leftBehind_eq (out : Message) : c.leftBehind selection out plan = out := by
  rw [leftBehind, if_pos h.reversible, h.adapted_eq_error hgroup hlookup]

end Contradicts

theorem run_eq_error_of_selection {e : ConvertError}
    (h : selectMembers c.mode c.pool c.plain c.plan.oneofs = .error e) : c.run = .error e := by
  unfold run
  rw [h]
  rfl

/-- A lenient conversion always ends well. -/
theorem exists_run_lenient {casters : Casters (Value → Value)} (hmode : c.mode = .lenient casters) :
    ∃ m, c.run = .ok m := by
  have hsettle : ∀ left result, ∃ after : Message, c.mode.settle left result = .ok after := by
    rw [hmode]
    exact Mode.exists_settle_lenient casters
  obtain ⟨selection, hselection⟩ := exists_selectMembers_lenient c.pool c.plain c.plan.oneofs casters
  rw [← hmode] at hselection
  have hfields : ∃ out, c.plan.fields.foldlM (c.restoreStep selection)
      ({ type := c.type.fullName } : Message) = .ok out :=
    exists_foldlM_of_total (fun _ _ => hsettle _ _) _ _
  obtain ⟨out, hout⟩ := hfields
  have hselected : ∃ m, selection.foldlM
      (fun out selected => c.mode.settle out (c.ensureSelected out selected.2)) out = .ok m :=
    exists_foldlM_of_total (fun _ _ => hsettle _ _) _ _
  obtain ⟨m, hm⟩ := hselected
  refine ⟨m, ?_⟩
  unfold run
  simp only [hselection, bind, Except.bind, hout, hm]

/-- A strict conversion ends with the error of the first field that is refused. -/
theorem run_eq_error {before after : List FieldPlan} {e : ConvertError}
    (hmode : c.mode = .strict casters)
    (hselection : selectMembers c.mode c.pool c.plain c.plan.oneofs = .ok selection)
    (hsplit : c.plan.fields = before ++ plan :: after)
    (hbefore : before.foldlM (c.restoreField selection) { type := c.type.fullName } = .ok out)
    (herror : c.restoreField selection out plan = .error e) : c.run = .error e := by
  unfold run
  rw [hselection]
  simp only [restoreStep_strict hmode, hsplit, List.foldlM_append, List.foldlM_cons, bind,
    Except.bind, hbefore, herror]

/-! ## What a tag decides -/

/-- What the tag of a oneof decides, when it selects a member. -/
structure DecidesBy (c : Restoring) (oneof : OneofPlan) (i : Nat) (member : OneofMember) : Prop where
  /-- The source message holds the selected member and no other one, also if nothing was written to
  it. -/
  holds : ∀ m, c.run = .ok m → m.HoldsMemberAt c.source oneof i
  /-- A field of the group that contradicts the tag is an error of a strict conversion, and a lenient
  one leaves the field out. -/
  refuses : ∀ selection before plan after other,
    selectMembers c.mode c.pool c.plain c.plan.oneofs = .ok selection →
    c.plan.fields = before ++ plan :: after → c.Contradicts selection oneof member plan other →
    plan.origin.oneofGroup = some oneof.name →
    match c.mode with
    | .strict _ => (∃ e, c.run = .error e) ∧
        ∀ out, before.foldlM (c.restoreField selection) { type := c.type.fullName } = .ok out →
          c.run = .error (.dispatchMismatch oneof.name member.name other.name)
    | .lenient _ => c.run = (c.withFields (before ++ after)).run
  /-- No field contradicts the tag in a strict conversion that ends well, unless it is outside the
  group. -/
  obeyed : ∀ selection casters m,
    selectMembers c.mode c.pool c.plain c.plan.oneofs = .ok selection → c.mode = .strict casters →
    c.run = .ok m →
    ((∀ plan other, ¬ c.Contradicts selection oneof member plan other) ↔
      ∀ plan other, c.Contradicts selection oneof member plan other →
        plan.origin.oneofGroup = some oneof.name)

end Restoring

/-- Every Plain field that may be written to a member of a oneof belongs to the group of the oneof. -/
def MessagePlan.GroupsMembers (mp : MessagePlan) (oneof : OneofPlan) : Prop :=
  ∀ plan ∈ mp.fields, plan.isReversible → ∀ path ∈ mp.ownPaths plan, ∀ other ∈ oneof.members,
    path.head? = some other.name → plan.origin.oneofGroup = some oneof.name

instance (mp : MessagePlan) (oneof : OneofPlan) : Decidable (mp.GroupsMembers oneof) := by
  unfold MessagePlan.GroupsMembers
  infer_instance

namespace Restoring.Restores

variable {c : Restoring} {casters : Casters (Value → Except String Value)} {schema : Schema}
  {settings : Settings} {renames : Renames} {source : SourceMessage} {oneof : OneofPlan}
  {member : OneofMember} {mode : Mode} {nested : ConvertNested}
  (hc : c.Restores casters schema settings renames source)

include hc

/-- Where the fields of the members are grouped, a field from outside contradicts a tag only if its
companion strays. -/
theorem group_of_contradicts {selection : Selection} {plan : FieldPlan} {other : OneofMember}
    (hgroups : c.plan.GroupsMembers oneof) (hstrays : ¬ (c.inMode mode nested).Strays plan)
    (h : (c.inMode mode nested).Contradicts selection oneof member plan other) :
    plan.origin.oneofGroup = some oneof.name := by
  have hown := hc.sourcePath_mem h.plan_mem h.reversible
  have hpath := writePath_mem_ownPaths hown hstrays (selectedFor selection plan)
  exact hgroups plan h.plan_mem h.reversible _ hpath other h.other_mem h.head

theorem decidesBy {i : Nat} (honeof : oneof ∈ c.plan.oneofs)
    (hselected : selectedMember c.pool c.plain oneof = .ok (some member))
    (hi : oneof.members[i]? = some member) : (c.inMode mode nested).DecidesBy oneof i member := by
  have hlookup : ∀ {selection}, selectMembers mode c.pool c.plain c.plan.oneofs = .ok selection →
      selection.lookup oneof.name = some member :=
    fun hselection => hc.lookup_selected honeof hselected hselection
  have hrefused : ∀ {selection before plan after other},
      selectMembers mode c.pool c.plain c.plan.oneofs = .ok selection →
      (c.inMode mode nested).plan.fields = before ++ plan :: after →
      (c.inMode mode nested).Contradicts selection oneof member plan other →
      plan.origin.oneofGroup = some oneof.name →
      ∀ selection, selectMembers mode c.pool c.plain c.plan.oneofs = .ok selection →
        ∀ out, out.type? c.source = some c.type →
          (∃ e, (c.inMode mode nested).restoreField selection out plan = .error e) ∧
            (c.inMode mode nested).leftBehind selection out plan = out := by
    intro selection before plan after other hselection hsplit hcontradicts hgroup found hfound out _
    obtain rfl := Except.ok.inj (hselection.symm.trans hfound)
    exact ⟨⟨_, hcontradicts.restoreField_eq_error hgroup (hlookup hselection) out⟩,
      hcontradicts.leftBehind_eq hgroup (hlookup hselection) out⟩
  refine ⟨fun m h => hc.holdsMemberAt_run honeof hselected hi h, ?_, ?_⟩
  · intro selection before plan after other hselection hsplit hcontradicts hgroup
    have herror := hrefused hselection hsplit hcontradicts hgroup
    cases mode with
    | strict casters =>
      refine ⟨run_strict_of_error hc.found hsplit herror rfl, fun out hbefore => ?_⟩
      exact run_eq_error rfl hselection hsplit hbefore
        (hcontradicts.restoreField_eq_error hgroup (hlookup hselection) out)
    | lenient casters =>
      exact run_lenient_of_error hc.found hsplit herror rfl fun _ =>
        FieldPlan.role_ne hcontradicts.reversible _
  · intro selection casters m hselection hmode hrun
    constructor
    · exact fun hnone plan other hcontradicts => absurd hcontradicts (hnone plan other)
    · intro hgroups plan other hcontradicts
      obtain ⟨before, after, hsplit⟩ := List.append_of_mem hcontradicts.plan_mem
      have hgroup := hgroups plan other hcontradicts
      obtain ⟨e, herror⟩ := run_strict_of_error (c := c.inMode mode nested) hc.found hsplit
        (hrefused hselection hsplit hcontradicts hgroup) hmode
      rw [hrun] at herror
      exact absurd herror nofun

end Restoring.Restores

/-! ## The main result -/

section Main

variable {files : List FileDecl} {pool : Pool} {generate : List String} {settings : Settings}
  {plan : SchemaPlan} {c : Converter} {p : Message} {mp : MessagePlan} {oneof : OneofPlan}
  {dispatch : DispatchPlan} {tag : Int32}

end Main

/-! ## A number that the tag leaves behind -/

/-- A payment by card or by bank, which an enum tells apart, after an inlined message whose field may
have the name of a field of the card. -/
def dispatchedFile (extra : String) : FileDecl :=
  { name := "payment.proto", package := "p"
    messages :=
      [{ name := "Card", fields := [{ name := "number", number := 1, kind := .scalar .string }] },
        { name := "Bank", fields := [{ name := "iban", number := 1, kind := .scalar .string }] },
        { name := "Extra", fields := [{ name := extra, number := 1, kind := .scalar .string }] },
        { name := "Payment", options := { generate := true }
          oneofs := [{ name := "method", options := { enumDispatched := true } }]
          fields :=
            [{ name := "extra", number := 1, kind := .message, typeRef := some ".p.Extra"
               options := { embed := true } },
              { name := "card", number := 2, kind := .message, typeRef := some ".p.Card"
                oneofIndex := some 0 },
              { name := "bank", number := 3, kind := .message, typeRef := some ".p.Bank"
                oneofIndex := some 0 }] }] }

def dispatchedFiles (extra : String) : List FileDecl :=
  [{ messageOptionsFile with
      extensions := messageOptionsFile.extensions ++
        [{ name := "field", number := 2, kind := .scalar .string
           extendee := some ".plain.Options" },
          { name := "oneof", number := 3, kind := .scalar .string
            extendee := some ".plain.Options" }] },
    dispatchedFile extra]

def dispatchedPool (extra : String) : Pool := (Pool.load (dispatchedFiles extra)).toOption.getD {}

def dispatchedPlan (extra : String) : SchemaPlan :=
  ((Schema.ofPool (dispatchedPool extra) []).plan { enableCrf := true }).toOption.getD
    { suffix := "", messages := [], renames := {}, diagnostics := [] }

def dispatchedConverter (extra : String) : Converter :=
  (Converter.ofPool (dispatchedPool extra) (dispatchedPlan extra)).toOption.getD default

/-- The plan of a payment. -/
def dispatchedEntry (extra : String) : MessagePlan :=
  ((dispatchedConverter extra).planFor? "p.PaymentPlain" .toSource).getD default

/-- The enum that tells the members apart. -/
def dispatchedTag : DispatchPlan :=
  { enumFullName := ".p.PaymentPlain.MethodType", fieldName := "method_type", withPrefix := false }

/-- The plan of the oneof of a payment. -/
def dispatchedOneof : OneofPlan :=
  { name := "method", strategy := .enumDispatch, members := [{ name := "card" }, { name := "bank" }]
    dispatch := some dispatchedTag }

/-- The type of a payment. -/
def dispatchedType (extra : String) : MessageType :=
  (Converter.requireType (dispatchedConverter extra).source (dispatchedEntry extra).fullName).toOption.getD
    default

/-- A Plain payment by bank with the number of a card. -/
def plainNumberByBank : Message :=
  { type := "p.PaymentPlain", fields := [(2, .enum 2), (3, .string "7")] }

/-- A Plain payment by bank with a number that its companion traces back to a card. -/
def plainNumberOfCard : Message :=
  { type := "p.PaymentPlain"
    fields := [(1, .string "7"), (2, .string "card/number"), (3, .enum 2)] }

/-- The payment that is made of it. -/
def numberOfCard : Message :=
  ((dispatchedConverter "number").toSource {} (dispatchedConverter "number").plain
    plainNumberOfCard).toOption.getD default

/-- Whether a value is an enum value with a number. -/
def Value.isEnum (number : Int32) : Value → Bool
  | .enum found => found == number
  | _ => false

theorem eq_some_of_isEnum {value : Option Value} {number : Int32}
    (h : value.any (Value.isEnum number)) : value = some (.enum number) := by
  cases value with
  | none => exact absurd h (by simp)
  | some found => cases found <;> simp_all [Value.isEnum]

/-- The schema, its plan, the converter and the plan of the payment are all there. -/
theorem dispatched_builds (extra : String) (h : extra = "note" ∨ extra = "number") :
    (Pool.load (dispatchedFiles extra)).isOk ∧
      ((Schema.ofPool (dispatchedPool extra) []).plan { enableCrf := true }).isOk ∧
      (Converter.ofPool (dispatchedPool extra) (dispatchedPlan extra)).isOk ∧
      ((dispatchedConverter extra).planFor? "p.PaymentPlain" .toSource).isSome ∧
      dispatchedOneof ∈ (dispatchedEntry extra).oneofs := by
  rcases h with rfl | rfl <;> decide +kernel

theorem load_dispatched (extra : String) (h : extra = "note" ∨ extra = "number") :
    Pool.load (dispatchedFiles extra) = .ok (dispatchedPool extra) :=
  eq_ok_of_isOk (dispatched_builds extra h).1 _

theorem plan_dispatched (extra : String) (h : extra = "note" ∨ extra = "number") :
    (Schema.ofPool (dispatchedPool extra) []).plan { enableCrf := true }
      = .ok (dispatchedPlan extra) :=
  eq_ok_of_isOk (dispatched_builds extra h).2.1 _

theorem planFor?_dispatched (extra : String) (h : extra = "note" ∨ extra = "number") {p : Message}
    (hp : p.type = "p.PaymentPlain") :
    (dispatchedConverter extra).planFor? p.type .toSource = some (dispatchedEntry extra) := by
  obtain ⟨-, -, -, hsome, -⟩ := dispatched_builds extra h
  rw [hp, ← Option.some_get hsome, Option.get_eq_getD]
  rfl

end PlainSchema
