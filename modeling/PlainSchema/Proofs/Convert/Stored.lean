import PlainSchema.Proofs.Convert.Flattened
import PlainSchema.Proofs.Convert.Companions

/-!
# Where the values of a Plain message come from

A Plain field that holds a value holds what its own plan wrote, `Flattening.Follows.mem_writes`, and a
companion holds one of the recorded origins of its field, `Flattening.Follows.mem_sources`.
-/

namespace PlainSchema

open Proto

namespace Message

variable {type : MessageType} {field : Field} {value found : Value} {out : Message} {number : Nat}

theorem value?_of_setAll {written : List (Field × Value)}
    (h : (out.setAll type written).value? number = some found) :
    (∃ w ∈ written, w.1.number = number ∧ w.2 = found) ∨ out.value? number = some found := by
  induction written generalizing out with
  | nil => exact Or.inr h
  | cons w written ih =>
    rw [setAll, List.foldl_cons] at h
    rcases ih h with ⟨later, hlater, hfound⟩ | h
    · exact Or.inl ⟨later, List.mem_cons_of_mem _ hlater, hfound⟩
    rcases value?_of_set h with hfound | h
    · exact Or.inl ⟨w, List.mem_cons_self, hfound⟩
    · exact Or.inr h

/-- A field that stands in no oneof stays set once it is written. -/
theorem isSome_value?_setAll {written : List (Field × Value)} (hlinked : type.Linked)
    (hfield : field ∈ type.fields) (honeof : field.oneof = none) (hwritten : ∀ w ∈ written, w.1 ∈ type.fields)
    (h : (∃ w ∈ written, w.1 = field) ∨ (out.value? field.number).isSome) :
    ((out.setAll type written).value? field.number).isSome := by
  induction written generalizing out with
  | nil => exact h.resolve_left (by simp)
  | cons w written ih =>
    rw [setAll, List.foldl_cons]
    refine ih (fun later hlater => hwritten later (List.mem_cons_of_mem _ hlater)) ?_
    by_cases hsame : w.1 = field
    · exact Or.inr (by rw [hsame, value?_set_self]; rfl)
    have hnumber : w.1.number ≠ field.number := fun heq =>
      hsame (hlinked.eq_of_number (hwritten w List.mem_cons_self) hfield heq)
    have hexcludes : ¬ w.1.Excludes field := by
      rintro ⟨-, i, -, hi⟩
      rw [honeof] at hi
      exact absurd hi (by simp)
    rcases h with ⟨later, hlater, heq⟩ | h
    · rcases List.mem_cons.mp hlater with rfl | hlater
      · exact absurd heq hsame
      · exact Or.inl ⟨later, hlater, heq⟩
    · rw [value?_set_of_not_excludes hlinked hfield hnumber hexcludes]
      exact Or.inr h

end Message

namespace Flattening

variable {c : Flattening} {casters : Casters (Value → Except String Value)} {plan : FieldPlan}
  {target : Field} {p : Message} {value : Value} {schema : Schema} {settings : Settings}
  {renames : Renames} {source : SourceMessage}

/-- The plan of a companion writes nothing itself. -/
theorem writes_of_crfPath {field : String} {written : List (Field × Value)}
    (hrole : plan.origin.role = some (.crfPath field)) (h : c.writes plan = .ok written) :
    written = [] := by
  rw [writes] at h
  obtain ⟨target, -, h⟩ := bind_eq_ok.mp h
  simp only [hrole] at h
  exact (Except.ok.inj h).symm

theorem writes_of_role {role : Role} (hrole : plan.origin.role = some role)
    (hcompanion : ∀ field, role ≠ .crfPath field)
    (htarget : c.type.field? plan.shape.name = some target) :
    c.writes plan = c.roleWrites role target := by
  rw [writes, requireField, htarget, hrole]
  cases role with
  | crfPath field => exact absurd rfl (hcompanion field)
  | _ => rfl

section Roles

variable {oneof : String} {written : List (Field × Value)} {w : Field × Value} (hw : w ∈ written)

include hw

/-- A tag is the position of the populated member. -/
theorem tag_of_roleWrites (h : c.roleWrites (.dispatchTag oneof) target = .ok written) :
    ∃ index member, c.populated? oneof = some (index, member) ∧
      w.2 = .enum (Int32.ofNat (index + 1)) := by
  rw [roleWrites.eq_def] at h
  cases hpopulated : c.populated? (Role.dispatchTag oneof).target with
  | none =>
    rw [hpopulated] at h
    obtain rfl := Except.ok.inj h
    exact absurd hw List.not_mem_nil
  | some populated =>
    rw [hpopulated] at h
    obtain rfl := Except.ok.inj h
    exact ⟨populated.1, populated.2, hpopulated, by rw [List.mem_singleton.mp hw]⟩

/-- A discriminator is the first enum value of the populated member. -/
theorem text_of_roleWrites (h : c.roleWrites (.discriminator oneof) target = .ok written) :
    ∃ index member text, c.populated? oneof = some (index, member) ∧
      discriminatorOf? member = some text ∧ w.2 = .string text := by
  rw [roleWrites.eq_def] at h
  cases hpopulated : c.populated? (Role.discriminator oneof).target with
  | none =>
    rw [hpopulated] at h
    obtain rfl := Except.ok.inj h
    exact absurd hw List.not_mem_nil
  | some populated =>
    rw [hpopulated] at h
    dsimp only at h
    cases htext : discriminatorOf? populated.2 with
    | none =>
      rw [htext] at h
      obtain rfl := Except.ok.inj h
      exact absurd hw List.not_mem_nil
    | some text =>
      rw [htext] at h
      obtain rfl := Except.ok.inj h
      exact ⟨populated.1, populated.2, text, hpopulated, htext, by rw [List.mem_singleton.mp hw]⟩

/-- A payload is the message with the populated member alone. -/
theorem payload_of_roleWrites (h : c.roleWrites (.payload oneof) target = .ok written) :
    ∃ index member type field, c.populated? oneof = some (index, member) ∧
      c.source.type? c.pool = some type ∧ type.field? member.name = some field ∧
      w.2 = .bytes (c.payloadOf field type) := by
  rw [roleWrites.eq_def] at h
  cases hpopulated : c.populated? (Role.payload oneof).target with
  | none =>
    rw [hpopulated] at h
    obtain rfl := Except.ok.inj h
    exact absurd hw List.not_mem_nil
  | some populated =>
    rw [hpopulated] at h
    dsimp only at h
    cases htype : c.source.type? c.pool with
    | none =>
      rw [htype] at h
      exact absurd h nofun
    | some type =>
      rw [htype] at h
      dsimp only at h
      cases hfield : type.field? populated.2.name with
      | none =>
        rw [hfield] at h
        exact absurd h nofun
      | some field =>
        rw [hfield] at h
        obtain rfl := Except.ok.inj h
        exact ⟨populated.1, populated.2, type, field, hpopulated, rfl, hfield,
          by rw [List.mem_singleton.mp hw]⟩

end Roles

/-- The populated member of a oneof of the plan. -/
theorem populated?_eq_some {name : String} {index : Nat} {member : OneofMember}
    (h : c.populated? name = some (index, member)) :
    ∃ oneof, c.plan.oneof? name = some oneof ∧
      populatedMember? c.pool c.source oneof = some index ∧ oneof.members[index]? = some member := by
  obtain ⟨oneof, honeof, h⟩ := Option.bind_eq_some_iff.mp h
  obtain ⟨found, hfound, h⟩ := Option.bind_eq_some_iff.mp h
  obtain ⟨member', hmember, heq⟩ := Option.bind_eq_some_iff.mp h
  obtain ⟨rfl, rfl⟩ := Prod.mk.inj (Option.some.inj heq)
  exact ⟨oneof, honeof, hfound, hmember⟩

namespace Follows

variable (hc : c.Follows casters schema settings renames source) (h : c.run = .ok p)

include hc

theorem foldlM_eq_ok (h : c.run = .ok p) :
    c.plan.fields.foldlM c.fillField { type := c.type.fullName } = .ok p := by
  rwa [run, fillStep_strict hc.mode] at h

include h

/-- What a Plain message stores was written by one of the plans, and fits. -/
theorem exists_write {number : Nat} (hvalue : p.value? number = some value) :
    ∃ plan ∈ c.plan.fields, ∃ written, c.writes plan = .ok written ∧ ∃ w ∈ written,
      w.1.number = number ∧ w.2 = value ∧ c.plain.accepts w.1 value := by
  obtain ⟨lists, hlists, hwrote⟩ := exists_writes (hc.foldlM_eq_ok h)
  rw [hwrote.eq] at hvalue
  rcases Message.value?_of_setAll hvalue with ⟨w, hw, hnumber, rfl⟩ | hnone
  · obtain ⟨written, hwritten, hmem⟩ := List.mem_flatten.mp hw
    obtain ⟨plan, hplan, hwrites⟩ := exists_left_of_forall₂ hlists hwritten
    exact ⟨plan, hplan, written, hwrites, w, hmem, hnumber, rfl, hwrote.accepts w hw⟩
  · exact absurd hnone (by simp [Message.value?])

omit h in
/-- The plan of a name is the only one of that name. -/
theorem eq_of_name {other : FieldPlan} (hplan : plan ∈ c.plan.fields) (hother : other ∈ c.plan.fields)
    (hname : plan.shape.name = other.shape.name) : plan = other :=
  List.inj_on_of_nodup_map (hc.isPlan.names_nodup hc.generate) hplan hother hname

/-- A Plain field that is no companion holds what its own plan wrote. -/
theorem mem_writes (hplan : plan ∈ c.plan.fields)
    (hrole : ∀ field, plan.origin.role ≠ some (.crfPath field))
    (htarget : c.type.field? plan.shape.name = some target)
    (hvalue : p.value? target.number = some value) :
    ∃ written, c.writes plan = .ok written ∧ (target, value) ∈ written ∧
      c.plain.accepts target value := by
  obtain ⟨writer, hwriter, written, hwrites, w, hw, hnumber, rfl, haccepts⟩ :=
    hc.exists_write h hvalue
  obtain ⟨hmem, hname⟩ := name_of_writes hwrites hw
  obtain ⟨htargetMem, htargetName⟩ := MessageType.field?_mem htarget
  obtain rfl := hc.linked.eq_of_number hmem htargetMem hnumber
  rcases hname with hname | ⟨entry, hentry, hname, -⟩
  · obtain rfl := hc.eq_of_name hwriter hplan (hname.symm.trans htargetName)
    exact ⟨written, hwrites, hw, haccepts⟩
  · have hcompanion := hc.isPlan.role_of_companionName hc.generate (List.mem_of_find?_eq_some hentry)
      hplan (htargetName.symm.trans hname)
    exact absurd hcompanion (hrole _)

/-- What a field holds that has a role for a oneof was made of the populated member. -/
theorem mem_roleWrites (hplan : plan ∈ c.plan.fields) {role : Role}
    (hrole : plan.origin.role = some role) (hcompanion : ∀ field, role ≠ .crfPath field)
    (htarget : c.type.field? plan.shape.name = some target)
    (hvalue : p.value? target.number = some value) :
    ∃ written, c.roleWrites role target = .ok written ∧ (target, value) ∈ written := by
  obtain ⟨written, hwrites, hmem, -⟩ := hc.mem_writes h hplan
    (fun field heq => hcompanion field (Option.some.inj (hrole.symm.trans heq))) htarget hvalue
  rw [writes_of_role hrole hcompanion htarget] at hwrites
  exact ⟨written, hwrites, hmem⟩

/-- A companion is written with the merged field alone, and it holds one of its origins. -/
theorem exists_merged {entry : CrfEntry} (hentry : entry ∈ c.plan.crf)
    (htarget : c.type.field? entry.crfField = some target)
    (hvalue : p.value? target.number = some value) :
    ∃ plan ∈ c.plan.fields, c.plan.mergedField? plan.shape.name = some entry ∧
      ∃ written, c.writes plan = .ok written ∧ (target, value) ∈ written ∧
        ∃ text ∈ entry.sources, value = .string text := by
  obtain ⟨writer, hwriter, written, hwrites, w, hw, hnumber, rfl, -⟩ := hc.exists_write h hvalue
  obtain ⟨hmem, hname⟩ := name_of_writes hwrites hw
  obtain ⟨htargetMem, htargetName⟩ := MessageType.field?_mem htarget
  obtain rfl := hc.linked.eq_of_number hmem htargetMem hnumber
  have halone := hc.isPlan.companionAlone hc.generate hentry
  rcases hname with hname | ⟨found, hfound, hname, text, htext, hvalue⟩
  · -- The plan of the companion itself writes nothing.
    have hrole := halone.role writer hwriter (hname.symm.trans htargetName)
    rw [writes_of_crfPath hrole hwrites] at hw
    exact absurd hw List.not_mem_nil
  · obtain ⟨kept, groups, hmerges, -⟩ := hc.isPlan.exists_merges hc.generate
    have hmem := List.mem_of_find?_eq_some hfound
    have hfield := halone.entries found hmem (hname.symm.trans htargetName)
    obtain rfl := List.inj_on_of_nodup_map hmerges.entryNames hmem hentry hfield
    exact ⟨writer, hwriter, hfound, written, hwrites, hw, text, htext, hvalue⟩

/-- What was written to a field that stands in no oneof is there. -/
theorem isSome_value? {written : List (Field × Value)} (hplan : plan ∈ c.plan.fields)
    (hwrites : c.writes plan = .ok written) (hmem : (target, value) ∈ written)
    (honeof : target.oneof = none) : (p.value? target.number).isSome := by
  obtain ⟨lists, hlists, hwrote⟩ := exists_writes (hc.foldlM_eq_ok h)
  obtain ⟨list, hlist, hfound⟩ := exists_right_of_forall₂ hlists hplan
  obtain rfl := Except.ok.inj (hwrites.symm.trans hfound)
  rw [hwrote.eq]
  refine Message.isSome_value?_setAll hc.linked (name_of_writes hwrites hmem).1 honeof ?_
    (Or.inl ⟨_, List.mem_flatten.mpr ⟨written, hlist, hmem⟩, rfl⟩)
  intro w hw
  obtain ⟨list, hlist, hw⟩ := List.mem_flatten.mp hw
  obtain ⟨writer, -, hwrites⟩ := exists_left_of_forall₂ hlists hlist
  exact (name_of_writes hwrites hw).1

end Follows

/-- The value of a Plain field was read from a path, which the companion of the field records if there
is one. -/
structure CameFrom (c : Flattening) (p : Message) (plan : FieldPlan) (target : Field)
    (path : SourcePath) (leaf : Field) (found value : Value) : Prop where
  mem : path ∈ c.plan.sourcePaths plan
  read : c.source.read? c.pool path.names = some (leaf, found)
  adapted : c.adapted plan target leaf found = .ok value
  accepts : c.plain.accepts target value
  recorded : ∀ companion text, path.record = some (companion, text) →
    ∃ field, c.type.field? companion = some field ∧ p.value? field.number = some (.string text)

theorem Follows.exists_cameFrom (hc : c.Follows casters schema settings renames source)
    (hcompanions : ∀ entry ∈ c.plan.crf, ∀ field, c.type.field? entry.crfField = some field →
      field.oneof = none)
    (h : c.run = .ok p) (hplan : plan ∈ c.plan.fields) (hreversible : plan.isReversible)
    (htarget : c.type.field? plan.shape.name = some target)
    (hvalue : p.value? target.number = some value) :
    ∃ path leaf read, c.CameFrom p plan target path leaf read value := by
  have hrole := (FieldPlan.isReversible_iff.mp hreversible).2
  obtain ⟨written, hwrites, hmem, haccepts⟩ := hc.mem_writes h hplan (by simp [hrole]) htarget hvalue
  have hvalueWrites := hwrites
  rw [writes_of_isReversible hreversible htarget] at hvalueWrites
  rcases valueWrites_eq_ok hvalueWrites with ⟨-, rfl⟩ | ⟨path, leaf, read, found, record, hfirst,
    hadapted, hrecord, rfl⟩
  · exact absurd hmem List.not_mem_nil
  -- The companion has another name than the field.
  have hother : ∀ {entry : CrfEntry} {field : Field},
      c.plan.mergedField? plan.shape.name = some entry → c.type.field? entry.crfField = some field →
      field ≠ target := by
    rintro entry field hentry hfield rfl
    have hname := (MessageType.field?_mem htarget).2.symm.trans (MessageType.field?_mem hfield).2
    have hcompanion := hc.isPlan.role_of_companionName hc.generate (List.mem_of_find?_eq_some hentry)
      hplan hname
    rw [hrole] at hcompanion
    exact absurd hcompanion (by simp)
  have hfound : value = found := by
    rcases List.mem_cons.mp hmem with heq | hmem
    · exact (Prod.mk.inj heq).2
    · cases hrecord with
      | nothing => exact absurd hmem List.not_mem_nil
      | companion hentry _ _ hfield =>
        have heq := (Prod.mk.inj (List.mem_singleton.mp hmem)).1
        exact absurd heq.symm (hother hentry hfield)
  subst hfound
  obtain ⟨hpath, hread⟩ := firstPopulated?_eq_some hfirst
  refine ⟨path, leaf, read, hpath, hread, hadapted, haccepts, ?_⟩
  intro companion text hrecorded
  cases hrecord with
  | nothing hnone =>
    rw [hrecorded] at hnone
    exact absurd hnone (by simp)
  | @companion entry text' field hentry hrecord _ hfield =>
    obtain ⟨rfl, rfl⟩ : companion = entry.crfField ∧ text = text' := by
      simpa using hrecorded.symm.trans hrecord
    have hentryMem := List.mem_of_find?_eq_some hentry
    refine ⟨field, hfield, ?_⟩
    have hset := hc.isSome_value? h hplan hwrites
      (List.mem_cons_of_mem _ List.mem_cons_self : (field, Value.string text) ∈ _)
      (hcompanions entry hentryMem field hfield)
    obtain ⟨stored, hstored⟩ := Option.isSome_iff_exists.mp hset
    obtain ⟨writer, hwriter, hmerged, written, hwritten, hin, -⟩ :=
      hc.exists_merged h hentryMem hfield hstored
    have hname : writer.shape.name = plan.shape.name := by
      have hfirst : entry.field = writer.shape.name := by simpa using List.find?_some hmerged
      have hsecond : entry.field = plan.shape.name := by simpa using List.find?_some hentry
      exact hfirst.symm.trans hsecond
    obtain rfl := hc.eq_of_name hwriter hplan hname
    obtain rfl := Except.ok.inj (hwrites.symm.trans hwritten)
    rw [hstored]
    rcases List.mem_cons.mp hin with heq | hin
    · exact absurd (Prod.mk.inj heq).1 (hother hentry hfield)
    · rw [(Prod.mk.inj (List.mem_singleton.mp hin)).2]

end Flattening

end PlainSchema
