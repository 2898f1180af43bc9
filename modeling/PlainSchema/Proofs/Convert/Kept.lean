import PlainSchema.Proofs.Convert.Restored
import PlainSchema.Proofs.Schema.Types

/-!
# What a conversion back keeps

Once a Plain field is written back, its value stays where it was written, unless a later write
displaces it at the top level or within a synthetic oneof, or a companion records a path that is
none of the origins of its field, `toSource_keeps`.  Fields whose paths part below the top level
between members of one oneof are refused.
-/

namespace PlainSchema

open Proto

namespace Restoring

variable {c : Restoring} {casters : Casters (Value → Except String Value)} {selection : Selection}
  {plan other : FieldPlan} {before middle after : List FieldPlan} {write write' : Write} {m : Message}

/-! ## Adapted values -/

/-- The selected member of the oneof that a plan belongs to. -/
def selectedFor (selection : Selection) (plan : FieldPlan) : Option OneofMember :=
  plan.origin.oneofGroup.bind fun oneof => List.lookup oneof selection

theorem adapted_eq_ok {found : Option Write} (h : c.adapted selection plan = .ok found) :
    ∃ type field, c.plain.type? c.pool = some type ∧ type.field? plan.shape.name = some field ∧
      ((c.plain.get? c.pool field = none ∧ found = none) ∨ ∃ write, found = some write ∧
        write.path = c.writePath plan (selectedFor selection plan) ∧
        checkSelected plan (selectedFor selection plan) write.path = .ok ()) := by
  rw [adapted] at h
  obtain ⟨type, htype, h⟩ := bind_eq_ok.mp h
  obtain ⟨field, hfield, h⟩ := bind_eq_ok.mp h
  have htype : c.plain.type? c.pool = some type := by
    cases hfound : c.plain.type? c.pool <;> simp_all
  have hfield : type.field? plan.shape.name = some field := by
    rw [requireField] at hfield
    split at hfield <;> simp_all
  refine ⟨type, field, htype, hfield, ?_⟩
  split at h
  · next hnone => exact Or.inl ⟨hnone, (Except.ok.inj h).symm⟩
  · obtain ⟨_, hselected, h⟩ := bind_eq_ok.mp h
    split at h
    · exact absurd h (by simp)
    · suffices hwrite : ∃ value, some (⟨c.writePath plan (selectedFor selection plan), value⟩ : Write)
          = found by
        obtain ⟨value, rfl⟩ := hwrite
        exact Or.inr ⟨_, rfl, rfl, hselected⟩
      split at h
      · obtain ⟨_, -, h⟩ := bind_eq_ok.mp h
        obtain ⟨value, -, h⟩ := bind_eq_ok.mp h
        exact ⟨value, Except.ok.inj h⟩
      · obtain ⟨_, -, h⟩ := bind_eq_ok.mp h
        obtain ⟨value, -, h⟩ := bind_eq_ok.mp h
        exact ⟨value, Except.ok.inj h⟩

theorem not_hasNamed_of_adapted (h : c.adapted selection plan = .ok none) :
    ¬ hasNamed c.pool c.plain plan.shape.name := by
  obtain ⟨type, field, htype, hfield, ⟨hnone, -⟩ | ⟨write, hwrite, -⟩⟩ := adapted_eq_ok h
  · intro hset
    have hhas : c.plain.has c.pool field := by simpa [hasNamed, htype, hfield] using hset
    rw [Message.get?_of_has hhas] at hnone
    rw [Message.has, hnone] at hhas
    exact absurd hhas (by simp)
  · exact absurd hwrite (by simp)

/-! ## Runs -/

theorem ne_nil_of_restoreField {out out' : Message} (hreversible : plan.isReversible)
    (hadapted : c.adapted selection plan = .ok (some write))
    (h : c.restoreField selection out plan = .ok out') :
    write.path ≠ [] ∧ pathConflict? c.source false out write.path = none ∧
      Message.writeIn? c.source write.value out write.path = some out' := by
  rcases restoreField_of_isReversible hreversible h with ⟨hnone, -⟩ | ⟨found, hfound, hconflict,
    hwrite⟩
  · rw [hadapted] at hnone
    exact absurd (Except.ok.inj hnone) (by simp)
  · rw [hadapted] at hfound
    obtain rfl := Option.some.inj (Except.ok.inj hfound)
    obtain ⟨_, _, -, -, -, -, hwrite⟩ := Message.write?_eq_some hwrite
    refine ⟨fun hnil => ?_, hconflict, hwrite⟩
    rw [hnil] at hwrite
    simp [Message.writeIn?] at hwrite

section Run

variable (hmode : c.mode = .strict casters) (hpool : c.source.Linked)
  (htype : c.source.message? c.type.fullName = some c.type)
  (hselection : selectMembers c.mode c.pool c.plain c.plan.oneofs = .ok selection)
  (h : c.run = .ok m)

include hmode hselection h

/-- The steps of a run around one of its plans. -/
theorem exists_steps (hsplit : c.plan.fields = before ++ plan :: after) :
    ∃ first second last,
      before.foldlM (c.restoreField selection) { type := c.type.fullName } = .ok first ∧
      c.restoreField selection first plan = .ok second ∧
      after.foldlM (c.restoreField selection) second = .ok last ∧
      selection.foldlM (fun out selected => c.ensureSelected out selected.2) last = .ok m := by
  obtain ⟨found, last, hfound, hfields, hselected⟩ := run_eq_ok hmode h
  obtain rfl := Except.ok.inj (hselection.symm.trans hfound)
  rw [hsplit, foldlM_append_eq_ok] at hfields
  obtain ⟨first, hfirst, hrest⟩ := hfields
  obtain ⟨second, hsecond, hrest⟩ := foldlM_cons_eq_ok.mp hrest
  exact ⟨first, second, last, hfirst, hsecond, hrest, hselected⟩

/-- The value of a set field could be adapted. -/
theorem exists_adapted (hplan : plan ∈ c.plan.fields) (hreversible : plan.isReversible)
    (hset : hasNamed c.pool c.plain plan.shape.name) :
    ∃ write, c.adapted selection plan = .ok (some write) := by
  obtain ⟨before, after, hsplit⟩ := List.append_of_mem hplan
  obtain ⟨first, second, -, -, hstep, -, -⟩ := exists_steps hmode hselection h hsplit
  rcases restoreField_of_isReversible hreversible hstep with ⟨hnone, -⟩ | ⟨write, hwrite, -, -⟩
  · exact absurd hset (not_hasNamed_of_adapted hnone)
  · exact ⟨write, hwrite⟩

include hpool htype

/-- A written value is in its place at the end, unless a later plan goes through the place or
displaces the value, or a selected member displaces it. -/
theorem at?_run (hpresence : ∀ oneof ∈ c.plan.oneofs, ∀ member ∈ oneof.members, ∀ field,
      c.type.field? member.name = some field → field.tracksPresence)
    (hsplit : c.plan.fields = before ++ plan :: after) (hreversible : plan.isReversible)
    (hadapted : c.adapted selection plan = .ok (some write))
    (hlater : ∀ later ∈ after, ∀ written, c.WritesThrough selection later written →
      ¬ c.Overwrites written write.path)
    (hselected : ∀ selected ∈ selection,
      ¬ Displaces c.source c.type [selected.2.name] write.path) :
    m.at? c.source write.path = some write.value := by
  obtain ⟨first, second, last, hfirst, hstep, hrest, hlast⟩ :=
    exists_steps hmode hselection h hsplit
  obtain ⟨hne, -, hwrite⟩ := ne_nil_of_restoreField hreversible hadapted hstep
  have hnew : Message.type? c.source { type := c.type.fullName } = some c.type := htype
  have htyped := type?_foldlM_restoreField hnew hfirst
  have hkept := at?_foldlM_restoreField hpool (type?_restoreField htyped hstep)
    (Message.at?_writeIn?_self hwrite) hlater hrest
  obtain ⟨name, rest, hpath⟩ := List.exists_cons_of_ne_nil hne
  rw [hpath] at hkept hselected ⊢
  refine (foldlM_invariant (fun out : Message => out.type? c.source = some c.type ∧
    out.at? c.source (name :: rest) = some write.value) hkept ?_ hlast).2
  intro out selected out' hmem hout hensure
  obtain ⟨oneof, honeof, -, hmember⟩ := mem_selectMembers hselection hmem
  exact at?_ensureSelected hpool hout.1 (hpresence oneof honeof selected.2 hmember) hout.2
    (hselected selected hmem) hensure

/-- Of two fields that are written to different members of one oneof below the top level, the first
one had lost its place before the second one was written. -/
theorem lost_of_partAt (hsplit : c.plan.fields = before ++ plan :: (middle ++ other :: after))
    (hreversible : plan.isReversible) (hreversible' : other.isReversible)
    (hadapted : c.adapted selection plan = .ok (some write))
    (hadapted' : c.adapted selection other = .ok (some write')) {front : List String}
    {left right : String} (hparts : PartAt front left right write.path write'.path)
    (hfront : front ≠ []) {inner : MessageType} (hinner : c.source.typeAt? c.type front = some inner)
    (hseparates : inner.Separates left right)
    (hreal : ∀ field i, inner.field? right = some field → field.oneof = some i →
      inner.isSynthetic i = false) :
    ∃ earlier written, c.WritesThrough selection earlier written ∧
      ((earlier ∈ before ++ middle ∧ ¬ Apart write.path written) ∨
        (earlier ∈ middle ∧ Displaces c.source c.type written write.path)) := by
  by_contra hnone
  have hbefore : ∀ earlier ∈ before ++ middle, ∀ written,
      c.WritesThrough selection earlier written → Apart write.path written := by
    intro earlier hmem written hwrites
    by_contra hapart
    exact hnone ⟨earlier, written, hwrites, Or.inl ⟨hmem, hapart⟩⟩
  have hprefix : front <+: write.path := (List.prefix_append _ _).trans hparts.left_prefix
  obtain ⟨first, second, last, hfirst, hstep, hrest, -⟩ := exists_steps hmode hselection h hsplit
  obtain ⟨third, hmiddle, hrest⟩ := foldlM_append_eq_ok.mp hrest
  obtain ⟨fourth, hother, -⟩ := foldlM_cons_eq_ok.mp hrest
  obtain ⟨hne, -, hwrite⟩ := ne_nil_of_restoreField hreversible hadapted hstep
  obtain ⟨-, hconflict, -⟩ := ne_nil_of_restoreField hreversible' hadapted' hother
  -- The messages along the front keep their types: only a write through the place could change them.
  have htyped : TypedAlong c.source c.type third front := by
    refine typedAlong_foldlM_restoreField hpool ?_ (fun earlier hmem written hwrites hwritten =>
      (hbefore earlier (List.mem_append_right _ hmem) written hwrites).2
        (hwritten.trans hprefix)) hmiddle
    refine typedAlong_restoreField hpool ?_ (fun written hwrites hwritten => ?_) hstep
    · exact typedAlong_foldlM_restoreField hpool (TypedAlong.new htype front)
        (fun earlier hmem written hwrites hwritten =>
          (hbefore earlier (List.mem_append_left _ hmem) written hwrites).2
            (hwritten.trans hprefix)) hfirst
    · cases hwrites with
      | value _ hfound =>
        rw [hadapted] at hfound
        obtain rfl := Option.some.inj (Except.ok.inj hfound)
        have hlength := (hparts.left_prefix.trans hwritten).length_le
        rw [List.length_append, List.length_singleton] at hlength
        omega
      | payload hrole =>
        simp [FieldPlan.isReversible, hrole] at hreversible
  have hat : third.at? c.source write.path = some write.value := by
    have hnew : Message.type? c.source { type := c.type.fullName } = some c.type := htype
    have hfirstType := type?_foldlM_restoreField hnew hfirst
    refine (at?_foldlM_restoreField hpool (type?_restoreField hfirstType hstep)
      (Message.at?_writeIn?_self hwrite) (fun earlier hmem written hwrites hover => ?_) hmiddle).2
    rcases hover with hapart | hdisplaces
    · exact hapart (hbefore earlier (List.mem_append_right _ hmem) written hwrites)
    · exact hnone ⟨earlier, written, hwrites, Or.inr ⟨hmem, hdisplaces⟩⟩
  obtain ⟨rest, hpath⟩ := hparts.left_prefix
  rw [← hpath, List.append_assoc] at hat
  obtain ⟨child, hchild, hat⟩ := Message.exists_at?_of_append (by simp) hat
  have hchildType := htyped.type?_eq hchild hinner
  obtain ⟨found, field, hfound, hfield, hexcludes⟩ := hseparates
  have hlinked := hpool inner (Pool.message?_mem hchildType).1
  have hsibling := siblingConflict?_of_pathConflict? hconflict hparts.right_prefix (Or.inl hfront)
    hchild hchildType hfield
  have hhas := siblingConflict?_eq_none hlinked (MessageType.field?_mem hfield).1
    (MessageType.field?_mem hfound).1 hexcludes (fun i hi => hreal field i hfield hi) hsibling
  have hpresence := hlinked.presence found (MessageType.field?_mem hfound).1 (by
    obtain ⟨-, i, -, hi⟩ := hexcludes
    simp [hi])
  obtain ⟨value, hstored⟩ := Message.exists_stored hat
  rw [Message.stored?_eq hchildType hfound] at hstored
  rw [Message.has_of_tracksPresence hpresence, hstored] at hhas
  exact absurd hhas (by simp)

end Run

end Restoring

end PlainSchema
