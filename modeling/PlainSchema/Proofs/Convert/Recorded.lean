import PlainSchema.Proofs.Convert.Local
import PlainSchema.Proofs.Convert.Strict
import PlainSchema.Proofs.Plan.Entries

/-!
# Recorded paths

The companion of a merged field holds a text that anyone may have written.  It is read as a path and
believed: a merged field is written back through the recorded path, whatever it is, and only without
one through an origin of the field, `Restoring.LeadsThrough`.

Still the text reaches nothing but the place it names.  Restoring a merged field is at most one write
through that path, `Restoring.WritesOnly`: what stands apart from the path stays, up to the siblings
in a oneof that the write clears, and nothing else comes in.  A path that leads to no field is an error
of the strict conversion, and the lenient one goes on as if the plan did not have the field,
`merged_field_written_through_one_path`.
-/

namespace PlainSchema

open Proto

namespace Restoring

variable {c : Restoring} {casters : Casters (Value → Except String Value)} {selection : Selection}
  {entry : CrfEntry} {plan : FieldPlan} {write : Write} {out out' : Message}

/-! ## The path of a merged field -/

/-- The path that a merged field is written back through: the recorded one, else the first origin
that starts with the selected member, else the first origin of all. -/
inductive LeadsThrough (c : Restoring) (entry : CrfEntry) (selected : Option OneofMember) :
    List String → Prop
  | recorded (hrecorded : c.recordedPath entry ≠ []) :
      LeadsThrough c entry selected (c.recordedPath entry)
  | selected {member : OneofMember} {path : List String} (hnone : c.recordedPath entry = [])
      (hselected : selected = some member)
      (hfirst : (entry.sources.map Crf.fieldNamesOf).find? (·.head? == some member.name)
        = some path) : LeadsThrough c entry selected path
  | first {source : String} (hnone : c.recordedPath entry = [])
      (hother : ∀ member, selected = some member → ∀ source ∈ entry.sources,
        (Crf.fieldNamesOf source).head? ≠ some member.name)
      (hsource : entry.defaultSource? = some source) :
      LeadsThrough c entry selected (Crf.fieldNamesOf source)

theorem LeadsThrough.eq_recorded {selected : Option OneofMember} {path : List String}
    (h : c.LeadsThrough entry selected path) (hrecorded : c.recordedPath entry ≠ []) :
    path = c.recordedPath entry := by
  cases h with
  | recorded => rfl
  | selected hnone => exact absurd hnone hrecorded
  | first hnone => exact absurd hnone hrecorded

/-- Without a recorded path it is one of the origins. -/
theorem LeadsThrough.mem_sources {selected : Option OneofMember} {path : List String}
    (h : c.LeadsThrough entry selected path) (hnone : c.recordedPath entry = []) :
    path ∈ entry.sources.map Crf.fieldNamesOf := by
  cases h with
  | recorded hrecorded => exact absurd hnone hrecorded
  | selected _ _ hfirst => exact List.mem_of_find?_eq_some hfirst
  | first _ _ hsource => exact List.mem_map_of_mem (List.mem_of_head? hsource)

/-- A plan with a way back and the entry about its field. -/
structure IsMerged (c : Restoring) (entry : CrfEntry) (plan : FieldPlan) : Prop where
  reversible : plan.isReversible
  found : c.plan.mergedField? plan.shape.name = some entry
  first : ∃ source, entry.defaultSource? = some source ∧
    Crf.fieldNamesOf source = plan.origin.sourcePath

theorem IsMerged.leadsThrough (h : c.IsMerged entry plan) (selected : Option OneofMember) :
    c.LeadsThrough entry selected (c.writePath plan selected) := by
  obtain ⟨source, hsource, hpath⟩ := h.first
  rw [writePath, h.found]
  dsimp only
  split
  · next hrecorded => exact .recorded (by simpa using hrecorded)
  · next hnone =>
    have hnone : c.recordedPath entry = [] := by simpa using hnone
    cases hfound : selected.bind fun member =>
        (entry.sources.map Crf.fieldNamesOf).find? (·.head? == some member.name) with
    | none =>
      rw [Option.getD_none, ← hpath]
      refine .first hnone (fun member hselected other hother hhead => ?_) hsource
      rw [hselected, Option.bind_some, List.find?_eq_none] at hfound
      exact hfound _ (List.mem_map_of_mem hother) (by simp [hhead])
    | some path =>
      rw [Option.getD_some]
      obtain ⟨member, hselected, hfirst⟩ := Option.bind_eq_some_iff.mp hfound
      exact .selected hnone hselected hfirst

/-! ## One write -/

/-- A message after a write through a path, and the message before.  The value fits the field at the
end of the path.  What one of them holds in a place apart from the path the other one holds there too,
unless the write displaces it. -/
structure WritesOnly (pool : Pool) (type : MessageType) (path : List String) (value : Value)
    (before after : Message) : Prop where
  fits : ∃ leaf, pool.resolvePath type path = some leaf ∧ pool.accepts leaf value
  written : after.at? pool path = some value
  kept : ∀ place found, Apart place path → ¬ Displaces pool type path place →
    before.at? pool place = some found → after.at? pool place = some found
  nothingNew : ∀ place found, Apart place path → after.at? pool place = some found →
    before.at? pool place = some found

theorem writesOnly_of_commit {name : String} (hpool : c.source.Linked)
    (htype : out.type? c.source = some c.type) (h : c.commit name out write = .ok out') :
    WritesOnly c.source c.type write.path write.value out out' := by
  obtain ⟨hconflict, hwrite⟩ := commit_eq_ok h
  obtain ⟨type, leaf, hfound, hleaf, haccepts, -, hwrite⟩ := Message.write?_eq_some hwrite
  obtain rfl := Option.some.inj (hfound.symm.trans htype)
  refine ⟨⟨leaf, hleaf, haccepts⟩, Message.at?_writeIn?_self hwrite, ?_, ?_⟩
  · intro place found hapart hfree hat
    exact at?_writeIn?_of_noConflict hpool htype hapart hat hconflict hwrite hfree
  · intro place found hapart hat
    exact Message.at?_of_writeIn? hpool hapart hwrite hat

/-- Restoring a merged field changes nothing, or is one write through its path. -/
theorem IsMerged.writesOnly (h : c.IsMerged entry plan) (hpool : c.source.Linked)
    (htype : out.type? c.source = some c.type)
    (hstep : c.mode.settle out (c.restoreField selection out plan) = .ok out') :
    out' = out ∨ ∃ path value, c.LeadsThrough entry (selectedFor selection plan) path ∧
      WritesOnly c.source c.type path value out out' := by
  rcases Mode.settle_eq_ok hstep with heq | hstep
  · exact Or.inl heq
  rcases restoreField_of_isReversible h.reversible hstep with ⟨-, heq⟩ | ⟨write, hadapted, -, -⟩
  · exact Or.inl heq
  right
  obtain ⟨_, _, -, -, ⟨-, hnone⟩ | ⟨found, hfound, hpath, -⟩⟩ := adapted_eq_ok hadapted
  · exact absurd hnone (by simp)
  obtain rfl := Option.some.inj hfound
  refine ⟨write.path, write.value, hpath ▸ h.leadsThrough _, ?_⟩
  have hcommit : c.commit plan.shape.name out write = .ok out' := by
    rw [restoreField_eq_restoreValue h.reversible, restoreValue, hadapted] at hstep
    exact hstep
  exact writesOnly_of_commit hpool htype hcommit

/-! ## Paths that lead nowhere -/

/-- The value of a merged field fits the field that the recorded path leads to. -/
def RecordedFits (c : Restoring) (selection : Selection) (entry : CrfEntry) (plan : FieldPlan) :
    Prop :=
  ∃ write leaf, c.adapted selection plan = .ok (some write) ∧
    c.source.resolvePath c.type (c.recordedPath entry) = some leaf ∧
    c.source.accepts leaf write.value ∧ Message.sameType leaf write.value

/-- A recorded path that leads to no field, or to one that the value does not fit, is an error. -/
theorem IsMerged.restoreField_error (h : c.IsMerged entry plan)
    (htype : out.type? c.source = some c.type) (hset : hasNamed c.pool c.plain plan.shape.name)
    (hrecorded : c.recordedPath entry ≠ []) (hfits : ¬ c.RecordedFits selection entry plan) :
    ∃ e, c.restoreField selection out plan = .error e := by
  cases hstep : c.restoreField selection out plan with
  | error e => exact ⟨e, rfl⟩
  | ok out' =>
    exfalso
    rcases restoreField_of_isReversible h.reversible hstep with ⟨hnone, -⟩ | ⟨write, hadapted, -,
      hwrite⟩
    · exact not_hasNamed_of_adapted hnone hset
    · obtain ⟨_, _, -, -, ⟨-, hnone⟩ | ⟨found, hfound, hpath, -⟩⟩ := adapted_eq_ok hadapted
      · exact absurd hnone (by simp)
      obtain rfl := Option.some.inj hfound
      obtain ⟨type, leaf, htype', hleaf, haccepts, hsame, -⟩ := Message.write?_eq_some hwrite
      obtain rfl := Option.some.inj (htype'.symm.trans htype)
      rw [hpath, (h.leadsThrough _).eq_recorded hrecorded] at hleaf
      exact hfits ⟨write, leaf, hadapted, hleaf, haccepts, hsame⟩

/-- A write that is refused for its path or its value leaves nothing behind. -/
theorem IsMerged.leftBehind_eq (h : c.IsMerged entry plan)
    (htype : out.type? c.source = some c.type) (hrecorded : c.recordedPath entry ≠ [])
    (hfits : ¬ c.RecordedFits selection entry plan) : c.leftBehind selection out plan = out := by
  rw [leftBehind, if_pos h.reversible]
  split
  · next write hadapted =>
    obtain ⟨_, _, -, -, ⟨-, hnone⟩ | ⟨found, hfound, hpath, -⟩⟩ := adapted_eq_ok hadapted
    · exact absurd hnone (by simp)
    obtain rfl := Option.some.inj hfound
    rw [leftByWrite]
    split
    · rfl
    · rw [Message.setValue_of_not_settable]
      intro leaf hsettable
      have hleaf := hsettable.resolves
      rw [Message.resolve?, htype, Option.bind_eq_bind, Option.bind_some, hpath,
        (h.leadsThrough _).eq_recorded hrecorded] at hleaf
      exact hfits ⟨write, leaf, hadapted, hleaf, hsettable.accepts,
        (Message.sameType_iff hsettable.accepts).mpr hsettable.types⟩
  · rfl

/-- The same conversion by a plan with other fields. -/
def withFields (c : Restoring) (fields : List FieldPlan) : Restoring :=
  { c with plan := { c.plan with fields } }

theorem restoreField_withFields {fields : List FieldPlan}
    (hsame : ∀ oneof, discriminatorField? (c.withFields fields).plan oneof
      = discriminatorField? c.plan oneof) :
    (c.withFields fields).restoreField = c.restoreField := by
  have hdiscriminator : (c.withFields fields).discriminator? = c.discriminator? := by
    funext oneof
    rw [discriminator?, discriminator?, hsame]
    rfl
  funext selection out plan
  rw [restoreField, restoreField]
  cases plan.origin.role with
  | none => rfl
  | some role =>
    cases role with
    | payload oneof =>
      dsimp only
      rw [restorePayload, restorePayload, hdiscriminator]
      rfl
    | _ => rfl

theorem leftBehind_withFields {fields : List FieldPlan} :
    (c.withFields fields).leftBehind = c.leftBehind := by
  funext selection out plan
  rfl

section Runs

variable {before after : List FieldPlan}
  (hfound : c.source.message? c.type.fullName = some c.type)
  (hsplit : c.plan.fields = before ++ plan :: after)
  (herror : ∀ selection, selectMembers c.mode c.pool c.plain c.plan.oneofs = .ok selection →
    ∀ out, out.type? c.source = some c.type → (∃ e, c.restoreField selection out plan = .error e) ∧
      c.leftBehind selection out plan = out)

include hfound hsplit herror

/-- A strict conversion fails with a field that cannot be restored. -/
theorem run_strict_of_error (hmode : c.mode = .strict casters) : ∃ e, c.run = .error e := by
  cases hrun : c.run with
  | error e => exact ⟨e, rfl⟩
  | ok m =>
    exfalso
    obtain ⟨selection, _, hselection, -, -⟩ := run_eq_ok hmode hrun
    obtain ⟨first, second, -, hfirst, hstep, -, -⟩ := exists_steps hmode hselection hrun hsplit
    have hnew : Message.type? c.source { type := c.type.fullName } = some c.type := hfound
    obtain ⟨⟨e, he⟩, -⟩ :=
      herror selection hselection first (type?_foldlM_restoreField hnew hfirst)
    rw [hstep] at he
    exact absurd he (by simp)

/-- A lenient conversion leaves out a field that cannot be restored. -/
theorem run_lenient_of_error {casters : Casters (Value → Value)} (hmode : c.mode = .lenient casters)
    (hrole : ∀ oneof, plan.origin.role ≠ some (.discriminator oneof)) :
    c.run = (c.withFields (before ++ after)).run := by
  have hdiscriminator : ∀ oneof, discriminatorField? (c.withFields (before ++ after)).plan oneof
      = discriminatorField? c.plan oneof := by
    intro oneof
    simp only [discriminatorField?, withFields, hsplit]
    rw [List.find?_append, List.find?_append, List.find?_cons, beq_eq_false_iff_ne.mpr (hrole oneof)]
  have hstep : (c.withFields (before ++ after)).restoreStep = c.restoreStep := by
    funext selection out other
    rw [restoreStep, restoreStep, restoreField_withFields hdiscriminator, leftBehind_withFields]
    rfl
  rw [run, run, hstep, hsplit]
  dsimp only [withFields]
  cases hselection : selectMembers c.mode c.pool c.plain c.plan.oneofs with
  | error e => rfl
  | ok selection =>
    have hsteps : (before ++ plan :: after).foldlM (c.restoreStep selection)
        { type := c.type.fullName }
          = (before ++ after).foldlM (c.restoreStep selection) { type := c.type.fullName } := by
      rw [List.foldlM_append, List.foldlM_append]
      cases hfirst : before.foldlM (c.restoreStep selection)
          ({ type := c.type.fullName } : Message) with
      | error e => rfl
      | ok first =>
        -- Whatever was left out in front of the field, the message is of the type of the source.
        have hnew : Message.type? c.source { type := c.type.fullName } = some c.type := hfound
        obtain ⟨⟨e, he⟩, hleft⟩ :=
          herror selection hselection first (type?_foldlM_restoreStep hnew hfirst)
        simp only [bind, Except.bind]
        rw [List.foldlM_cons, restoreStep, he, hleft, hmode]
        rfl
    simp only [bind, Except.bind]
    rw [hsteps]
    rfl

end Runs

end Restoring

end PlainSchema
