import PlainSchema.Proofs.Plan.Discriminated
import PlainSchema.Proofs.Plan.Dispatched
import PlainSchema.Proofs.Plan.Slots

/-!
# Every field is covered

No field of a message is left out of its plan: its walk ends at leaves each of which is an own path of
a field with a way back, unless the field is a member of a oneof that a payload holds,
`SourceMessage.IsPlanOf.exists_walk_of_field`.

```text
leaf        a candidate of the slots has its path
candidate   a planned field of its name has the path among its own paths
```
-/

namespace PlainSchema

open Proto

namespace SourceMessage

/-- Whether the message of a field is inlined.  The members that a payload holds are not. -/
def dissolves (m : SourceMessage) (schema : Schema) (field : SourceField) : Bool :=
  match m.dissolvedIndex? field with
  | none => field.options.embeds
  | some index => m.strategy index != .discriminatorOnly && schema.inlinesMember field

/-- A field is a member of a oneof whose populated member a payload holds. -/
def InPayload (m : SourceMessage) (field : SourceField) : Prop :=
  ∃ index, field.oneofIndex = some index ∧ m.strategy index = .discriminatorOnly

end SourceMessage

/-- The part of a walk that goes over one of its fields. -/
theorem Walk.exists_of_mem {schema : Schema} {inlines : SourceField → Bool} {m : SourceMessage}
    {fields : List SourceField} {leaves : List Leaf} {field : SourceField}
    (h : Walk schema inlines m fields leaves) (hfield : field ∈ fields) :
    ∃ own, Walk schema inlines m [field] own ∧ own ⊆ leaves := by
  induction h with
  | nil => exact absurd hfield List.not_mem_nil
  | leaf hkept _ ih =>
    rcases List.mem_cons.mp hfield with rfl | hfield
    · exact ⟨_, .leaf hkept .nil, List.cons_subset_cons _ (List.nil_subset _)⟩
    · obtain ⟨own, hwalk, hsubset⟩ := ih hfield
      exact ⟨own, hwalk, List.subset_cons_of_subset _ hsubset⟩
  | inlined hinlines htarget hinner _ _ ih =>
    rcases List.mem_cons.mp hfield with rfl | hfield
    · exact ⟨_, .into hinlines htarget hinner, List.subset_append_left _ _⟩
    · obtain ⟨own, hwalk, hsubset⟩ := ih hfield
      exact ⟨own, hwalk, List.Subset.trans hsubset (List.subset_append_right _ _)⟩

namespace SourceMessage

variable {schema : Schema} {settings : Settings} {renames : Renames} {m : SourceMessage}
  {mp : MessagePlan} {field : SourceField}

/-- A field of a message has a walk among those that make its slots, unless a payload holds it. -/
theorem FlattensTo.exists_walk_of_field {slots : List Slot} (h : m.FlattensTo schema slots)
    (hfield : field ∈ m.fields) (hpayload : ¬ m.InPayload field) :
    ∃ leaves, Walk schema (m.dissolves schema) m [field] leaves ∧
      ∀ leaf ∈ leaves, ∃ namePrefix, Slot.leaf namePrefix leaf ∈ slots := by
  obtain ⟨groups, hgroups, rfl⟩ := h
  have hslots : ∀ {group : List Slot}, group ∈ groups → ∀ slot ∈ group,
      slot ∈ groups.flatten ++ m.options.virtualFields.map Slot.virtual :=
    fun hgroup slot hslot =>
      List.mem_append_left _ (List.mem_flatten.mpr ⟨_, hgroup, hslot⟩)
  cases hindex : m.dissolvedIndex? field with
  | none =>
    obtain ⟨group, hgroup, hreplaces⟩ := exists_right_of_forall₂ hgroups hfield
    rw [Replaces, hindex] at hreplaces
    obtain ⟨leaves, hwalk, rfl⟩ := hreplaces
    refine ⟨leaves, hwalk.congr ?_, fun leaf hleaf => ⟨"", ?_⟩⟩
    · intro other hother
      rw [List.mem_singleton.mp hother, dissolves, hindex]
    · exact hslots hgroup _ (List.mem_map_of_mem hleaf)
  | some index =>
    obtain ⟨hof, hflattens⟩ := Option.filter_eq_some_iff.mp hindex
    -- The slots of a dissolved oneof stand in place of the member that is met first.
    obtain ⟨first, hfirst⟩ : ∃ first, m.firstMember? index = some first := by
      rw [← Option.isSome_iff_exists, firstMember?, List.find?_isSome]
      exact ⟨field, hfield, by simp [hof]⟩
    have hfirstOf : first.oneofIndex = some index := by simpa using List.find?_some hfirst
    obtain ⟨group, hgroup, hreplaces⟩ :=
      exists_right_of_forall₂ hgroups (List.mem_of_find?_eq_some hfirst)
    rw [Replaces, dissolvedIndex?_eq_some hfirstOf hflattens] at hreplaces
    dsimp only at hreplaces
    rw [if_pos hfirst] at hreplaces
    have hmember : field ∈ m.oneofFields index := mem_oneofFields.mpr ⟨hfield, hof⟩
    have hwalks : ∀ leaves, Walk schema schema.inlinesMember m (m.oneofFields index) leaves →
        ∃ own, Walk schema (m.dissolves schema) m [field] own ∧ own ⊆ leaves := by
      intro leaves hwalk
      obtain ⟨own, hown, hsubset⟩ := hwalk.exists_of_mem hmember
      refine ⟨own, hown.congr ?_, hsubset⟩
      intro other hother
      have hkept : m.strategy index ≠ .discriminatorOnly := fun hstrategy =>
        hpayload ⟨index, hof, hstrategy⟩
      rw [List.mem_singleton.mp hother, dissolves, hindex]
      simp [hkept]
    unfold DissolvesInto at hreplaces
    cases hstrategy : m.strategy index with
    | untouched =>
      rw [hstrategy] at hflattens
      exact absurd hflattens (by decide)
    | discriminatorOnly => exact absurd ⟨index, hof, hstrategy⟩ hpayload
    | embedOnly =>
      simp only [hstrategy] at hreplaces
      obtain ⟨leaves, hwalk, rfl⟩ := hreplaces
      obtain ⟨own, hown, hsubset⟩ := hwalks leaves hwalk
      exact ⟨own, hown, fun leaf hleaf =>
        ⟨_, hslots hgroup _ (List.mem_map_of_mem (hsubset hleaf))⟩⟩
    | enumDispatch =>
      simp only [hstrategy] at hreplaces
      obtain ⟨leaves, hwalk, rfl⟩ := hreplaces
      obtain ⟨own, hown, hsubset⟩ := hwalks leaves hwalk
      exact ⟨own, hown, fun leaf hleaf => ⟨_, hslots hgroup _
        (List.mem_cons_of_mem _ (List.mem_map_of_mem (hsubset hleaf)))⟩⟩

section Planned

variable (h : m.IsPlanOf schema settings renames mp) (hgenerate : mp.generate)
  (hm : m ∈ schema.messages) (hnames : ∀ m ∈ schema.messages, ∀ field ∈ m.fields, field.name ≠ "")

include h hgenerate hm hnames

/-- A candidate with a way back is kept, or merged into another one that is read from its path too. -/
theorem IsPlanOf.exists_plan_of_isReversible {candidate : FieldPlan}
    (hcandidate : candidate ∈ m.candidates schema settings mp.newFullName)
    (hreversible : candidate.isReversible) :
    ∃ plan ∈ mp.fields, plan.isReversible ∧ plan.shape.name = candidate.shape.name ∧
      candidate.origin.sourcePath ∈ mp.ownPaths plan := by
  obtain ⟨kept, groups, hmerges, hgroups, hfields⟩ := h.exists_merges hgenerate
  obtain ⟨before, hbefore, hname⟩ := hmerges.complete candidate hcandidate
  obtain ⟨first, rest, hnamed, hfrom, hrest⟩ := hmerges.kept before hbefore
  have hmem : candidate ∈ first :: rest := by
    rw [← hnamed]
    exact List.mem_filter.mpr ⟨hcandidate, by simpa using hname.symm⟩
  have hfirst : first.isReversible := by
    rcases List.mem_cons.mp hmem with rfl | hlater
    · exact hreversible
    · have hcompatible := hrest candidate hlater
      rw [incompatibility?] at hcompatible
      cases hback : first.isReversible with
      | true => rfl
      | false => simp [hback] at hcompatible
  obtain ⟨group, hgroup, hmade⟩ := exists_right_of_forall₂ hgroups hbefore
  obtain ⟨plan, hplan, hsame⟩ := exists_right_of_forall₂ hfields
    (List.mem_flatten.mpr ⟨group, hgroup, mem_of_withCompanion hmade⟩)
  have hback : plan.isReversible := by
    rw [← hsame.isReversible, hfrom.isReversible]
    exact hfirst
  have hplanName : plan.shape.name = candidate.shape.name := hsame.name.symm.trans hname
  refine ⟨plan, hplan, hback, hplanName, ?_⟩
  exact ((h.mem_ownPaths hgenerate hm hnames hplan hback).1 _).mpr
    ⟨candidate, hcandidate, hplanName.symm, rfl⟩

/-- **Every field is covered**: it is a leaf or inlined, and each leaf below it has a Plain field that
is read from there, unless a payload holds it. -/
theorem IsPlanOf.exists_walk_of_field (hdots : schema.HasDottedRefs)
    (hfindings : ∀ finding ∈ schema.findings, ¬ finding.isError) (hnodup : m.fields.Nodup)
    (hfield : field ∈ m.fields) (hpayload : ¬ m.InPayload field) :
    ∃ leaves, Walk schema (m.dissolves schema) m [field] leaves ∧
      ∀ leaf ∈ leaves, ∃ plan ∈ mp.fields, plan.isReversible ∧ leaf.path ∈ mp.ownPaths plan := by
  obtain ⟨slots, hslots, hfilled⟩ := exists_flattensTo hm (h.outlines.generate ▸ hgenerate) hdots
    hfindings hnodup settings mp.newFullName
  obtain ⟨leaves, hwalk, hleaves⟩ := hslots.exists_walk_of_field hfield hpayload
  refine ⟨leaves, hwalk, fun leaf hleaf => ?_⟩
  obtain ⟨namePrefix, hslot⟩ := hleaves leaf hleaf
  obtain ⟨candidate, hcandidate, hplanned⟩ := exists_right_of_forall₂ hfilled hslot
  obtain ⟨plan, hplan, hreversible, -, hpath⟩ :=
    h.exists_plan_of_isReversible hgenerate hm hnames hcandidate hplanned.isReversible
  rw [show candidate.origin.sourcePath = leaf.path from hplanned.path] at hpath
  exact ⟨plan, hplan, hreversible, hpath⟩

omit hm hnames in
/-- The oneof of a field that a payload holds has both, with the field among its members. -/
theorem IsPlanOf.exists_payload_of_field (hfield : field ∈ m.fields) (hpayload : m.InPayload field) :
    ∃ oneof ∈ mp.oneofs, (∃ member ∈ oneof.members, member.name = field.name) ∧
      ∃ plan ∈ mp.fields, plan.origin.role = some (.payload oneof.name) := by
  obtain ⟨index, hindex, hstrategy⟩ := hpayload
  have hmember : field ∈ m.oneofFields index := mem_oneofFields.mpr ⟨hfield, hindex⟩
  obtain ⟨hplanned, -⟩ := h.getElem?_oneofs_of_flattens hgenerate
    (show (m.strategy index).flattens by rw [hstrategy]; rfl) (List.ne_nil_of_mem hmember)
  have honeof := List.mem_of_getElem? hplanned
  refine ⟨_, honeof, ?_, (h.exists_discriminated hgenerate honeof ?_).2.2⟩
  · rw [hstrategy]
    exact ⟨_, List.mem_map_of_mem hmember, rfl⟩
  · rw [strategy_expand, hstrategy]

end Planned

end SourceMessage

end PlainSchema
