import Mathlib.Data.List.Pairwise
import PlainSchema.Convert.ToPlain
import PlainSchema.Proofs.Crf.Escaped
import PlainSchema.Proofs.Plan.Merged
import PlainSchema.Proofs.Plan.Sources
import PlainSchema.Proofs.Schema.Scopes

/-!
# The own paths of a Plain field

A Plain field of a plan is read from its source path, or from the recorded origins if it is merged.
Each of these paths is that of a candidate of its name, so the paths of different fields are apart,
`SourceMessage.IsPlanOf.ownPaths_apart`.
-/

namespace PlainSchema

open Proto

/-- The paths that a Plain field can be read from. -/
def MessagePlan.ownPaths (mp : MessagePlan) (plan : FieldPlan) : List (List String) :=
  (mp.sourcePaths plan).map (·.names)

/-- Two plans of one Plain name and one origin. -/
structure FieldPlan.SameOrigin (plan other : FieldPlan) : Prop where
  name : plan.shape.name = other.shape.name
  origin : plan.origin = other.origin

theorem FieldPlan.SameOrigin.isReversible {plan other : FieldPlan} (h : plan.SameOrigin other) :
    plan.isReversible = other.isReversible := by
  rw [FieldPlan.isReversible, FieldPlan.isReversible, h.origin]

/-- The origin of a plan reads as its source path. -/
theorem fieldNamesOf_originPath {plan : FieldPlan} (hne : plan.origin.sourcePath ≠ [])
    (hnames : ∀ name ∈ plan.origin.sourcePath, name ≠ "") :
    Crf.fieldNamesOf plan.originPath = plan.origin.sourcePath := by
  cases hpath : plan.origin.sourcePath with
  | nil => exact absurd hpath hne
  | cons first rest =>
    rw [hpath, List.forall_mem_cons] at hnames
    have hrest : (Crf.Path.ofNames rest).segments.map (·.name) = rest := by
      simp [Crf.Path.ofNames, Function.comp_def]
    have hsegments : ∀ segment ∈ (Crf.Path.ofNames rest).segments, segment.name ≠ "" := by
      intro segment hsegment
      exact hnames.2 _ (hrest ▸ List.mem_map_of_mem hsegment)
    rw [FieldPlan.originPath, hpath]
    cases plan.origin.oneofGroup with
    | none =>
      rw [Crf.fieldNamesOf_render (List.forall_mem_cons.mpr ⟨hnames.1, hsegments⟩)]
      exact congrArg (first :: ·) hrest
    | some group =>
      rw [Crf.fieldNamesOf_render (List.forall_mem_cons.mpr ⟨hnames.1, hsegments⟩)]
      exact congrArg (first :: ·) hrest

/-! ## From candidates to plans -/

/-- A field of a plan is a plan that was left when collisions were resolved, with a number and with
its type reference renamed. -/
def FieldPlan.FinishedAs (renames : Renames) (plan final : FieldPlan) : Prop :=
  ∃ number, final = renames.retargetPlan { plan with shape := { plan.shape with number } }

theorem sameOrigin_retargetPlan (renames : Renames) (plan : FieldPlan) :
    plan.SameOrigin (renames.retargetPlan plan) := by
  rw [Renames.retargetPlan]
  split <;> exact ⟨rfl, rfl⟩

/-- Renaming the reference of a plan changes no more of its shape. -/
theorem shape_retargetPlan (renames : Renames) (plan : FieldPlan) :
    (renames.retargetPlan plan).shape = renames.retargetShape plan.shape := by
  rw [Renames.retargetPlan, Renames.retargetShape]
  cases href : plan.shape.typeRef with
  | none =>
    rw [Option.bind_none, Option.map_none, ← href]
  | some old =>
    rw [Option.bind_some, Option.map_some, Renames.rename]
    cases hnew : renames.resolve? old with
    | none => rw [Option.map_none, Option.getD_none, ← href]
    | some new => rfl

theorem FieldPlan.FinishedAs.sameOrigin {renames : Renames} {plan final : FieldPlan}
    (h : plan.FinishedAs renames final) : plan.SameOrigin final := by
  obtain ⟨number, rfl⟩ := h
  have hsame := sameOrigin_retargetPlan renames { plan with shape := { plan.shape with number } }
  exact ⟨hsame.name, hsame.origin⟩

theorem FieldPlan.FinishedAs.shape {renames : Renames} {plan final : FieldPlan}
    (h : plan.FinishedAs renames final) :
    final.shape = { renames.retargetShape plan.shape with number := final.shape.number } := by
  obtain ⟨number, rfl⟩ := h
  rw [shape_retargetPlan]
  rfl

theorem source_retargetPlan (renames : Renames) (plan : FieldPlan) :
    (renames.retargetPlan plan).source = plan.source := by
  rw [Renames.retargetPlan]
  split <;> rfl

theorem FieldPlan.FinishedAs.source {renames : Renames} {plan final : FieldPlan}
    (h : plan.FinishedAs renames final) : final.source = plan.source := by
  obtain ⟨number, rfl⟩ := h
  exact source_retargetPlan renames _

section Planned

variable {schema : Schema} {settings : Settings} {renames : Renames} {m : SourceMessage}
  {mp : MessagePlan}

/-- The plan of a generated message and the merging that it was made by. -/
theorem SourceMessage.IsPlanOf.exists_finished (h : m.IsPlanOf schema settings renames mp)
    (hgenerate : mp.generate) :
    ∃ kept groups, Merging.Merges (m.candidates schema settings mp.newFullName) ⟨kept, mp.crf⟩ ∧
      Merging.KeepsOrder (m.candidates schema settings mp.newFullName) ⟨kept, mp.crf⟩ ∧
      List.Forall₂ (fun plan group =>
        Merging.withCompanion m.fullName ⟨kept, mp.crf⟩ plan = .ok group) kept groups ∧
      List.Forall₂ (FieldPlan.FinishedAs renames) groups.flatten mp.fields := by
  have houtlines := h.outlines
  obtain ⟨outlined, houtlined, rfl⟩ := h
  rw [SourceMessage.IsOutlinedAs] at houtlined
  split at houtlined
  · obtain ⟨merged, hmerged, hfields⟩ := houtlined.collisions
    obtain ⟨kept, groups, hmerges, rfl, hgroups, hordered⟩ := resolveCollisions_eq_ok_ordered hmerged
    have hname : (outlined.rename renames).newFullName
        = (MessagePlan.outline renames m).newFullName := houtlines.newFullName
    rw [hname]
    refine ⟨kept, groups, hmerges, hordered, hgroups, ?_⟩
    have hnumbered := forall₂_assignNumbers groups.flatten
    rw [← hfields] at hnumbered
    refine List.forall₂_map_right_iff.mpr (hnumbered.imp fun plan numbered hnumber => ?_)
    obtain ⟨⟨number, rfl⟩, -⟩ := hnumber
    exact ⟨number, rfl⟩
  · next hgenerate' =>
    rw [houtlines.generate] at hgenerate
    exact absurd hgenerate hgenerate'

theorem SourceMessage.IsPlanOf.exists_merges (h : m.IsPlanOf schema settings renames mp)
    (hgenerate : mp.generate) :
    ∃ kept groups, Merging.Merges (m.candidates schema settings mp.newFullName) ⟨kept, mp.crf⟩ ∧
      List.Forall₂ (fun plan group =>
        Merging.withCompanion m.fullName ⟨kept, mp.crf⟩ plan = .ok group) kept groups ∧
      List.Forall₂ FieldPlan.SameOrigin groups.flatten mp.fields := by
  obtain ⟨kept, groups, hmerges, -, hgroups, hfields⟩ := h.exists_finished hgenerate
  exact ⟨kept, groups, hmerges, hgroups, hfields.imp fun _ _ hfinished => hfinished.sameOrigin⟩

theorem traces_path {ctx : PlanContext} {ref : String → String} {plan : FieldPlan}
    (hnames : ∀ m ∈ ctx.schema.messages, ∀ field ∈ m.fields, field.name ≠ "")
    (hm : m ∈ ctx.schema.messages) (h : plan.Traces ctx ref m) (hreversible : plan.isReversible) :
    plan.origin.sourcePath ≠ [] ∧ ∀ name ∈ plan.origin.sourcePath, name ≠ "" := by
  rcases h with ⟨-, hnot⟩ | ⟨owner, leaf, hleads, -⟩
  · exact absurd hreversible hnot
  · generalize plan.origin.sourcePath = path at hleads
    induction hleads with
    | leaf hfield => exact ⟨by simp, by simpa using hnames _ hm _ hfield⟩
    | hop hfield hnext _ ih =>
      obtain ⟨ref, -, href⟩ := Option.bind_eq_some_iff.mp hnext
      have hrest := (ih (Schema.message?_mem href)).2
      exact ⟨by simp, List.forall_mem_cons.mpr ⟨hnames _ hm _ hfield, hrest⟩⟩

/-- A Plain field with a way back is read from the source paths of the candidates of its name, which
all have a way back. -/
theorem SourceMessage.IsPlanOf.mem_ownPaths (h : m.IsPlanOf schema settings renames mp)
    (hgenerate : mp.generate) (hm : m ∈ schema.messages)
    (hnames : ∀ m ∈ schema.messages, ∀ field ∈ m.fields, field.name ≠ "") {plan : FieldPlan}
    (hplan : plan ∈ mp.fields) (hreversible : plan.isReversible) :
    (∀ path, path ∈ mp.ownPaths plan ↔ ∃ candidate ∈ m.candidates schema settings mp.newFullName,
        candidate.shape.name = plan.shape.name ∧ candidate.origin.sourcePath = path) ∧
      plan.origin.sourcePath ∈ mp.ownPaths plan ∧
      ∀ candidate ∈ m.candidates schema settings mp.newFullName,
        candidate.shape.name = plan.shape.name → candidate.isReversible := by
  obtain ⟨kept, groups, hmerges, hgroups, hfields⟩ := h.exists_merges hgenerate
  obtain ⟨before, hbefore, hsame⟩ := exists_left_of_forall₂ hfields hplan
  have hkept : before ∈ kept := by
    have hmem : before ∈ groups.flatten.filter (·.isReversible) :=
      List.mem_filter.mpr ⟨hbefore, hsame.isReversible ▸ hreversible⟩
    rw [filter_isReversible_flatten hgroups] at hmem
    exact (List.mem_filter.mp hmem).1
  obtain ⟨first, rest, hnamed, hfrom, hrest⟩ := hmerges.kept before hkept
  rw [hsame.name] at hnamed
  have horigin : first.origin = plan.origin := hfrom.origin.symm.trans hsame.origin
  have hfirst : first.isReversible := by
    rw [← hfrom.isReversible, hsame.isReversible]
    exact hreversible
  have hmem : ∀ other, other ∈ first :: rest ↔
      other ∈ m.candidates schema settings mp.newFullName ∧ other.shape.name = plan.shape.name := by
    intro other
    rw [← hnamed, plansNamed, List.mem_filter, beq_iff_eq]
  have hall : ∀ other ∈ first :: rest, other.isReversible := by
    intro other hother
    rcases List.mem_cons.mp hother with rfl | hother
    · exact hfirst
    · have hcompatible := hrest other hother
      rw [incompatibility?, hfirst] at hcompatible
      cases hother : other.isReversible with
      | true => rfl
      | false => simp [hother] at hcompatible
  have hpath : ∀ other ∈ first :: rest,
      Crf.fieldNamesOf other.originPath = other.origin.sourcePath := by
    intro other hother
    obtain ⟨hne, hnonempty⟩ := traces_path hnames hm (traces_candidates ((hmem other).mp hother).1)
      (hall other hother)
    exact fieldNamesOf_originPath hne hnonempty
  have hown : ∀ path, path ∈ mp.ownPaths plan ↔
      ∃ other ∈ first :: rest, other.origin.sourcePath = path := by
    intro path
    rw [MessagePlan.ownPaths, MessagePlan.sourcePaths]
    split
    · next hentry =>
      -- No entry was made, so there is one candidate only.
      have hrest : rest = [] := by
        by_contra hne
        have hlength : 1 < (plansNamed (m.candidates schema settings mp.newFullName)
            plan.shape.name).length := by
          rw [hnamed, List.length_cons]
          have := List.length_pos_iff.mpr hne
          omega
        obtain ⟨entry, hmem, hfield⟩ := hmerges.merged _ hlength
        exact absurd hfield (by simpa using List.find?_eq_none.mp hentry entry hmem)
      simp [hrest, horigin, eq_comm]
    · next entry hentry =>
      have hfield : entry.field = plan.shape.name := by simpa using List.find?_some hentry
      obtain ⟨-, -, hsources⟩ := hmerges.entries entry (List.mem_of_find?_eq_some hentry)
      rw [hfield, originsOf_eq, hnamed] at hsources
      rw [List.map_map, hsources]
      simp only [List.mem_map, List.mem_eraseDups, Function.comp_apply]
      constructor
      · rintro ⟨origin, ⟨other, hother, rfl⟩, rfl⟩
        exact ⟨other, hother, (hpath other hother).symm⟩
      · rintro ⟨other, hother, rfl⟩
        exact ⟨_, ⟨other, hother, rfl⟩, hpath other hother⟩
  refine ⟨fun path => ?_, (hown _).mpr ⟨first, List.mem_cons_self, by rw [horigin]⟩,
    fun candidate hcandidate hname => hall candidate ((hmem candidate).mpr ⟨hcandidate, hname⟩)⟩
  rw [hown]
  constructor
  · rintro ⟨other, hother, rfl⟩
    exact ⟨other, ((hmem other).mp hother).1, ((hmem other).mp hother).2, rfl⟩
  · rintro ⟨other, hother, hname, rfl⟩
    exact ⟨other, (hmem other).mpr ⟨hother, hname⟩, rfl⟩

/-- A Plain field with a way back is read from the source paths of candidates of its name, that of
the first one among them. -/
theorem SourceMessage.IsPlanOf.ownPaths_of_candidates (h : m.IsPlanOf schema settings renames mp)
    (hgenerate : mp.generate) (hm : m ∈ schema.messages)
    (hnames : ∀ m ∈ schema.messages, ∀ field ∈ m.fields, field.name ≠ "") {plan : FieldPlan}
    (hplan : plan ∈ mp.fields) (hreversible : plan.isReversible) :
    plan.origin.sourcePath ∈ mp.ownPaths plan ∧ ∀ path ∈ mp.ownPaths plan,
      ∃ candidate ∈ m.candidates schema settings mp.newFullName, candidate.isReversible ∧
        candidate.shape.name = plan.shape.name ∧ candidate.origin.sourcePath = path := by
  obtain ⟨hmem, hown, hall⟩ := h.mem_ownPaths hgenerate hm hnames hplan hreversible
  refine ⟨hown, fun path hpath => ?_⟩
  obtain ⟨candidate, hcandidate, hname, rfl⟩ := (hmem path).mp hpath
  exact ⟨candidate, hcandidate, hall candidate hcandidate hname, hname, rfl⟩

/-- The paths of different Plain fields are apart. -/
theorem SourceMessage.IsPlanOf.ownPaths_apart (h : m.IsPlanOf schema settings renames mp)
    (hgenerate : mp.generate) (hm : m ∈ schema.messages) (hfields : schema.NamesFields)
    (hnames : ∀ m ∈ schema.messages, ∀ field ∈ m.fields, field.name ≠ "")
    {plan other : FieldPlan} (hplan : plan ∈ mp.fields) (hother : other ∈ mp.fields)
    (hreversible : plan.isReversible) (hreversible' : other.isReversible)
    (hne : plan.shape.name ≠ other.shape.name) {p q : List String} (hp : p ∈ mp.ownPaths plan)
    (hq : q ∈ mp.ownPaths other) : Apart p q := by
  obtain ⟨a, ha, hreversibleA, hnameA, rfl⟩ :=
    (h.ownPaths_of_candidates hgenerate hm hnames hplan hreversible).2 p hp
  obtain ⟨b, hb, hreversibleB, hnameB, rfl⟩ :=
    (h.ownPaths_of_candidates hgenerate hm hnames hother hreversible').2 q hq
  have hsymm : Std.Symm fun a b : FieldPlan => Apart a.origin.sourcePath b.origin.sourcePath :=
    ⟨fun _ _ hab => hab.symm⟩
  have hapart := apart_candidates hfields hm settings mp.newFullName
  refine hapart.forall (List.mem_filter.mpr ⟨ha, hreversibleA⟩)
    (List.mem_filter.mpr ⟨hb, hreversibleB⟩) fun heq => hne ?_
  rw [← hnameA, ← hnameB, heq]

end Planned

end PlainSchema
