import PlainSchema.Proofs.Plan.Copied
import PlainSchema.Proofs.Plan.Members

/-!
# The members of copied oneofs

Merging can take a member away from a copied oneof, when a field of its name was met before it, and
adds none: `SourceMessage.IsPlanOf.members_at`.  So the copied oneofs keep exactly their members as
long as no other field has the name of one, `SourceMessage.IsPlanOf.keepsMembers_iff`.
-/

namespace PlainSchema

open Proto

/-! ## Candidates -/

/-- The fields of a plan that are members of the oneof at a position of the Plain message. -/
def MessagePlan.membersAt (mp : MessagePlan) (position : Nat) : List FieldPlan :=
  mp.fields.filter (·.shape.oneofIndex == some position)

/-- Whether a field comes first among the candidates of its name. -/
def SourceField.comesFirst (candidates : List FieldPlan) (field : SourceField) : Bool :=
  (candidates.find? (·.shape.name == field.name)).any (·.origin.sourcePath == [field.name])

/-- The plan of a member of the copied oneof at a position, which is never inlined. -/
def PlanContext.copiedPlan (ctx : PlanContext) (m : SourceMessage) (position : Nat)
    (field : SourceField) : FieldPlan :=
  let plan := ctx.planField m field {}
  { plan with shape := { plan.shape with oneofIndex := some position } }

section Members

variable {schema : Schema} {settings : Settings} {renames : Renames} {m : SourceMessage}
  {mp : MessagePlan}

/-- In a schema without errors no member of a copied oneof is inlined. -/
theorem not_isInlined_of_copies (hm : m ∈ schema.messages)
    (hfindings : ∀ finding ∈ schema.findings, ¬ finding.isError) (hgenerate : m.options.generate)
    {field : SourceField} (hfield : field ∈ m.fields) {index : Nat}
    (hindex : m.copiedIndex? field = some index) : PlanContext.isInlined field = false := by
  obtain ⟨hof, hcopies⟩ := SourceMessage.copiedIndex?_eq_some.mp hindex
  have hkeeps : m.keepsOneofOf field := by
    rw [SourceMessage.copies, Bool.and_eq_true, beq_iff_eq] at hcopies
    rw [SourceMessage.keepsOneofOf, hof]
    simp [hcopies.1, hcopies.2, Strategy.flattens]
  rw [PlanContext.isInlined]
  cases hembeds : field.options.embeds with
  | false => rfl
  | true =>
    have hdirect := (Schema.valid_field hfindings hm hfield).direct hembeds hgenerate
    rw [hkeeps] at hdirect
    exact absurd hdirect (by simp)

variable (settings) in
/-- The candidates that are members of the copied oneof at a position. -/
theorem candidates_at (hm : m ∈ schema.messages)
    (hfindings : ∀ finding ∈ schema.findings, ¬ finding.isError) (hgenerate : m.options.generate)
    (newFullName : String) {position index : Nat}
    (hposition : m.copiedOneofs[position]? = some index) :
    (m.candidates schema settings newFullName).filter (·.shape.oneofIndex == some position)
      = (m.oneofFields index).map ((PlanContext.ofFile schema m.file).copiedPlan m position) := by
  have hexpanded := (copies_expandFields (PlanContext.ofFile schema m.file) m newFullName).members
    position index hposition
  have hvirtual : (m.options.virtualFields.map (virtualFieldPlan m newFullName settings.suffix)).filter
      (·.shape.oneofIndex == some position) = [] :=
    filter_oneofIndex_eq_nil position (by simp [virtualFieldPlan, virtualShape])
  rw [SourceMessage.candidates, List.filter_append, hvirtual, List.append_nil, hexpanded,
    List.map_eq_flatMap]
  refine List.flatMap_congr fun field hfield => ?_
  obtain ⟨hfield, hof⟩ := List.mem_filter.mp hfield
  have hcopies := (SourceMessage.mem_copiedOneofs.mp (List.mem_of_getElem? hposition)).1
  have hinlined := not_isInlined_of_copies hm hfindings hgenerate hfield
    (SourceMessage.copiedIndex?_eq_some.mpr ⟨by simpa using hof, hcopies⟩)
  rw [PlanContext.copiedPlans, PlanContext.flattenField, hinlined]
  rfl

theorem name_planField (ctx : PlanContext) (m : SourceMessage) (field : SourceField) :
    (ctx.planField m field {}).shape.name = field.name := by
  have hcopied : (PlanContext.copyPlan m field {}).shape.name = field.name := String.empty_append
  have hvalue : (ctx.valuePlan m field {}).shape.name = field.name := by
    rw [PlanContext.valuePlan]
    split
    · exact hcopied
    · split
      · exact hcopied
      · split <;> exact hcopied
  rw [PlanContext.planField]
  split <;> exact hvalue

@[simp] theorem name_copiedPlan (ctx : PlanContext) (m : SourceMessage) (position : Nat)
    (field : SourceField) : (ctx.copiedPlan m position field).shape.name = field.name :=
  name_planField ctx m field

@[simp] theorem sourcePath_copiedPlan (ctx : PlanContext) (m : SourceMessage) (position : Nat)
    (field : SourceField) : (ctx.copiedPlan m position field).origin.sourcePath = [field.name] :=
  sourcePath_planField ctx m field {}

variable (settings) in
theorem copiedPlan_mem_candidates (hm : m ∈ schema.messages)
    (hfindings : ∀ finding ∈ schema.findings, ¬ finding.isError) (hgenerate : m.options.generate)
    (newFullName : String) {position index : Nat}
    (hposition : m.copiedOneofs[position]? = some index) {field : SourceField}
    (hfield : field ∈ m.oneofFields index) :
    (PlanContext.ofFile schema m.file).copiedPlan m position field
      ∈ m.candidates schema settings newFullName := by
  have hmem := List.mem_map_of_mem
    (f := (PlanContext.ofFile schema m.file).copiedPlan m position) hfield
  rw [← candidates_at settings hm hfindings hgenerate newFullName hposition] at hmem
  exact (List.mem_filter.mp hmem).1

section Firsts

variable {plans kept firsts : List FieldPlan} {entries : List CrfEntry} {plan : FieldPlan}

/-- A plan and the kept plan of its name, which was made from the first one of that name. -/
theorem Merging.Merges.exists_first (h : Merging.Merges plans ⟨kept, entries⟩) (hplan : plan ∈ plans) :
    ∃ k ∈ kept, ∃ first rest, k.KeptFrom first ∧
      plansNamed plans plan.shape.name = first :: rest ∧
      plans.find? (·.shape.name == plan.shape.name) = some first ∧
      ∀ other ∈ rest, incompatibility? first other = none := by
  obtain ⟨k, hk, hname⟩ := h.complete plan hplan
  obtain ⟨first, rest, hnamed, hfrom, hrest⟩ := h.kept k hk
  rw [hname] at hnamed
  refine ⟨k, hk, first, rest, hfrom, hnamed, ?_, hrest⟩
  rw [← List.head?_filter]
  exact congrArg List.head? hnamed

variable (happart : (plans.filter (·.isReversible)).Pairwise
  fun a b => Apart a.origin.sourcePath b.origin.sourcePath)
include happart

/-- Of the plans of one name, one that is read from where the first one is read is the first one. -/
theorem eq_first_of_sourcePath {rest : List FieldPlan} {name : String} {first : FieldPlan}
    (hnamed : plansNamed plans name = first :: rest)
    (hrest : ∀ other ∈ rest, incompatibility? first other = none)
    (hplan : plan ∈ plansNamed plans name)
    (hpath : plan.origin.sourcePath = first.origin.sourcePath) : plan = first := by
  have hsymm : Std.Symm fun a b : FieldPlan => Apart a.origin.sourcePath b.origin.sourcePath :=
    ⟨fun _ _ hab => hab.symm⟩
  have hmem : ∀ plan ∈ first :: rest, plan ∈ plans := fun plan hplan =>
    (List.mem_filter.mp (hnamed ▸ hplan)).1
  rw [hnamed] at hplan
  rcases List.mem_cons.mp hplan with rfl | hafter
  · rfl
  · -- A plan that was merged has a way back, and so has the one that it was merged into.
    have hcompatible := hrest plan hafter
    rw [incompatibility?] at hcompatible
    have hreversible : first.isReversible ∧ plan.isReversible := by
      cases hfirst : first.isReversible <;> cases hother : plan.isReversible <;>
        simp [hfirst, hother] at hcompatible ⊢
    by_contra hne
    have hapart := happart.forall (List.mem_filter.mpr ⟨hmem plan hplan, hreversible.2⟩)
      (List.mem_filter.mpr ⟨hmem first List.mem_cons_self, hreversible.1⟩) hne
    rw [hpath] at hapart
    exact hapart.1 List.prefix_rfl

/-- A plan that is read from where the first one of its name is read is that one. -/
theorem find?_eq_self_iff (h : Merging.Merges plans ⟨kept, entries⟩) (hplan : plan ∈ plans) :
    plans.find? (·.shape.name == plan.shape.name) = some plan ↔
      (plans.find? (·.shape.name == plan.shape.name)).any
        (·.origin.sourcePath == plan.origin.sourcePath) := by
  obtain ⟨k, hk, first, rest, hfrom, hnamed, hfind, hrest⟩ := h.exists_first hplan
  rw [hfind, Option.any_some, beq_iff_eq, Option.some_inj]
  constructor
  · rintro rfl
    rfl
  · intro hpath
    exact (eq_first_of_sourcePath happart hnamed hrest
      (List.mem_filter.mpr ⟨hplan, by simp⟩) hpath.symm).symm

/-- The plans that the kept ones were made from are the first ones of their names. -/
theorem mem_firsts_iff (h : Merging.Merges plans ⟨kept, entries⟩) (hsub : firsts.Sublist plans)
    (hfrom : List.Forall₂ FieldPlan.KeptFrom kept firsts) (hplan : plan ∈ plans) :
    plan ∈ firsts ↔ plans.find? (·.shape.name == plan.shape.name) = some plan := by
  obtain ⟨k, hk, first, rest, hkept, hnamed, hfind, hrest⟩ := h.exists_first hplan
  have hmem : ∀ other ∈ plans, other.shape.name = plan.shape.name →
      other.origin = k.origin → other = first := fun other hother hname horigin =>
    eq_first_of_sourcePath happart hnamed hrest (List.mem_filter.mpr ⟨hother, by simpa using hname⟩)
      (by rw [horigin, hkept.origin])
  have hname : k.shape.name = plan.shape.name := by
    have hfirst : first ∈ plansNamed plans plan.shape.name := hnamed ▸ List.mem_cons_self
    rw [hkept.shape]
    simpa using (List.mem_filter.mp hfirst).2
  rw [hfind, Option.some_inj]
  constructor
  · intro hplan'
    obtain ⟨k', hk', hkept'⟩ := exists_left_of_forall₂ hfrom hplan'
    obtain rfl : k' = k := by
      refine List.inj_on_of_nodup_map h.names hk' hk ?_
      rw [hname, hkept'.shape]
    exact (hmem plan hplan rfl hkept'.origin.symm).symm
  · rintro rfl
    obtain ⟨other, hother, hkept'⟩ := exists_right_of_forall₂ hfrom hk
    have heq := hmem other (hsub.subset hother) (by rw [← hkept'.shape, hname]) hkept'.origin.symm
    exact heq ▸ hother

end Firsts

/-- **The members of a copied oneof** in the Plain message are the members of the source oneof that
come first among the fields of their names, in the order of the source. -/
theorem SourceMessage.IsPlanOf.members_at (h : m.IsPlanOf schema settings renames mp)
    (hgenerate : mp.generate) (hm : m ∈ schema.messages)
    (hfindings : ∀ finding ∈ schema.findings, ¬ finding.isError) (hfields : schema.NamesFields)
    {position index : Nat} (hposition : m.copiedOneofs[position]? = some index) :
    (mp.membersAt position).map (fun plan => (plan.origin, plan.shape.name))
      = ((m.oneofFields index).filter
          (·.comesFirst (m.candidates schema settings mp.newFullName))).map
        fun field => (((PlanContext.ofFile schema m.file).planField m field {}).origin, field.name) := by
  obtain ⟨kept, groups, hmerges, ⟨firsts, hsub, hfrom⟩, hgroups, hfinished⟩ :=
    h.exists_finished hgenerate
  have hcandidates := candidates_at settings hm hfindings (h.outlines.generate ▸ hgenerate)
    mp.newFullName hposition
  have hfirsts : (mp.membersAt position).map (fun plan => (plan.origin, plan.shape.name))
      = (firsts.filter (·.shape.oneofIndex == some position)).map
        fun plan => (plan.origin, plan.shape.name) := by
    calc (mp.membersAt position).map (fun plan => (plan.origin, plan.shape.name))
        = (groups.flatten.filter (·.shape.oneofIndex == some position)).map
            (fun plan => (plan.origin, plan.shape.name)) := by
          refine (map_filter_eq_of_forall₂ hfinished fun plan final hfinal => ?_).symm
          rw [hfinal.shape, hfinal.sameOrigin.origin]
          exact ⟨rfl, rfl⟩
      _ = (kept.filter (·.shape.oneofIndex == some position)).map
            (fun plan => (plan.origin, plan.shape.name)) := by
          rw [filter_flatten_of_companion hgroups fun _ => rfl]
      _ = (firsts.filter (·.shape.oneofIndex == some position)).map
            (fun plan => (plan.origin, plan.shape.name)) := by
          refine map_filter_eq_of_forall₂ hfrom fun plan first hkept => ?_
          rw [hkept.shape, hkept.origin]
          exact ⟨rfl, rfl⟩
  have happart := apart_candidates hfields hm settings mp.newFullName
  have hmember : ∀ field ∈ m.oneofFields index,
      (PlanContext.ofFile schema m.file).copiedPlan m position field
        ∈ m.candidates schema settings mp.newFullName := fun field hfield =>
    copiedPlan_mem_candidates settings hm hfindings (h.outlines.generate ▸ hgenerate) mp.newFullName
      hposition hfield
  have hmembers : firsts.filter (·.shape.oneofIndex == some position)
      = ((m.oneofFields index).map ((PlanContext.ofFile schema m.file).copiedPlan m position)).filter
          fun plan => (m.candidates schema settings mp.newFullName).find?
            (·.shape.name == plan.shape.name) == some plan := by
    refine sublist_eq_filter (hcandidates ▸ hsub.filter _) ?_ fun plan hplan => ?_
    · refine List.Nodup.of_map (·.shape.name) ?_
      have hnodup : ((m.oneofFields index).map (·.name)).Nodup :=
        (List.filter_sublist.map _).nodup (hfields m hm)
      simpa [Function.comp_def] using hnodup
    · obtain ⟨field, hfield, rfl⟩ := List.mem_map.mp hplan
      rw [beq_iff_eq, ← mem_firsts_iff happart hmerges hsub hfrom (hmember field hfield),
        List.mem_filter, and_iff_left]
      exact beq_self_eq_true _
  rw [hfirsts, hmembers, List.filter_map, List.map_map]
  have hcomes : ∀ field ∈ m.oneofFields index, ((fun plan =>
        (m.candidates schema settings mp.newFullName).find? (·.shape.name == plan.shape.name)
          == some plan) ∘ (PlanContext.ofFile schema m.file).copiedPlan m position) field
      = field.comesFirst (m.candidates schema settings mp.newFullName) := by
    intro field hfield
    have hiff := find?_eq_self_iff happart hmerges (hmember field hfield)
    rw [sourcePath_copiedPlan, name_copiedPlan] at hiff
    rw [Function.comp_apply, Bool.eq_iff_iff, beq_iff_eq, name_copiedPlan, hiff]
    rfl
  rw [List.filter_congr hcomes]
  refine List.map_congr_left fun field _ => ?_
  rw [Function.comp_apply, name_copiedPlan]
  rfl

/-- The member of a position is a field of a copied oneof. -/
theorem SourceMessage.IsPlanOf.oneofIndex_lt (h : m.IsPlanOf schema settings renames mp)
    (hgenerate : mp.generate) {plan : FieldPlan} (hplan : plan ∈ mp.fields) {position : Nat}
    (hposition : plan.shape.oneofIndex = some position) : position < m.copiedOneofs.length := by
  obtain ⟨kept, groups, hmerges, ⟨firsts, hsub, hfrom⟩, hgroups, hfinished⟩ :=
    h.exists_finished hgenerate
  obtain ⟨before, hbefore, hfinal⟩ := exists_left_of_forall₂ hfinished hplan
  rw [hfinal.shape] at hposition
  change before.shape.oneofIndex = some position at hposition
  obtain ⟨group, hgroup, hbefore⟩ := List.mem_flatten.mp hbefore
  obtain ⟨k, hk, hwith⟩ := exists_left_of_forall₂ hgroups hgroup
  have hcandidate : ∀ candidate ∈ m.candidates schema settings mp.newFullName,
      candidate.shape.oneofIndex = some position → position < m.copiedOneofs.length := by
    intro candidate hcandidate hat
    rcases List.mem_append.mp hcandidate with hcandidate | hcandidate
    · exact (copies_expandFields (PlanContext.ofFile schema m.file) m mp.newFullName).inside
        candidate hcandidate position hat
    · obtain ⟨field, -, rfl⟩ := List.mem_map.mp hcandidate
      exact absurd hat (by simp [virtualFieldPlan, virtualShape])
  have hkept : before = k → position < m.copiedOneofs.length := by
    rintro rfl
    obtain ⟨first, hfirst, hkept⟩ := exists_right_of_forall₂ hfrom hk
    exact hcandidate first (hsub.subset hfirst) (hkept.shape ▸ hposition)
  rcases withCompanion_eq_ok hwith with rfl | ⟨entry, -, -, rfl⟩
  · exact hkept (List.mem_singleton.mp hbefore)
  · rcases List.mem_cons.mp hbefore with hbefore | hbefore
    · exact hkept hbefore
    · rw [List.mem_singleton.mp hbefore] at hposition
      exact absurd hposition (by simp [companionPlan])

/-- The plan of a copied oneof has its position. -/
theorem SourceMessage.IsPlanOf.newIndex_iff (h : m.IsPlanOf schema settings renames mp)
    (hgenerate : mp.generate) {position index : Nat} :
    (mp.oneofs[index]?).bind (·.newIndex) = some position ↔
      m.copiedOneofs[position]? = some index := by
  have hcopies := copies_expandFields (PlanContext.ofFile schema m.file) m mp.newFullName
  have hnewFullName := h.outlines.newFullName
  have hgenerates := h.outlines.generate
  obtain ⟨outlined, houtlined, rfl⟩ := h
  rw [SourceMessage.IsOutlinedAs, if_pos (hgenerates ▸ hgenerate)] at houtlined
  have honeofs := houtlined.oneofs
  change (outlined.oneofs[index]?).bind _ = _ ↔ _
  change outlined.newFullName = _ at hnewFullName
  change Expanding.Copies _ _ _ (expandFields _ _ outlined.newFullName) at hcopies
  rw [hnewFullName] at hcopies
  change outlined.oneofs = m.oneofs.mapIdx fun i _ => ((expandFields (PlanContext.ofFile schema m.file)
    m (renames.rename m.fullName)).oneofs.lookup i).getD _ at honeofs
  rw [honeofs, List.getElem?_mapIdx]
  constructor
  · intro hindex
    obtain ⟨oneof, honeof, hindex⟩ := Option.bind_eq_some_iff.mp hindex
    obtain ⟨source, hsource, rfl⟩ := Option.map_eq_some_iff.mp honeof
    cases hlookup : (expandFields (PlanContext.ofFile schema m.file) m
        (renames.rename m.fullName)).oneofs.lookup index with
    | none => simp [hlookup, SourceMessage.untouchedPlan] at hindex
    | some found =>
      rw [hlookup, Option.getD_some] at hindex
      have hpair : (index, position) ∈ m.copiedOneofs.zipIdx := by
        rw [SourceMessage.copiedOneofs, ← hcopies.positions]
        exact List.mem_filterMap.mpr ⟨(index, found), mem_of_lookup hlookup, by simp [hindex]⟩
      exact List.mk_mem_zipIdx_iff_getElem?.mp hpair
  · intro hposition
    have hlookup := hcopies.lookup_newIndex hposition
    obtain ⟨found, hfound, hindex⟩ := Option.bind_eq_some_iff.mp hlookup
    obtain ⟨source, hsource⟩ := m.exists_oneof_of_mem (List.mem_of_getElem? hposition)
    rw [show m.oneofs[index]? = some source from hsource, Option.map_some, Option.bind_some, hfound,
      Option.getD_some, hindex]

/-- No other field of the Plain message has the name of a member of a copied oneof. -/
def SourceMessage.MembersApart (m : SourceMessage) (schema : Schema) (settings : Settings)
    (newFullName : String) : Prop :=
  ∀ index ∈ m.copiedOneofs, ∀ field ∈ m.oneofFields index,
    ∀ candidate ∈ m.candidates schema settings newFullName, candidate.shape.name = field.name →
      candidate.origin.sourcePath = [field.name]

instance (m : SourceMessage) (schema : Schema) (settings : Settings) (newFullName : String) :
    Decidable (m.MembersApart schema settings newFullName) :=
  inferInstanceAs (Decidable (∀ index ∈ m.copiedOneofs, ∀ field ∈ m.oneofFields index,
    ∀ candidate ∈ m.candidates schema settings newFullName, candidate.shape.name = field.name →
      candidate.origin.sourcePath = [field.name]))

/-- Every copied oneof has its members, all of them and in order, and each is read from the member
that it stands for and from nowhere else. -/
def MessagePlan.KeepsMembers (mp : MessagePlan) (m : SourceMessage) : Prop :=
  ∀ position index, m.copiedOneofs[position]? = some index →
    (mp.membersAt position).map (fun plan => (plan.origin.sourcePath, plan.shape.name))
        = (m.oneofFields index).map (fun field => ([field.name], field.name)) ∧
      ∀ plan ∈ mp.membersAt position, ∀ path ∈ mp.ownPaths plan, path = plan.origin.sourcePath

/-- The members of a position, with the paths that they are read from. -/
theorem SourceMessage.IsPlanOf.paths_at (h : m.IsPlanOf schema settings renames mp)
    (hgenerate : mp.generate) (hm : m ∈ schema.messages)
    (hfindings : ∀ finding ∈ schema.findings, ¬ finding.isError) (hfields : schema.NamesFields)
    {position index : Nat} (hposition : m.copiedOneofs[position]? = some index) :
    (mp.membersAt position).map (fun plan => (plan.origin.sourcePath, plan.shape.name))
      = ((m.oneofFields index).filter
          (·.comesFirst (m.candidates schema settings mp.newFullName))).map
        fun field => ([field.name], field.name) := by
  have hmembers := congrArg (List.map fun pair : Origin × String => (pair.1.sourcePath, pair.2))
    (h.members_at hgenerate hm hfindings hfields hposition)
  rw [List.map_map, List.map_map] at hmembers
  refine hmembers.trans (List.map_congr_left fun field _ => ?_)
  exact Prod.ext (sourcePath_planField _ m field {}) rfl

/-- The copied oneofs keep exactly their members as long as no other field has the name of one. -/
theorem SourceMessage.IsPlanOf.keepsMembers_iff (h : m.IsPlanOf schema settings renames mp)
    (hgenerate : mp.generate) (hm : m ∈ schema.messages)
    (hfindings : ∀ finding ∈ schema.findings, ¬ finding.isError) (hfields : schema.NamesFields)
    (hnames : ∀ m ∈ schema.messages, ∀ field ∈ m.fields, field.name ≠ "") :
    mp.KeepsMembers m ↔ m.MembersApart schema settings mp.newFullName := by
  have hmember : ∀ {position index : Nat}, m.copiedOneofs[position]? = some index →
      ∀ plan ∈ mp.membersAt position, ∃ field ∈ m.oneofFields index,
        plan.shape.name = field.name ∧ plan.origin.sourcePath = [field.name] ∧
        plan ∈ mp.fields ∧ plan.isReversible := by
    intro position index hposition plan hplan
    have hpair := List.mem_map_of_mem (f := fun plan : FieldPlan => (plan.origin, plan.shape.name)) hplan
    rw [h.members_at hgenerate hm hfindings hfields hposition] at hpair
    obtain ⟨field, hfield, heq⟩ := List.mem_map.mp hpair
    obtain ⟨horigin, hname⟩ := Prod.mk.inj heq
    have hstands := standsFor_planField (PlanContext.ofFile schema m.file) m field {}
    refine ⟨field, (List.mem_filter.mp hfield).1, hname.symm, ?_, (List.mem_filter.mp hplan).1, ?_⟩
    · rw [← horigin]
      exact sourcePath_planField _ m field {}
    · rw [FieldPlan.isReversible, ← horigin, hstands.isVirtual, hstands.role]
      rfl
  constructor
  · intro hkeeps index hindex field hfield candidate hcandidate hname
    obtain ⟨position, hposition⟩ := List.getElem?_of_mem hindex
    obtain ⟨hall, hown⟩ := hkeeps position index hposition
    have hpair := List.mem_map_of_mem (f := fun field : SourceField => ([field.name], field.name)) hfield
    rw [← hall] at hpair
    obtain ⟨plan, hplan, heq⟩ := List.mem_map.mp hpair
    obtain ⟨hpath, hsame⟩ := Prod.mk.inj heq
    obtain ⟨-, -, -, -, hmem, hreversible⟩ := hmember hposition plan hplan
    obtain ⟨hiff, -⟩ := h.mem_ownPaths hgenerate hm hnames hmem hreversible
    rw [← hpath]
    exact hown plan hplan _ ((hiff _).mpr ⟨candidate, hcandidate, hname.trans hsame.symm, rfl⟩)
  · intro hapart position index hposition
    have hindex := List.mem_of_getElem? hposition
    constructor
    · rw [h.paths_at hgenerate hm hfindings hfields hposition, List.filter_eq_self.mpr]
      intro field hfield
      have hmem := copiedPlan_mem_candidates settings hm hfindings
        (h.outlines.generate ▸ hgenerate) mp.newFullName hposition hfield
      rw [SourceField.comesFirst]
      cases hfind : (m.candidates schema settings mp.newFullName).find? (·.shape.name == field.name) with
      | none =>
        exact absurd (List.find?_eq_none.mp hfind _ hmem) (by simp)
      | some first =>
        have hfirst := hapart index hindex field hfield first (List.mem_of_find?_eq_some hfind)
          (by simpa using List.find?_some hfind)
        rw [Option.any_some, hfirst, beq_self_eq_true]
    · intro plan hplan path hpath
      obtain ⟨field, hfield, hname, hsource, hmem, hreversible⟩ := hmember hposition plan hplan
      obtain ⟨hiff, -⟩ := h.mem_ownPaths hgenerate hm hnames hmem hreversible
      obtain ⟨candidate, hcandidate, hsame, rfl⟩ := (hiff path).mp hpath
      rw [hsource]
      exact hapart index hindex field hfield candidate hcandidate (hsame.trans hname)

/-- No field is merged unless that is enabled. -/
theorem SourceMessage.IsPlanOf.crf_eq_nil (h : m.IsPlanOf schema settings renames mp)
    (hgenerate : mp.generate) (hcrf : settings.enableCrf = false) : mp.crf = [] := by
  have hgenerates := h.outlines.generate
  obtain ⟨outlined, houtlined, rfl⟩ := h
  rw [SourceMessage.IsOutlinedAs, if_pos (hgenerates ▸ hgenerate)] at houtlined
  obtain ⟨merged, hmerged, -⟩ := houtlined.collisions
  rw [resolveCollisions, hcrf, if_neg (by simp)] at hmerged
  split at hmerged
  · exact (Prod.mk.inj (Except.ok.inj hmerged)).2.symm
  · exact absurd hmerged (by simp)

/-- Without merged fields no two fields have one name. -/
theorem SourceMessage.IsPlanOf.membersApart (h : m.IsPlanOf schema settings renames mp)
    (hgenerate : mp.generate) (hm : m ∈ schema.messages)
    (hfindings : ∀ finding ∈ schema.findings, ¬ finding.isError) (hcrf : mp.crf = []) :
    m.MembersApart schema settings mp.newFullName := by
  obtain ⟨kept, groups, hmerges, -⟩ := h.exists_finished hgenerate
  intro index hindex field hfield candidate hcandidate hname
  obtain ⟨position, hposition⟩ := List.getElem?_of_mem hindex
  have hmem := copiedPlan_mem_candidates settings hm hfindings
    (h.outlines.generate ▸ hgenerate) mp.newFullName hposition hfield
  obtain ⟨-, -, first, rest, -, hnamed, -, -⟩ := hmerges.exists_first hcandidate
  have hrest : rest = [] := by
    by_contra hne
    have hlength : 1 < (plansNamed (m.candidates schema settings mp.newFullName)
        candidate.shape.name).length := by
      rw [hnamed, List.length_cons]
      have := List.length_pos_iff.mpr hne
      omega
    obtain ⟨entry, hentry, -⟩ := hmerges.merged _ hlength
    rw [hcrf] at hentry
    exact absurd hentry List.not_mem_nil
  have hone : ∀ plan ∈ m.candidates schema settings mp.newFullName,
      plan.shape.name = candidate.shape.name → plan = first := by
    intro plan hplan hsame
    have hmem : plan ∈ plansNamed (m.candidates schema settings mp.newFullName)
        candidate.shape.name := List.mem_filter.mpr ⟨hplan, by simpa using hsame⟩
    rw [hnamed, hrest] at hmem
    exact List.mem_singleton.mp hmem
  have hself := hone _ hmem ((name_copiedPlan _ m position field).trans hname.symm)
  rw [hone candidate hcandidate rfl, ← hself, sourcePath_copiedPlan]

end Members

end PlainSchema
