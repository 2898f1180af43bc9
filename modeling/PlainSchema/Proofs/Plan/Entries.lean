import PlainSchema.Proofs.Plan.Oneofs
import PlainSchema.Proofs.Plan.Shapes

/-!
# The origins of merged fields

Every entry about a merged field belongs to one Plain field with a way back.  Its first origin is
the source path of that field, `SourceMessage.IsPlanOf.exists_plan_of_entry`; its companion is a text,
`SourceMessage.IsPlanOf.exists_companion`, with a name that no other field of the plan has,
`SourceMessage.IsPlanOf.role_of_companionName`.  Fields without a way back are never merged, so the tag
of a dispatched oneof is a field of the plan, `SourceMessage.IsPlanOf.exists_dispatchTag`.
-/

namespace PlainSchema

open Proto

/-- Of the origins of a merged field, that of the plan that was met first is the default one. -/
theorem head?_eraseDups_map_originPath (first : FieldPlan) (rest : List FieldPlan) :
    ((first :: rest).map (·.originPath)).eraseDups.head? = some first.originPath := by
  rw [List.map_cons, List.eraseDups_cons]
  rfl

/-- A kept plan is in the group that it makes with its companion. -/
theorem mem_of_withCompanion {message : String} {merging : Merging} {plan : FieldPlan}
    {group : List FieldPlan} (h : merging.withCompanion message plan = .ok group) :
    plan ∈ group := by
  rcases withCompanion_eq_ok h with rfl | ⟨entry, -, -, rfl⟩
  · exact List.mem_singleton_self plan
  · exact List.mem_cons_self

/-- A merged plan makes a group with its companion, whose name no kept plan has. -/
theorem withCompanion_of_find? {message : String} {merging : Merging} {plan : FieldPlan}
    {group : List FieldPlan} {entry : CrfEntry} (h : merging.withCompanion message plan = .ok group)
    (hentry : merging.entries.find? (·.field == plan.shape.name) = some entry) :
    group = [plan, companionPlan entry.field] ∧
      ∀ kept ∈ merging.kept, kept.shape.name ≠ entry.crfField := by
  rw [Merging.withCompanion] at h
  simp only [hentry] at h
  split at h
  · exact absurd h (by simp)
  · next hnone =>
    refine ⟨(Except.ok.inj h).symm, fun kept hkept heq => ?_⟩
    exact hnone (List.any_eq_true.mpr ⟨kept, hkept, by simpa using heq⟩)

/-- Kept plans and their companions have distinct names. -/
theorem nodup_names_flatten {message : String} {merging : Merging} {kept : List FieldPlan}
    {groups : List (List FieldPlan)}
    (hgroups : List.Forall₂ (fun plan group => merging.withCompanion message plan = .ok group)
      kept groups)
    (hnames : (kept.map (·.shape.name)).Nodup) (hkept : kept ⊆ merging.kept)
    (hentries : ∀ entry ∈ merging.entries, entry.crfField = companionName entry.field) :
    (groups.flatten.map (·.shape.name)).Nodup ∧
      ∀ name ∈ groups.flatten.map (·.shape.name), name ∈ kept.map (·.shape.name) ∨
        ∃ plan ∈ kept, name = companionName plan.shape.name ∧
          ∀ other ∈ merging.kept, other.shape.name ≠ name := by
  induction hgroups with
  | nil => simp
  | @cons plan group plans groups hgroup _ ih =>
    rw [List.map_cons, List.nodup_cons] at hnames
    obtain ⟨hmem, hsubset⟩ := List.cons_subset.mp hkept
    obtain ⟨hnodup, horigins⟩ := ih hnames.2 hsubset
    have hfresh : plan.shape.name ∉ groups.flatten.map (·.shape.name) := by
      intro hname
      rcases horigins _ hname with hname | ⟨-, -, -, hfree⟩
      · exact hnames.1 hname
      · exact hfree plan hmem rfl
    have hlift : ∀ name ∈ groups.flatten.map (·.shape.name),
        name ∈ (plan :: plans).map (·.shape.name) ∨
          ∃ other ∈ plan :: plans, name = companionName other.shape.name ∧
            ∀ other ∈ merging.kept, other.shape.name ≠ name := by
      intro name hname
      rcases horigins name hname with hname | ⟨other, hother, hrest⟩
      · exact Or.inl (List.mem_cons_of_mem _ hname)
      · exact Or.inr ⟨other, List.mem_cons_of_mem _ hother, hrest⟩
    cases hfind : merging.entries.find? (·.field == plan.shape.name) with
    | none =>
      have hgroup : group = [plan] := by
        rw [Merging.withCompanion] at hgroup
        simp only [hfind] at hgroup
        exact (Except.ok.inj hgroup).symm
      rw [hgroup, List.flatten_cons, List.map_append, List.map_singleton, List.singleton_append]
      refine ⟨List.nodup_cons.mpr ⟨hfresh, hnodup⟩, fun name hname => ?_⟩
      rcases List.mem_cons.mp hname with rfl | hname
      · exact Or.inl List.mem_cons_self
      · exact hlift name hname
    | some entry =>
      obtain ⟨rfl, hfree⟩ := withCompanion_of_find? hgroup hfind
      have hfield : entry.field = plan.shape.name := by
        simpa using List.find?_some hfind
      rw [hentries entry (List.mem_of_find?_eq_some hfind), hfield] at hfree
      rw [List.flatten_cons, List.map_append, List.map_cons, List.map_singleton, hfield,
        List.cons_append, List.singleton_append]
      -- A companion that another field has too would belong to a plan of the same name.
      have hcompanion : companionName plan.shape.name ∉ groups.flatten.map (·.shape.name) := by
        intro hname
        rcases horigins _ hname with hname | ⟨other, hother, heq, -⟩
        · obtain ⟨other, hother, heq⟩ := List.mem_map.mp hname
          exact hfree other (hsubset hother) heq
        · have hsame : plan.shape.name = other.shape.name := String.append_left_inj "CRF" |>.mp heq
          exact hnames.1 (hsame ▸ List.mem_map_of_mem hother)
      refine ⟨List.nodup_cons.mpr ⟨?_, List.nodup_cons.mpr ⟨hcompanion, hnodup⟩⟩, ?_⟩
      · rw [List.mem_cons, not_or]
        exact ⟨hfree plan hmem, hfresh⟩
      · intro name hname
        rcases List.mem_cons.mp hname with rfl | hname
        · exact Or.inl List.mem_cons_self
        · rcases List.mem_cons.mp hname with rfl | hname
          · exact Or.inr ⟨plan, List.mem_cons_self, rfl, hfree⟩
          · exact hlift name hname

section Planned

variable {schema : Schema} {settings : Settings} {renames : Renames} {m : SourceMessage}
  {mp : MessagePlan} {entry : CrfEntry}

/-- A merged field has a plan with a way back, whose source path is the first of its origins. -/
theorem SourceMessage.IsPlanOf.exists_plan_of_entry (h : m.IsPlanOf schema settings renames mp)
    (hgenerate : mp.generate) (hm : m ∈ schema.messages)
    (hnames : ∀ m ∈ schema.messages, ∀ field ∈ m.fields, field.name ≠ "") (hentry : entry ∈ mp.crf) :
    mp.mergedField? entry.field = some entry ∧
      ∃ plan ∈ mp.fields, plan.isReversible ∧ plan.shape.name = entry.field ∧
        ∃ source, entry.defaultSource? = some source ∧
          Crf.fieldNamesOf source = plan.origin.sourcePath := by
  obtain ⟨kept, groups, hmerges, hgroups, hfields⟩ := h.exists_merges hgenerate
  refine ⟨find?_eq_some_of_nodup hmerges.entryNames hentry, ?_⟩
  obtain ⟨-, hmany, hsources⟩ := hmerges.entries entry hentry
  -- The entry was made for two candidates at least, so one of its name was kept.
  obtain ⟨candidate, hcandidate⟩ := List.exists_mem_of_length_pos (by omega :
    0 < (plansNamed (m.candidates schema settings mp.newFullName) entry.field).length)
  obtain ⟨hmem, hname⟩ := List.mem_filter.mp hcandidate
  obtain ⟨plan, hplan, hsame⟩ := hmerges.complete candidate hmem
  have hfield : plan.shape.name = entry.field := hsame.trans (by simpa using hname)
  obtain ⟨first, rest, hnamed, hfrom, hrest⟩ := hmerges.kept plan hplan
  rw [hfield] at hnamed
  rw [hnamed] at hmany
  have hfirst : first.isReversible := by
    cases rest with
    | nil => simp at hmany
    | cons other rest =>
      have hcompatible := hrest other List.mem_cons_self
      rw [incompatibility?] at hcompatible
      cases hreversible : first.isReversible with
      | true => rfl
      | false => simp [hreversible] at hcompatible
  obtain ⟨group, hgroup, hmade⟩ := exists_right_of_forall₂ hgroups hplan
  obtain ⟨final, hfinal, horigin⟩ := exists_right_of_forall₂ hfields
    (List.mem_flatten.mpr ⟨group, hgroup, mem_of_withCompanion hmade⟩)
  refine ⟨final, hfinal, ?_, horigin.name.symm.trans hfield, first.originPath, ?_, ?_⟩
  · rw [← horigin.isReversible, hfrom.isReversible]
    exact hfirst
  · rw [CrfEntry.defaultSource?, hsources, originsOf_eq, hnamed]
    exact head?_eraseDups_map_originPath first rest
  · have hcandidate : first ∈ m.candidates schema settings mp.newFullName :=
      (List.mem_filter.mp (hnamed ▸ List.mem_cons_self : first ∈ plansNamed _ entry.field)).1
    obtain ⟨hne, hnonempty⟩ := traces_path hnames hm (traces_candidates hcandidate) hfirst
    rw [fieldNamesOf_originPath hne hnonempty, ← hfrom.origin, horigin.origin]

theorem SourceMessage.IsPlanOf.crfField_eq (h : m.IsPlanOf schema settings renames mp)
    (hgenerate : mp.generate) (hentry : entry ∈ mp.crf) :
    entry.crfField = companionName entry.field := by
  obtain ⟨_, _, hmerges, -, -⟩ := h.exists_merges hgenerate
  exact (hmerges.entries entry hentry).1

/-- A merged field has a companion, which holds a text. -/
theorem SourceMessage.IsPlanOf.exists_companion (h : m.IsPlanOf schema settings renames mp)
    (hgenerate : mp.generate) (hentry : entry ∈ mp.crf) :
    ∃ companion ∈ mp.fields, companion.shape.name = entry.crfField ∧
      companion.shape.IsScalar .string ∧ ¬ companion.shape.isMap := by
  obtain ⟨kept, groups, hmerges, -, hgroups, hfields⟩ := h.exists_finished hgenerate
  obtain ⟨hcompanion, hmany, -⟩ := hmerges.entries entry hentry
  obtain ⟨candidate, hcandidate⟩ := List.exists_mem_of_length_pos (by omega :
    0 < (plansNamed (m.candidates schema settings mp.newFullName) entry.field).length)
  obtain ⟨hmem, hfield⟩ := List.mem_filter.mp hcandidate
  obtain ⟨merged, hmerged, hsame⟩ := hmerges.complete candidate hmem
  have hfield : merged.shape.name = entry.field := hsame.trans (by simpa using hfield)
  have hfind : mp.crf.find? (·.field == merged.shape.name) = some entry := by
    rw [hfield]
    exact find?_eq_some_of_nodup hmerges.entryNames hentry
  obtain ⟨group, hgroup, hwith⟩ := exists_right_of_forall₂ hgroups hmerged
  have hmade : companionPlan entry.field ∈ group := by
    rw [(withCompanion_of_find? hwith hfind).1]
    simp
  obtain ⟨companion, hmem, hfinished⟩ := exists_right_of_forall₂ hfields
    (List.mem_flatten.mpr ⟨group, hgroup, hmade⟩)
  refine ⟨companion, hmem, ?_, ?_⟩ <;> rw [hfinished.shape]
  · exact hcompanion.symm
  · exact ⟨⟨rfl, rfl⟩, Bool.false_ne_true⟩

/-- No field but the companion itself has the name of a companion. -/
theorem SourceMessage.IsPlanOf.role_of_companionName (h : m.IsPlanOf schema settings renames mp)
    (hgenerate : mp.generate) (hentry : entry ∈ mp.crf) {plan : FieldPlan} (hplan : plan ∈ mp.fields)
    (hname : plan.shape.name = entry.crfField) :
    plan.origin.role = some (.crfPath entry.field) := by
  obtain ⟨kept, groups, hmerges, hgroups, hfields⟩ := h.exists_merges hgenerate
  obtain ⟨hcompanion, hmany, -⟩ := hmerges.entries entry hentry
  obtain ⟨before, hbefore, hsame⟩ := exists_left_of_forall₂ hfields hplan
  obtain ⟨group, hgroup, hbefore⟩ := List.mem_flatten.mp hbefore
  obtain ⟨made, hmade, hwith⟩ := exists_left_of_forall₂ hgroups hgroup
  have hname : before.shape.name = companionName entry.field := by
    rw [hsame.name, hname, hcompanion]
  -- The merged field was kept, and its companion was refused if a kept field had its name.
  obtain ⟨candidate, hcandidate⟩ := List.exists_mem_of_length_pos (by omega :
    0 < (plansNamed (m.candidates schema settings mp.newFullName) entry.field).length)
  obtain ⟨hmem, hfield⟩ := List.mem_filter.mp hcandidate
  obtain ⟨merged, hmerged, hsameName⟩ := hmerges.complete candidate hmem
  have hfield : merged.shape.name = entry.field := hsameName.trans (by simpa using hfield)
  have hfree : ∀ plan ∈ kept, plan.shape.name ≠ entry.crfField := by
    obtain ⟨_, -, hwith⟩ := exists_right_of_forall₂ hgroups hmerged
    have hfind : mp.crf.find? (·.field == merged.shape.name) = some entry := by
      rw [hfield]
      exact find?_eq_some_of_nodup hmerges.entryNames hentry
    exact (withCompanion_of_find? hwith hfind).2
  have hkept : before ≠ made := by
    rintro rfl
    exact hfree before hmade (hname.trans hcompanion.symm)
  rcases withCompanion_eq_ok hwith with rfl | ⟨other, -, -, rfl⟩
  · exact absurd (List.mem_singleton.mp hbefore) hkept
  · obtain rfl := List.mem_singleton.mp ((List.mem_cons.mp hbefore).resolve_left hkept)
    have heq : other.field = entry.field := String.append_left_inj "CRF" |>.mp hname
    rw [← hsame.origin, ← heq]
    rfl

/-- No two fields of the plan have the same name. -/
theorem SourceMessage.IsPlanOf.names_nodup (h : m.IsPlanOf schema settings renames mp)
    (hgenerate : mp.generate) : (mp.fields.map (·.shape.name)).Nodup := by
  obtain ⟨kept, groups, hmerges, hgroups, hfields⟩ := h.exists_merges hgenerate
  have hsame : groups.flatten.map (·.shape.name) = mp.fields.map (·.shape.name) :=
    map_eq_map_of_forall₂ hfields fun _ _ hsame => hsame.name
  rw [← hsame]
  exact (nodup_names_flatten hgroups hmerges.names (List.Subset.refl kept)
    fun entry hentry => (hmerges.entries entry hentry).1).1

/-- A candidate without a way back is a field of the plan. -/
theorem SourceMessage.IsPlanOf.exists_plan_of_not_isReversible
    (h : m.IsPlanOf schema settings renames mp) (hgenerate : mp.generate) {candidate : FieldPlan}
    (hcandidate : candidate ∈ m.candidates schema settings mp.newFullName)
    (hreversible : ¬ candidate.isReversible) :
    ∃ plan ∈ mp.fields, plan.shape.name = candidate.shape.name ∧ plan.origin = candidate.origin := by
  obtain ⟨kept, groups, hmerges, hgroups, hfields⟩ := h.exists_merges hgenerate
  obtain ⟨plan, hplan, hname⟩ := hmerges.complete candidate hcandidate
  obtain ⟨first, rest, hnamed, hfrom, hrest⟩ := hmerges.kept plan hplan
  have hmem : candidate ∈ first :: rest := by
    rw [← hnamed]
    exact List.mem_filter.mpr ⟨hcandidate, by simpa using hname.symm⟩
  have hfirst : candidate = first := by
    refine (List.mem_cons.mp hmem).resolve_right fun hrest' => ?_
    have hcompatible := hrest candidate hrest'
    rw [incompatibility?] at hcompatible
    simp [hreversible] at hcompatible
  obtain ⟨group, hgroup, hmade⟩ := exists_right_of_forall₂ hgroups hplan
  obtain ⟨final, hfinal, hsame⟩ := exists_right_of_forall₂ hfields
    (List.mem_flatten.mpr ⟨group, hgroup, mem_of_withCompanion hmade⟩)
  refine ⟨final, hfinal, hsame.name.symm.trans hname, ?_⟩
  rw [← hsame.origin, hfrom.origin, hfirst]

end Planned

/-! ## Tags of oneofs -/

section Tags

variable {ctx : PlanContext} {m : SourceMessage} {newFullName : String}

/-- One more field takes no plan away, and a oneof that is new is met together with the fields that
replace it. -/
theorem expand_fields_subset_addField (e : Expanding) (field : SourceField) :
    e.plans ⊆ (e.addField ctx m newFullName field).plans ∧
      ∀ pair ∈ (e.addField ctx m newFullName field).oneofs, pair ∈ e.oneofs ∨
        ((m.strategy pair.1).flattens → (ctx.expand m pair.1 (m.strategy pair.1) newFullName).fields
          ⊆ (e.addField ctx m newFullName field).plans) := by
  refine Expanding.addField_cases e field (fun _ oneofs hkept honeofs => ?copied)
    (fun _ _ _ _ => ?known) (fun index _ _ _ => ?dissolved)
  case copied =>
    refine ⟨List.subset_append_left _ _, fun pair hpair => ?_⟩
    rcases honeofs with rfl | ⟨index, newIndex, hindex, rfl⟩
    · exact Or.inl hpair
    · rcases List.mem_append.mp hpair with hpair | hpair
      · exact Or.inl hpair
      · -- The oneof is copied, so nothing replaces it.
        obtain rfl := List.mem_singleton.mp hpair
        exact Or.inr fun hflattens => absurd hflattens (by simp [hkept index hindex])
  case known => exact ⟨List.Subset.refl _, fun pair hpair => Or.inl hpair⟩
  case dissolved =>
    refine ⟨List.subset_append_left _ _, fun pair hpair => ?_⟩
    rcases List.mem_append.mp hpair with hpair | hpair
    · exact Or.inl hpair
    · obtain rfl := List.mem_singleton.mp hpair
      exact Or.inr fun _ => List.subset_append_right _ _

/-- The fields that replace a dissolved oneof are planned together with its plan. -/
theorem expand_fields_subset_expandFields :
    ∀ pair ∈ (expandFields ctx m newFullName).oneofs, (m.strategy pair.1).flattens →
      (ctx.expand m pair.1 (m.strategy pair.1) newFullName).fields
        ⊆ (expandFields ctx m newFullName).plans := by
  refine expandFields_induction (fun _ e => ∀ pair ∈ e.oneofs, (m.strategy pair.1).flattens →
    (ctx.expand m pair.1 (m.strategy pair.1) newFullName).fields ⊆ e.plans) (by simp) ?_
  intro met field rest _ e he pair hpair hflattens
  obtain ⟨hsubset, hmet⟩ := expand_fields_subset_addField e field
  rcases hmet pair hpair with hpair | hnew
  · exact List.Subset.trans (he pair hpair hflattens) hsubset
  · exact hnew hflattens

variable {schema : Schema} {settings : Settings} {renames : Renames} {mp : MessagePlan}

theorem strategy_expand (index : Nat) (strategy : Strategy) :
    (ctx.expand m index strategy newFullName).plan.strategy = strategy := by
  cases strategy <;> rfl

/-- A oneof that is not copied is replaced when it is met, and those of the fields that replace it
which have no way back are fields of the plan. -/
theorem SourceMessage.IsPlanOf.exists_expand (h : m.IsPlanOf schema settings renames mp)
    (hgenerate : mp.generate) {oneof : OneofPlan} (honeof : oneof ∈ mp.oneofs)
    (hdissolved : ∀ index newIndex, oneof ≠ m.untouchedPlan index newIndex) :
    ∃ index, oneof = ((PlanContext.ofFile schema m.file).expand m index (m.strategy index)
        mp.newFullName).plan ∧
      ∀ candidate ∈ ((PlanContext.ofFile schema m.file).expand m index (m.strategy index)
        mp.newFullName).fields, ¬ candidate.isReversible →
        ∃ plan ∈ mp.fields, plan.shape.name = candidate.shape.name ∧ plan.origin = candidate.origin := by
  obtain ⟨index, found, hfound, hmet⟩ := h.exists_met hgenerate honeof
  have hmem := hmet.resolve_right (hdissolved index none)
  rcases plansOneof_expandFields (index, oneof) hmem with ⟨hflattens, heq⟩ | ⟨newIndex, heq⟩
  · have hfields := expand_fields_subset_expandFields (index, oneof) hmem hflattens
    exact ⟨index, heq, fun candidate hcandidate =>
      h.exists_plan_of_not_isReversible hgenerate (List.mem_append_left _ (hfields hcandidate))⟩
  · exact absurd heq (hdissolved index newIndex)

/-- The tag of a dispatched oneof is a field of the plan. -/
theorem SourceMessage.IsPlanOf.exists_dispatchTag (h : m.IsPlanOf schema settings renames mp)
    (hgenerate : mp.generate) {oneof : OneofPlan} (honeof : oneof ∈ mp.oneofs)
    {dispatch : DispatchPlan} (hdispatch : oneof.dispatch = some dispatch) :
    ∃ plan ∈ mp.fields, plan.shape.name = dispatch.fieldName ∧
      plan.origin.role = some (.dispatchTag oneof.name) := by
  have hdissolved : ∀ index newIndex, oneof ≠ m.untouchedPlan index newIndex := by
    rintro index newIndex rfl
    cases hdispatch
  obtain ⟨index, heq, hfields⟩ := h.exists_expand hgenerate honeof hdissolved
  -- Only a dispatched oneof has a tag, which stands in front of its members.
  cases hstrategy : m.strategy index with
  | enumDispatch =>
    rw [hstrategy] at heq hfields
    subst heq
    obtain rfl := Option.some.inj hdispatch
    obtain ⟨plan, hplan, hname, horigin⟩ := hfields _ List.mem_cons_self
      (by simp [FieldPlan.isReversible, dispatchTagPlan, oneofFieldPlan])
    exact ⟨plan, hplan, hname, by rw [horigin]; rfl⟩
  | _ =>
    rw [heq, hstrategy] at hdispatch
    cases hdispatch

end Tags

end PlainSchema
