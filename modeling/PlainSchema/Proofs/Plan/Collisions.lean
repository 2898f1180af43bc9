import PlainSchema.Proofs.Plan.Entries

/-!
# Collisions, resolved or refused

What resolving collisions comes to, in terms of the plans alone.  Of every name the first plan is
kept, `firstPlans`, with one merging step for every later plan of that name, `mergedPlan`; a name
that several plans have gets a companion behind the kept plan and one entry with the origins of all
of them, `MergedInto`.

* **Merging enabled**: the fold keeps `mergedPlan` of the first plans met so far,
  `KeepsFirsts.add`, so a run that succeeds has the plain description,
  `mergedInto_of_resolveCollisions`.  A run fails at a plan that is incompatible with the first of
  its name or at a companion whose name is taken, `resolveCollisions_eq_error`.
* **Merging disabled**: a run fails exactly at a repeated name, `resolveCollisions_disabled`.
* Without repeated names both agree, `resolveCollisions_eq_of_nodup`.
-/

namespace PlainSchema

/-! ## The first plan of every name -/

/-- The plans without those whose name an earlier plan has. -/
def firstPlans (plans : List FieldPlan) : List FieldPlan :=
  plans.eraseDupsBy fun plan other => plan.shape.name == other.shape.name

/-- More than one plan has the name. -/
def IsRepeated (plans : List FieldPlan) (name : String) : Prop :=
  1 < (plansNamed plans name).length

instance (plans : List FieldPlan) (name : String) : Decidable (IsRepeated plans name) :=
  inferInstanceAs (Decidable (1 < _))

theorem length_plansNamed (plans : List FieldPlan) (name : String) :
    (plansNamed plans name).length = (plans.map (·.shape.name)).count name := by
  rw [plansNamed, ← List.countP_eq_length_filter, List.count, List.countP_map]
  rfl

theorem nodup_names_iff {plans : List FieldPlan} :
    (plans.map (·.shape.name)).Nodup ↔ ∀ name, ¬ IsRepeated plans name := by
  rw [List.nodup_iff_count_le_one]
  refine forall_congr' fun name => ?_
  rw [IsRepeated, length_plansNamed, Nat.not_lt]

theorem plansNamed_eq_nil_iff {plans : List FieldPlan} {name : String} :
    plansNamed plans name = [] ↔ name ∉ plans.map (·.shape.name) := by
  rw [← List.length_eq_zero_iff, length_plansNamed, List.count_eq_zero]

theorem IsRepeated.mem_names {plans : List FieldPlan} {name : String} (h : IsRepeated plans name) :
    name ∈ plans.map (·.shape.name) := by
  rw [IsRepeated, length_plansNamed] at h
  exact List.count_pos_iff.mp (Nat.zero_lt_of_lt h)

theorem firstPlans_cons (plan : FieldPlan) (plans : List FieldPlan) :
    firstPlans (plan :: plans)
      = plan :: firstPlans (plans.filter (·.shape.name != plan.shape.name)) := by
  rw [firstPlans, List.eraseDupsBy_cons, firstPlans]
  refine congrArg (plan :: List.eraseDupsBy _ ·) (List.filter_congr fun other _ => ?_)
  rw [bne]
  cases other.shape.name == plan.shape.name <;> rfl

/-- One more plan is a first plan if no plan before has its name. -/
theorem firstPlans_append_singleton (plans : List FieldPlan) (plan : FieldPlan) :
    (plan.shape.name ∈ plans.map (·.shape.name) ∧
        firstPlans (plans ++ [plan]) = firstPlans plans) ∨
      (plan.shape.name ∉ plans.map (·.shape.name) ∧
        firstPlans (plans ++ [plan]) = firstPlans plans ++ [plan]) := by
  -- The erasure filters the tail, so the induction is on the length.
  induction hlength : plans.length using Nat.strong_induction_on generalizing plans with
  | h n ih =>
    cases plans with
    | nil => exact Or.inr ⟨List.not_mem_nil, rfl⟩
    | cons first plans =>
      let others := plans.filter (·.shape.name != first.shape.name)
      have hshorter : others.length < n := by
        have hle : others.length ≤ plans.length := List.length_filter_le _ plans
        rw [List.length_cons] at hlength
        omega
      rw [List.map_cons, List.mem_cons, List.cons_append, firstPlans_cons, List.filter_append,
        firstPlans_cons]
      by_cases hname : plan.shape.name = first.shape.name
      · have hskip : [plan].filter (·.shape.name != first.shape.name) = [] := by simp [hname]
        exact Or.inl ⟨Or.inl hname, by rw [hskip, List.append_nil]⟩
      · have hkeep : [plan].filter (·.shape.name != first.shape.name) = [plan] := by simp [hname]
        rw [hkeep]
        rcases ih others.length hshorter others rfl with ⟨hmet, heq⟩ | ⟨hnew, heq⟩
        · refine Or.inl ⟨Or.inr (List.map_subset _ (List.filter_subset_self _) hmet), ?_⟩
          rw [heq]
        · refine Or.inr ⟨not_or.mpr ⟨hname, fun hmet => hnew ?_⟩, ?_⟩
          · obtain ⟨other, hother, hsame⟩ := List.mem_map.mp hmet
            refine List.mem_map.mpr ⟨other, List.mem_filter.mpr ⟨hother, ?_⟩, hsame⟩
            simpa [hsame] using hname
          · rw [heq, List.cons_append]

theorem mem_names_firstPlans {plans : List FieldPlan} {name : String} :
    name ∈ (firstPlans plans).map (·.shape.name) ↔ name ∈ plans.map (·.shape.name) := by
  induction plans using List.reverseRecOn with
  | nil => rfl
  | append_singleton plans plan ih =>
    rw [List.map_append, List.mem_append, ← ih, List.map_singleton, List.mem_singleton]
    rcases firstPlans_append_singleton plans plan with ⟨hmet, heq⟩ | ⟨-, heq⟩
    · rw [heq]
      refine ⟨Or.inl, ?_⟩
      rintro (h | rfl)
      · exact h
      · exact ih.mpr hmet
    · rw [heq, List.map_append, List.mem_append, List.map_singleton, List.mem_singleton]

theorem nodup_names_firstPlans (plans : List FieldPlan) :
    ((firstPlans plans).map (·.shape.name)).Nodup := by
  induction plans using List.reverseRecOn with
  | nil => exact List.nodup_nil
  | append_singleton plans plan ih =>
    rcases firstPlans_append_singleton plans plan with ⟨-, heq⟩ | ⟨hnew, heq⟩
    · rw [heq]
      exact ih
    · rw [heq, List.map_append, List.nodup_append]
      refine ⟨ih, List.nodup_singleton _, fun name hname other hother hsame => hnew ?_⟩
      rw [hsame, List.mem_singleton.mp hother] at hname
      exact mem_names_firstPlans.mp hname

theorem firstPlans_eq_self {plans : List FieldPlan} (h : (plans.map (·.shape.name)).Nodup) :
    firstPlans plans = plans := by
  induction plans using List.reverseRecOn with
  | nil => rfl
  | append_singleton plans plan ih =>
    rw [List.map_append, List.nodup_append] at h
    rcases firstPlans_append_singleton plans plan with ⟨hmet, -⟩ | ⟨-, heq⟩
    · exact absurd rfl (h.2.2 _ hmet _ (List.mem_singleton_self _))
    · rw [heq, ih h.1]

/-- A first plan is the first of the plans of its name. -/
theorem plansNamed_of_mem_firstPlans {plans : List FieldPlan} {first : FieldPlan}
    (h : first ∈ firstPlans plans) : ∃ rest, plansNamed plans first.shape.name = first :: rest := by
  induction plans using List.reverseRecOn with
  | nil => exact absurd h List.not_mem_nil
  | append_singleton plans plan ih =>
    have hearlier : first ∈ firstPlans plans →
        ∃ rest, plansNamed (plans ++ [plan]) first.shape.name = first :: rest := by
      intro h
      obtain ⟨rest, hrest⟩ := ih h
      exact ⟨_, by rw [plansNamed_append, hrest, List.cons_append]⟩
    rcases firstPlans_append_singleton plans plan with ⟨-, heq⟩ | ⟨hnew, heq⟩
    · exact hearlier (heq ▸ h)
    · rw [heq] at h
      rcases List.mem_append.mp h with h | h
      · exact hearlier h
      · rw [List.mem_singleton.mp h]
        exact ⟨[], by rw [plansNamed_append, plansNamed_eq_nil_iff.mpr hnew,
          plansNamed_singleton_self, List.nil_append]⟩

/-! ## What the fold keeps -/

/-- The first plan of a name, with a merging step for each later one. -/
def mergedPlan (plans : List FieldPlan) (first : FieldPlan) : FieldPlan :=
  { first with
    steps := first.steps
      ++ (plansNamed plans first.shape.name).tail.map fun later => .merge later.originPath }

@[simp] theorem shape_mergedPlan (plans : List FieldPlan) (first : FieldPlan) :
    (mergedPlan plans first).shape = first.shape :=
  rfl

@[simp] theorem originPath_mergedPlan (plans : List FieldPlan) (first : FieldPlan) :
    (mergedPlan plans first).originPath = first.originPath :=
  rfl

theorem mergedPlan_of_not_isRepeated {plans : List FieldPlan} {first : FieldPlan}
    (h : ¬ IsRepeated plans first.shape.name) : mergedPlan plans first = first := by
  have hnone : (plansNamed plans first.shape.name).tail = [] := by
    rw [IsRepeated, Nat.not_lt] at h
    rw [← List.length_eq_zero_iff, List.length_tail]
    omega
  rw [mergedPlan, hnone, List.map_nil, List.append_nil]

/-- A later plan of the name is one more step of the merged one, and of no other. -/
theorem mergedPlan_append_singleton {plans : List FieldPlan} {first : FieldPlan}
    (hfirst : first ∈ firstPlans plans) (plan : FieldPlan) :
    mergedPlan (plans ++ [plan]) first
      = if first.shape.name = plan.shape.name then
          (mergedPlan plans first).addStep (.merge plan.originPath)
        else mergedPlan plans first := by
  obtain ⟨rest, hrest⟩ := plansNamed_of_mem_firstPlans hfirst
  split
  · next hname =>
    have hlater : plansNamed (plans ++ [plan]) first.shape.name = first :: (rest ++ [plan]) := by
      rw [plansNamed_append, hrest, hname, plansNamed_singleton_self, List.cons_append]
    rw [mergedPlan, mergedPlan, FieldPlan.addStep, hlater, hrest]
    simp
  · next hname =>
    rw [mergedPlan, mergedPlan, plansNamed_append,
      plansNamed_singleton_of_ne (Ne.symm hname), List.append_nil]

/-- Among distinct names the step is added to the one plan of the name. -/
theorem addStepTo_eq_map {plans : List FieldPlan} (h : (plans.map (·.shape.name)).Nodup)
    (name : String) (step : Step) :
    Merging.addStepTo name step plans
      = plans.map fun plan => if plan.shape.name = name then plan.addStep step else plan := by
  induction plans with
  | nil => rfl
  | cons plan plans ih =>
    rw [List.map_cons, List.nodup_cons] at h
    rw [Merging.addStepTo, List.map_cons]
    split
    · next hname =>
      refine congrArg (plan.addStep step :: ·) ?_
      symm
      calc plans.map (fun other => if other.shape.name = name then other.addStep step else other)
          = plans.map id := List.map_congr_left fun other hother => if_neg fun hsame =>
            h.1 (List.mem_map.mpr ⟨other, hother, hsame.trans hname.symm⟩)
        _ = plans := List.map_id plans
    · rw [ih h.2]

/-- The kept plans are the first ones of the plans met so far, merged with the later ones. -/
def Merging.KeepsFirsts (plans : List FieldPlan) (merging : Merging) : Prop :=
  merging.kept = (firstPlans plans).map (mergedPlan plans)

namespace Merging.KeepsFirsts

variable {plans all : List FieldPlan} {merging after : Merging} {plan : FieldPlan}
  {message : String}

theorem nil : Merging.KeepsFirsts [] {} :=
  rfl

theorem names (h : merging.KeepsFirsts plans) :
    merging.kept.map (·.shape.name) = (firstPlans plans).map (·.shape.name) := by
  rw [h, List.map_map]
  rfl

/-- A plan with a new name is kept as it is. -/
theorem addNew (h : merging.KeepsFirsts plans)
    (hnew : plan.shape.name ∉ plans.map (·.shape.name)) :
    { merging with kept := merging.kept ++ [plan] }.KeepsFirsts (plans ++ [plan]) := by
  have hfirsts : firstPlans (plans ++ [plan]) = firstPlans plans ++ [plan] :=
    (firstPlans_append_singleton plans plan).elim (fun hmet => absurd hmet.1 hnew) (·.2)
  have hself : mergedPlan (plans ++ [plan]) plan = plan := by
    refine mergedPlan_of_not_isRepeated ?_
    rw [IsRepeated, plansNamed_append, plansNamed_eq_nil_iff.mpr hnew, plansNamed_singleton_self]
    simp
  have hothers : (firstPlans plans).map (mergedPlan (plans ++ [plan]))
      = (firstPlans plans).map (mergedPlan plans) := by
    refine List.map_congr_left fun first hfirst => ?_
    rw [mergedPlan_append_singleton hfirst, if_neg]
    exact fun hsame => hnew (mem_names_firstPlans.mp (List.mem_map.mpr ⟨first, hfirst, hsame⟩))
  rw [Merging.KeepsFirsts, hfirsts, List.map_append, hothers, List.map_singleton, hself, h]

/-- A plan whose name is taken leaves a step on the kept plan of that name. -/
theorem addMerged (h : merging.KeepsFirsts plans)
    (hmet : plan.shape.name ∈ plans.map (·.shape.name)) (entries : List CrfEntry) :
    Merging.KeepsFirsts (plans ++ [plan])
      ⟨addStepTo plan.shape.name (.merge plan.originPath) merging.kept, entries⟩ := by
  have hfirsts : firstPlans (plans ++ [plan]) = firstPlans plans :=
    (firstPlans_append_singleton plans plan).elim (·.2) (fun hnew => absurd hmet hnew.1)
  have hnames : (merging.kept.map (·.shape.name)).Nodup := by
    rw [h.names]
    exact nodup_names_firstPlans plans
  rw [Merging.KeepsFirsts, hfirsts, addStepTo_eq_map hnames, h, List.map_map]
  refine List.map_congr_left fun first hfirst => ?_
  rw [mergedPlan_append_singleton hfirst, Function.comp_apply, shape_mergedPlan]

theorem add (h : merging.KeepsFirsts plans) (hadd : merging.add message all plan = .ok after) :
    after.KeepsFirsts (plans ++ [plan]) := by
  rw [Merging.add] at hadd
  split at hadd
  · next hnone =>
    rw [← Except.ok.inj hadd]
    refine h.addNew fun hmet => ?_
    rw [← mem_names_firstPlans, ← h.names] at hmet
    obtain ⟨kept, hkept, hname⟩ := List.mem_map.mp hmet
    exact List.find?_eq_none.mp hnone kept hkept (by simpa using hname)
  · next kept hfound =>
    split at hadd
    · cases hadd
    · rw [← Except.ok.inj hadd]
      refine h.addMerged ?_ _
      rw [← mem_names_firstPlans, ← h.names]
      exact List.mem_map.mpr
        ⟨kept, List.mem_of_find?_eq_some hfound, by simpa using List.find?_some hfound⟩

end Merging.KeepsFirsts

/-! ## Merging enabled -/

/-- The entry about a repeated name. -/
def crfEntryOf (plans : List FieldPlan) (name : String) : CrfEntry where
  field := name
  crfField := companionName name
  sources := (originsOf plans name).eraseDups

/-- The merged first plan of a name, with the companion behind it if the name is repeated. -/
def mergedGroup (plans : List FieldPlan) (first : FieldPlan) : List FieldPlan :=
  if IsRepeated plans first.shape.name then
    [mergedPlan plans first, companionPlan first.shape.name]
  else [first]

/-- What plans are merged into: the fields, all of different names, and one entry for every
repeated name. -/
structure MergedInto (plans merged : List FieldPlan) (entries : List CrfEntry) : Prop where
  names : (merged.map (·.shape.name)).Nodup
  fields : merged = (firstPlans plans).flatMap (mergedGroup plans)
  entryNames : (entries.map (·.field)).Nodup
  mem_entries : ∀ entry, entry ∈ entries ↔
    ∃ name, IsRepeated plans name ∧ entry = crfEntryOf plans name
  /-- The first origin of an entry is that of the field it is about. -/
  firstOrigin : ∀ entry ∈ entries, ∃ kept ∈ merged, kept.shape.name = entry.field ∧
    entry.sources.head? = some kept.originPath

/-- A plan that cannot be merged into the first one of its name. -/
def Clashes (plans : List FieldPlan) (name : String) (reason : CollisionReason) : Prop :=
  ∃ first rest, plansNamed plans name = first :: rest ∧
    ∃ other ∈ rest, incompatibility? first other = some reason

/-- The companion of a repeated name has the name of a field. -/
def CompanionTaken (plans : List FieldPlan) (name : String) : Prop :=
  IsRepeated plans name ∧ companionName name ∈ plans.map (·.shape.name)

theorem Clashes.isRepeated {plans : List FieldPlan} {name : String} {reason : CollisionReason}
    (h : Clashes plans name reason) : IsRepeated plans name := by
  obtain ⟨first, rest, hnamed, other, hother, -⟩ := h
  have := List.length_pos_of_mem hother
  rw [IsRepeated, hnamed, List.length_cons]
  omega

section Merges

variable {message : String} {plans : List FieldPlan} {merging : Merging}

/-- The recorded entries are those of the repeated names. -/
theorem Merging.Merges.mem_entries_iff (h : merging.Merges plans) {entry : CrfEntry} :
    entry ∈ merging.entries ↔ ∃ name, IsRepeated plans name ∧ entry = crfEntryOf plans name := by
  have hform : ∀ entry ∈ merging.entries, entry = crfEntryOf plans entry.field := by
    intro entry hentry
    obtain ⟨hcompanion, -, hsources⟩ := h.entries entry hentry
    rw [crfEntryOf, ← hcompanion, ← hsources]
  constructor
  · exact fun hentry => ⟨entry.field, (h.entries entry hentry).2.1, hform entry hentry⟩
  · rintro ⟨name, hrepeated, rfl⟩
    obtain ⟨entry, hentry, rfl⟩ := h.merged name hrepeated
    exact hform entry hentry ▸ hentry

/-- The entry of a name is found exactly if the name is repeated. -/
theorem Merging.Merges.find?_entries (h : merging.Merges plans) (name : String) :
    merging.entries.find? (·.field == name)
      = if IsRepeated plans name then some (crfEntryOf plans name) else none := by
  split
  · next hrepeated =>
    have hmem : crfEntryOf plans name ∈ merging.entries :=
      h.mem_entries_iff.mpr ⟨name, hrepeated, rfl⟩
    exact find?_eq_some_of_nodup h.entryNames hmem
  · next hsingle =>
    refine List.find?_eq_none.mpr fun entry hentry hname => hsingle ?_
    obtain ⟨other, hrepeated, rfl⟩ := h.mem_entries_iff.mp hentry
    have hname : other = name := by simpa [crfEntryOf] using hname
    exact hname ▸ hrepeated

/-- The kept plans have the names of the plans. -/
theorem Merging.Merges.mem_names_kept (h : merging.Merges plans) {name : String} :
    name ∈ merging.kept.map (·.shape.name) ↔ name ∈ plans.map (·.shape.name) := by
  constructor
  · intro hname
    obtain ⟨kept, hkept, rfl⟩ := List.mem_map.mp hname
    obtain ⟨first, rest, hnamed, -⟩ := h.kept kept hkept
    have hfirst : first ∈ plansNamed plans kept.shape.name := hnamed ▸ List.mem_cons_self
    obtain ⟨hfirst, hname⟩ := List.mem_filter.mp hfirst
    exact List.mem_map.mpr ⟨first, hfirst, by simpa using hname⟩
  · intro hname
    obtain ⟨plan, hplan, rfl⟩ := List.mem_map.mp hname
    obtain ⟨kept, hkept, hname⟩ := h.complete plan hplan
    exact List.mem_map.mpr ⟨kept, hkept, hname⟩

/-- A kept plan gets its companion, unless the name of the companion is taken. -/
theorem Merging.Merges.withCompanion_eq (h : merging.Merges plans) (plan : FieldPlan) :
    merging.withCompanion message plan
      = if IsRepeated plans plan.shape.name then
          if companionName plan.shape.name ∈ plans.map (·.shape.name) then
            .error ⟨message, companionName plan.shape.name,
              (originsOf plans plan.shape.name).eraseDups, .companionTaken⟩
          else .ok [plan, companionPlan plan.shape.name]
        else .ok [plan] := by
  rw [Merging.withCompanion, h.find?_entries]
  by_cases hrepeated : IsRepeated plans plan.shape.name
  · have hany : (merging.kept.any (·.shape.name == companionName plan.shape.name)) = true ↔
        companionName plan.shape.name ∈ plans.map (·.shape.name) := by
      rw [← h.mem_names_kept, List.any_eq_true, List.mem_map]
      simp
    rw [if_pos hrepeated, if_pos hrepeated]
    simp only [crfEntryOf, hany]
  · rw [if_neg hrepeated, if_neg hrepeated]

end Merges

/-- Merging that succeeds merges the plans into what `MergedInto` says. -/
theorem mergedInto_of_resolveCollisions {message : String} {plans merged : List FieldPlan}
    {entries : List CrfEntry}
    (h : resolveCollisions message plans true = .ok (merged, entries)) :
    MergedInto plans merged entries := by
  rw [resolveCollisions, if_pos rfl] at h
  obtain ⟨merging, hmerging, h⟩ := bind_eq_ok.mp h
  obtain ⟨groups, hgroups, h⟩ := bind_eq_ok.mp h
  obtain ⟨rfl, rfl⟩ := Prod.mk.inj (Except.ok.inj h)
  obtain ⟨hmerges, hfirsts⟩ := foldlM_prefix
    (fun met (merging : Merging) => merging.Merges met ∧ merging.KeepsFirsts met) ⟨.nil, .nil⟩
    (fun met plan before after hbefore hadd => ⟨hbefore.1.add hadd, hbefore.2.add hadd⟩) hmerging
  rw [mapM_eq_ok] at hgroups
  have hfields : groups.flatten = (firstPlans plans).flatMap (mergedGroup plans) := by
    rw [hfirsts, List.forall₂_map_left_iff] at hgroups
    rw [← List.flatMap_id]
    symm
    refine flatMap_eq_flatMap_of_forall₂ hgroups fun first group hgroup => ?_
    rw [hmerges.withCompanion_eq, shape_mergedPlan] at hgroup
    rw [mergedGroup, id]
    split at hgroup
    · next hrepeated =>
      rw [if_pos hrepeated]
      split at hgroup
      · cases hgroup
      · exact Except.ok.inj hgroup
    · next hsingle =>
      rw [if_neg hsingle, ← Except.ok.inj hgroup, mergedPlan_of_not_isRepeated hsingle]
  refine ⟨?_, hfields, hmerges.entryNames, fun _ => hmerges.mem_entries_iff, fun entry hentry => ?_⟩
  · exact (nodup_names_flatten hgroups hmerges.names (List.Subset.refl _)
      fun entry hentry => (hmerges.entries entry hentry).1).1
  · obtain ⟨name, hrepeated, rfl⟩ := hmerges.mem_entries_iff.mp hentry
    obtain ⟨first, hfirst, rfl⟩ :=
      List.mem_map.mp (mem_names_firstPlans.mpr hrepeated.mem_names)
    obtain ⟨rest, hrest⟩ := plansNamed_of_mem_firstPlans hfirst
    refine ⟨mergedPlan plans first, ?_, rfl, ?_⟩
    · rw [hfields]
      refine List.mem_flatMap.mpr ⟨first, hfirst, ?_⟩
      rw [mergedGroup, if_pos hrepeated]
      exact List.mem_cons_self
    · rw [originPath_mergedPlan, crfEntryOf, originsOf_eq, hrest]
      exact head?_eraseDups_map_originPath first rest

/-- Why merging fails: a plan clashes with the first one of its name, or a companion has no name
left. -/
theorem resolveCollisions_eq_error {message : String} {plans : List FieldPlan}
    {error : CollisionError} (h : resolveCollisions message plans true = .error error) :
    (∃ name reason, Clashes plans name reason ∧
        error = ⟨message, name, originsOf plans name, reason⟩) ∨
      ∃ name, CompanionTaken plans name ∧
        error = ⟨message, companionName name, (originsOf plans name).eraseDups, .companionTaken⟩ := by
  rw [resolveCollisions, if_pos rfl, bind_eq_error] at h
  rcases h with h | ⟨merging, hmerging, h⟩
  · -- The fold stops at a plan whose name is kept by one that it does not fit.
    obtain ⟨met, plan, rest, merging, rfl, hmerging, hadd⟩ := foldlM_eq_error h
    have hmerges : merging.Merges met :=
      foldlM_prefix (fun met (merging : Merging) => merging.Merges met) .nil
        (fun met plan before after hbefore hadd => hbefore.add hadd) hmerging
    rw [Merging.add] at hadd
    split at hadd
    · cases hadd
    · next kept hfound =>
      split at hadd
      · next reason hreason =>
        have hname : kept.shape.name = plan.shape.name := by simpa using List.find?_some hfound
        obtain ⟨first, more, hnamed, hfrom, -⟩ :=
          hmerges.kept kept (List.mem_of_find?_eq_some hfound)
        refine Or.inl ⟨plan.shape.name, reason, ⟨first, more ++ plan :: plansNamed rest
          plan.shape.name, ?_, plan, by simp, ?_⟩, (Except.error.inj hadd).symm⟩
        · have hplan : plansNamed (plan :: rest) plan.shape.name
              = plan :: plansNamed rest plan.shape.name := List.filter_cons_of_pos (by simp)
          rw [plansNamed_append, hplan, ← hname, hnamed, List.cons_append]
        · rw [← hfrom.incompatibility?, hreason]
      · cases hadd
  · have hmerges : merging.Merges plans :=
      foldlM_prefix (fun met (merging : Merging) => merging.Merges met) .nil
        (fun met plan before after hbefore hadd => hbefore.add hadd) hmerging
    rw [bind_eq_error] at h
    rcases h with h | ⟨groups, -, h⟩
    · obtain ⟨plan, -, h⟩ := mapM_eq_error h
      rw [hmerges.withCompanion_eq] at h
      split at h
      · next hrepeated =>
        split at h
        · next htaken =>
          exact Or.inr ⟨plan.shape.name, ⟨hrepeated, htaken⟩, (Except.error.inj h).symm⟩
        · cases h
      · cases h
    · cases h

/-- Merging fails exactly if two plans of one name do not fit or a companion has no name left. -/
theorem exists_error_resolveCollisions_iff {message : String} {plans : List FieldPlan} :
    (∃ error, resolveCollisions message plans true = .error error) ↔
      (∃ name reason, Clashes plans name reason) ∨ ∃ name, CompanionTaken plans name := by
  constructor
  · rintro ⟨error, h⟩
    rcases resolveCollisions_eq_error h with ⟨name, reason, hclash, -⟩ | ⟨name, htaken, -⟩
    · exact Or.inl ⟨name, reason, hclash⟩
    · exact Or.inr ⟨name, htaken⟩
  · intro hfails
    cases hresult : resolveCollisions message plans true with
    | error error => exact ⟨error, rfl⟩
    | ok result =>
      exfalso
      obtain ⟨kept, groups, hmerges, -, hgroups⟩ := resolveCollisions_eq_ok hresult
      rcases hfails with ⟨name, reason, first, rest, hnamed, other, hother, hclash⟩ |
        ⟨name, hrepeated, htaken⟩
      · have hfirst : first ∈ plansNamed plans name := hnamed ▸ List.mem_cons_self
        obtain ⟨hfirst, hname⟩ := List.mem_filter.mp hfirst
        obtain ⟨keptPlan, hkept, hsame⟩ := hmerges.complete first hfirst
        obtain ⟨first', rest', hnamed', -, hfits⟩ := hmerges.kept keptPlan hkept
        have hname : keptPlan.shape.name = name := hsame.trans (by simpa using hname)
        obtain ⟨rfl, rfl⟩ := List.cons.inj (hnamed.symm.trans (hname ▸ hnamed'))
        exact absurd ((hfits other hother).symm.trans hclash) nofun
      · obtain ⟨plan, hplan, rfl⟩ :=
          List.mem_map.mp (hmerges.mem_names_kept.mpr hrepeated.mem_names)
        obtain ⟨group, -, hgroup⟩ := exists_right_of_forall₂ hgroups hplan
        rw [hmerges.withCompanion_eq, if_pos hrepeated, if_pos htaken] at hgroup
        exact absurd hgroup nofun

/-! ## Merging disabled -/

/-- Without merging a run fails exactly at a repeated name, and names the first plan that has
one. -/
theorem resolveCollisions_disabled (message : String) (plans : List FieldPlan) :
    ((plans.map (·.shape.name)).Nodup ∧
        resolveCollisions message plans false = .ok (plans, [])) ∨
      ∃ before plan after, plans = before ++ plan :: after ∧
        (∀ other ∈ before, ¬ IsRepeated plans other.shape.name) ∧
        IsRepeated plans plan.shape.name ∧
        resolveCollisions message plans false = .error
          ⟨message, plan.shape.name, originsOf plans plan.shape.name, .disabled⟩ := by
  rw [resolveCollisions, if_neg Bool.false_ne_true]
  cases hfirst : firstCollision? plans with
  | none =>
    refine Or.inl ⟨nodup_names_iff.mpr fun name hrepeated => ?_, rfl⟩
    obtain ⟨plan, hplan, rfl⟩ := List.mem_map.mp hrepeated.mem_names
    have hsingle := List.find?_eq_none.mp hfirst plan hplan
    rw [originsOf_eq, List.length_map] at hsingle
    exact hsingle (decide_eq_true hrepeated)
  | some plan =>
    obtain ⟨hrepeated, before, after, rfl, hbefore⟩ := List.find?_eq_some_iff_append.mp hfirst
    have hcollides : ∀ name, (1 < (originsOf (before ++ plan :: after) name).length)
        = IsRepeated (before ++ plan :: after) name := by
      intro name
      rw [originsOf_eq, List.length_map, IsRepeated]
    refine Or.inr ⟨before, plan, after, rfl, fun other hother hrepeated' => ?_, ?_, rfl⟩
    · have hsingle : ¬ 1 < (originsOf (before ++ plan :: after) other.shape.name).length := by
        simpa using hbefore other hother
      exact hsingle (hcollides _ ▸ hrepeated')
    · exact hcollides _ ▸ of_decide_eq_true hrepeated

/-- Without repeated names there is nothing to merge, so it does not matter whether merging is
enabled. -/
theorem resolveCollisions_eq_of_nodup {message : String} {plans : List FieldPlan}
    (h : (plans.map (·.shape.name)).Nodup) (enableCrf : Bool) :
    resolveCollisions message plans enableCrf = .ok (plans, []) := by
  have hsingle := nodup_names_iff.mp h
  cases enableCrf with
  | false =>
    rcases resolveCollisions_disabled message plans with ⟨-, heq⟩ | ⟨_, plan, _, _, _, hrepeated, _⟩
    · exact heq
    · exact absurd hrepeated (hsingle _)
  | true =>
    cases hresult : resolveCollisions message plans true with
    | error error =>
      exfalso
      rcases exists_error_resolveCollisions_iff.mp ⟨error, hresult⟩ with
        ⟨name, reason, hclash⟩ | ⟨name, hrepeated, -⟩
      · exact hsingle name hclash.isRepeated
      · exact hsingle name hrepeated
    | ok resolved =>
      obtain ⟨merged, entries⟩ := resolved
      have hinto := mergedInto_of_resolveCollisions hresult
      have hmerged : merged = plans := by
        have hgroup : mergedGroup plans = fun plan => [plan] :=
          funext fun plan => if_neg (hsingle _)
        rw [hinto.fields, firstPlans_eq_self h, hgroup, List.flatMap_singleton']
      have hentries : entries = [] := by
        refine List.eq_nil_iff_forall_not_mem.mpr fun entry hentry => ?_
        obtain ⟨name, hrepeated, -⟩ := (hinto.mem_entries entry).mp hentry
        exact hsingle name hrepeated
      rw [hmerged, hentries]

/-! ## Both together -/

/-- **Collisions are resolved completely.**  Without merging two plans of one name are an error,
about the first name that is repeated and with the origins of all its plans; otherwise the plans
stay.  With merging the plans become what `MergedInto` says, unless two of one name are incompatible
or a companion has no name left.  Without repeated names merging makes no difference. -/
theorem resolveCollisions_complete (message : String) (plans : List FieldPlan) :
    ((∃ error, resolveCollisions message plans false = .error error) ↔
      ¬ (plans.map (·.shape.name)).Nodup) ∧
    (∀ error, resolveCollisions message plans false = .error error →
      ∃ before plan after, plans = before ++ plan :: after ∧
        (∀ other ∈ before, ¬ IsRepeated plans other.shape.name) ∧
        IsRepeated plans plan.shape.name ∧
        error = ⟨message, plan.shape.name, originsOf plans plan.shape.name, .disabled⟩) ∧
    (∀ resolved, resolveCollisions message plans false = .ok resolved → resolved = (plans, [])) ∧
    (∀ merged entries, resolveCollisions message plans true = .ok (merged, entries) →
      MergedInto plans merged entries) ∧
    ((∃ error, resolveCollisions message plans true = .error error) ↔
      (∃ name reason, Clashes plans name reason) ∨ ∃ name, CompanionTaken plans name) ∧
    ((plans.map (·.shape.name)).Nodup →
      resolveCollisions message plans true = resolveCollisions message plans false) := by
  refine ⟨?_, ?_, ?_, fun merged entries => mergedInto_of_resolveCollisions,
    exists_error_resolveCollisions_iff, fun h => ?_⟩
  · constructor
    · rintro ⟨error, herror⟩ hnodup
      exact absurd (herror.symm.trans (resolveCollisions_eq_of_nodup hnodup false)) nofun
    · intro hrepeated
      rcases resolveCollisions_disabled message plans with ⟨hnodup, -⟩ | ⟨_, _, _, _, _, _, heq⟩
      · exact absurd hnodup hrepeated
      · exact ⟨_, heq⟩
  · intro error herror
    rcases resolveCollisions_disabled message plans with ⟨-, heq⟩ |
      ⟨before, plan, after, hplans, hbefore, hrepeated, heq⟩
    · exact absurd (herror.symm.trans heq) nofun
    · exact ⟨before, plan, after, hplans, hbefore, hrepeated,
        Except.error.inj (herror.symm.trans heq)⟩
  · intro resolved hresolved
    rcases resolveCollisions_disabled message plans with ⟨-, heq⟩ | ⟨_, _, _, _, _, _, heq⟩
    · exact Except.ok.inj (hresolved.symm.trans heq)
    · exact absurd (hresolved.symm.trans heq) nofun
  · rw [resolveCollisions_eq_of_nodup h, resolveCollisions_eq_of_nodup h]

/-- The first of two names is merged, with its companion behind it, and the other field stays. -/
example :
    let plan := fun name source : String =>
      ({ shape := { name, kind := .scalar .string }, origin := { sourcePath := [source] } } :
        FieldPlan)
    let resolved := resolveCollisions "p.M"
      [plan "city" "home", plan "zip" "zip", plan "city" "work"] true
    resolved.toOption.map (fun resolved => resolved.1.map (·.shape.name))
        = some ["city", "cityCRF", "zip"] ∧
      resolved.toOption.map (·.2) = some [⟨"city", "cityCRF", ["home", "work"]⟩] := by
  decide +kernel

end PlainSchema
