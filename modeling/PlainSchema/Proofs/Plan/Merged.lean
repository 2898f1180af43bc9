import Mathlib.Data.List.Nodup
import PlainSchema.Proofs.Plan.Leaves

/-!
# What merging leaves

When collisions are resolved, one plan of every name is kept, the first one, and the origins of all
plans of a shared name are recorded once each in the order of the plans: `Merging.Merges`, which
every step of the fold keeps, `Merging.Merges.add`.  Without merging no two plans share a name, so
the plans are what a merging of them would have kept, `resolveCollisions_eq_ok`.
-/

namespace PlainSchema

/-- The plans of a name. -/
def plansNamed (plans : List FieldPlan) (name : String) : List FieldPlan :=
  plans.filter (·.shape.name == name)

/-- A plan that differs from another one by the merging steps at its end. -/
structure FieldPlan.KeptFrom (kept first : FieldPlan) : Prop where
  source : kept.source = first.source
  shape : kept.shape = first.shape
  origin : kept.origin = first.origin
  steps : ∃ merged : List String, kept.steps = first.steps ++ merged.map .merge

namespace FieldPlan.KeptFrom

variable {kept first : FieldPlan}

theorem refl (plan : FieldPlan) : plan.KeptFrom plan :=
  ⟨rfl, rfl, rfl, [], by simp⟩

theorem addMerge (h : kept.KeptFrom first) (origin : String) :
    (kept.addStep (.merge origin)).KeptFrom first := by
  obtain ⟨merged, hsteps⟩ := h.steps
  exact ⟨h.source, h.shape, h.origin, merged ++ [origin], by simp [addStep, hsteps]⟩

theorem originPath (h : kept.KeptFrom first) : kept.originPath = first.originPath := by
  rw [FieldPlan.originPath, FieldPlan.originPath, h.origin, h.shape]

theorem isReversible (h : kept.KeptFrom first) : kept.isReversible = first.isReversible := by
  rw [FieldPlan.isReversible, FieldPlan.isReversible, h.origin]

theorem override? (h : kept.KeptFrom first) : kept.override? = first.override? := by
  obtain ⟨merged, hsteps⟩ := h.steps
  have hnone : (merged.map Step.merge).filterMap Step.override? = [] := by
    simp [List.filterMap_eq_nil_iff, Step.override?]
  rw [FieldPlan.override?, FieldPlan.override?, hsteps, List.filterMap_append, hnone,
    List.append_nil]

theorem aliasField (h : kept.KeptFrom first) : kept.aliasField = first.aliasField := by
  obtain ⟨merged, hsteps⟩ := h.steps
  have hnone : (merged.map Step.merge).findSome? Step.aliasField? = none := by
    simp [Step.aliasField?]
  rw [FieldPlan.aliasField, FieldPlan.aliasField, hsteps, List.findSome?_append, hnone,
    Option.or_none]

theorem incompatibility? (h : kept.KeptFrom first) (other : FieldPlan) :
    PlainSchema.incompatibility? kept other = PlainSchema.incompatibility? first other := by
  rw [PlainSchema.incompatibility?, PlainSchema.incompatibility?, h.isReversible, h.shape,
    h.override?]

end FieldPlan.KeptFrom

/-- The kept plans and the recorded origins of the plans that were merged so far. -/
structure Merging.Merges (plans : List FieldPlan) (merging : Merging) : Prop where
  names : (merging.kept.map (·.shape.name)).Nodup
  kept : ∀ plan ∈ merging.kept, ∃ first rest, plansNamed plans plan.shape.name = first :: rest ∧
    plan.KeptFrom first ∧ ∀ other ∈ rest, incompatibility? first other = none
  complete : ∀ plan ∈ plans, ∃ kept ∈ merging.kept, kept.shape.name = plan.shape.name
  entryNames : (merging.entries.map (·.field)).Nodup
  entries : ∀ entry ∈ merging.entries, entry.crfField = companionName entry.field ∧
    1 < (plansNamed plans entry.field).length ∧
    entry.sources = (originsOf plans entry.field).eraseDups
  merged : ∀ name, 1 < (plansNamed plans name).length →
    ∃ entry ∈ merging.entries, entry.field = name

/-! ## Single steps -/

theorem plansNamed_append (plans more : List FieldPlan) (name : String) :
    plansNamed (plans ++ more) name = plansNamed plans name ++ plansNamed more name :=
  List.filter_append ..

theorem plansNamed_singleton_of_ne {plan : FieldPlan} {name : String}
    (hne : plan.shape.name ≠ name) : plansNamed [plan] name = [] := by
  simp [plansNamed, hne]

@[simp] theorem plansNamed_singleton_self (plan : FieldPlan) :
    plansNamed [plan] plan.shape.name = [plan] := by
  simp [plansNamed]

theorem originsOf_eq (plans : List FieldPlan) (name : String) :
    originsOf plans name = (plansNamed plans name).map (·.originPath) :=
  rfl

theorem map_name_addStepTo (name : String) (step : Step) (plans : List FieldPlan) :
    (Merging.addStepTo name step plans).map (·.shape.name) = plans.map (·.shape.name) := by
  induction plans with
  | nil => rfl
  | cons plan plans ih =>
    rw [Merging.addStepTo]
    split
    · rfl
    · rw [List.map_cons, List.map_cons, ih]

theorem mem_addStepTo {name : String} {step : Step} {plans : List FieldPlan} {plan : FieldPlan}
    (h : plan ∈ Merging.addStepTo name step plans) :
    ∃ before ∈ plans, plan = before ∨ plan = before.addStep step := by
  induction plans with
  | nil => simp [Merging.addStepTo] at h
  | cons first plans ih =>
    rw [Merging.addStepTo] at h
    split at h
    · rcases List.mem_cons.mp h with rfl | h
      · exact ⟨first, List.mem_cons_self, Or.inr rfl⟩
      · exact ⟨plan, List.mem_cons_of_mem _ h, Or.inl rfl⟩
    · rcases List.mem_cons.mp h with rfl | h
      · exact ⟨plan, List.mem_cons_self, Or.inl rfl⟩
      · obtain ⟨before, hbefore, hplan⟩ := ih h
        exact ⟨before, List.mem_cons_of_mem _ hbefore, hplan⟩

/-- One origin more keeps the recorded ones apart from repetitions. -/
theorem eraseDups_append_singleton {α : Type} [BEq α] [LawfulBEq α] (origins : List α) (origin : α) :
    (origins ++ [origin]).eraseDups
      = if origins.contains origin then origins.eraseDups else origins.eraseDups ++ [origin] := by
  rw [List.eraseDups_append, List.cons_removeAll]
  by_cases hmem : origin ∈ origins <;> simp [hmem, List.eraseDups_cons]

theorem map_field_addOrigin (field first origin : String) (entries : List CrfEntry) :
    (Merging.addOrigin field first origin entries).map (·.field)
      = if field ∈ entries.map (·.field) then entries.map (·.field)
        else entries.map (·.field) ++ [field] := by
  induction entries with
  | nil => simp [Merging.addOrigin]
  | cons entry entries ih =>
    rw [Merging.addOrigin]
    by_cases hfield : entry.field = field
    · rw [if_pos hfield]
      have hsame : (if entry.sources.contains origin then entry
          else { entry with sources := entry.sources ++ [origin] }).field = entry.field := by
        split <;> rfl
      rw [List.map_cons, hsame, List.map_cons, hfield, if_pos List.mem_cons_self]
    · rw [if_neg hfield, List.map_cons, ih, List.map_cons]
      have hne : ¬ field = entry.field := fun heq => hfield heq.symm
      by_cases hmem : field ∈ entries.map (·.field)
      · rw [if_pos hmem, if_pos (List.mem_cons_of_mem _ hmem)]
      · rw [if_neg hmem, if_neg (by simpa [hne] using hmem), List.cons_append]

/-- An entry of another field stays; that of the field records one origin more. -/
theorem mem_addOrigin {field first origin : String} {entries : List CrfEntry}
    (hnames : (entries.map (·.field)).Nodup) {entry : CrfEntry}
    (h : entry ∈ Merging.addOrigin field first origin entries) :
    (entry ∈ entries ∧ entry.field ≠ field) ∨
      (entry.field = field ∧ ∃ before ∈ entries, before.field = field ∧
        entry.crfField = before.crfField ∧ entry.sources = if before.sources.contains origin
          then before.sources else before.sources ++ [origin]) ∨
      (field ∉ entries.map (·.field) ∧ entry =
        { field, crfField := companionName field,
          sources := if origin = first then [first] else [first, origin] }) := by
  induction entries with
  | nil =>
    rw [Merging.addOrigin, List.mem_singleton] at h
    exact Or.inr (Or.inr ⟨by simp, h⟩)
  | cons head entries ih =>
    rw [List.map_cons, List.nodup_cons] at hnames
    rw [Merging.addOrigin] at h
    by_cases hfield : head.field = field
    · rw [if_pos hfield] at h
      rcases List.mem_cons.mp h with rfl | h
      · refine Or.inr (Or.inl ⟨?_, head, List.mem_cons_self, hfield, ?_⟩)
        · split <;> exact hfield
        · split <;> exact ⟨rfl, rfl⟩
      · refine Or.inl ⟨List.mem_cons_of_mem _ h, fun heq => hnames.1 ?_⟩
        rw [hfield, ← heq]
        exact List.mem_map_of_mem h
    · rw [if_neg hfield] at h
      rcases List.mem_cons.mp h with rfl | h
      · exact Or.inl ⟨List.mem_cons_self, hfield⟩
      · rcases ih hnames.2 h with ⟨hmem, hne⟩ | ⟨hsame, before, hmem, hbefore⟩ | ⟨hfresh, heq⟩
        · exact Or.inl ⟨List.mem_cons_of_mem _ hmem, hne⟩
        · exact Or.inr (Or.inl ⟨hsame, before, List.mem_cons_of_mem _ hmem, hbefore⟩)
        · refine Or.inr (Or.inr ⟨?_, heq⟩)
          rw [List.map_cons, List.mem_cons, not_or]
          exact ⟨fun heq => hfield heq.symm, hfresh⟩

/-! ## The fold -/

namespace Merging.Merges

variable {plans : List FieldPlan} {merging : Merging} {plan : FieldPlan}

theorem nil : Merging.Merges [] {} :=
  ⟨by simp, by simp, by simp, by simp, by simp, by simp [plansNamed]⟩

/-- The plans of a name other than that of a new plan stay the same. -/
theorem plansNamed_of_ne {name : String} (hne : plan.shape.name ≠ name) :
    plansNamed (plans ++ [plan]) name = plansNamed plans name := by
  rw [plansNamed_append, plansNamed_singleton_of_ne hne, List.append_nil]

theorem plansNamed_self :
    plansNamed (plans ++ [plan]) plan.shape.name
      = plansNamed plans plan.shape.name ++ [plan] := by
  rw [plansNamed_append, plansNamed_singleton_self]

/-- A plan with a new name is kept. -/
theorem addNew (h : merging.Merges plans)
    (hnew : ∀ kept ∈ merging.kept, kept.shape.name ≠ plan.shape.name) :
    { merging with kept := merging.kept ++ [plan] }.Merges (plans ++ [plan]) := by
  have hnone : plansNamed plans plan.shape.name = [] := by
    refine List.filter_eq_nil_iff.mpr fun other hother hname => ?_
    obtain ⟨kept, hkept, hsame⟩ := h.complete other hother
    exact hnew kept hkept (hsame.trans (by simpa using hname))
  have hother : ∀ {name}, (plansNamed plans name).length ≠ 0 →
      plansNamed (plans ++ [plan]) name = plansNamed plans name := by
    intro name hlength
    refine plansNamed_of_ne fun heq => hlength ?_
    rw [← heq, hnone, List.length_nil]
  refine ⟨?_, fun kept hkept => ?_, fun other hmem => ?_, h.entryNames, fun entry hentry => ?_,
    fun name hlength => ?_⟩
  · rw [List.map_append, List.nodup_append]
    refine ⟨h.names, by simp, ?_⟩
    intro name hname other hmem heq
    obtain ⟨kept, hkept, rfl⟩ := List.mem_map.mp hname
    rw [List.map_singleton, List.mem_singleton] at hmem
    exact hnew kept hkept (heq.trans hmem)
  · rcases List.mem_append.mp hkept with hkept | hkept
    · obtain ⟨first, rest, hnamed, hfrom⟩ := h.kept kept hkept
      exact ⟨first, rest, by rw [hother (by simp [hnamed]), hnamed], hfrom⟩
    · rw [List.mem_singleton.mp hkept]
      exact ⟨plan, [], by rw [plansNamed_self, hnone, List.nil_append], .refl plan, by simp⟩
  · rcases List.mem_append.mp hmem with hmem | hmem
    · obtain ⟨kept, hkept, hname⟩ := h.complete other hmem
      exact ⟨kept, List.mem_append_left _ hkept, hname⟩
    · exact ⟨plan, by simp, by rw [List.mem_singleton.mp hmem]⟩
  · obtain ⟨hcompanion, hlength, hsources⟩ := h.entries entry hentry
    have hsame : plansNamed (plans ++ [plan]) entry.field = plansNamed plans entry.field :=
      hother (by omega)
    exact ⟨hcompanion, by rw [hsame]; exact hlength, by rw [originsOf_eq, hsame]; exact hsources⟩
  · by_cases hname : plan.shape.name = name
    · rw [← hname, plansNamed_self, hnone] at hlength
      simp at hlength
    · rw [plansNamed_of_ne hname] at hlength
      exact h.merged name hlength

/-- A plan whose name is taken is merged into the kept one. -/
theorem addMerged (h : merging.Merges plans) {kept : FieldPlan} (hkept : kept ∈ merging.kept)
    (hname : kept.shape.name = plan.shape.name) (hcompatible : incompatibility? kept plan = none) :
    Merging.Merges (plans ++ [plan])
      { kept := addStepTo plan.shape.name (.merge plan.originPath) merging.kept
        entries := addOrigin plan.shape.name kept.originPath plan.originPath merging.entries } := by
  obtain ⟨first, rest, hnamed, hfrom, hrest⟩ := h.kept kept hkept
  rw [hname] at hnamed
  have hself : plansNamed (plans ++ [plan]) plan.shape.name = first :: (rest ++ [plan]) := by
    rw [plansNamed_self, hnamed, List.cons_append]
  refine ⟨?_, fun other hother => ?_, fun other hother => ?_, ?_, fun entry hentry => ?_,
    fun name hlength => ?_⟩
  · rw [map_name_addStepTo]
    exact h.names
  · obtain ⟨before, hbefore, hstep⟩ := mem_addStepTo hother
    obtain ⟨first', rest', hnamed', hfrom', hrest'⟩ := h.kept before hbefore
    have hsame : other.shape.name = before.shape.name ∧ other.KeptFrom first' := by
      rcases hstep with rfl | rfl
      · exact ⟨rfl, hfrom'⟩
      · exact ⟨rfl, hfrom'.addMerge _⟩
    rw [hsame.1]
    by_cases hplan : plan.shape.name = before.shape.name
    · rw [← hplan] at hnamed' ⊢
      obtain ⟨rfl, rfl⟩ := List.cons.inj (hnamed.symm.trans hnamed')
      refine ⟨first, rest ++ [plan], hself, hsame.2, fun other hother => ?_⟩
      rcases List.mem_append.mp hother with hother | hother
      · exact hrest other hother
      · rw [List.mem_singleton.mp hother, ← hfrom.incompatibility?]
        exact hcompatible
    · exact ⟨first', rest', by rw [plansNamed_of_ne hplan, hnamed'], hsame.2, hrest'⟩
  · have hnames := map_name_addStepTo plan.shape.name (.merge plan.originPath) merging.kept
    have hmem : other.shape.name ∈ merging.kept.map (·.shape.name) := by
      rcases List.mem_append.mp hother with hother | hother
      · obtain ⟨found, hfound, heq⟩ := h.complete other hother
        exact List.mem_map.mpr ⟨found, hfound, heq⟩
      · rw [List.mem_singleton.mp hother]
        exact List.mem_map.mpr ⟨kept, hkept, hname⟩
    rw [← hnames] at hmem
    exact List.mem_map.mp hmem
  · rw [map_field_addOrigin]
    split
    · exact h.entryNames
    · next hfresh =>
      refine List.nodup_append.mpr ⟨h.entryNames, by simp, fun name hmem other hother heq => ?_⟩
      rw [List.mem_singleton.mp hother] at heq
      exact hfresh (heq ▸ hmem)
  · rcases mem_addOrigin h.entryNames hentry with ⟨hmem, hne⟩ | ⟨hfield, before, hmem, hbefore,
      hcompanion, hsources⟩ | ⟨hfresh, rfl⟩
    · obtain ⟨hcompanion, hlength, hsources⟩ := h.entries entry hmem
      have hsame : plansNamed (plans ++ [plan]) entry.field = plansNamed plans entry.field :=
        plansNamed_of_ne hne.symm
      exact ⟨hcompanion, by rw [hsame]; exact hlength, by rw [originsOf_eq, hsame]; exact hsources⟩
    · obtain ⟨hcompanion', -, hsources'⟩ := h.entries before hmem
      rw [hbefore] at hcompanion' hsources'
      refine ⟨by rw [hfield, hcompanion, hcompanion'], by rw [hfield, hself]; simp, ?_⟩
      rw [hfield, originsOf_eq, plansNamed_self, List.map_append, List.map_singleton,
        eraseDups_append_singleton, hsources, hsources', originsOf_eq]
      simp [List.mem_eraseDups]
    · refine ⟨rfl, by rw [hself]; simp, ?_⟩
      have hrest : rest = [] := by
        by_contra hne
        have hlength : 1 < (plansNamed plans plan.shape.name).length := by
          rw [hnamed, List.length_cons]
          have := List.length_pos_iff.mpr hne
          omega
        obtain ⟨entry, hentry, hfield⟩ := h.merged _ hlength
        exact hfresh (List.mem_map.mpr ⟨entry, hentry, hfield⟩)
      rw [originsOf_eq, hself, hrest, hfrom.originPath]
      by_cases heq : plan.originPath = first.originPath
      · simp [heq, List.eraseDups_cons]
      · simp [heq, List.eraseDups_cons]
  · have hnames := map_field_addOrigin plan.shape.name kept.originPath plan.originPath
      merging.entries
    suffices hmem : name ∈ (addOrigin plan.shape.name kept.originPath plan.originPath
        merging.entries).map (·.field) from List.mem_map.mp hmem
    by_cases hplan : plan.shape.name = name
    · rw [hnames, ← hplan]
      split
      · assumption
      · simp
    · rw [plansNamed_of_ne hplan] at hlength
      have hmem : name ∈ merging.entries.map (·.field) := List.mem_map.mpr (h.merged name hlength)
      rw [hnames]
      split
      · exact hmem
      · exact List.mem_append_left _ hmem

theorem add {message : String} {all : List FieldPlan} {after : Merging} (h : merging.Merges plans)
    (hadd : merging.add message all plan = .ok after) : after.Merges (plans ++ [plan]) := by
  rw [Merging.add] at hadd
  split at hadd
  · next hnone =>
    rw [← Except.ok.inj hadd]
    exact h.addNew fun kept hkept => by simpa using List.find?_eq_none.mp hnone kept hkept
  · next kept hfound =>
    split at hadd
    · exact absurd hadd (by simp)
    · next hcompatible =>
      rw [← Except.ok.inj hadd]
      exact h.addMerged (List.mem_of_find?_eq_some hfound) (by simpa using List.find?_some hfound)
        hcompatible

/-- Plans without a shared name are all kept. -/
theorem of_noCollision (h : firstCollision? plans = none) : Merging.Merges plans ⟨plans, []⟩ := by
  have hlength : ∀ plan ∈ plans, (plansNamed plans plan.shape.name).length ≤ 1 := by
    intro plan hplan
    have hnone := List.find?_eq_none.mp h plan hplan
    rw [originsOf_eq, List.length_map] at hnone
    simpa using hnone
  have hself : ∀ plan ∈ plans, plansNamed plans plan.shape.name = [plan] := by
    intro plan hplan
    have hmem : plan ∈ plansNamed plans plan.shape.name := List.mem_filter.mpr ⟨hplan, by simp⟩
    obtain ⟨first, hfirst⟩ := List.length_eq_one_iff.mp
      (Nat.le_antisymm (hlength plan hplan) (List.length_pos_of_mem hmem))
    rw [hfirst] at hmem ⊢
    rw [List.mem_singleton.mp hmem]
  refine ⟨?_, fun plan hplan => ?_, fun plan hplan => ⟨plan, hplan, rfl⟩, by simp, by simp, ?_⟩
  · refine List.nodup_iff_count_le_one.mpr fun name => ?_
    by_cases hname : name ∈ plans.map (·.shape.name)
    · obtain ⟨plan, hplan, rfl⟩ := List.mem_map.mp hname
      have := hlength plan hplan
      rw [plansNamed, ← List.countP_eq_length_filter] at this
      rw [List.count, List.countP_map]
      exact this
    · rw [List.count_eq_zero_of_not_mem hname]
      exact Nat.zero_le 1
  · exact ⟨plan, [], hself plan hplan, .refl plan, by simp⟩
  · intro name hname
    obtain ⟨plan, hplan⟩ := List.exists_mem_of_length_pos (by omega : 0 < (plansNamed plans name).length)
    obtain ⟨hplan, heq⟩ := List.mem_filter.mp hplan
    have hle := hlength plan hplan
    have heq : plan.shape.name = name := by simpa using heq
    rw [heq] at hle
    omega

end Merging.Merges

/-! ## The order of the kept plans -/

/-- The kept plans were kept in the order of the plans. -/
def Merging.KeepsOrder (plans : List FieldPlan) (merging : Merging) : Prop :=
  ∃ firsts, firsts.Sublist plans ∧ List.Forall₂ FieldPlan.KeptFrom merging.kept firsts

namespace Merging.KeepsOrder

theorem nil : Merging.KeepsOrder [] {} :=
  ⟨[], List.Sublist.refl [], .nil⟩

theorem addStepTo {kept firsts : List FieldPlan} (h : List.Forall₂ FieldPlan.KeptFrom kept firsts)
    (name origin : String) :
    List.Forall₂ FieldPlan.KeptFrom (Merging.addStepTo name (.merge origin) kept) firsts := by
  induction h with
  | nil => exact .nil
  | cons hfrom hrest ih =>
    rw [Merging.addStepTo]
    split
    · exact .cons (hfrom.addMerge origin) hrest
    · exact .cons hfrom ih

theorem add {message : String} {plans all : List FieldPlan} {merging after : Merging}
    {plan : FieldPlan} (h : merging.KeepsOrder plans) (hadd : merging.add message all plan = .ok after) :
    after.KeepsOrder (plans ++ [plan]) := by
  obtain ⟨firsts, hsub, hfrom⟩ := h
  rw [Merging.add] at hadd
  split at hadd
  · rw [← Except.ok.inj hadd]
    exact ⟨firsts ++ [plan], hsub.append (List.Sublist.refl _),
      List.rel_append hfrom (.cons (.refl plan) .nil)⟩
  · split at hadd
    · exact absurd hadd (by simp)
    · rw [← Except.ok.inj hadd]
      exact ⟨firsts, hsub.trans (List.sublist_append_left _ _), addStepTo hfrom _ _⟩

end Merging.KeepsOrder

/-! ## Resolved collisions -/

/-- The plans that are left when collisions are resolved: the kept ones, each with its companion
behind it if it was merged.  They were kept in the order of the plans. -/
theorem resolveCollisions_eq_ok_ordered {message : String} {plans merged : List FieldPlan}
    {enableCrf : Bool} {entries : List CrfEntry}
    (h : resolveCollisions message plans enableCrf = .ok (merged, entries)) :
    ∃ kept groups, Merging.Merges plans ⟨kept, entries⟩ ∧ merged = groups.flatten ∧
      List.Forall₂ (fun plan group =>
        Merging.withCompanion message ⟨kept, entries⟩ plan = .ok group) kept groups ∧
      Merging.KeepsOrder plans ⟨kept, entries⟩ := by
  rw [resolveCollisions] at h
  split at h
  · obtain ⟨merging, hmerging, h⟩ := bind_eq_ok.mp h
    obtain ⟨groups, hgroups, h⟩ := bind_eq_ok.mp h
    obtain ⟨rfl, rfl⟩ := Prod.mk.inj (Except.ok.inj h)
    obtain ⟨hmerges, hordered⟩ := foldlM_prefix
      (fun met (merging : Merging) => merging.Merges met ∧ merging.KeepsOrder met) ⟨.nil, .nil⟩
      (fun met plan before after hbefore hadd => ⟨hbefore.1.add hadd, hbefore.2.add hadd⟩) hmerging
    exact ⟨merging.kept, groups, hmerges, rfl, mapM_eq_ok.mp hgroups, hordered⟩
  · split at h
    · next hnone =>
      obtain ⟨rfl, rfl⟩ := Prod.mk.inj (Except.ok.inj h)
      refine ⟨plans, plans.map fun plan => [plan], .of_noCollision hnone, ?_, ?_,
        plans, List.Sublist.refl plans, List.forall₂_same.mpr fun plan _ => .refl plan⟩
      · rw [← List.flatMap_def, List.flatMap_singleton']
      · rw [List.forall₂_map_right_iff]
        exact List.forall₂_same.mpr fun plan _ => rfl
    · exact absurd h (by simp)

theorem resolveCollisions_eq_ok {message : String} {plans merged : List FieldPlan}
    {enableCrf : Bool} {entries : List CrfEntry}
    (h : resolveCollisions message plans enableCrf = .ok (merged, entries)) :
    ∃ kept groups, Merging.Merges plans ⟨kept, entries⟩ ∧ merged = groups.flatten ∧
      List.Forall₂ (fun plan group =>
        Merging.withCompanion message ⟨kept, entries⟩ plan = .ok group) kept groups := by
  obtain ⟨kept, groups, hmerges, hmerged, hgroups, -⟩ := resolveCollisions_eq_ok_ordered h
  exact ⟨kept, groups, hmerges, hmerged, hgroups⟩

theorem withCompanion_eq_ok {message : String} {merging : Merging} {plan : FieldPlan}
    {group : List FieldPlan} (h : merging.withCompanion message plan = .ok group) :
    group = [plan] ∨ ∃ entry ∈ merging.entries, entry.field = plan.shape.name ∧
      group = [plan, companionPlan entry.field] := by
  rw [Merging.withCompanion] at h
  split at h
  · exact Or.inl (Except.ok.inj h).symm
  · next entry hentry =>
    split at h
    · exact absurd h (by simp)
    · exact Or.inr ⟨entry, List.mem_of_find?_eq_some hentry, by simpa using List.find?_some hentry,
        (Except.ok.inj h).symm⟩

/-- What no companion satisfies is satisfied by the kept plans alone. -/
theorem filter_flatten_of_companion {message : String} {merging : Merging}
    {kept : List FieldPlan} {groups : List (List FieldPlan)}
    (h : List.Forall₂ (fun plan group => merging.withCompanion message plan = .ok group)
      kept groups) {p : FieldPlan → Bool} (hp : ∀ field, p (companionPlan field) = false) :
    groups.flatten.filter p = kept.filter p := by
  induction h with
  | nil => rfl
  | cons hgroup _ ih =>
    rw [List.flatten_cons, List.filter_append, ih, List.filter_cons]
    rcases withCompanion_eq_ok hgroup with rfl | ⟨entry, -, -, rfl⟩
    · split <;> simp_all
    · have hcompanion := hp entry.field
      split <;> simp_all

/-- A companion has no way back, so the plans with a way back are kept plans, in their order. -/
theorem filter_isReversible_flatten {message : String} {merging : Merging}
    {kept : List FieldPlan} {groups : List (List FieldPlan)}
    (h : List.Forall₂ (fun plan group => merging.withCompanion message plan = .ok group)
      kept groups) :
    groups.flatten.filter (·.isReversible) = kept.filter (·.isReversible) :=
  filter_flatten_of_companion h fun _ => rfl

end PlainSchema
