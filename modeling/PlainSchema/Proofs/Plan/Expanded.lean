import PlainSchema.Proofs.Plan.Planned

/-!
# Plans that belong to fields

The plans that the fields of a message are replaced by belong to fields.  Where the plans of two fields
never clash, and those of one field do not, no two plans of the message do: `separates_expandFields`.

A field is met once, but a oneof that is dissolved takes **all its members when the first of them is
met**.  So the fold over the fields keeps an account of the fields that plans may belong to by now,
`Expanding.Takes`, and the next field, or the next oneof, is not among them.
-/

namespace PlainSchema

open Proto

section Separation

variable {p : FieldPlan → Bool} {R : FieldPlan → FieldPlan → Prop}
  {Of : SourceField → FieldPlan → Prop}

/-- Plans of different fields do not clash. -/
def KeepsApart (R : FieldPlan → FieldPlan → Prop) (Of : SourceField → FieldPlan → Prop)
    (fields : List SourceField) : Prop :=
  ∀ first ∈ fields, ∀ second ∈ fields, first ≠ second → ∀ a b, Of first a → Of second b → R a b

/-- Of the plans that count, each belongs to one of some fields, and no two of them clash. -/
structure SeparatesFields (p : FieldPlan → Bool) (R : FieldPlan → FieldPlan → Prop)
    (Of : SourceField → FieldPlan → Prop) (fields : List SourceField) (plans : List FieldPlan) :
    Prop where
  apart : (plans.filter p).Pairwise R
  owned : ∀ plan ∈ plans, p plan → ∃ field ∈ fields, Of field plan

namespace SeparatesFields

variable {fields : List SourceField} {plans : List FieldPlan}

theorem of_owned {field : SourceField} (happart : (plans.filter p).Pairwise R)
    (howned : ∀ plan ∈ plans, p plan → Of field plan) : SeparatesFields p R Of [field] plans :=
  ⟨happart, fun plan hplan hp => ⟨field, List.mem_singleton_self field, howned plan hplan hp⟩⟩

theorem of_uncounted (h : ∀ plan ∈ plans, p plan = false) : SeparatesFields p R Of fields plans := by
  refine ⟨?_, fun plan hplan hp => absurd hp (by rw [h plan hplan]; exact Bool.false_ne_true)⟩
  rw [List.filter_eq_nil_iff.mpr fun plan hplan => by simp [h plan hplan]]
  exact List.Pairwise.nil

theorem cons_uncounted {plan : FieldPlan} (hplan : p plan = false)
    (h : SeparatesFields p R Of fields plans) : SeparatesFields p R Of fields (plan :: plans) := by
  refine ⟨?_, fun other hother hp => ?_⟩
  · rw [List.filter_cons_of_neg (by simp [hplan])]
    exact h.apart
  · rcases List.mem_cons.mp hother with rfl | hother
    · rw [hplan] at hp
      exact absurd hp Bool.false_ne_true
    · exact h.owned other hother hp

/-- Plans of different fields go together. -/
theorem flatMap {g : SourceField → List FieldPlan} (hnodup : fields.Nodup)
    (hclash : KeepsApart R Of fields)
    (h : ∀ field ∈ fields, SeparatesFields p R Of [field] (g field)) :
    SeparatesFields p R Of fields (fields.flatMap g) := by
  have howned : ∀ field ∈ fields, ∀ plan ∈ g field, p plan → Of field plan := by
    intro field hfield plan hplan hp
    obtain ⟨owner, howner, hof⟩ := (h field hfield).owned plan hplan hp
    rwa [List.mem_singleton.mp howner] at hof
  constructor
  · rw [List.filter_flatMap]
    refine List.pairwise_flatMap.mpr ⟨fun field hfield => (h field hfield).apart, ?_⟩
    refine hnodup.imp_of_mem fun {first second} hfirst hsecond hne a ha b hb => ?_
    rw [List.mem_filter] at ha hb
    exact hclash first hfirst second hsecond hne a b (howned first hfirst a ha.1 ha.2)
      (howned second hsecond b hb.1 hb.2)
  · intro plan hplan hp
    obtain ⟨field, hfield, hplan⟩ := List.mem_flatMap.mp hplan
    exact ⟨field, hfield, howned field hfield plan hplan hp⟩

end SeparatesFields

variable {ctx : PlanContext} {m : SourceMessage} {newFullName : String}

/-- The plans in place of a dissolved oneof belong to its members.  The fields that serve the oneof as
a whole do not count. -/
theorem separates_expand (hnodup : m.fields.Nodup) (hclash : KeepsApart R Of m.fields)
    (hrole : ∀ name kind oneof role step typeRef enums,
      p (oneofFieldPlan name kind oneof role step typeRef enums) = false)
    {index : Nat} (hmember : m.strategy index ≠ .discriminatorOnly → ∀ member ∈ m.oneofFields index,
      ∀ oneof namePrefix, SeparatesFields p R Of [member] (ctx.memberPlans m oneof namePrefix member)) :
    SeparatesFields p R Of (m.oneofFields index)
      (ctx.expand m index (m.strategy index) newFullName).fields := by
  have hmembers : m.strategy index ≠ .discriminatorOnly → ∀ oneof isPrefixed,
      SeparatesFields p R Of (m.oneofFields index) (ctx.membersPlans m index oneof isPrefixed) := by
    intro hstrategy oneof isPrefixed
    refine SeparatesFields.flatMap (hnodup.filter _) (fun first hfirst second hsecond => ?_)
      fun member hmem => hmember hstrategy member hmem _ _
    exact hclash first (List.mem_filter.mp hfirst).1 second (List.mem_filter.mp hsecond).1
  cases hstrategy : m.strategy index with
  | untouched => exact SeparatesFields.of_uncounted (by simp [PlanContext.expand])
  | discriminatorOnly =>
    exact .of_uncounted
      (List.forall_mem_cons.mpr ⟨hrole .., List.forall_mem_singleton.mpr (hrole ..)⟩)
  | embedOnly => exact hmembers (by simp [hstrategy]) _ _
  | enumDispatch => exact (hmembers (by simp [hstrategy]) _ _).cons_uncounted (hrole ..)

/-! ## The fields of a message -/

/-- Plans may belong to a field by now: it was met, or its oneof was dissolved. -/
def Expanding.Takes (m : SourceMessage) (met : List SourceField) (e : Expanding)
    (field : SourceField) : Prop :=
  field ∈ met ∨ ∃ i, field.oneofIndex = some i ∧ (m.strategy i).flattens ∧
    (e.oneofs.lookup i).isSome

/-- The plans made so far belong to fields that were taken. -/
structure Expanding.Separates (p : FieldPlan → Bool) (R : FieldPlan → FieldPlan → Prop)
    (Of : SourceField → FieldPlan → Prop) (m : SourceMessage) (met : List SourceField)
    (e : Expanding) : Prop where
  apart : (e.plans.filter p).Pairwise R
  owned : ∀ plan ∈ e.plans, p plan → ∃ field ∈ m.fields, Of field plan ∧ e.Takes m met field
  dissolved : ∀ field ∈ met, ∀ i, field.oneofIndex = some i → (m.strategy i).flattens →
    (e.oneofs.lookup i).isSome

namespace Expanding

variable {met : List SourceField} {e : Expanding} {field : SourceField}

/-- A field that was taken stays taken. -/
theorem Takes.mono {other : SourceField} (h : e.Takes m met field) {after : Expanding}
    (honeofs : ∀ i, (e.oneofs.lookup i).isSome → (after.oneofs.lookup i).isSome) :
    after.Takes m (met ++ [other]) field := by
  rcases h with hmet | ⟨i, hi, hflattens, hlookup⟩
  · exact Or.inl (List.mem_append_left _ hmet)
  · exact Or.inr ⟨i, hi, hflattens, honeofs i hlookup⟩

namespace Separates

/-- After plans of fields that were not taken before. -/
theorem add (h : e.Separates p R Of m met) (hclash : KeepsApart R Of m.fields)
    {fields : List SourceField} (hfields : fields ⊆ m.fields)
    (hopen : ∀ f ∈ fields, ¬ e.Takes m met f) {plans : List FieldPlan}
    (hplans : SeparatesFields p R Of fields plans) {after : Expanding}
    (hafter : after.plans = e.plans ++ plans)
    (honeofs : ∀ i, (e.oneofs.lookup i).isSome → (after.oneofs.lookup i).isSome)
    (htakes : ∀ f ∈ fields, after.Takes m (met ++ [field]) f)
    (hdissolves : ∀ i, field.oneofIndex = some i → (m.strategy i).flattens →
      (after.oneofs.lookup i).isSome) : after.Separates p R Of m (met ++ [field]) := by
  refine ⟨?_, fun plan hplan hp => ?_, fun other hother i hi hflattens => ?_⟩
  · rw [hafter, List.filter_append, List.pairwise_append]
    refine ⟨h.apart, hplans.apart, fun a ha b hb => ?_⟩
    rw [List.mem_filter] at ha hb
    -- An earlier plan belongs to a field that was taken, and a new one to a field that was not.
    obtain ⟨first, hfirst, hof, htaken⟩ := h.owned a ha.1 ha.2
    obtain ⟨second, hsecond, hof'⟩ := hplans.owned b hb.1 hb.2
    refine hclash first hfirst second (hfields hsecond) (fun heq => ?_) a b hof hof'
    exact hopen second hsecond (heq ▸ htaken)
  · rw [hafter] at hplan
    rcases List.mem_append.mp hplan with hplan | hplan
    · obtain ⟨owner, howner, hof, htaken⟩ := h.owned plan hplan hp
      exact ⟨owner, howner, hof, htaken.mono honeofs⟩
    · obtain ⟨owner, howner, hof⟩ := hplans.owned plan hplan hp
      exact ⟨owner, hfields howner, hof, htakes owner howner⟩
  · rcases List.mem_append.mp hother with hother | hother
    · exact honeofs i (h.dissolved other hother i hi hflattens)
    · rw [List.mem_singleton.mp hother] at hi
      exact hdissolves i hi hflattens

/-- After a field that is not in a dissolved oneof. -/
theorem addDirect (h : e.Separates p R Of m met) (hclash : KeepsApart R Of m.fields)
    (hfield : field ∈ m.fields) (hmet : field ∉ met)
    (hkept : ∀ i, field.oneofIndex = some i → (m.strategy i).flattens = false)
    {plans : List FieldPlan} (hplans : SeparatesFields p R Of [field] plans) {after : Expanding}
    (hafter : after.plans = e.plans ++ plans)
    (honeofs : ∀ i, (e.oneofs.lookup i).isSome → (after.oneofs.lookup i).isSome) :
    after.Separates p R Of m (met ++ [field]) := by
  have hclosed : ∀ i, field.oneofIndex = some i → ¬ (m.strategy i).flattens := fun i hi => by
    simp [hkept i hi]
  refine h.add hclash (by simpa using hfield) ?_ hplans hafter honeofs ?_ fun i hi hflattens =>
    absurd hflattens (hclosed i hi)
  · rw [List.forall_mem_singleton]
    rintro (hmem | ⟨i, hi, hflattens, -⟩)
    · exact hmet hmem
    · exact hclosed i hi hflattens
  · rw [List.forall_mem_singleton]
    exact Or.inl (List.mem_append_right _ (List.mem_singleton_self field))

/-- After a later field of a oneof that is dissolved. -/
theorem addKnown (h : e.Separates p R Of m met) {index : Nat} (hindex : field.oneofIndex = some index)
    (hknown : (e.oneofs.lookup index).isSome) : e.Separates p R Of m (met ++ [field]) := by
  refine ⟨h.apart, fun plan hplan hp => ?_, fun other hother i hi hflattens => ?_⟩
  · obtain ⟨owner, howner, hof, htaken⟩ := h.owned plan hplan hp
    exact ⟨owner, howner, hof, htaken.mono fun _ hsome => hsome⟩
  · rcases List.mem_append.mp hother with hother | hother
    · exact h.dissolved other hother i hi hflattens
    · rw [List.mem_singleton.mp hother, hindex] at hi
      exact Option.some.inj hi ▸ hknown

/-- After the first field of a oneof that is dissolved. -/
theorem addDissolved (h : e.Separates p R Of m met) (hclash : KeepsApart R Of m.fields)
    {index : Nat} (hindex : field.oneofIndex = some index) (hflattens : (m.strategy index).flattens)
    (hnew : e.oneofs.lookup index = none) {plans : List FieldPlan}
    (hplans : SeparatesFields p R Of (m.oneofFields index) plans) {enums : List GeneratedEnum}
    (plan : OneofPlan) : Expanding.Separates p R Of m (met ++ [field])
      ⟨e.plans ++ plans, enums, e.oneofs ++ [(index, plan)]⟩ := by
  have hof : ∀ member ∈ m.oneofFields index, member.oneofIndex = some index :=
    fun member hmember => by simpa using (List.mem_filter.mp hmember).2
  have hunknown : ¬ (e.oneofs.lookup index).isSome := by simp [hnew]
  refine h.add hclash (List.filter_subset_self _) (fun member hmember => ?_) hplans rfl
    (fun i hi => isSome_lookup_concat.mpr (Or.inl hi)) (fun member hmember => ?_) fun i hi _ => ?_
  · rintro (hmem | ⟨i, hi, -, hsome⟩)
    · exact hunknown (h.dissolved member hmem index (hof member hmember) hflattens)
    · rw [hof member hmember] at hi
      exact hunknown (Option.some.inj hi ▸ hsome)
  · exact Or.inr ⟨index, hof member hmember, hflattens, isSome_lookup_concat.mpr (Or.inr rfl)⟩
  · rw [hindex] at hi
    exact isSome_lookup_concat.mpr (Or.inr (Option.some.inj hi).symm)

/-- After one more field. -/
theorem addField (h : e.Separates p R Of m met) (hclash : KeepsApart R Of m.fields)
    (hfield : field ∈ m.fields) (hmet : field ∉ met)
    (hdirect : (∀ i, field.oneofIndex = some i → (m.strategy i).flattens = false) →
      ∀ place : FieldPlan → Option Nat, SeparatesFields p R Of [field]
        ((ctx.flattenField m field {}).map fun plan =>
          { plan with shape := { plan.shape with oneofIndex := place plan } }))
    (hexpand : ∀ index, SeparatesFields p R Of (m.oneofFields index)
      (ctx.expand m index (m.strategy index) newFullName).fields) :
    (e.addField ctx m newFullName field).Separates p R Of m (met ++ [field]) := by
  refine Expanding.addField_cases e field (fun place oneofs hkept honeofs => ?copied)
    (fun index hindex _ hknown => ?known) (fun index hindex hflattens hnew => ?dissolved)
  case copied =>
    refine h.addDirect hclash hfield hmet hkept (hdirect hkept place) rfl fun i hi => ?_
    rcases honeofs with rfl | ⟨index, newIndex, -, rfl⟩
    · exact hi
    · exact isSome_lookup_concat.mpr (Or.inl hi)
  case known => exact h.addKnown hindex hknown
  case dissolved => exact h.addDissolved hclash hindex hflattens hnew (hexpand index) _

end Separates

end Expanding

/-- No two plans that a message is replaced by clash, where those of different fields never do, and
those of one field do not. -/
theorem separates_expandFields (hnodup : m.fields.Nodup) (hclash : KeepsApart R Of m.fields)
    (hrole : ∀ name kind oneof role step typeRef enums,
      p (oneofFieldPlan name kind oneof role step typeRef enums) = false)
    (hdirect : ∀ field ∈ m.fields,
      (∀ i, field.oneofIndex = some i → (m.strategy i).flattens = false) →
      ∀ place : FieldPlan → Option Nat, SeparatesFields p R Of [field]
        ((ctx.flattenField m field {}).map fun plan =>
          { plan with shape := { plan.shape with oneofIndex := place plan } }))
    (hmember : ∀ index, m.strategy index ≠ .discriminatorOnly → ∀ member ∈ m.oneofFields index,
      ∀ oneof namePrefix, SeparatesFields p R Of [member] (ctx.memberPlans m oneof namePrefix member)) :
    SeparatesFields p R Of m.fields (expandFields ctx m newFullName).plans := by
  have hall : (expandFields ctx m newFullName).Separates p R Of m m.fields := by
    refine expandFields_induction (Expanding.Separates p R Of m) ⟨List.Pairwise.nil, by simp, by simp⟩
      fun met field rest hsplit e he => ?_
    have hfresh : field ∉ met := fun hmem =>
      (List.nodup_append.mp (hsplit ▸ hnodup)).2.2 field hmem field List.mem_cons_self rfl
    have hfield : field ∈ m.fields := hsplit ▸ List.mem_append_right _ List.mem_cons_self
    exact he.addField hclash hfield hfresh (hdirect field hfield) fun index =>
      separates_expand hnodup hclash hrole (hmember index)
  exact ⟨hall.apart, fun plan hplan hp =>
    (hall.owned plan hplan hp).imp fun field hfield => ⟨hfield.1, hfield.2.1⟩⟩

end Separation

end PlainSchema
