import PlainSchema.Proofs.Names.Paths
import PlainSchema.Proofs.Plan.Expanded
import PlainSchema.Proofs.Plan.Leaves
import PlainSchema.Proofs.Schema.Valid

/-!
# Source paths are apart

No two Plain fields of a message are read from the same place of the source, or one from inside the
other: the paths of all candidates that have a way back are apart, `apart_candidates`.  A field that
is inlined contributes paths that begin with its name, so those of different fields part at once,
`separates_sources`.
-/

namespace PlainSchema

open Proto

/-- Plans are read from below a front, each from a place of its own. -/
structure SourcesBelow (front : List String) (plans : List FieldPlan) : Prop where
  below : ∀ plan ∈ plans, front <+: plan.origin.sourcePath
  apart : plans.Pairwise fun a b => Apart a.origin.sourcePath b.origin.sourcePath

/-- The fields of every message of a schema have names of their own. -/
def Schema.NamesFields (schema : Schema) : Prop :=
  ∀ m ∈ schema.messages, (m.fields.map (·.name)).Nodup

namespace SourcesBelow

variable {front : List String} {plans : List FieldPlan}

theorem singleton {plan : FieldPlan} (h : front <+: plan.origin.sourcePath) :
    SourcesBelow front [plan] :=
  ⟨by simpa using h, List.pairwise_singleton _ _⟩

/-- What leaves source paths alone leaves them apart. -/
theorem map (h : SourcesBelow front plans) {f : FieldPlan → FieldPlan}
    (hf : ∀ plan, (f plan).origin.sourcePath = plan.origin.sourcePath) :
    SourcesBelow front (plans.map f) := by
  constructor
  · intro plan hplan
    obtain ⟨inner, hinner, rfl⟩ := List.mem_map.mp hplan
    rw [hf]
    exact h.below inner hinner
  · refine List.pairwise_map.mpr (h.apart.imp fun {a b} hapart => ?_)
    rw [hf, hf]
    exact hapart

/-- Fields with names of their own are read from places of their own. -/
theorem flatMap {fields : List SourceField} {g : SourceField → List FieldPlan}
    (hnames : (fields.map (·.name)).Nodup)
    (h : ∀ field ∈ fields, SourcesBelow (front ++ [field.name]) (g field)) :
    SourcesBelow front (fields.flatMap g) := by
  constructor
  · intro plan hplan
    obtain ⟨field, hfield, hplan⟩ := List.mem_flatMap.mp hplan
    exact (List.prefix_append _ _).trans ((h field hfield).below plan hplan)
  · refine List.pairwise_flatMap.mpr ⟨fun field hfield => (h field hfield).apart, ?_⟩
    have hne := List.pairwise_map.mp hnames
    refine hne.imp_of_mem fun {a b} ha hb hab p hp q hq => ?_
    exact apart_of_prefix front ((h a ha).below p hp) ((h b hb).below q hq) hab

end SourcesBelow

/-! ## Inlined fields -/

section Flattening

variable {ctx : PlanContext} {m : SourceMessage} {field : SourceField}

theorem sourcesBelow_planField (scope : Scope) :
    SourcesBelow (scope.path ++ [field.name]) [ctx.planField m field scope] :=
  SourcesBelow.singleton (by rw [sourcePath_planField])

theorem sourcesBelow_embedWithin (hnames : ctx.schema.NamesFields) {levels : Nat}
    (scope : Scope) {isPrefixed : Bool} :
    SourcesBelow (scope.path ++ [field.name])
      (ctx.embedWithin levels m field scope isPrefixed) := by
  induction levels generalizing m field scope isPrefixed with
  | zero => exact ⟨by simp [PlanContext.embedWithin], by simp [PlanContext.embedWithin]⟩
  | succ levels ih =>
    rw [PlanContext.embedWithin]
    split
    · exact ⟨by simp, by simp⟩
    · next target htarget =>
      obtain ⟨ref, -, href⟩ := Option.bind_eq_some_iff.mp htarget
      refine SourcesBelow.flatMap (hnames target (Schema.message?_mem href)) fun f _ => ?_
      refine SourcesBelow.map ?_ fun plan => rfl
      split
      · exact ih (PlanContext.innerScope m field scope isPrefixed)
      · exact sourcesBelow_planField (PlanContext.innerScope m field scope isPrefixed)

theorem sourcesBelow_flattenField (hnames : ctx.schema.NamesFields) (scope : Scope) :
    SourcesBelow (scope.path ++ [field.name]) (ctx.flattenField m field scope) := by
  rw [PlanContext.flattenField]
  split
  · exact sourcesBelow_embedWithin hnames scope
  · exact sourcesBelow_planField scope

theorem sourcesBelow_memberPlans (hnames : ctx.schema.NamesFields) {oneof namePrefix : String} :
    SourcesBelow [field.name] (ctx.memberPlans m oneof namePrefix field) := by
  rw [PlanContext.memberPlans]
  split
  · exact sourcesBelow_embedWithin hnames { Scope.member oneof field.name with namePrefix }
  · have hbelow : SourcesBelow [field.name] _ := sourcesBelow_flattenField hnames (m := m)
      { Scope.member oneof field.name with namePrefix }
    exact hbelow.map fun plan => rfl

end Flattening

/-! ## The fields of a message -/

/-- A plan is read from below a field, which is in no oneof with a payload. -/
def FieldPlan.IsReadFrom (m : SourceMessage) (field : SourceField) (plan : FieldPlan) : Prop :=
  [field.name] <+: plan.origin.sourcePath ∧
    ∀ i, field.oneofIndex = some i → m.strategy i ≠ .discriminatorOnly

/-- The plans with a way back that the fields of a message are replaced by are read from the fields,
each from a place of its own. -/
theorem separates_sources {ctx : PlanContext} {m : SourceMessage} (hnames : ctx.schema.NamesFields)
    (hm : m ∈ ctx.schema.messages) (newFullName : String) :
    SeparatesFields (·.isReversible) (fun a b => Apart a.origin.sourcePath b.origin.sourcePath)
      (FieldPlan.IsReadFrom m) m.fields (expandFields ctx m newFullName).plans := by
  have hseparates : ∀ {field : SourceField} {plans : List FieldPlan},
      SourcesBelow [field.name] plans →
      (∀ i, field.oneofIndex = some i → m.strategy i ≠ .discriminatorOnly) →
      SeparatesFields (·.isReversible) (fun a b => Apart a.origin.sourcePath b.origin.sourcePath)
        (FieldPlan.IsReadFrom m) [field] plans := fun hbelow hstrategy =>
    .of_owned (hbelow.apart.filter _) fun plan hplan _ => ⟨hbelow.below plan hplan, hstrategy⟩
  refine separates_expandFields ((hnames m hm).of_map _) ?_ ?_ ?_ ?_
  · intro first hfirst second hsecond hne a b ha hb
    exact apart_of_prefix [] ha.1 hb.1 fun hname =>
      hne (List.inj_on_of_nodup_map (hnames m hm) hfirst hsecond hname)
  · intros
    rfl
  · intro field _ hkept place
    refine hseparates ?_ fun i hi heq => ?_
    · have hbelow : SourcesBelow [field.name] (ctx.flattenField m field {}) :=
        sourcesBelow_flattenField hnames {}
      exact hbelow.map fun _ => rfl
    · have hflattens := hkept i hi
      rw [heq] at hflattens
      exact absurd hflattens (by decide)
  · intro index hstrategy member hmember oneof namePrefix
    refine hseparates (sourcesBelow_memberPlans hnames) fun i hi heq => hstrategy ?_
    have hof : member.oneofIndex = some index := by simpa using (List.mem_filter.mp hmember).2
    rw [hof] at hi
    exact Option.some.inj hi ▸ heq

/-- The fields of a message that have a way back are read from places of their own. -/
theorem apart_candidates {m : SourceMessage} {schema : Schema} (hnames : schema.NamesFields)
    (hm : m ∈ schema.messages) (settings : Settings) (newFullName : String) :
    ((m.candidates schema settings newFullName).filter (·.isReversible)).Pairwise
      fun a b => Apart a.origin.sourcePath b.origin.sourcePath := by
  have hsources : SeparatesFields _ _ _ _
      (expandFields (PlanContext.ofFile schema m.file) m newFullName).plans :=
    separates_sources hnames hm newFullName
  rw [SourceMessage.candidates, List.filter_append, List.pairwise_append]
  refine ⟨hsources.apart, ?_, ?_⟩
  · have hvirtual : (m.options.virtualFields.map
        (virtualFieldPlan m newFullName settings.suffix)).filter (·.isReversible) = [] := by
      simp [List.filter_eq_nil_iff, FieldPlan.isReversible, virtualFieldPlan]
    rw [hvirtual]
    exact List.Pairwise.nil
  · intro a _ b hb
    obtain ⟨hb, hreversible⟩ := List.mem_filter.mp hb
    obtain ⟨field, -, rfl⟩ := List.mem_map.mp hb
    simp [FieldPlan.isReversible, virtualFieldPlan] at hreversible

end PlainSchema
