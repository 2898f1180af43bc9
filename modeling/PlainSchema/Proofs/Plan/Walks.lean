import PlainSchema.Plan.Build
import PlainSchema.Proofs.Plan.Inlining
import PlainSchema.Proofs.Plan.Leaves
import PlainSchema.Proofs.Schema.Valid

/-!
# Walks over the fields of a message

A walk goes over the fields of a message, and over those of the messages that are inlined on the way,
and ends at leaves: `Walk`.  It says nothing about plans, and it has one outcome, `Walk.unique`.

In a schema without errors every walk ends, since no message is inlined into itself, and **flattening
makes one plan for each leaf, in the order of the leaves**: `InlineChain.exists_walk` for a field, and
`exists_walk_memberPlans` for a member of a dissolved oneof.
-/

namespace PlainSchema

open Proto PlanContext

/-! ## Leaves -/

/-- A field where a walk ends, and the fields on the way to it whose messages are inlined, outermost
first, each with the message that declares it. -/
structure Leaf where
  hops : List (SourceMessage × SourceField) := []
  owner : SourceMessage
  field : SourceField

namespace Leaf

/-- A leaf of an inlined message as a leaf of the message that inlines it. -/
def under (m : SourceMessage) (field : SourceField) (leaf : Leaf) : Leaf :=
  { leaf with hops := (m, field) :: leaf.hops }

/-- The names of the fields that lead to a leaf, and its own. -/
def path (leaf : Leaf) : List String :=
  leaf.hops.map (·.2.name) ++ [leaf.field.name]

/-- The outermost field whose message is inlined. -/
def embedSource (leaf : Leaf) : Option FieldRef :=
  leaf.hops.head?.map fun hop => hop.1.refTo hop.2

/-- What the hops with a prefix put in front of the name of a leaf. -/
def namePrefix (leaf : Leaf) : String :=
  String.join (leaf.hops.map fun hop =>
    if hop.2.options.embedWithPrefix then hop.2.name ++ "_" else "")

/-- A plan stands for a leaf below a scope. -/
structure PlannedBelow (scope : Scope) (leaf : Leaf) (plan : FieldPlan) : Prop where
  source : plan.source = some (leaf.owner.refTo leaf.field)
  name : plan.shape.name = scope.namePrefix ++ leaf.namePrefix ++ leaf.field.name
  path : plan.origin.sourcePath = scope.path ++ leaf.path
  embedSource : plan.origin.embedSource = (scope.embedSource <|> leaf.embedSource)
  isReversible : plan.isReversible

end Leaf

/-- A walk over fields of a message ends at some leaves, in order.  The messages of the fields that
satisfy a condition are inlined, and from there on those of the fields that embed. -/
inductive Walk (schema : Schema) :
    (SourceField → Bool) → SourceMessage → List SourceField → List Leaf → Prop
  | nil {inlines : SourceField → Bool} {m : SourceMessage} : Walk schema inlines m [] []
  | leaf {inlines : SourceField → Bool} {m : SourceMessage} {field : SourceField}
      {fields : List SourceField} {leaves : List Leaf} (hkept : inlines field = false)
      (hrest : Walk schema inlines m fields leaves) :
      Walk schema inlines m (field :: fields) ({ owner := m, field } :: leaves)
  | inlined {inlines : SourceField → Bool} {m target : SourceMessage} {field : SourceField}
      {fields : List SourceField} {inner leaves : List Leaf} (hinlines : inlines field)
      (htarget : field.typeRef.bind schema.message? = some target)
      (hinner : Walk schema (·.options.embeds) target target.fields inner)
      (hrest : Walk schema inlines m fields leaves) :
      Walk schema inlines m (field :: fields) (inner.map (·.under m field) ++ leaves)

namespace Walk

variable {schema : Schema} {inlines : SourceField → Bool} {m : SourceMessage}
  {fields more : List SourceField} {leaves others : List Leaf}

/-- A walk ends at the same leaves every time. -/
theorem unique (h : Walk schema inlines m fields leaves) (h' : Walk schema inlines m fields others) :
    leaves = others := by
  induction h generalizing others with
  | nil => cases h'; rfl
  | leaf hkept hrest ih =>
    cases h' with
    | leaf _ hrest' => rw [ih hrest']
    | inlined hinlines => exact absurd hinlines (by simp [hkept])
  | inlined hinlines htarget hinner hrest ihInner ih =>
    cases h' with
    | leaf hkept _ => exact absurd hinlines (by simp [hkept])
    | inlined _ htarget' hinner' hrest' =>
      obtain rfl := Option.some.inj (htarget.symm.trans htarget')
      rw [ihInner hinner', ih hrest']

theorem append (h : Walk schema inlines m fields leaves) (h' : Walk schema inlines m more others) :
    Walk schema inlines m (fields ++ more) (leaves ++ others) := by
  induction h with
  | nil => exact h'
  | leaf hkept _ ih => exact .leaf hkept (ih h')
  | inlined hinlines htarget hinner _ _ ih =>
    rw [List.append_assoc]
    exact .inlined hinlines htarget hinner (ih h')

/-- It matters only which of the fields are inlined. -/
theorem congr {inlines' : SourceField → Bool} (h : Walk schema inlines m fields leaves)
    (hsame : ∀ field ∈ fields, inlines' field = inlines field) :
    Walk schema inlines' m fields leaves := by
  induction h generalizing inlines' with
  | nil => exact .nil
  | leaf hkept _ ih =>
    rw [List.forall_mem_cons] at hsame
    exact .leaf (hsame.1.trans hkept) (ih hsame.2)
  | inlined hinlines htarget hinner _ _ ih =>
    rw [List.forall_mem_cons] at hsame
    exact .inlined (hsame.1.trans hinlines) htarget hinner (ih hsame.2)

/-- A walk over a field whose message is inlined. -/
theorem into {target : SourceMessage} {field : SourceField} {inner : List Leaf}
    (hinlines : inlines field) (htarget : field.typeRef.bind schema.message? = some target)
    (hinner : Walk schema (·.options.embeds) target target.fields inner) :
    Walk schema inlines m [field] (inner.map (·.under m field)) := by
  have hwalk := Walk.inlined (m := m) hinlines htarget hinner .nil
  rwa [List.append_nil] at hwalk

/-- Where every field has a walk and plans for its leaves, so have all fields together. -/
theorem exists_of_fields {f : SourceField → List FieldPlan} {r : Leaf → FieldPlan → Prop}
    (h : ∀ field ∈ fields, ∃ leaves, Walk schema inlines m [field] leaves ∧
      List.Forall₂ r leaves (f field)) :
    ∃ leaves, Walk schema inlines m fields leaves ∧ List.Forall₂ r leaves (fields.flatMap f) := by
  induction fields with
  | nil => exact ⟨[], .nil, .nil⟩
  | cons field fields ih =>
    obtain ⟨first, hfirst, hplans⟩ := h field List.mem_cons_self
    obtain ⟨rest, hrest, hmore⟩ := ih fun f hf => h f (List.mem_cons_of_mem _ hf)
    exact ⟨first ++ rest, hfirst.append hrest, List.rel_append hplans hmore⟩

end Walk

/-! ## The plans of a walk -/

section Plans

variable {ctx : PlanContext} {m : SourceMessage} {field : SourceField} {scope : Scope}
  {leaf : Leaf} {plan : FieldPlan}

theorem plannedBelow_valuePlan (ctx : PlanContext) (m : SourceMessage) (field : SourceField)
    (scope : Scope) :
    Leaf.PlannedBelow scope { owner := m, field } (ctx.valuePlan m field scope) := by
  have hcopied : Leaf.PlannedBelow scope { owner := m, field } (copyPlan m field scope) := by
    refine ⟨rfl, ?_, rfl, ?_, rfl⟩
    · change scope.namePrefix ++ field.name = scope.namePrefix ++ "" ++ field.name
      rw [String.append_empty]
    · change scope.embedSource = (scope.embedSource <|> none)
      rw [Option.orElse_eq_orElse, Option.orElse_eq_or, Option.or_none]
  rw [valuePlan]
  split
  · exact { hcopied with }
  · split
    · exact { hcopied with }
    · split
      · exact { hcopied with }
      · exact hcopied

/-- A field that is not inlined is a leaf itself. -/
theorem plannedBelow_planField (ctx : PlanContext) (m : SourceMessage) (field : SourceField)
    (scope : Scope) :
    Leaf.PlannedBelow scope { owner := m, field } (ctx.planField m field scope) := by
  have hvalue := plannedBelow_valuePlan ctx m field scope
  rw [planField]
  split
  · exact { hvalue with }
  · exact hvalue

/-- A plan below the scope of an inlined message, as a plan below the scope of the field that inlines
it. -/
theorem Leaf.PlannedBelow.under
    (h : leaf.PlannedBelow (innerScope m field scope field.options.embedWithPrefix) plan)
    (step : Step) : (leaf.under m field).PlannedBelow scope (plan.addStep step) := by
  refine ⟨h.source, ?_, ?_, ?_, h.isReversible⟩
  · change plan.shape.name = scope.namePrefix
      ++ String.join ((if field.options.embedWithPrefix then field.name ++ "_" else "")
          :: leaf.hops.map fun hop => if hop.2.options.embedWithPrefix then hop.2.name ++ "_" else "")
      ++ leaf.field.name
    rw [String.join_cons, h.name, innerScope, Leaf.namePrefix]
    split <;> simp [String.append_assoc]
  · rw [FieldPlan.addStep, h.path, innerScope, List.append_assoc]
    rfl
  · rw [FieldPlan.addStep, h.embedSource, innerScope]
    cases scope.embedSource <;> rfl

theorem isInlined_eq_embeds (hvalid : field.Valid ctx.schema m) :
    isInlined field = field.options.embeds := by
  rw [isInlined]
  cases hembeds : field.options.embeds with
  | false => rfl
  | true =>
    have hserialize : field.options.serialize = false := by
      simpa [hembeds] using hvalid.exclusive
    simp [hserialize, (hvalid.embedded hembeds).1]

theorem exists_message_of_isEmbeddable (h : field.typeRef.any ctx.isEmbeddable) :
    ∃ target, field.typeRef.bind ctx.schema.message? = some target := by
  cases href : field.typeRef with
  | none => simp [href] at h
  | some ref =>
    rw [href, Option.any_some, isEmbeddable, Bool.and_eq_true] at h
    obtain ⟨target, htarget, -⟩ := (Option.any_eq_true _ _).mp h.2
    exact ⟨target, htarget⟩

end Plans

/-! ## Walks end -/

/-- Whether the message of a member of a dissolved oneof is inlined: where the member asks for it, and
wherever else that is possible. -/
def Schema.inlinesMember (schema : Schema) (member : SourceField) : Bool :=
  member.options.embeds ||
    (member.kind == .message && !member.options.serialize &&
      member.typeRef.any (PlanContext.isEmbeddable { schema }))

section Ends

variable {ctx : PlanContext} {root m : SourceMessage} {planned : Bool} {chain : List String}
  {field : SourceField} (hroot : root ∈ ctx.schema.messages) (hgenerate : root.options.generate)
  (hdots : ctx.schema.HasDottedRefs)
  (hfindings : ∀ finding ∈ ctx.schema.findings, ¬ finding.isError)

include hroot hgenerate hdots hfindings

/-- The plans of an inlined field are those of the leaves in its message, if the plans of all fields of
the message are those of their leaves. -/
theorem InlineChain.exists_walk_inlined (h : InlineChain ctx root planned m chain)
    (hinlines : Inlines ctx planned m field) {inlines : SourceField → Bool} (hcondition : inlines field)
    {next : SourceMessage} (hnext : field.typeRef.bind ctx.schema.message? = some next) (scope : Scope)
    (hfields : ∀ scope, ∀ f ∈ next.fields, ∃ leaves,
      Walk ctx.schema (·.options.embeds) next [f] leaves ∧
        List.Forall₂ (Leaf.PlannedBelow scope) leaves (ctx.flattenField next f scope)) :
    ∃ leaves, Walk ctx.schema inlines m [field] leaves ∧
      List.Forall₂ (Leaf.PlannedBelow scope) leaves
        (ctx.embedField m field scope field.options.embedWithPrefix) := by
  have hnone := Schema.not_hasEmbedCycle hdots hfindings
  rw [h.embedField_eq hroot hgenerate hdots hnone hinlines, inlined, hnext]
  dsimp only
  obtain ⟨inner, hinner, hplans⟩ := Walk.exists_of_fields
    (hfields (innerScope m field scope field.options.embedWithPrefix))
  refine ⟨inner.map (·.under m field), .into hcondition hnext hinner, ?_⟩
  rw [← List.map_flatMap]
  refine List.forall₂_map_left_iff.mpr (List.forall₂_map_right_iff.mpr (hplans.imp ?_))
  exact fun leaf plan hplanned => hplanned.under _

/-- A field of an inlined message is flattened to its leaves.  The chain of inlined messages that leads
to it grows with every hop and is never longer than the list of all messages. -/
theorem InlineChain.exists_walk (h : InlineChain ctx root planned m chain) (hfield : field ∈ m.fields)
    (scope : Scope) :
    ∃ leaves, Walk ctx.schema (·.options.embeds) m [field] leaves ∧
      List.Forall₂ (Leaf.PlannedBelow scope) leaves (ctx.flattenField m field scope) := by
  have hnone := Schema.not_hasEmbedCycle hdots hfindings
  induction hfuel : ctx.schema.messages.length - chain.length using Nat.strong_induction_on
    generalizing planned m chain field scope with
  | _ fuel ih =>
    have hm := h.embedChain.mem_messages hroot
    have hvalid := Schema.valid_field hfindings hm hfield
    rw [flattenField, isInlined_eq_embeds hvalid]
    split
    · next hembeds =>
      have hinlines : Inlines ctx planned m field :=
        .embedded hfield (by rw [isInlined_eq_embeds hvalid]; exact hembeds)
      obtain ⟨next, hnext⟩ := (hvalid.embedded hembeds).2.2
      have hchain := h.step hinlines hnext
      have hlength := hchain.length_le hroot hgenerate hdots hnone
      rw [List.length_append, List.length_singleton] at hlength
      refine h.exists_walk_inlined hroot hgenerate hdots hfindings hinlines hembeds hnext scope ?_
      intro scope f hf
      refine ih _ ?_ hchain hf scope rfl
      rw [List.length_append, List.length_singleton]
      omega
    · next hkept =>
      exact ⟨[{ owner := m, field }], .leaf (by simpa using hkept) .nil,
        .cons (plannedBelow_planField ctx m field scope) .nil⟩

/-- A member of a dissolved oneof is flattened to its leaves. -/
theorem exists_walk_memberPlans {index : Nat} (hmember : field ∈ root.oneofFields index)
    (hstrategy : root.strategy index = .embedOnly ∨ root.strategy index = .enumDispatch)
    (oneof namePrefix : String) :
    ∃ leaves, Walk ctx.schema ctx.schema.inlinesMember root [field] leaves ∧
      List.Forall₂ (Leaf.PlannedBelow { namePrefix }) leaves
        (ctx.memberPlans root oneof namePrefix field) := by
  have hfield := (mem_oneofFields.mp hmember).1
  have hstart : InlineChain ctx root true root [root.fullName] := .start
  let scope : Scope := { Scope.member oneof field.name with namePrefix }
  have hcondition : ctx.schema.inlinesMember field = (field.options.embeds ||
      (decide (field.kind = .message) && !field.options.serialize
        && field.typeRef.any ctx.isEmbeddable)) :=
    rfl
  rw [memberPlans]
  split
  · next hembeddable =>
    rw [hembeddable, Bool.or_true] at hcondition
    rw [Bool.and_eq_true, Bool.and_eq_true, decide_eq_true_iff, Bool.not_eq_true'] at hembeddable
    obtain ⟨⟨hkind, hserialize⟩, hembeddable⟩ := hembeddable
    have hinlines : Inlines ctx true root field :=
      .member hmember hstrategy ⟨hkind, by simp [hserialize], hembeddable⟩
    obtain ⟨next, hnext⟩ := exists_message_of_isEmbeddable hembeddable
    obtain ⟨leaves, hwalk, hplans⟩ := hstart.exists_walk_inlined hroot hgenerate hdots hfindings
      hinlines hcondition hnext scope fun scope f hf =>
        (hstart.step hinlines hnext).exists_walk hroot hgenerate hdots hfindings hf scope
    exact ⟨leaves, hwalk, hplans.imp fun leaf plan hplanned => { hplanned with }⟩
  · next hkept =>
    obtain ⟨leaves, hwalk, hplans⟩ :=
      hstart.exists_walk hroot hgenerate hdots hfindings hfield scope
    rw [Bool.not_eq_true] at hkept
    rw [hkept, Bool.or_false] at hcondition
    refine ⟨leaves, hwalk.congr (by simpa using hcondition), ?_⟩
    exact List.forall₂_map_right_iff.mpr (hplans.imp fun leaf plan hplanned => { hplanned with })

end Ends

end PlainSchema
