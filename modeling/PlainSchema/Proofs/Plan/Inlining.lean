import PlainSchema.Plan.Expand
import PlainSchema.Proofs.Schema.CycleFindings

/-!
# Inlining ends

Planning inlines the messages that fields embed, and those of the members of dissolved oneofs, one
inside the other: `InlineChain`.  Every message that is inlined is one that validation follows,
`InlineChain.embedChain`, so a schema without errors has only chains without repetitions,
`InlineChain.nodup`.  The bound on the levels of inlining is then never met: a field of such a chain
is inlined as if there were none, `InlineChain.embedField_eq`.
-/

namespace PlainSchema

open Proto PlanContext

/-- A field whose message is inlined.  Oneof members count in the planned message only. -/
inductive Inlines (ctx : PlanContext) : Bool → SourceMessage → SourceField → Prop
  | embedded {planned : Bool} {m : SourceMessage} {field : SourceField} (hfield : field ∈ m.fields)
      (hinlined : isInlined field) : Inlines ctx planned m field
  | member {m : SourceMessage} {field : SourceField} {index : Nat}
      (hfield : field ∈ m.oneofFields index)
      (hstrategy : m.strategy index = .embedOnly ∨ m.strategy index = .enumDispatch)
      (hinlined : field.kind = .message ∧ ¬ field.options.serialize ∧
        field.typeRef.any ctx.isEmbeddable) : Inlines ctx true m field

/-- The messages from a planned one to one that is inlined into it. -/
inductive InlineChain (ctx : PlanContext) (root : SourceMessage) :
    Bool → SourceMessage → List String → Prop
  | start : InlineChain ctx root true root [root.fullName]
  | step {planned : Bool} {m next : SourceMessage} {chain : List String} {field : SourceField}
      (hchain : InlineChain ctx root planned m chain) (hinlines : Inlines ctx planned m field)
      (hnext : field.typeRef.bind ctx.schema.message? = some next) :
      InlineChain ctx root false next (chain ++ [next.fullName])

/-- What a field is replaced by when its message is inlined, with no bound on the levels. -/
def PlanContext.inlined (ctx : PlanContext) (m : SourceMessage) (field : SourceField) (scope : Scope)
    (prefixed : Bool) : List FieldPlan :=
  match field.typeRef.bind ctx.schema.message? with
  | none => []
  | some target =>
    let inner := innerScope m field scope prefixed
    target.fields.flatMap fun f =>
      (ctx.flattenField target f inner).map (·.addStep (.embed field.name inner.namePrefix))

/-! ## Fields that are inlined -/

theorem mem_oneofFields {m : SourceMessage} {index : Nat} {field : SourceField} :
    field ∈ m.oneofFields index ↔ field ∈ m.fields ∧ field.oneofIndex = some index := by
  simp [SourceMessage.oneofFields]

/-- The members of a oneof that is embedded or dispatched are inlined. -/
theorem SourceMessage.inlinesOneofOf_of_strategy {m : SourceMessage} {index : Nat}
    {field : SourceField} (hindex : field.oneofIndex = some index)
    (h : m.strategy index = .embedOnly ∨ m.strategy index = .enumDispatch) :
    m.inlinesOneofOf field := by
  rw [strategy] at h
  rw [inlinesOneofOf, hindex]
  cases honeof : m.oneof? index with
  | none => simp [honeof] at h
  | some oneof =>
    simp only [honeof, Option.any_some] at h ⊢
    split at h
    · simp at h
    · next hnatural =>
      split at h
      · next hdispatches => simp [hnatural, hdispatches]
      · split at h
        · next hembeds => simp [hnatural, hembeds]
        · split at h <;> simp at h

/-- Validation follows every field whose message is inlined. -/
theorem Inlines.mem_embedEdges {ctx : PlanContext} {planned : Bool} {m : SourceMessage}
    {field : SourceField} (h : Inlines ctx planned m field) {target : String}
    (href : field.typeRef = some target) : (field.name, target) ∈ m.embedEdges planned := by
  rw [PlainSchema.mem_embedEdges]
  cases h with
  | embedded hfield hinlined =>
    simp only [isInlined, Bool.and_eq_true, beq_iff_eq] at hinlined
    exact ⟨field, hfield, rfl, href, hinlined.2, Or.inl hinlined.1.1⟩
  | member hfield hstrategy hinlined =>
    obtain ⟨hfield, hindex⟩ := mem_oneofFields.mp hfield
    exact ⟨field, hfield, rfl, href, hinlined.1,
      Or.inr ⟨rfl, SourceMessage.inlinesOneofOf_of_strategy hindex hstrategy⟩⟩

/-! ## Chains of inlined messages -/

namespace InlineChain

variable {ctx : PlanContext} {root m : SourceMessage} {planned : Bool} {chain : List String}
  {field : SourceField}

theorem embedChain (h : InlineChain ctx root planned m chain) :
    EmbedChain ctx.schema root planned m chain := by
  induction h with
  | start => exact .start
  | step _ hinlines hnext ih =>
    obtain ⟨target, href, hnext⟩ := Option.bind_eq_some_iff.mp hnext
    exact ih.step (hinlines.mem_embedEdges href) hnext

/-- In a schema without cycles no message is inlined into itself. -/
theorem nodup (h : InlineChain ctx root planned m chain) (hroot : root ∈ ctx.schema.messages)
    (hgenerate : root.options.generate) (hdots : ctx.schema.HasDottedRefs)
    (hnone : ¬ ctx.schema.HasEmbedCycle) : chain.Nodup := by
  rcases h.embedChain.nodup_or_closes hroot hdots with hnodup | ⟨planned, m, chain, hchain, -, hcloses⟩
  · exact hnodup
  · exact absurd ⟨root, hroot, hgenerate, planned, m, chain, hchain, hcloses⟩ hnone

theorem length_le (h : InlineChain ctx root planned m chain) (hroot : root ∈ ctx.schema.messages)
    (hgenerate : root.options.generate) (hdots : ctx.schema.HasDottedRefs)
    (hnone : ¬ ctx.schema.HasEmbedCycle) : chain.length ≤ ctx.schema.messages.length :=
  h.embedChain.length_le hroot (h.nodup hroot hgenerate hdots hnone)

section Acyclic

variable (hroot : root ∈ ctx.schema.messages) (hgenerate : root.options.generate)
  (hdots : ctx.schema.HasDottedRefs) (hnone : ¬ ctx.schema.HasEmbedCycle)

include hroot hgenerate hdots hnone

/-- One level more makes no difference when the levels reach to the end of every chain. -/
theorem embedWithin_succ (h : InlineChain ctx root planned m chain)
    (hinlines : Inlines ctx planned m field) {levels : Nat}
    (hlevels : ctx.schema.messages.length - chain.length ≤ levels) (scope : Scope)
    (prefixed : Bool) :
    ctx.embedWithin levels m field scope prefixed
      = ctx.embedWithin (levels + 1) m field scope prefixed := by
  induction levels generalizing planned m chain field scope prefixed with
  | zero =>
    rw [embedWithin, embedWithin]
    cases hnext : field.typeRef.bind ctx.schema.message? with
    | none => rfl
    | some next =>
      have hlength := (h.step hinlines hnext).length_le hroot hgenerate hdots hnone
      rw [List.length_append, List.length_singleton] at hlength
      omega
  | succ levels ih =>
    rw [embedWithin, embedWithin]
    cases hnext : field.typeRef.bind ctx.schema.message? with
    | none => rfl
    | some next =>
      refine List.flatMap_congr fun f hf => ?_
      split
      · next hinlined =>
        rw [ih (h.step hinlines hnext) (.embedded hf hinlined)]
        rw [List.length_append, List.length_singleton]
        omega
      · rfl

/-- Every field of a chain is inlined as if there were no bound. -/
theorem embedField_eq (h : InlineChain ctx root planned m chain)
    (hinlines : Inlines ctx planned m field) (scope : Scope) (prefixed : Bool) :
    ctx.embedField m field scope prefixed = ctx.inlined m field scope prefixed := by
  rw [embedField, embedWithin, inlined]
  cases hnext : field.typeRef.bind ctx.schema.message? with
  | none => rfl
  | some next =>
    refine List.flatMap_congr fun f hf => ?_
    rw [flattenField]
    split
    · next hinlined =>
      have hchain := h.step hinlines hnext
      have hlevels := hchain.embedWithin_succ hroot hgenerate hdots hnone (.embedded hf hinlined)
        (Nat.sub_le _ _)
      rw [hlevels, embedField]
    · rfl

end Acyclic

end InlineChain

/-- A schema without errors has no cycles of embedded messages. -/
theorem Schema.not_hasEmbedCycle {schema : Schema} (hdots : schema.HasDottedRefs)
    (hfindings : ∀ finding ∈ schema.findings, ¬ finding.isError) : ¬ schema.HasEmbedCycle := by
  intro hcycle
  obtain ⟨finding, hfinding, herror, -⟩ := (schema.reportsCycle_iff hdots).mpr hcycle
  exact hfindings finding hfinding herror

/-! ## Both together -/

/-- **Embed cycles are found exactly, so inlining ends.**  The search for cycles makes no call on a
chain longer than the list of messages and does what the search without a bound does.  It reports a
cycle exactly if from some generated message a chain of embedded messages leads back into itself, and
everything that it reports is such a cycle.  In a schema without errors inlining then goes no deeper
than the list of messages is long, and its bound makes no difference. -/
theorem embedCycles_found_exactly {schema : Schema} (hdots : schema.HasDottedRefs) :
    (∀ root ∈ schema.messages, ∀ planned m chain, SearchCall schema root planned m chain →
      chain.length ≤ schema.messages.length ∧
        schema.embedCyclesOn planned m chain
          = (m.embedEdges planned).flatMap fun edge => schema.embedCyclesAcross m chain (fun next =>
              schema.embedCyclesOn false next (chain ++ [next.fullName])) edge.1 edge.2) ∧
    ((∃ finding ∈ schema.findings, finding.isError ∧ IsCycleText finding.message) ↔
      schema.HasEmbedCycle) ∧
    (∀ finding ∈ schema.findings, IsCycleText finding.message →
      ∃ cycle : EmbedCycle, finding = cycle.finding ∧
        ∃ root ∈ schema.messages, root.options.generate ∧ cycle.IsCycle schema root) ∧
    ((∀ finding ∈ schema.findings, ¬ finding.isError) →
      ∀ root ∈ schema.messages, root.options.generate → ∀ overrides planned m chain,
        InlineChain ⟨schema, overrides⟩ root planned m chain →
          chain.length ≤ schema.messages.length ∧
            ∀ field, Inlines ⟨schema, overrides⟩ planned m field → ∀ scope prefixed,
              PlanContext.embedField ⟨schema, overrides⟩ m field scope prefixed
                = PlanContext.inlined ⟨schema, overrides⟩ m field scope prefixed) := by
  refine ⟨fun root hroot planned m chain hcall => ?_, schema.reportsCycle_iff hdots,
    fun finding hfinding htext => ?_,
    fun hfindings root hroot hgenerate overrides planned m chain hchain => ?_⟩
  · obtain ⟨hchain, hnodup⟩ := hcall.embedChain hroot hdots
    exact ⟨hchain.length_le hroot hnodup, hchain.embedCyclesOn_eq hroot hnodup⟩
  · obtain ⟨cycle, hcycle, hfinding⟩ := Schema.exists_cycle_of_isCycleText hfinding htext
    exact ⟨cycle, hfinding, Schema.isCycle_of_mem_embedCycles hdots hcycle⟩
  · have hnone := Schema.not_hasEmbedCycle hdots hfindings
    exact ⟨hchain.length_le hroot hgenerate hdots hnone, fun field hinlines =>
      hchain.embedField_eq hroot hgenerate hdots hnone hinlines⟩

/-- Two messages that embed each other. -/
def mutualSchema : Schema where
  messages :=
    [{ fullName := ".p.Outer", name := "Outer", file := "p.proto", options := { generate := true }
       fields := [{ name := "inner", number := 1, kind := .message, typeRef := some ".p.Inner"
                    options := { embed := true } }] },
      { fullName := ".p.Inner", name := "Inner", file := "p.proto"
        fields := [{ name := "outer", number := 1, kind := .message, typeRef := some ".p.Outer"
                     options := { embed := true } }] }]

theorem mutualSchema_hasEmbedCycle : mutualSchema.HasDottedRefs ∧
    Diagnostic.error ".p.Inner.outer" "embed cycle: .p.Outer -> .p.Inner -> .p.Outer"
      ∈ mutualSchema.findings ∧ mutualSchema.HasEmbedCycle := by
  have hdots : mutualSchema.HasDottedRefs := by decide +kernel
  have hfinding : Diagnostic.error ".p.Inner.outer"
      "embed cycle: .p.Outer -> .p.Inner -> .p.Outer" ∈ mutualSchema.findings := by
    decide +kernel
  exact ⟨hdots, hfinding, (embedCycles_found_exactly hdots).2.1.mp
    ⟨_, hfinding, rfl, by decide +kernel⟩⟩

end PlainSchema
