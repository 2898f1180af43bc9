import Mathlib.Data.List.Chain
import Mathlib.Data.List.Nodup
import Mathlib.Data.List.Perm.Subperm
import PlainSchema.Proofs.Schema.Valid

/-!
# Cycles of embedded messages

Validation searches the messages that embed one another for a chain that leads back into itself.
`EmbedChain` is the chain of messages from a generated one along embedded fields, with or without
repetitions, and a schema has a cycle if one of them can be continued with a message it already
holds, `Schema.HasEmbedCycle`.

* **The search ends.**  A chain without repetitions holds no more names than the schema has
  messages, `EmbedChain.length_le`, so the search never runs out of steps: it satisfies the
  equation of the search without a bound, `EmbedChain.embedCyclesOn_eq`.
* **What is reported is a cycle**, `EmbedChain.isCycle_of_mem`: a chain of embedded messages that
  begins and ends with the same one.
* **A cycle is reported**, `Schema.embedCycles_ne_nil`.  A chain that closes has a first repetition,
  `EmbedChain.nodup_or_closes`, and up to there the search follows it,
  `EmbedChain.embedCyclesOn_subset`.
-/

namespace PlainSchema

open Proto

/-- Every type reference of the schema begins with a dot. -/
def Schema.HasDottedRefs (schema : Schema) : Prop :=
  ∀ m ∈ schema.messages, ∀ field ∈ m.fields, ∀ type ∈ field.typeRef,
    type.toList.head? = some '.'

instance (schema : Schema) : Decidable schema.HasDottedRefs :=
  inferInstanceAs (Decidable (∀ _ ∈ _, _))

/-- The messages from a planned one along embedded fields.  The fields of the planned message itself
may also be inlined for the oneof that they belong to. -/
inductive EmbedChain (schema : Schema) (root : SourceMessage) :
    Bool → SourceMessage → List String → Prop
  | start : EmbedChain schema root true root [root.fullName]
  | step {planned : Bool} {m next : SourceMessage} {chain : List String} {field target : String}
      (hchain : EmbedChain schema root planned m chain)
      (hedge : (field, target) ∈ m.embedEdges planned)
      (hnext : schema.message? target = some next) :
      EmbedChain schema root false next (chain ++ [next.fullName])

/-- A chain whose last message embeds one that is on the chain. -/
def Closes (planned : Bool) (m : SourceMessage) (chain : List String) : Prop :=
  ∃ edge ∈ m.embedEdges planned, edge.2 ∈ chain

/-- From a generated message a chain of embedded messages leads back into itself. -/
def Schema.HasEmbedCycle (schema : Schema) : Prop :=
  ∃ root ∈ schema.messages, root.options.generate ∧ ∃ planned m chain,
    EmbedChain schema root planned m chain ∧ Closes planned m chain

/-- One message embeds another, seen from the planned message `root`. -/
def EmbedsInto (schema : Schema) (root : SourceMessage) (source target : String) : Prop :=
  ∃ (planned : Bool) (m : SourceMessage) (field : String), m.fullName = source ∧
    (field, target) ∈ m.embedEdges planned ∧
      if planned then m = root else schema.message? source = some m

/-- The chain of a cycle leads from a message along embedded fields to itself.  It is the end of a
chain from the planned message, and its subject is the field that closes it. -/
structure EmbedCycle.IsCycle (schema : Schema) (root : SourceMessage) (cycle : EmbedCycle) : Prop where
  closed : ∃ first between, cycle.chain = first :: between ++ [first]
  edges : cycle.chain.IsChain (EmbedsInto schema root)
  reached : ∃ planned m before, EmbedChain schema root planned m (before ++ cycle.chain.dropLast) ∧
    ∃ edge ∈ m.embedEdges planned, cycle.chain.getLast? = some edge.2 ∧
      cycle.subject = m.fullName ++ "." ++ edge.1

/-! ## Edges -/

theorem mem_embedEdges {m : SourceMessage} {planned : Bool} {name target : String} :
    (name, target) ∈ m.embedEdges planned ↔ ∃ field ∈ m.fields, field.name = name ∧
      field.typeRef = some target ∧ field.kind = .message ∧
      (field.options.embeds ∨ planned ∧ m.inlinesOneofOf field) := by
  rw [SourceMessage.embedEdges, List.mem_filterMap]
  refine exists_congr fun field => and_congr_right fun _ => ?_
  split
  · next hinlined =>
    rw [Bool.and_eq_true, Bool.or_eq_true, Bool.and_eq_true, decide_eq_true_iff] at hinlined
    simp [hinlined, and_comm]
  · next hkept =>
    rw [Bool.and_eq_true, Bool.or_eq_true, Bool.and_eq_true, decide_eq_true_iff] at hkept
    simp only [reduceCtorEq, false_iff]
    exact fun h => hkept h.2.2

theorem dotted_eq_self {name : String} (h : name.toList.head? = some '.') : dotted name = name := by
  rw [dotted, h]
  rfl

theorem Schema.fullName_of_message? {schema : Schema} {name : String} {m : SourceMessage}
    (h : schema.message? name = some m) : m.fullName = dotted name := by
  simpa using List.find?_some h

/-- The target of an edge has its dot, so the message that it refers to has its name. -/
theorem Schema.HasDottedRefs.fullName_of_edge {schema : Schema} (hdots : schema.HasDottedRefs)
    {m next : SourceMessage} (hm : m ∈ schema.messages) {planned : Bool} {field target : String}
    (hedge : (field, target) ∈ m.embedEdges planned) (hnext : schema.message? target = some next) :
    next.fullName = target := by
  obtain ⟨f, hf, -, href, -⟩ := mem_embedEdges.mp hedge
  rw [schema.fullName_of_message? hnext, dotted_eq_self (hdots m hm f hf target href)]

/-! ## Chains -/

namespace EmbedChain

variable {schema : Schema} {root m : SourceMessage} {planned : Bool} {chain : List String}

theorem mem_messages (h : EmbedChain schema root planned m chain) (hroot : root ∈ schema.messages) :
    m ∈ schema.messages := by
  cases h with
  | start => exact hroot
  | step _ _ hnext => exact Schema.message?_mem hnext

theorem subset (h : EmbedChain schema root planned m chain) (hroot : root ∈ schema.messages) :
    chain ⊆ schema.messages.map (·.fullName) := by
  induction h with
  | start => exact List.cons_subset.mpr ⟨List.mem_map_of_mem hroot, List.nil_subset _⟩
  | step _ _ hnext ih =>
    exact List.append_subset.mpr ⟨ih, List.cons_subset.mpr
      ⟨List.mem_map_of_mem (Schema.message?_mem hnext), List.nil_subset _⟩⟩

/-- A chain without repetitions is no longer than the list of all messages. -/
theorem length_le (h : EmbedChain schema root planned m chain) (hroot : root ∈ schema.messages)
    (hnodup : chain.Nodup) : chain.length ≤ schema.messages.length := by
  have hsub := (hnodup.subperm (h.subset hroot)).length_le
  rwa [List.length_map] at hsub

theorem getLast? (h : EmbedChain schema root planned m chain) :
    chain.getLast? = some m.fullName := by
  cases h with
  | start => rfl
  | step => exact List.getLast?_concat

/-- An edge from the end of a chain. -/
theorem embedsInto (h : EmbedChain schema root planned m chain) {field target : String}
    (hedge : (field, target) ∈ m.embedEdges planned) :
    EmbedsInto schema root m.fullName target := by
  refine ⟨planned, m, field, rfl, hedge, ?_⟩
  cases h with
  | start => rw [if_pos rfl]
  | @step _ _ _ _ _ name _ _ hnext =>
    -- The name of a message that was found leads to the message, with or without the dot.
    rw [if_neg Bool.false_ne_true, ← hnext, Schema.message?, Schema.message?,
      schema.fullName_of_message? hnext]
    have hdot : dotted (dotted name) = dotted name := by
      refine dotted_eq_self ?_
      rw [dotted]
      split
      · next hhead => simpa using hhead
      · rw [String.toList_append]
        rfl
    rw [hdot]

/-- The names of a chain follow one another along embedded fields. -/
theorem isChain (h : EmbedChain schema root planned m chain) (hroot : root ∈ schema.messages)
    (hdots : schema.HasDottedRefs) : chain.IsChain (EmbedsInto schema root) := by
  induction h with
  | start => exact .singleton _
  | step hchain hedge hnext ih =>
    refine List.isChain_append.mpr ⟨ih, .singleton _, fun source hsource target htarget => ?_⟩
    rw [hchain.getLast?, Option.mem_some_iff] at hsource
    rw [List.head?_cons, Option.mem_some_iff] at htarget
    rw [← hsource, ← htarget, hdots.fullName_of_edge (hchain.mem_messages hroot) hedge hnext]
    exact hchain.embedsInto hedge

/-- A chain has no repetitions, or an earlier one without repetitions leads back into itself. -/
theorem nodup_or_closes (h : EmbedChain schema root planned m chain)
    (hroot : root ∈ schema.messages) (hdots : schema.HasDottedRefs) :
    chain.Nodup ∨ ∃ planned m chain, EmbedChain schema root planned m chain ∧ chain.Nodup ∧
      Closes planned m chain := by
  induction h with
  | start => exact Or.inl (List.nodup_singleton _)
  | @step planned m next chain field target hchain hedge hnext ih =>
    rcases ih with hnodup | hcloses
    · have hname := hdots.fullName_of_edge (hchain.mem_messages hroot) hedge hnext
      by_cases hmet : next.fullName ∈ chain
      · exact Or.inr ⟨planned, m, chain, hchain, hnodup, (field, target), hedge, hname ▸ hmet⟩
      · refine Or.inl (List.nodup_append.mpr ⟨hnodup, List.nodup_singleton _, ?_⟩)
        intro name hmem other hother heq
        exact hmet (List.mem_singleton.mp hother ▸ heq ▸ hmem)
    · exact Or.inr hcloses

end EmbedChain

/-- A cycle that is met from a generated message is one of the schema. -/
theorem EmbedCycle.IsCycle.hasEmbedCycle {schema : Schema} {root : SourceMessage}
    {cycle : EmbedCycle} (h : cycle.IsCycle schema root) (hroot : root ∈ schema.messages)
    (hgenerate : root.options.generate) : schema.HasEmbedCycle := by
  obtain ⟨first, between, hclosed⟩ := h.closed
  obtain ⟨planned, m, before, hchain, edge, hedge, hlast, -⟩ := h.reached
  rw [hclosed, List.getLast?_concat, Option.some_inj] at hlast
  rw [hclosed, List.dropLast_concat] at hchain
  exact ⟨root, hroot, hgenerate, planned, m, _, hchain, edge, hedge,
    hlast ▸ List.mem_append_right _ List.mem_cons_self⟩

/-! ## The search -/

/-- The calls that the search from a planned message makes: it goes on to a message that is not on
the chain yet. -/
inductive SearchCall (schema : Schema) (root : SourceMessage) :
    Bool → SourceMessage → List String → Prop
  | start : SearchCall schema root true root [root.fullName]
  | step {planned : Bool} {m next : SourceMessage} {chain : List String} {field target : String}
      (hcall : SearchCall schema root planned m chain)
      (hedge : (field, target) ∈ m.embedEdges planned) (hnew : target ∉ chain)
      (hnext : schema.message? target = some next) :
      SearchCall schema root false next (chain ++ [next.fullName])

/-- The search follows chains without repetitions. -/
theorem SearchCall.embedChain {schema : Schema} {root m : SourceMessage} {planned : Bool}
    {chain : List String} (h : SearchCall schema root planned m chain)
    (hroot : root ∈ schema.messages) (hdots : schema.HasDottedRefs) :
    EmbedChain schema root planned m chain ∧ chain.Nodup := by
  induction h with
  | start => exact ⟨.start, List.nodup_singleton _⟩
  | step _ hedge hnew hnext ih =>
    obtain ⟨hchain, hnodup⟩ := ih
    refine ⟨hchain.step hedge hnext, List.nodup_append.mpr ⟨hnodup, List.nodup_singleton _, ?_⟩⟩
    intro name hname other hother heq
    rw [heq, List.mem_singleton.mp hother,
      hdots.fullName_of_edge (hchain.mem_messages hroot) hedge hnext] at hname
    exact hnew hname

/-- The cycles met from the end of a chain, with as many steps as a chain has left. -/
def Schema.embedCyclesOn (schema : Schema) (planned : Bool) (m : SourceMessage)
    (chain : List String) : List EmbedCycle :=
  schema.embedCyclesFrom (schema.messages.length + 1 - chain.length) planned m chain

/-- What the search does at one edge, given what it does at the message behind it. -/
def Schema.embedCyclesAcross (schema : Schema) (m : SourceMessage) (chain : List String)
    (search : SourceMessage → List EmbedCycle) (field target : String) : List EmbedCycle :=
  match chain.idxOf? target with
  | some start =>
    [{ subject := m.fullName ++ "." ++ field, chain := chain.drop start ++ [target] }]
  | none => ((schema.message? target).map search).getD []

theorem Schema.embedCyclesFrom_succ (schema : Schema) (steps : Nat) (planned : Bool)
    (m : SourceMessage) (chain : List String) :
    schema.embedCyclesFrom (steps + 1) planned m chain
      = (m.embedEdges planned).flatMap fun edge => schema.embedCyclesAcross m chain (fun next =>
          schema.embedCyclesFrom steps false next (chain ++ [next.fullName])) edge.1 edge.2 := by
  rw [Schema.embedCyclesFrom]
  refine List.flatMap_congr fun ⟨field, target⟩ _ => ?_
  cases hmet : chain.idxOf? target with
  | some start => simp only [Schema.embedCyclesAcross, hmet]
  | none => cases hnext : schema.message? target <;> simp [Schema.embedCyclesAcross, hmet, hnext]

namespace EmbedChain

variable {schema : Schema} {root m : SourceMessage} {planned : Bool} {chain : List String}

/-- On a chain without repetitions the bound on the steps does not show. -/
theorem embedCyclesOn_eq (h : EmbedChain schema root planned m chain)
    (hroot : root ∈ schema.messages) (hnodup : chain.Nodup) :
    schema.embedCyclesOn planned m chain
      = (m.embedEdges planned).flatMap fun edge => schema.embedCyclesAcross m chain (fun next =>
          schema.embedCyclesOn false next (chain ++ [next.fullName])) edge.1 edge.2 := by
  have hlength := h.length_le hroot hnodup
  have hsteps : schema.messages.length + 1 - chain.length
      = schema.messages.length - chain.length + 1 := by omega
  rw [Schema.embedCyclesOn, hsteps, Schema.embedCyclesFrom_succ]
  simp only [Schema.embedCyclesOn, List.length_append, List.length_singleton,
    Nat.add_sub_add_right]

/-- A target on a chain splits it. -/
theorem exists_split_of_idxOf? {target : String} {start : Nat}
    (h : chain.idxOf? target = some start) :
    ∃ before rest, chain = before ++ target :: rest ∧ chain.drop start = target :: rest := by
  obtain ⟨hlt, hget, -⟩ := List.idxOf?_eq_some_iff.mp h
  have hdrop : chain.drop start = target :: chain.drop (start + 1) := by
    rw [List.drop_eq_getElem_cons hlt, hget]
  refine ⟨chain.take start, chain.drop (start + 1), ?_, hdrop⟩
  rw [← hdrop, List.take_append_drop]

/-- What the search reports is a cycle. -/
theorem isCycle_of_mem (h : EmbedChain schema root planned m chain) (hroot : root ∈ schema.messages)
    (hdots : schema.HasDottedRefs) {steps : Nat} {cycle : EmbedCycle}
    (hcycle : cycle ∈ schema.embedCyclesFrom steps planned m chain) :
    cycle.IsCycle schema root := by
  induction steps generalizing planned m chain with
  | zero => exact absurd hcycle List.not_mem_nil
  | succ steps ih =>
    rw [Schema.embedCyclesFrom_succ] at hcycle
    obtain ⟨⟨field, target⟩, hedge, hcycle⟩ := List.mem_flatMap.mp hcycle
    rw [Schema.embedCyclesAcross] at hcycle
    split at hcycle
    · next start hstart =>
      obtain ⟨before, rest, hsplit, hdrop⟩ := exists_split_of_idxOf? hstart
      rw [List.mem_singleton.mp hcycle, hdrop]
      have hback : (chain ++ [target]).IsChain (EmbedsInto schema root) := by
        refine List.isChain_append.mpr ⟨h.isChain hroot hdots, .singleton _, ?_⟩
        intro source hsource name hname
        rw [h.getLast?, Option.mem_some_iff] at hsource
        rw [List.head?_cons, Option.mem_some_iff] at hname
        exact hsource ▸ hname ▸ h.embedsInto hedge
      rw [hsplit, List.append_assoc] at hback
      refine ⟨⟨target, rest, rfl⟩, (List.isChain_append.mp hback).2.1, planned, m, before, ?_,
        (field, target), hedge, List.getLast?_concat, rfl⟩
      rw [List.dropLast_concat, ← hsplit]
      exact h
    · cases hnext : schema.message? target with
      | none => simp [hnext] at hcycle
      | some next =>
        rw [hnext, Option.map_some, Option.getD_some] at hcycle
        exact ih (h.step hedge hnext) hcycle

/-- The search from the planned message follows every chain without repetitions. -/
theorem embedCyclesOn_subset (h : EmbedChain schema root planned m chain)
    (hroot : root ∈ schema.messages) (hdots : schema.HasDottedRefs) (hnodup : chain.Nodup) :
    schema.embedCyclesOn planned m chain ⊆ schema.embedCyclesOn true root [root.fullName] := by
  induction h with
  | start => exact List.Subset.refl _
  | @step planned m next chain field target hchain hedge hnext ih =>
    obtain ⟨hbefore, -, hnew⟩ := List.nodup_append.mp hnodup
    have hname := hdots.fullName_of_edge (hchain.mem_messages hroot) hedge hnext
    have hnone : chain.idxOf? target = none := List.idxOf?_eq_none_iff.mpr fun hmem =>
      hnew target hmem next.fullName (List.mem_singleton_self _) hname.symm
    refine List.Subset.trans (fun cycle hcycle => ?_) (ih hbefore)
    rw [hchain.embedCyclesOn_eq hroot hbefore]
    refine List.mem_flatMap.mpr ⟨(field, target), hedge, ?_⟩
    rw [Schema.embedCyclesAcross, hnone, hnext]
    exact hcycle

/-- Where a chain leads back into itself, the search reports a cycle. -/
theorem embedCyclesOn_ne_nil (h : EmbedChain schema root planned m chain)
    (hroot : root ∈ schema.messages) (hnodup : chain.Nodup) (hcloses : Closes planned m chain) :
    schema.embedCyclesOn planned m chain ≠ [] := by
  obtain ⟨⟨field, target⟩, hedge, hmet⟩ := hcloses
  obtain ⟨start, hstart⟩ := Option.isSome_iff_exists.mp (List.isSome_idxOf?.mpr hmet)
  refine List.ne_nil_of_mem
    (a := ⟨m.fullName ++ "." ++ field, chain.drop start ++ [target]⟩) ?_
  rw [h.embedCyclesOn_eq hroot hnodup]
  refine List.mem_flatMap.mpr ⟨(field, target), hedge, ?_⟩
  rw [Schema.embedCyclesAcross, hstart]
  exact List.mem_singleton_self _

end EmbedChain

namespace Schema

variable {schema : Schema}

/-- A cycle of the schema is reported. -/
theorem embedCycles_ne_nil (hdots : schema.HasDottedRefs) (h : schema.HasEmbedCycle) :
    schema.embedCycles ≠ [] := by
  obtain ⟨root, hroot, hgenerate, planned, m, chain, hchain, hcloses⟩ := h
  -- If the chain has a repetition, an earlier chain without one closes too.
  have hfirst : ∃ planned m chain, EmbedChain schema root planned m chain ∧ chain.Nodup ∧
      Closes planned m chain := by
    rcases hchain.nodup_or_closes hroot hdots with hnodup | hfirst
    · exact ⟨planned, m, chain, hchain, hnodup, hcloses⟩
    · exact hfirst
  obtain ⟨planned, m, chain, hchain, hnodup, hcloses⟩ := hfirst
  obtain ⟨cycle, hcycle⟩ :=
    List.exists_mem_of_ne_nil _ (hchain.embedCyclesOn_ne_nil hroot hnodup hcloses)
  refine List.ne_nil_of_mem (a := cycle) (List.mem_flatMap.mpr
    ⟨root, List.mem_filter.mpr ⟨hroot, hgenerate⟩, ?_⟩)
  exact hchain.embedCyclesOn_subset hroot hdots hnodup hcycle

/-- What is reported are cycles from generated messages. -/
theorem isCycle_of_mem_embedCycles (hdots : schema.HasDottedRefs) {cycle : EmbedCycle}
    (h : cycle ∈ schema.embedCycles) :
    ∃ root ∈ schema.messages, root.options.generate ∧ cycle.IsCycle schema root := by
  obtain ⟨root, hroot, hcycle⟩ := List.mem_flatMap.mp h
  obtain ⟨hroot, hgenerate⟩ := List.mem_filter.mp hroot
  exact ⟨root, hroot, hgenerate, EmbedChain.start.isCycle_of_mem hroot hdots hcycle⟩

end Schema

end PlainSchema
