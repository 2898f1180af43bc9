import PlainSchema.Proofs.Plan.Planned
import PlainSchema.Proofs.Plan.Walks

/-!
# The slots of a message

The walk of a message puts leaves into slots, together with the fields that only a Plain message has,
`SourceMessage.FlattensTo`.

```text
a field on its own    its leaves
a dissolved oneof     in place of its first member: a discriminator and a payload, or the leaves of
                      all members, behind a tag if they are dispatched
the rest of a oneof   nothing
behind all of them    the virtual fields
```

In a schema without errors there is **one candidate for each slot, in the order of the slots**:
`SourceMessage.exists_flattensTo`.  The fold over the fields keeps this for the fields that it has met,
`Expanding.Fills`.
-/

namespace PlainSchema

open Proto PlanContext

/-- A place in a Plain message. -/
inductive Slot where
  /-- A leaf, behind the prefix of its oneof. -/
  | leaf (namePrefix : String) (leaf : Leaf)
  /-- A field that serves a oneof as a whole. -/
  | role (role : Role)
  | virtual (field : VirtualField)

/-- The leaf in a slot. -/
def Slot.leaf? : Slot → Option Leaf
  | .leaf _ found => some found
  | _ => none

/-- A plan is that of a slot. -/
def Slot.FilledBy : Slot → FieldPlan → Prop
  | .leaf namePrefix found, plan => found.PlannedBelow { namePrefix } plan
  | .role served, plan => plan.origin.role = some served ∧ plan.source = none
  | .virtual field, plan =>
    plan.origin.isVirtual ∧ plan.shape.name = field.name ∧ plan.source = none

/-- What the names of the members of a dissolved oneof begin with. -/
def SourceOneof.memberPrefix (oneof : SourceOneof) : String :=
  if oneof.options.embedWithPrefix || oneof.options.enumDispatchedWithPrefix then oneof.name ++ "_"
  else ""

namespace SourceMessage

/-- The oneof of a field, if it is dissolved. -/
def dissolvedIndex? (m : SourceMessage) (field : SourceField) : Option Nat :=
  field.oneofIndex.filter fun index => (m.strategy index).flattens

/-- The member of a oneof that is met first. -/
def firstMember? (m : SourceMessage) (index : Nat) : Option SourceField :=
  m.fields.find? (·.oneofIndex == some index)

/-- A dissolved oneof of a message is replaced by some slots. -/
def DissolvesInto (m : SourceMessage) (schema : Schema) (index : Nat) (slots : List Slot) : Prop :=
  let oneof := (m.oneof? index).getD { name := "" }
  let WalksTo := Walk schema schema.inlinesMember m (m.oneofFields index)
  match m.strategy index with
  | .untouched => slots = []
  | .discriminatorOnly =>
    slots = [.role (.discriminator oneof.name), .role (.payload oneof.name)]
  | .embedOnly => ∃ leaves, WalksTo leaves ∧ slots = leaves.map (.leaf oneof.memberPrefix)
  | .enumDispatch => ∃ leaves, WalksTo leaves ∧
    slots = .role (.dispatchTag oneof.name) :: leaves.map (.leaf oneof.memberPrefix)

/-- A field of a message is replaced by some slots.  The slots of a dissolved oneof stand in place of
the member that is met first. -/
def Replaces (m : SourceMessage) (schema : Schema) (field : SourceField) (slots : List Slot) :
    Prop :=
  match m.dissolvedIndex? field with
  | none => ∃ leaves, Walk schema (·.options.embeds) m [field] leaves ∧
    slots = leaves.map (.leaf "")
  | some index =>
    if m.firstMember? index = some field then m.DissolvesInto schema index slots else slots = []

/-- The walk of a message: the slots in place of its fields, and its virtual fields. -/
def FlattensTo (m : SourceMessage) (schema : Schema) (slots : List Slot) : Prop :=
  ∃ groups, List.Forall₂ (m.Replaces schema) m.fields groups ∧
    slots = groups.flatten ++ m.options.virtualFields.map .virtual

variable {schema : Schema} {m : SourceMessage} {field : SourceField} {index : Nat}
  {slots others : List Slot}

/-! ## One outcome -/

theorem DissolvesInto.unique (h : m.DissolvesInto schema index slots)
    (h' : m.DissolvesInto schema index others) : slots = others := by
  unfold DissolvesInto at h h'
  cases hstrategy : m.strategy index <;> simp only [hstrategy] at h h'
  case untouched => rw [h, h']
  case discriminatorOnly => rw [h, h']
  case embedOnly =>
    obtain ⟨leaves, hwalk, rfl⟩ := h
    obtain ⟨others, hwalk', rfl⟩ := h'
    rw [hwalk.unique hwalk']
  case enumDispatch =>
    obtain ⟨leaves, hwalk, rfl⟩ := h
    obtain ⟨others, hwalk', rfl⟩ := h'
    rw [hwalk.unique hwalk']

theorem Replaces.unique (h : m.Replaces schema field slots) (h' : m.Replaces schema field others) :
    slots = others := by
  unfold Replaces at h h'
  split at h
  · next hnone =>
    rw [hnone] at h'
    obtain ⟨leaves, hwalk, rfl⟩ := h
    obtain ⟨others, hwalk', rfl⟩ := h'
    rw [hwalk.unique hwalk']
  · next index hindex =>
    rw [hindex] at h'
    dsimp only at h'
    split at h
    · next hfirst =>
      rw [if_pos hfirst] at h'
      exact h.unique h'
    · next hlater =>
      rw [if_neg hlater] at h'
      rw [h, h']

/-- The walk of a message has one outcome. -/
theorem FlattensTo.unique (h : m.FlattensTo schema slots) (h' : m.FlattensTo schema others) :
    slots = others := by
  obtain ⟨groups, hgroups, rfl⟩ := h
  obtain ⟨groups', hgroups', rfl⟩ := h'
  have hunique : Relator.RightUnique (m.Replaces schema) := fun _ _ _ hfirst hsecond =>
    hfirst.unique hsecond
  rw [List.right_unique_forall₂' hunique hgroups hgroups']

/-! ## Leaves in slots -/

theorem mem_of_leaf?_map {namePrefix : String} {leaves : List Leaf} {leaf : Leaf}
    (h : leaf ∈ (leaves.map (Slot.leaf namePrefix)).filterMap Slot.leaf?) : leaf ∈ leaves := by
  rw [List.filterMap_map] at h
  simpa [Slot.leaf?, Function.comp_def] using h

/-- The leaves of a dissolved oneof are met on a walk over its members. -/
theorem DissolvesInto.exists_walk (h : m.DissolvesInto schema index slots) {leaf : Leaf}
    (hleaf : leaf ∈ slots.filterMap Slot.leaf?) :
    (m.strategy index = .embedOnly ∨ m.strategy index = .enumDispatch) ∧ ∃ leaves,
      Walk schema schema.inlinesMember m (m.oneofFields index) leaves ∧ leaf ∈ leaves := by
  unfold DissolvesInto at h
  cases hstrategy : m.strategy index <;> simp only [hstrategy] at h
  case untouched =>
    rw [h] at hleaf
    exact absurd hleaf List.not_mem_nil
  case discriminatorOnly =>
    rw [h] at hleaf
    exact absurd hleaf List.not_mem_nil
  case embedOnly =>
    obtain ⟨leaves, hwalk, rfl⟩ := h
    exact ⟨Or.inl rfl, leaves, hwalk, mem_of_leaf?_map hleaf⟩
  case enumDispatch =>
    obtain ⟨leaves, hwalk, rfl⟩ := h
    exact ⟨Or.inr rfl, leaves, hwalk, mem_of_leaf?_map hleaf⟩

/-- The leaves of a message are met on a walk over one of its fields, or over the members of a oneof
that is dissolved into them. -/
theorem FlattensTo.exists_walk (h : m.FlattensTo schema slots) {leaf : Leaf}
    (hleaf : leaf ∈ slots.filterMap Slot.leaf?) :
    (∃ field ∈ m.fields, ∃ leaves, Walk schema (·.options.embeds) m [field] leaves ∧ leaf ∈ leaves) ∨
      ∃ index, (m.strategy index = .embedOnly ∨ m.strategy index = .enumDispatch) ∧ ∃ leaves,
        Walk schema schema.inlinesMember m (m.oneofFields index) leaves ∧ leaf ∈ leaves := by
  obtain ⟨groups, hgroups, rfl⟩ := h
  have hvirtual : (m.options.virtualFields.map Slot.virtual).filterMap Slot.leaf? = [] := by
    simp [List.filterMap_eq_nil_iff, Slot.leaf?]
  rw [List.filterMap_append, hvirtual, List.append_nil, List.filterMap_flatten] at hleaf
  obtain ⟨_, hmem, hleaf⟩ := List.mem_flatten.mp hleaf
  obtain ⟨slots, hslots, rfl⟩ := List.mem_map.mp hmem
  obtain ⟨field, hfield, hreplaces⟩ := exists_left_of_forall₂ hgroups hslots
  unfold Replaces at hreplaces
  split at hreplaces
  · obtain ⟨leaves, hwalk, rfl⟩ := hreplaces
    exact Or.inl ⟨field, hfield, leaves, hwalk, mem_of_leaf?_map hleaf⟩
  · next index _ =>
    split at hreplaces
    · exact Or.inr ⟨index, hreplaces.exists_walk hleaf⟩
    · rw [hreplaces] at hleaf
      exact absurd hleaf List.not_mem_nil

/-! ## First members -/

theorem dissolvedIndex?_eq_some {index : Nat} (hindex : field.oneofIndex = some index)
    (hflattens : (m.strategy index).flattens) : m.dissolvedIndex? field = some index := by
  rw [dissolvedIndex?, hindex, Option.filter_some, if_pos hflattens]

theorem dissolvedIndex?_eq_none
    (hkept : ∀ index, field.oneofIndex = some index → (m.strategy index).flattens = false) :
    m.dissolvedIndex? field = none :=
  Option.filter_eq_none_iff.mpr fun index hindex => by simp [hkept index hindex]

theorem firstMember?_eq_iff {met rest : List SourceField} (hsplit : m.fields = met ++ field :: rest)
    (hnodup : m.fields.Nodup) (hindex : field.oneofIndex = some index) :
    m.firstMember? index = some field ↔ ∀ f ∈ met, f.oneofIndex ≠ some index := by
  rw [firstMember?, hsplit, List.find?_append]
  cases hfound : met.find? (·.oneofIndex == some index) with
  | none => simpa [hindex] using hfound
  | some first =>
    rw [hsplit] at hnodup
    have hmem := List.mem_of_find?_eq_some hfound
    have hne : first ≠ field := by
      rintro rfl
      exact (List.nodup_append.mp hnodup).2.2 first hmem first List.mem_cons_self rfl
    have hof : first.oneofIndex = some index := by simpa using List.find?_some hfound
    rw [Option.some_or, Option.some_inj]
    exact ⟨fun heq => absurd heq hne, fun hnone => absurd hof (hnone first hmem)⟩

end SourceMessage

/-! ## Slots and candidates -/

/-- The plans made so far are those of the slots in place of the fields met so far, and the dissolved
oneofs met so far are known. -/
structure Expanding.Fills (schema : Schema) (m : SourceMessage) (met : List SourceField)
    (e : Expanding) : Prop where
  filled : ∃ groups, List.Forall₂ (m.Replaces schema) met groups ∧
    List.Forall₂ Slot.FilledBy groups.flatten e.plans
  dissolved : ∀ index, (m.strategy index).flattens →
    ((e.oneofs.lookup index).isSome ↔ ∃ field ∈ met, field.oneofIndex = some index)

section Candidates

variable {ctx : PlanContext} {m : SourceMessage} {field : SourceField} {index : Nat}
  {met : List SourceField} {e : Expanding} (hm : m ∈ ctx.schema.messages)
  (hgenerate : m.options.generate) (hdots : ctx.schema.HasDottedRefs)
  (hfindings : ∀ finding ∈ ctx.schema.findings, ¬ finding.isError)

theorem filledBy_leaf {namePrefix : String} {leaves : List Leaf} {plans : List FieldPlan}
    (h : List.Forall₂ (Leaf.PlannedBelow { namePrefix }) leaves plans) :
    List.Forall₂ Slot.FilledBy (leaves.map (.leaf namePrefix)) plans :=
  List.forall₂_map_left_iff.mpr h

include hm hgenerate hdots hfindings

/-- What a dissolved oneof is expanded to fills the slots that the oneof is replaced by. -/
theorem exists_dissolvesInto (hflattens : (m.strategy index).flattens) (newFullName : String) :
    ∃ slots, m.DissolvesInto ctx.schema index slots ∧
      List.Forall₂ Slot.FilledBy slots (ctx.expand m index (m.strategy index) newFullName).fields := by
  have hmembers : m.strategy index = .embedOnly ∨ m.strategy index = .enumDispatch →
      ∀ oneof : SourceOneof, ∃ leaves,
        Walk ctx.schema ctx.schema.inlinesMember m (m.oneofFields index) leaves ∧
          List.Forall₂ Slot.FilledBy (leaves.map (.leaf oneof.memberPrefix))
            (ctx.membersPlans m index oneof
              (oneof.options.embedWithPrefix || oneof.options.enumDispatchedWithPrefix)) := by
    intro hstrategy oneof
    obtain ⟨leaves, hwalk, hplans⟩ := Walk.exists_of_fields fun member hmember =>
      exists_walk_memberPlans hm hgenerate hdots hfindings hmember hstrategy oneof.name
        oneof.memberPrefix
    exact ⟨leaves, hwalk, filledBy_leaf hplans⟩
  unfold SourceMessage.DissolvesInto
  cases hstrategy : m.strategy index with
  | untouched => rw [hstrategy] at hflattens; exact absurd hflattens (by decide)
  | discriminatorOnly => exact ⟨_, rfl, .cons ⟨rfl, rfl⟩ (.cons ⟨rfl, rfl⟩ .nil)⟩
  | embedOnly =>
    obtain ⟨leaves, hwalk, hplans⟩ := hmembers (Or.inl hstrategy) _
    exact ⟨_, ⟨leaves, hwalk, rfl⟩, hplans⟩
  | enumDispatch =>
    obtain ⟨leaves, hwalk, hplans⟩ := hmembers (Or.inr hstrategy) _
    exact ⟨_, ⟨leaves, hwalk, rfl⟩, .cons ⟨rfl, rfl⟩ hplans⟩

/-- What a field on its own is flattened to fills the slots that it is replaced by, wherever a copied
oneof stands. -/
theorem exists_replaces_of_kept (hfield : field ∈ m.fields) (hkept : m.dissolvedIndex? field = none)
    {place : FieldPlan → FieldPlan}
    (hplace : ∀ (leaf : Leaf) plan, leaf.PlannedBelow {} plan → leaf.PlannedBelow {} (place plan)) :
    ∃ slots, m.Replaces ctx.schema field slots ∧
      List.Forall₂ Slot.FilledBy slots ((ctx.flattenField m field {}).map place) := by
  have hstart : InlineChain ctx m true m [m.fullName] := .start
  obtain ⟨leaves, hwalk, hplans⟩ := hstart.exists_walk hm hgenerate hdots hfindings hfield {}
  refine ⟨leaves.map (.leaf ""), ?_, filledBy_leaf ?_⟩
  · rw [SourceMessage.Replaces, hkept]
    exact ⟨leaves, hwalk, rfl⟩
  · exact List.forall₂_map_right_iff.mpr (hplans.imp hplace)

namespace Expanding.Fills

omit hm hgenerate hdots hfindings in
/-- After a field whose plans fill the slots that it is replaced by. -/
theorem append (h : e.Fills ctx.schema m met) {slots : List Slot}
    (hslots : m.Replaces ctx.schema field slots) {plans : List FieldPlan}
    (hplans : List.Forall₂ Slot.FilledBy slots plans) {oneofs : List (Nat × OneofPlan)}
    {enums : List GeneratedEnum}
    (honeofs : ∀ index, (m.strategy index).flattens → ((oneofs.lookup index).isSome ↔
      (e.oneofs.lookup index).isSome ∨ field.oneofIndex = some index)) :
    Expanding.Fills ctx.schema m (met ++ [field]) ⟨e.plans ++ plans, enums, oneofs⟩ := by
  obtain ⟨groups, hgroups, hfilled⟩ := h.filled
  refine ⟨⟨groups ++ [slots], List.rel_append hgroups (.cons hslots .nil), ?_⟩, fun index hindex => ?_⟩
  · rw [List.flatten_append, List.flatten_singleton]
    exact List.rel_append hfilled hplans
  · rw [honeofs index hindex, h.dissolved index hindex]
    simp [or_and_right, exists_or]

/-- After a field on its own, with the oneof that it is copied with if there is one. -/
theorem addKept (h : e.Fills ctx.schema m met) (hfield : field ∈ m.fields)
    (hkept : m.dissolvedIndex? field = none) {place : FieldPlan → FieldPlan}
    (hplace : ∀ (leaf : Leaf) plan, leaf.PlannedBelow {} plan → leaf.PlannedBelow {} (place plan))
    {oneofs : List (Nat × OneofPlan)} {enums : List GeneratedEnum}
    (honeofs : ∀ index, (m.strategy index).flattens →
      (oneofs.lookup index).isSome = (e.oneofs.lookup index).isSome) :
    Expanding.Fills ctx.schema m (met ++ [field])
      ⟨e.plans ++ (ctx.flattenField m field {}).map place, enums, oneofs⟩ := by
  obtain ⟨slots, hslots, hplans⟩ :=
    exists_replaces_of_kept hm hgenerate hdots hfindings hfield hkept hplace
  refine h.append hslots hplans fun index hindex => ?_
  have hnot : field.oneofIndex ≠ some index := by
    intro hof
    simp [SourceMessage.dissolvedIndex?, hof, hindex] at hkept
  rw [honeofs index hindex]
  simp [hnot]

omit hm hgenerate hdots hfindings in
/-- After a later member of a dissolved oneof, which nothing replaces. -/
theorem addKnown (h : e.Fills ctx.schema m met) {rest : List SourceField}
    (hsplit : m.fields = met ++ field :: rest) (hnodup : m.fields.Nodup)
    (hindex : field.oneofIndex = some index) (hflattens : (m.strategy index).flattens)
    (hknown : (e.oneofs.lookup index).isSome) : e.Fills ctx.schema m (met ++ [field]) := by
  obtain ⟨other, hother, hof⟩ := (h.dissolved index hflattens).mp hknown
  have hlater : m.firstMember? index ≠ some field := fun hfirst =>
    (SourceMessage.firstMember?_eq_iff hsplit hnodup hindex).mp hfirst other hother hof
  have hslots : m.Replaces ctx.schema field [] := by
    rw [SourceMessage.Replaces, SourceMessage.dissolvedIndex?_eq_some hindex hflattens]
    dsimp only
    rw [if_neg hlater]
  have hfills : Expanding.Fills ctx.schema m (met ++ [field]) { e with plans := e.plans ++ [] } := by
    refine h.append hslots .nil fun i _ => ?_
    rw [hindex, Option.some_inj]
    exact ⟨Or.inl, fun hor => hor.elim id fun heq => heq ▸ hknown⟩
  rwa [List.append_nil] at hfills

/-- After the first member of a dissolved oneof, whose slots stand in its place. -/
theorem addDissolved (h : e.Fills ctx.schema m met) {rest : List SourceField}
    (hsplit : m.fields = met ++ field :: rest) (hnodup : m.fields.Nodup)
    (hindex : field.oneofIndex = some index) (hflattens : (m.strategy index).flattens)
    (hnew : e.oneofs.lookup index = none) (newFullName : String) {enums : List GeneratedEnum}
    (plan : OneofPlan) : Expanding.Fills ctx.schema m (met ++ [field])
      ⟨e.plans ++ (ctx.expand m index (m.strategy index) newFullName).fields, enums,
        e.oneofs ++ [(index, plan)]⟩ := by
  obtain ⟨slots, hslots, hplans⟩ :=
    exists_dissolvesInto hm hgenerate hdots hfindings hflattens newFullName
  have hfirst : m.firstMember? index = some field :=
    (SourceMessage.firstMember?_eq_iff hsplit hnodup hindex).mpr fun other hother hof => by
      have hknown := (h.dissolved index hflattens).mpr ⟨other, hother, hof⟩
      rw [hnew] at hknown
      exact Bool.false_ne_true hknown
  have hreplaces : m.Replaces ctx.schema field slots := by
    rw [SourceMessage.Replaces, SourceMessage.dissolvedIndex?_eq_some hindex hflattens]
    dsimp only
    rwa [if_pos hfirst]
  refine h.append hreplaces hplans fun i _ => ?_
  rw [isSome_lookup_concat, hindex, Option.some_inj, eq_comm (a := i)]

/-- After one more field. -/
theorem addField (h : e.Fills ctx.schema m met) {rest : List SourceField}
    (hsplit : m.fields = met ++ field :: rest) (hnodup : m.fields.Nodup) (newFullName : String) :
    (e.addField ctx m newFullName field).Fills ctx.schema m (met ++ [field]) := by
  have hfield : field ∈ m.fields := hsplit ▸ List.mem_append_right _ List.mem_cons_self
  refine Expanding.addField_cases e field (fun place oneofs hkept honeofs => ?copied)
    (fun index hindex hflattens hknown => ?known) (fun index hindex hflattens hnew => ?dissolved)
  case copied =>
    have hplace : ∀ (leaf : Leaf) plan, leaf.PlannedBelow {} plan → leaf.PlannedBelow {}
        { plan with shape := { plan.shape with oneofIndex := place plan } } :=
      fun _ _ hplanned => { hplanned with }
    refine h.addKept hm hgenerate hdots hfindings hfield
      (SourceMessage.dissolvedIndex?_eq_none hkept) hplace fun i hi => ?_
    rcases honeofs with rfl | ⟨index, newIndex, hindex, rfl⟩
    · rfl
    · have hne : i ≠ index := by
        rintro rfl
        rw [hkept i hindex] at hi
        exact Bool.false_ne_true hi
      rw [Bool.eq_iff_iff, isSome_lookup_concat, or_iff_left hne]
  case known => exact h.addKnown hsplit hnodup hindex hflattens hknown
  case dissolved =>
    exact h.addDissolved hm hgenerate hdots hfindings hsplit hnodup hindex hflattens hnew newFullName _

end Expanding.Fills

/-- All fields of a message are met. -/
theorem fills_expandFields (hnodup : m.fields.Nodup) (newFullName : String) :
    (expandFields ctx m newFullName).Fills ctx.schema m m.fields :=
  expandFields_induction (Expanding.Fills ctx.schema m) ⟨⟨[], .nil, .nil⟩, by simp⟩
    fun _ _ _ hsplit _ he => he.addField hm hgenerate hdots hfindings hsplit hnodup newFullName

end Candidates

/-- The candidates of a message are the plans of its slots. -/
theorem SourceMessage.exists_flattensTo {schema : Schema} {m : SourceMessage}
    (hm : m ∈ schema.messages) (hgenerate : m.options.generate) (hdots : schema.HasDottedRefs)
    (hfindings : ∀ finding ∈ schema.findings, ¬ finding.isError) (hnodup : m.fields.Nodup)
    (settings : Settings) (newFullName : String) :
    ∃ slots, m.FlattensTo schema slots ∧
      List.Forall₂ Slot.FilledBy slots (m.candidates schema settings newFullName) := by
  let ctx := PlanContext.ofFile schema m.file
  have hfills : (expandFields ctx m newFullName).Fills ctx.schema m m.fields :=
    fills_expandFields hm hgenerate hdots hfindings hnodup newFullName
  obtain ⟨groups, hgroups, hfilled⟩ := hfills.filled
  refine ⟨_, ⟨groups, hgroups, rfl⟩, List.rel_append hfilled ?_⟩
  refine List.forall₂_map_left_iff.mpr (List.forall₂_map_right_iff.mpr ?_)
  exact List.forall₂_same.mpr fun field _ => ⟨rfl, rfl, rfl⟩

end PlainSchema
