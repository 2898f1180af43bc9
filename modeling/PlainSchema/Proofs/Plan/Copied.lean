import PlainSchema.Proofs.Plan.Oneofs

/-!
# Oneofs that are copied

A oneof that its options leave alone is copied into the Plain message as soon as one of its fields
is met, and takes the next free position there: `copiedOneofs` lists the copied oneofs by their
positions.  Planning the fields one by one keeps the fields of a position in step with the members of
the oneof that has it, `Expanding.Copies`.
-/

namespace PlainSchema

open Proto

/-! ## Copied oneofs -/

namespace SourceMessage

/-- Whether the oneof at an index is copied into the Plain message once a field of it is met. -/
def copies (m : SourceMessage) (index : Nat) : Bool :=
  (m.oneof? index).any (!·.synthetic) && m.strategy index == .untouched

/-- The copied oneof that a field is a member of. -/
def copiedIndex? (m : SourceMessage) (field : SourceField) : Option Nat :=
  field.oneofIndex.filter m.copies

/-- The copied oneofs of some fields, in the order in which the fields come to them. -/
def copiedAmong (m : SourceMessage) (fields : List SourceField) : List Nat :=
  (fields.filterMap m.copiedIndex?).eraseDups

/-- The copied oneofs of a message by their positions in its Plain message. -/
def copiedOneofs (m : SourceMessage) : List Nat :=
  m.copiedAmong m.fields

variable {m : SourceMessage} {field : SourceField} {index : Nat}

theorem copies_eq_false_of_flattens (h : (m.strategy index).flattens) : m.copies index = false := by
  rw [Strategy.flattens, bne_iff_ne] at h
  simp [copies, h]

theorem copiedIndex?_eq_some :
    m.copiedIndex? field = some index ↔ field.oneofIndex = some index ∧ m.copies index := by
  rw [copiedIndex?, Option.filter_eq_some_iff]

theorem mem_copiedAmong {fields : List SourceField} :
    index ∈ m.copiedAmong fields
      ↔ m.copies index ∧ fields.filter (·.oneofIndex == some index) ≠ [] := by
  rw [copiedAmong, List.mem_eraseDups, List.mem_filterMap, Ne, List.filter_eq_nil_iff]
  constructor
  · rintro ⟨field, hfield, hindex⟩
    obtain ⟨hindex, hcopies⟩ := copiedIndex?_eq_some.mp hindex
    exact ⟨hcopies, fun hnone => hnone field hfield (by simpa using hindex)⟩
  · rintro ⟨hcopies, hsome⟩
    push Not at hsome
    obtain ⟨field, hfield, hindex⟩ := hsome
    exact ⟨field, hfield, copiedIndex?_eq_some.mpr ⟨by simpa using hindex, hcopies⟩⟩

/-- The copied oneofs are those with members that are left alone and that back no optional field. -/
theorem mem_copiedOneofs :
    index ∈ m.copiedOneofs ↔ m.copies index ∧ m.oneofFields index ≠ [] :=
  mem_copiedAmong

/-- A new oneof goes behind those that were met before. -/
theorem copiedAmong_append (fields : List SourceField) (field : SourceField) :
    m.copiedAmong (fields ++ [field])
      = match m.copiedIndex? field with
        | none => m.copiedAmong fields
        | some index =>
          if index ∈ m.copiedAmong fields then m.copiedAmong fields
          else m.copiedAmong fields ++ [index] := by
  rw [copiedAmong, List.filterMap_append]
  cases hindex : m.copiedIndex? field with
  | none => simp [hindex, copiedAmong]
  | some index =>
    have hone : [field].filterMap m.copiedIndex? = [index] := by simp [hindex]
    rw [hone, eraseDups_append_singleton]
    simp [copiedAmong, List.mem_eraseDups]

theorem exists_oneof_of_mem (m : SourceMessage) (h : index ∈ m.copiedOneofs) :
    ∃ oneof, m.oneof? index = some oneof := by
  have hcopies := (mem_copiedOneofs.mp h).1
  rw [copies, Bool.and_eq_true] at hcopies
  cases honeof : m.oneof? index with
  | none => simp [honeof] at hcopies
  | some oneof => exact ⟨oneof, rfl⟩

theorem copiedAmong_nodup (fields : List SourceField) : (m.copiedAmong fields).Nodup := by
  induction fields using List.reverseRecOn with
  | nil => exact List.nodup_nil
  | append_singleton fields field ih =>
    rw [copiedAmong_append]
    split
    · exact ih
    · split
      · exact ih
      · next hnew =>
        exact ih.append (List.nodup_singleton _) (List.disjoint_singleton.mpr hnew)

end SourceMessage

/-! ## Planning field by field -/

section Expanding

variable {ctx : PlanContext} {m : SourceMessage} {newFullName : String}

/-- The plans of a member of the copied oneof at a position. -/
def PlanContext.copiedPlans (ctx : PlanContext) (m : SourceMessage) (position : Nat)
    (field : SourceField) : List FieldPlan :=
  (ctx.flattenField m field {}).map fun plan =>
    { plan with shape := { plan.shape with oneofIndex := some position } }

/-- What was planned so far holds the copied oneofs that were met, one at each position, with the
members that were met. -/
structure Expanding.Copies (ctx : PlanContext) (m : SourceMessage) (met : List SourceField)
    (e : Expanding) : Prop where
  indices : (e.oneofs.map (·.1)).Nodup
  copied : ∀ pair ∈ e.oneofs, m.copies pair.1 = !pair.2.strategy.flattens
  positions : e.oneofs.filterMap (fun pair => pair.2.newIndex.map (pair.1, ·))
    = (m.copiedAmong met).zipIdx
  placed : ∀ pair ∈ e.oneofs, pair.2.newIndex.isSome = !pair.2.strategy.flattens
  members : ∀ position index, (m.copiedAmong met)[position]? = some index →
    e.plans.filter (·.shape.oneofIndex == some position)
      = (met.filter (·.oneofIndex == some index)).flatMap (ctx.copiedPlans m position)
  inside : ∀ plan ∈ e.plans, ∀ position, plan.shape.oneofIndex = some position →
    position < (m.copiedAmong met).length

theorem oneofIndex_planField (field : SourceField) (scope : Scope) :
    (ctx.planField m field scope).shape.oneofIndex = none := by
  have hvalue : (ctx.valuePlan m field scope).shape.oneofIndex = none := by
    rw [PlanContext.valuePlan]
    split
    · rfl
    · split
      · rfl
      · split <;> rfl
  rw [PlanContext.planField]
  split <;> exact hvalue

theorem oneofIndex_embedWithin {levels : Nat} {m : SourceMessage} {field : SourceField}
    {scope : Scope} {isPrefixed : Bool} {plan : FieldPlan}
    (hplan : plan ∈ ctx.embedWithin levels m field scope isPrefixed) :
    plan.shape.oneofIndex = none := by
  induction levels generalizing m field scope isPrefixed plan with
  | zero => simp [PlanContext.embedWithin] at hplan
  | succ levels ih =>
    rw [PlanContext.embedWithin] at hplan
    split at hplan
    · simp at hplan
    · obtain ⟨f, -, hplan⟩ := List.mem_flatMap.mp hplan
      obtain ⟨inner, hinner, rfl⟩ := List.mem_map.mp hplan
      change inner.shape.oneofIndex = none
      split at hinner
      · exact ih hinner
      · rw [List.mem_singleton.mp hinner]
        exact oneofIndex_planField f _

theorem oneofIndex_flattenField {field : SourceField} {scope : Scope} {plan : FieldPlan}
    (hplan : plan ∈ ctx.flattenField m field scope) : plan.shape.oneofIndex = none := by
  rw [PlanContext.flattenField] at hplan
  split at hplan
  · exact oneofIndex_embedWithin hplan
  · rw [List.mem_singleton.mp hplan]
    exact oneofIndex_planField field scope

/-- No field that replaces a dissolved oneof is a member of a oneof. -/
theorem oneofIndex_expand {index : Nat} {strategy : Strategy} {plan : FieldPlan}
    (hplan : plan ∈ (ctx.expand m index strategy newFullName).fields) :
    plan.shape.oneofIndex = none := by
  have hmembers : ∀ oneof isPrefixed, plan ∈ ctx.membersPlans m index oneof isPrefixed →
      plan.shape.oneofIndex = none := by
    intro oneof isPrefixed hplan
    obtain ⟨member, -, hplan⟩ := List.mem_flatMap.mp hplan
    rw [PlanContext.memberPlans] at hplan
    split at hplan
    · exact oneofIndex_embedWithin hplan
    · obtain ⟨inner, hinner, rfl⟩ := List.mem_map.mp hplan
      change inner.shape.oneofIndex = none
      exact oneofIndex_flattenField hinner
  cases strategy with
  | untouched => simp [PlanContext.expand] at hplan
  | embedOnly => exact hmembers _ _ hplan
  | enumDispatch =>
    rcases List.mem_cons.mp hplan with rfl | hplan
    · rfl
    · exact hmembers _ _ hplan
  | discriminatorOnly =>
    rcases List.mem_cons.mp hplan with rfl | hplan
    · rfl
    · rw [List.mem_singleton.mp hplan]
      rfl

/-- The plan of a dissolved oneof has no position. -/
theorem plan_expand_dissolved {index : Nat} (hflattens : (m.strategy index).flattens) :
    (ctx.expand m index (m.strategy index) newFullName).plan.strategy.flattens ∧
      (ctx.expand m index (m.strategy index) newFullName).plan.newIndex = none := by
  cases hstrategy : m.strategy index with
  | untouched =>
    rw [hstrategy] at hflattens
    exact absurd hflattens (by decide)
  | embedOnly => exact ⟨rfl, rfl⟩
  | enumDispatch => exact ⟨rfl, rfl⟩
  | discriminatorOnly => exact ⟨rfl, rfl⟩

/-- A list of plans without oneofs holds none of a position. -/
theorem filter_oneofIndex_eq_nil {plans : List FieldPlan} (position : Nat)
    (h : ∀ plan ∈ plans, plan.shape.oneofIndex = none) :
    plans.filter (·.shape.oneofIndex == some position) = [] := by
  refine List.filter_eq_nil_iff.mpr fun plan hplan => ?_
  simp [h plan hplan]

namespace Expanding.Copies

variable {met : List SourceField} {e : Expanding} {field : SourceField} {index : Nat}

theorem nil (ctx : PlanContext) (m : SourceMessage) : Expanding.Copies ctx m [] {} :=
  ⟨by simp, by simp, by simp [SourceMessage.copiedAmong], by simp, by simp, by simp⟩

/-- The next free position is the number of copied oneofs. -/
theorem keptCount_eq (h : e.Copies ctx m met) : e.keptCount = (m.copiedAmong met).length := by
  rw [← List.length_zipIdx, ← h.positions, Expanding.keptCount, List.length_filterMap_eq_countP,
    ← List.countP_eq_length_filter]
  refine List.countP_congr fun pair hpair => ?_
  simp [h.placed pair hpair]

/-- The position of a oneof that was met stands in its plan. -/
theorem lookup_newIndex {position : Nat} (h : e.Copies ctx m met)
    (hposition : (m.copiedAmong met)[position]? = some index) :
    (e.oneofs.lookup index).bind (·.newIndex) = some position := by
  have hmem : (index, position) ∈ (m.copiedAmong met).zipIdx :=
    List.mk_mem_zipIdx_iff_getElem?.mpr hposition
  rw [← h.positions] at hmem
  obtain ⟨pair, hpair, hindex⟩ := List.mem_filterMap.mp hmem
  obtain ⟨found, hfound, heq⟩ := Option.map_eq_some_iff.mp hindex
  obtain ⟨rfl, rfl⟩ := Prod.mk.inj heq
  rw [lookup_eq_some_of_nodup h.indices hpair, Option.bind_some, hfound]

/-- A copied oneof that has a plan was met. -/
theorem mem_copiedAmong (h : e.Copies ctx m met) (hcopies : m.copies index)
    (hindex : index ∈ e.oneofs.map (·.1)) : index ∈ m.copiedAmong met := by
  obtain ⟨pair, hpair, rfl⟩ := List.mem_map.mp hindex
  have hplaced := h.placed pair hpair
  rw [← h.copied pair hpair, hcopies] at hplaced
  obtain ⟨position, hposition⟩ := Option.isSome_iff_exists.mp hplaced
  have hmem : (pair.1, position) ∈ (m.copiedAmong met).zipIdx := by
    rw [← h.positions]
    exact List.mem_filterMap.mpr ⟨pair, hpair, by rw [hposition, Option.map_some]⟩
  exact List.mem_of_getElem? (List.mk_mem_zipIdx_iff_getElem?.mp hmem)

/-- After a field that is in no copied oneof. -/
theorem addDirect (h : e.Copies ctx m met) (hindex : m.copiedIndex? field = none)
    {plans : List FieldPlan} (hplans : ∀ plan ∈ plans, plan.shape.oneofIndex = none)
    {oneofs : List (Nat × OneofPlan)} (enums : List GeneratedEnum)
    (hindices : (oneofs.map (·.1)).Nodup)
    (honeofs : ∃ dissolved, oneofs = e.oneofs ++ dissolved ∧ ∀ pair ∈ dissolved,
      m.copies pair.1 = false ∧ pair.2.strategy.flattens ∧ pair.2.newIndex = none) :
    Expanding.Copies ctx m (met ++ [field]) { plans := e.plans ++ plans, enums, oneofs } := by
  obtain ⟨dissolved, rfl, hdissolved⟩ := honeofs
  have hcopied : m.copiedAmong (met ++ [field]) = m.copiedAmong met := by
    rw [SourceMessage.copiedAmong_append, hindex]
  refine ⟨hindices, fun pair hpair => ?_, ?_, fun pair hpair => ?_, ?_, ?_⟩
  · rcases List.mem_append.mp hpair with hpair | hpair
    · exact h.copied pair hpair
    · rw [(hdissolved pair hpair).1, (hdissolved pair hpair).2.1, Bool.not_true]
  · have hnone : dissolved.filterMap (fun pair => pair.2.newIndex.map (pair.1, ·)) = [] :=
      List.filterMap_eq_nil_iff.mpr fun pair hpair => by rw [(hdissolved pair hpair).2.2, Option.map_none]
    rw [List.filterMap_append, hnone, List.append_nil, h.positions, hcopied]
  · rcases List.mem_append.mp hpair with hpair | hpair
    · exact h.placed pair hpair
    · rw [(hdissolved pair hpair).2.1, (hdissolved pair hpair).2.2, Option.isSome_none, Bool.not_true]
  · intro position index hposition
    rw [hcopied] at hposition
    have hcopies := (SourceMessage.mem_copiedAmong.mp (List.mem_of_getElem? hposition)).1
    have hother : [field].filter (·.oneofIndex == some index) = [] := by
      refine List.filter_eq_nil_iff.mpr fun other hother hof => ?_
      rw [List.mem_singleton.mp hother] at hof
      have hsome := SourceMessage.copiedIndex?_eq_some.mpr ⟨by simpa using hof, hcopies⟩
      rw [hindex] at hsome
      exact absurd hsome (by simp)
    rw [List.filter_append, filter_oneofIndex_eq_nil position hplans, List.append_nil,
      List.filter_append, hother, List.append_nil]
    exact h.members position index hposition
  · intro plan hplan position hposition
    rw [hcopied]
    rcases List.mem_append.mp hplan with hplan | hplan
    · exact h.inside plan hplan position hposition
    · rw [hplans plan hplan] at hposition
      exact absurd hposition (by simp)

/-- The plans of a position and of one more member. -/
theorem filter_append_copiedPlans (plans : List FieldPlan) (position other : Nat) :
    (plans ++ ctx.copiedPlans m position field).filter (·.shape.oneofIndex == some other)
      = plans.filter (·.shape.oneofIndex == some other)
        ++ if other = position then ctx.copiedPlans m position field else [] := by
  rw [List.filter_append]
  congr 1
  split
  · next heq =>
    refine List.filter_eq_self.mpr fun plan hplan => ?_
    obtain ⟨inner, -, rfl⟩ := List.mem_map.mp hplan
    simp [heq]
  · next hne =>
    refine List.filter_eq_nil_iff.mpr fun plan hplan => ?_
    obtain ⟨inner, -, rfl⟩ := List.mem_map.mp hplan
    simpa using fun heq => hne heq.symm

/-- The positions after one more member of a copied oneof. -/
theorem getElem?_copiedAmong_append (hindex : m.copiedIndex? field = some index)
    {position index' : Nat} (h : (m.copiedAmong (met ++ [field]))[position]? = some index') :
    (m.copiedAmong met)[position]? = some index' ∨
      index' = index ∧ index ∉ m.copiedAmong met ∧ position = (m.copiedAmong met).length := by
  rw [SourceMessage.copiedAmong_append, hindex] at h
  dsimp only at h
  split at h
  · exact Or.inl h
  · next hnew =>
    rw [List.getElem?_append] at h
    split at h
    · exact Or.inl h
    · obtain ⟨hlt, heq⟩ := List.getElem?_eq_some_iff.mp h
      rw [List.length_singleton] at hlt
      exact Or.inr ⟨by simpa using heq.symm, hnew, by omega⟩

/-- The members at every position after one more member of a copied oneof. -/
theorem members_append (h : e.Copies ctx m met) (hindex : m.copiedIndex? field = some index)
    {position : Nat} (hposition : (m.copiedAmong (met ++ [field]))[position]? = some index) :
    ∀ other index', (m.copiedAmong (met ++ [field]))[other]? = some index' →
      (e.plans ++ ctx.copiedPlans m position field).filter (·.shape.oneofIndex == some other)
        = ((met ++ [field]).filter (·.oneofIndex == some index')).flatMap
          (ctx.copiedPlans m other) := by
  obtain ⟨hof, hcopies⟩ := SourceMessage.copiedIndex?_eq_some.mp hindex
  intro other index' hother
  rw [filter_append_copiedPlans, List.filter_append, List.flatMap_append]
  congr 1
  · rcases getElem?_copiedAmong_append hindex hother with hmet | ⟨rfl, hnew, rfl⟩
    · exact h.members other index' hmet
    · -- The oneof is new, so neither a plan nor a field of it was met.
      have hplans : e.plans.filter (·.shape.oneofIndex == some (m.copiedAmong met).length) = [] := by
        refine List.filter_eq_nil_iff.mpr fun plan hplan hat => ?_
        exact absurd (h.inside plan hplan _ (by simpa using hat)) (Nat.lt_irrefl _)
      have hmet : met.filter (·.oneofIndex == some index') = [] := by
        by_contra hne
        exact hnew (SourceMessage.mem_copiedAmong.mpr ⟨hcopies, hne⟩)
      rw [hplans, hmet, List.flatMap_nil]
  · have hnodup := m.copiedAmong_nodup (met ++ [field])
    by_cases heq : index' = index
    · obtain rfl : other = position := by
        obtain ⟨hlt, -⟩ := List.getElem?_eq_some_iff.mp hother
        exact (List.getElem?_inj hlt hnodup).mp (hother.trans (heq ▸ hposition.symm))
      rw [if_pos rfl, heq, List.filter_singleton, hof]
      simp
    · have hne : other ≠ position := by
        rintro rfl
        exact heq (Option.some.inj (hother.symm.trans hposition))
      have hnone : [field].filter (·.oneofIndex == some index') = [] := by
        rw [List.filter_singleton, hof, beq_eq_false_iff_ne.mpr (by simpa using Ne.symm heq)]
        rfl
      rw [if_neg hne, hnone, List.flatMap_nil]

/-- After one more member of a copied oneof. -/
theorem addKept (h : e.Copies ctx m met) (hindex : m.copiedIndex? field = some index) :
    (e.addKept ctx m index field).Copies ctx m (met ++ [field]) := by
  have hcopied := SourceMessage.copiedAmong_append (m := m) met field
  rw [hindex] at hcopied
  dsimp only at hcopied
  obtain ⟨-, hcopies⟩ := SourceMessage.copiedIndex?_eq_some.mp hindex
  have hinside : ∀ position, (m.copiedAmong (met ++ [field]))[position]? = some index →
      ∀ plan ∈ e.plans ++ ctx.copiedPlans m position field, ∀ other,
        plan.shape.oneofIndex = some other → other < (m.copiedAmong (met ++ [field])).length := by
    intro position hposition plan hplan other hother
    rcases List.mem_append.mp hplan with hplan | hplan
    · have hlt := h.inside plan hplan other hother
      rw [hcopied]
      split
      · exact hlt
      · rw [List.length_append]
        omega
    · obtain ⟨inner, -, rfl⟩ := List.mem_map.mp hplan
      obtain rfl := Option.some.inj hother
      exact (List.getElem?_eq_some_iff.mp hposition).1
  rw [Expanding.addKept]
  dsimp only
  by_cases hmet : index ∈ m.copiedAmong met
  · obtain ⟨position, hposition⟩ := List.getElem?_of_mem hmet
    rw [h.lookup_newIndex hposition, Option.getD_some, Option.isSome_some, if_pos rfl]
    rw [if_pos hmet] at hcopied
    have hsame : (m.copiedAmong (met ++ [field]))[position]? = some index := hcopied ▸ hposition
    exact ⟨h.indices, h.copied, by rw [hcopied]; exact h.positions, h.placed,
      h.members_append hindex hsame, hinside position hsame⟩
  · have hfresh : index ∉ e.oneofs.map (·.1) := fun hmem => hmet (h.mem_copiedAmong hcopies hmem)
    have hnone : e.oneofs.lookup index = none := List.lookup_eq_none_iff.mpr fun pair hpair => by
      simpa using fun heq : index = pair.1 => hfresh (heq ▸ List.mem_map_of_mem hpair)
    rw [hnone, Option.bind_none, Option.getD_none, h.keptCount_eq, if_neg (by simp)]
    rw [if_neg hmet] at hcopied
    have hlast : (m.copiedAmong (met ++ [field]))[(m.copiedAmong met).length]? = some index := by
      rw [hcopied, List.getElem?_concat_length]
    refine ⟨?_, fun pair hpair => ?_, ?_, fun pair hpair => ?_, h.members_append hindex hlast,
      hinside _ hlast⟩
    · rw [List.map_append]
      exact h.indices.append (List.nodup_singleton _) (List.disjoint_singleton.mpr hfresh)
    · rcases List.mem_append.mp hpair with hpair | hpair
      · exact h.copied pair hpair
      · rw [List.mem_singleton.mp hpair]
        exact hcopies
    · rw [List.filterMap_append, h.positions, hcopied, List.zipIdx_append]
      simp [SourceMessage.untouchedPlan]
    · rcases List.mem_append.mp hpair with hpair | hpair
      · exact h.placed pair hpair
      · rw [List.mem_singleton.mp hpair]
        rfl

theorem addField (h : e.Copies ctx m met) (newFullName : String) (field : SourceField) :
    (e.addField ctx m newFullName field).Copies ctx m (met ++ [field]) := by
  have hdirect : m.copiedIndex? field = none →
      Expanding.Copies ctx m (met ++ [field]) { e with plans := e.plans ++ ctx.flattenField m field {} } :=
    fun hnone => h.addDirect hnone (fun _ hplan => oneofIndex_flattenField hplan) e.enums h.indices
      ⟨[], by simp, by simp⟩
  rw [Expanding.addField]
  cases hof : field.oneofIndex with
  | none => exact hdirect (by simp [SourceMessage.copiedIndex?, hof])
  | some index =>
    dsimp only
    split
    · next hflattens =>
      have hcopies := SourceMessage.copies_eq_false_of_flattens hflattens
      have hnone : m.copiedIndex? field = none := by
        simp [SourceMessage.copiedIndex?, hof, hcopies]
      rw [Expanding.addDissolved]
      split
      · have hsame : Expanding.Copies ctx m (met ++ [field])
            { plans := e.plans ++ [], enums := e.enums, oneofs := e.oneofs } :=
          h.addDirect hnone (by simp) e.enums h.indices ⟨[], by simp, by simp⟩
        rwa [List.append_nil] at hsame
      · next hlookup =>
        have hfresh : index ∉ e.oneofs.map (·.1) := by
          intro hmem
          obtain ⟨pair, hpair, rfl⟩ := List.mem_map.mp hmem
          exact hlookup (by rw [lookup_eq_some_of_nodup h.indices hpair, Option.isSome_some])
        refine h.addDirect hnone (fun _ hplan => oneofIndex_expand hplan) _ ?_ ⟨_, rfl, ?_⟩
        · rw [List.map_append]
          exact h.indices.append (List.nodup_singleton _) (List.disjoint_singleton.mpr hfresh)
        · intro pair hpair
          rw [List.mem_singleton.mp hpair]
          exact ⟨hcopies, plan_expand_dissolved hflattens⟩
    · next hflattens =>
      split
      · next hreal =>
        refine h.addKept (SourceMessage.copiedIndex?_eq_some.mpr ⟨hof, ?_⟩)
        rw [SourceMessage.copies, hreal, Bool.true_and, beq_iff_eq]
        simpa [Strategy.flattens] using hflattens
      · next hsynthetic =>
        refine hdirect ?_
        simp [SourceMessage.copiedIndex?, hof, SourceMessage.copies, hsynthetic]

end Expanding.Copies

theorem copies_expandFields (ctx : PlanContext) (m : SourceMessage) (newFullName : String) :
    (expandFields ctx m newFullName).Copies ctx m m.fields :=
  expandFields_induction (Expanding.Copies ctx m) (.nil ctx m)
    fun _ field _ _ _ he => he.addField newFullName field

end Expanding

end PlainSchema
