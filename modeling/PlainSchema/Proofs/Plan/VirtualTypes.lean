import Mathlib.Data.Int.Interval
import PlainSchema.Derive
import PlainSchema.Proofs.Plan.Numbers
import PlainSchema.Proofs.Plan.Planned
import PlainSchema.Proofs.Schema.Scopes
import PlainSchema.Proofs.Schema.VirtualNumbers

/-!
# Numbers of virtual types

The fields of a virtual type are numbered apart from those of messages.  Numbers that fields ask for are
kept, and every other field takes the smallest number above the last one given that none asks for,
`isChain_numberFrom`.  So the numbers are positive and all different.

Nothing keeps them out of the reserved range or below the largest field number.  They are valid exactly
if the numbers that are asked for are, and **the other fields find room below 19000**, which is a matter
of counting: `virtual_type_numbers`.
-/

namespace PlainSchema

open Proto

/-! ## Free numbers -/

/-- The smallest number above another one that is not taken. -/
structure IsNextFree (taken : List Int) (last n : Int) : Prop where
  above : last < n
  free : n ∉ taken
  least : ∀ k, last < k → k < n → k ∈ taken

theorem isNextFree_firstFree (taken : List Int) (last : Int) :
    IsNextFree taken last (firstFree taken (last + 1)) := by
  rw [firstFree]
  generalize hcandidates :
    ((List.range (taken.length + 1)).map fun i => last + 1 + Int.ofNat i) = candidates
  have hget : ∀ i (hi : i < candidates.length), candidates[i] = last + 1 + Int.ofNat i := by
    subst hcandidates
    simp
  have hlength : candidates.length = taken.length + 1 := by simp [← hcandidates]
  cases hfound : candidates.find? fun n => !taken.contains n with
  | none =>
    -- More candidates than taken numbers cannot all be taken.
    have hnodup : candidates.Nodup := by
      rw [← hcandidates]
      refine List.nodup_range.map fun i j hij => ?_
      simpa using hij
    have hsub : candidates ⊆ taken := fun n hn => by
      simpa using List.find?_eq_none.mp hfound n hn
    have := (List.subperm_of_subset hnodup hsub).length_le
    omega
  | some n =>
    obtain ⟨hfree, i, hi, rfl, hbefore⟩ := List.find?_eq_some_iff_getElem.mp hfound
    rw [Option.getD_some, hget]
    rw [hget] at hfree
    refine ⟨by simp only [Int.ofNat_eq_natCast]; omega, by simpa using hfree, fun k hlow hhigh => ?_⟩
    obtain ⟨j, rfl⟩ := Int.le.dest hlow
    have hj : j < i := by simp only [Int.ofNat_eq_natCast] at hhigh; omega
    have htaken := hbefore j hj
    rw [hget] at htaken
    simpa using htaken

/-! ## The fields of a virtual type -/

/-- Every number that is given is the smallest one that is free behind the number before it. -/
theorem isChain_numberFrom (taken : List Int) (last : Int) (shapes : List FieldShape) :
    List.IsChain (IsNextFree taken) (last :: givenNumbers (shapes.map (·.number))
      ((numberFrom taken (last + 1) shapes).map (·.number))) := by
  induction shapes generalizing last with
  | nil => exact List.isChain_singleton last
  | cons shape shapes ih =>
    rw [numberFrom]
    by_cases hzero : shape.number = 0
    · rw [if_pos hzero, List.map_cons, hzero, List.map_cons, givenNumbers_cons_zero]
      exact List.isChain_cons_cons.mpr ⟨isNextFree_firstFree taken last, ih _⟩
    · rw [if_neg hzero, List.map_cons, List.map_cons, givenNumbers_cons_of_ne hzero]
      exact ih last

/-- Shapes get no more than numbers, and keep those that they have. -/
theorem forall₂_numberFrom (taken : List Int) (next : Int) (shapes : List FieldShape) :
    List.Forall₂ (fun shape numbered => numbered = { shape with number := numbered.number } ∧
      (shape.number ≠ 0 → numbered = shape)) shapes (numberFrom taken next shapes) := by
  induction shapes generalizing next with
  | nil => exact .nil
  | cons shape shapes ih =>
    rw [numberFrom]
    split
    · next hzero => exact .cons ⟨rfl, fun hnumber => absurd hzero hnumber⟩ (ih _)
    · exact .cons ⟨rfl, fun _ => rfl⟩ (ih next)

section Chain

variable {taken given : List Int} (h : List.IsChain (IsNextFree taken) (0 :: given))

include h

theorem given_increasing : List.Pairwise (fun a b => a < b ∧ b ∉ taken) (0 :: given) := by
  have htrans : Trans (fun a b : Int => a < b ∧ b ∉ taken) (fun a b => a < b ∧ b ∉ taken)
      (fun a b => a < b ∧ b ∉ taken) :=
    ⟨fun hab hbc => ⟨Int.lt_trans hab.1 hbc.1, hbc.2⟩⟩
  exact List.isChain_iff_pairwise.mp (h.imp fun a b hab => ⟨hab.above, hab.free⟩)

/-- Up to a number that is given, every positive number is taken or given. -/
theorem taken_or_given {n : Int} (hn : n ∈ given) {k : Int} (hpos : 0 < k) (hle : k ≤ n) :
    k ∈ taken ∨ k ∈ given := by
  -- Between a given number and the one before it, all numbers are taken.
  suffices hfrom : ∀ last, List.IsChain (IsNextFree taken) (last :: given) → last < k →
      k ∈ taken ∨ k ∈ given from hfrom 0 h hpos
  clear h
  induction given with
  | nil => exact absurd hn List.not_mem_nil
  | cons first given ih =>
    intro last hchain hlast
    obtain ⟨hnext, hrest⟩ := List.isChain_cons_cons.mp hchain
    rcases Int.lt_trichotomy k first with hlt | heq | hgt
    · exact Or.inl (hnext.least k hlast hlt)
    · exact Or.inr (heq ▸ List.mem_cons_self)
    · have hlater : n ∈ given := by
        rcases List.mem_cons.mp hn with rfl | hlater
        · omega
        · exact hlater
      exact (ih hlater first hrest hgt).imp_right (List.mem_cons_of_mem _)

/-- The given numbers stay below a bound exactly if they and the taken numbers below it are no more than
the bound has room for. -/
theorem given_lt_iff (htaken : taken.Nodup) (hpositive : ∀ n ∈ taken, 0 < n) (bound : Nat) :
    (∀ n ∈ given, n < (bound : Int) + 1) ↔
      given.length + (taken.filter (· < (bound : Int) + 1)).length ≤ bound := by
  have hincreasing := given_increasing h
  obtain ⟨hfirst, hpairs⟩ := List.pairwise_cons.mp hincreasing
  have hgiven : given.Nodup := hpairs.imp fun hab => Int.ne_of_lt hab.1
  have hbelow : (taken.filter (· < (bound : Int) + 1)).Nodup := htaken.filter _
  have hcard : (Finset.Icc (1 : Int) bound).card = bound := by simp
  constructor
  · intro hall
    -- They are different numbers from one up to the bound.
    have hdisjoint : (given ++ taken.filter (· < (bound : Int) + 1)).Nodup := by
      refine List.nodup_append.mpr ⟨hgiven, hbelow, fun n hn k hk heq => ?_⟩
      exact (hfirst n hn).2 (heq ▸ (List.mem_filter.mp hk).1)
    have hsub : (given ++ taken.filter (· < (bound : Int) + 1)).toFinset
        ⊆ Finset.Icc 1 (bound : Int) := by
      intro n hn
      rw [List.mem_toFinset, List.mem_append, List.mem_filter, decide_eq_true_eq] at hn
      rw [Finset.mem_Icc]
      rcases hn with hn | ⟨hn, hlt⟩
      · have := (hfirst n hn).1
        have := hall n hn
        omega
      · have := hpositive n hn
        omega
    have hle := Finset.card_le_card hsub
    rwa [List.toFinset_card_of_nodup hdisjoint, hcard, List.length_append] at hle
  · intro hroom n hn
    by_contra hbeyond
    -- All numbers up to the bound would be taken below it, or given beside this one.
    have hsub : Finset.Icc 1 (bound : Int) ⊆
        (given.erase n ++ taken.filter (· < (bound : Int) + 1)).toFinset := by
      intro k hk
      rw [Finset.mem_Icc] at hk
      rw [List.mem_toFinset, List.mem_append, List.mem_filter, decide_eq_true_eq]
      rcases taken_or_given h hn (k := k) (by omega) (by omega) with hmem | hmem
      · exact Or.inr ⟨hmem, by omega⟩
      · exact Or.inl ((List.mem_erase_of_ne (by omega)).mpr hmem)
    have hle := (Finset.card_le_card hsub).trans (List.toFinset_card_le _)
    have hpos := List.length_pos_of_mem hn
    rw [hcard, List.length_append, List.length_erase_of_mem hn] at hle
    omega

end Chain

/-! ## Numbered virtual types -/

/-- The numbers that the fields of a virtual type ask for. -/
def Proto.VirtualType.explicitNumbers (type : VirtualType) : List Int :=
  (type.fields.map (·.number)).filter (0 < ·)

/-- The numbers of a planned virtual type. -/
def VirtualTypePlan.numbers (plan : VirtualTypePlan) : List Int :=
  plan.fields.map (·.number)

/-- The numbers that a planned virtual type gives to fields that ask for none. -/
def VirtualTypePlan.given (plan : VirtualTypePlan) (type : VirtualType) : List Int :=
  givenNumbers (type.fields.map (·.number)) plan.numbers

/-- A virtual type is planned with the numbers that its fields ask for, and with free ones for the other
fields.  They are valid exactly if those that fields ask for are, and the given ones and the explicit
ones in front of the reserved range are no more than there are numbers in front of it. -/
structure Proto.VirtualType.NumberedAs (type : VirtualType) (plan : VirtualTypePlan) : Prop where
  keeps : List.Forall₂ (fun field shape => shape.name = field.name ∧
    (field.number ≠ 0 → shape.number = field.number)) type.fields plan.fields
  next : List.IsChain (IsNextFree type.explicitNumbers) (0 :: plan.given type)
  positive : ∀ n ∈ plan.numbers, 1 ≤ n
  distinct : plan.numbers.Nodup
  valid_iff : (∀ n ∈ plan.numbers, 1 ≤ n ∧ n ≤ 536870911 ∧ ¬ (19000 ≤ n ∧ n ≤ 19999)) ↔
    (∀ n ∈ type.explicitNumbers, 1 ≤ n ∧ n ≤ 536870911 ∧ ¬ (19000 ≤ n ∧ n ≤ 19999)) ∧
      (plan.given type).length + (type.explicitNumbers.filter (· < 19000)).length ≤ 18999

section NumberedAs

variable {type : VirtualType} {plan : VirtualTypePlan}

/-- The numbers of a planned virtual type are those that its fields ask for and those that are given. -/
theorem perm_numbers (hnonneg : ∀ field ∈ type.fields, 0 ≤ field.number)
    (hkeeps : List.Forall₂ (fun field shape => shape.name = field.name ∧
      (field.number ≠ 0 → shape.number = field.number)) type.fields plan.fields) :
    plan.numbers.Perm (type.explicitNumbers ++ plan.given type) := by
  have hexplicit : (type.fields.map (·.number)).filter (· ≠ 0) = type.explicitNumbers := by
    refine List.filter_congr (List.forall_mem_map.mpr fun field hfield => ?_)
    have := hnonneg field hfield
    simp only [decide_eq_decide]
    omega
  rw [← hexplicit]
  refine perm_givenNumbers (List.forall₂_map_left_iff.mpr (List.forall₂_map_right_iff.mpr ?_))
  exact hkeeps.imp fun _ _ h => h.2

/-- Given numbers are valid exactly if they stand in front of the reserved range, as its first number
would be given before any number behind it. -/
theorem forall_valid_iff_lt {taken given : List Int} (h : List.IsChain (IsNextFree taken) (0 :: given))
    (htaken : 19000 ∉ taken) :
    (∀ n ∈ given, 1 ≤ n ∧ n ≤ 536870911 ∧ ¬ (19000 ≤ n ∧ n ≤ 19999)) ↔ ∀ n ∈ given, n < 19000 := by
  constructor
  · intro hvalid n hn
    by_contra hbeyond
    rcases taken_or_given h hn (k := 19000) (by decide) (by omega) with hmem | hmem
    · exact htaken hmem
    · exact absurd (hvalid 19000 hmem) (by decide)
  · intro hall n hn
    have hpos := ((List.pairwise_cons.mp (given_increasing h)).1 n hn).1
    have hlt := hall n hn
    omega

/-- From distinct numbers that fields ask for, and free ones for the other fields. -/
theorem numberedAs_of_next (hnonneg : ∀ field ∈ type.fields, 0 ≤ field.number)
    (hdistinct : type.explicitNumbers.Nodup)
    (hkeeps : List.Forall₂ (fun field shape => shape.name = field.name ∧
      (field.number ≠ 0 → shape.number = field.number)) type.fields plan.fields)
    (hnext : List.IsChain (IsNextFree type.explicitNumbers) (0 :: plan.given type)) :
    type.NumberedAs plan := by
  have hperm := perm_numbers hnonneg hkeeps
  have hpositive : ∀ n ∈ type.explicitNumbers, 0 < n := fun n hn =>
    of_decide_eq_true (List.mem_filter.mp hn).2
  obtain ⟨hgiven, hpairs⟩ := List.pairwise_cons.mp (given_increasing hnext)
  refine ⟨hkeeps, hnext, fun n hn => ?_, ?_, ?_⟩
  · rcases List.mem_append.mp (hperm.mem_iff.mp hn) with hn | hn
    · exact hpositive n hn
    · exact (hgiven n hn).1
  · rw [hperm.nodup_iff, List.nodup_append]
    refine ⟨hdistinct, hpairs.imp fun hab => Int.ne_of_lt hab.1, fun n hn k hk heq => ?_⟩
    exact (hgiven k hk).2 (heq ▸ hn)
  · rw [forall_congr' fun n => imp_congr_left hperm.mem_iff, List.forall_mem_append]
    refine and_congr_right fun hvalid => ?_
    rw [forall_valid_iff_lt hnext fun hmem => absurd (hvalid 19000 hmem) (by decide)]
    exact given_lt_iff hnext hdistinct hpositive 18999

end NumberedAs

/-! ## Planned virtual types -/

/-- In a schema without errors, virtual types of generated messages are planned with the numbers that
their fields ask for, and with free ones for the other fields. -/
theorem numberedAs_virtualTypePlan {schema : Schema} {m : SourceMessage} {type : VirtualType}
    (hfindings : NoErrors schema.findings) (hm : m ∈ schema.messages)
    (hgenerate : m.options.generate) (htype : type ∈ m.options.virtualTypes)
    (newFullName suffix : String) : type.NumberedAs (virtualTypePlan m newFullName suffix type) := by
  obtain ⟨hnonneg, hdistinct⟩ :=
    numbers_of_virtualTypesFindings (Schema.noErrors_of_virtual hfindings hm hgenerate).1 htype
  have hnumber : ∀ field ∈ type.fields,
      (virtualShape m newFullName suffix field).number = field.number :=
    fun field hfield => Int.max_eq_left (hnonneg field hfield)
  have hshapes : (type.fields.map (virtualShape m newFullName suffix)).map (·.number)
      = type.fields.map (·.number) := by
    rw [List.map_map]
    exact List.map_congr_left hnumber
  have hnumbered := forall₂_numberFrom type.explicitNumbers 1
    (type.fields.map (virtualShape m newFullName suffix))
  have hchain := isChain_numberFrom type.explicitNumbers 0
    (type.fields.map (virtualShape m newFullName suffix))
  refine numberedAs_of_next hnonneg hdistinct ?_ ?_
  · rw [List.forall₂_map_left_iff] at hnumbered
    rw [virtualTypePlan, hshapes]
    refine ((List.forall₂_and_left _ _).mpr ⟨hnumber, hnumbered⟩).imp ?_
    rintro field shape ⟨hsame, hshape, hkept⟩
    refine ⟨hshape ▸ rfl, fun hasked => ?_⟩
    rw [hkept (hsame ▸ hasked), hsame]
  · rw [VirtualTypePlan.given, VirtualTypePlan.numbers, virtualTypePlan]
    dsimp only
    rw [hshapes] at hchain ⊢
    exact hchain

/-- Renaming the types of fields leaves their numbers. -/
theorem Proto.VirtualType.NumberedAs.retarget {type : VirtualType} {plan : VirtualTypePlan}
    (h : type.NumberedAs plan) (renames : Renames) :
    type.NumberedAs { plan with fields := plan.fields.map renames.retargetShape } := by
  have hnumbers : VirtualTypePlan.numbers
      { plan with fields := plan.fields.map renames.retargetShape } = plan.numbers := by
    rw [VirtualTypePlan.numbers, VirtualTypePlan.numbers, List.map_map]
    rfl
  have hgiven : VirtualTypePlan.given
      { plan with fields := plan.fields.map renames.retargetShape } type = plan.given type := by
    rw [VirtualTypePlan.given, VirtualTypePlan.given, hnumbers]
  refine ⟨List.forall₂_map_right_iff.mpr h.keeps, ?_, ?_, ?_, ?_⟩
  · rw [hgiven]
    exact h.next
  · rw [hnumbers]
    exact h.positive
  · rw [hnumbers]
    exact h.distinct
  · rw [hnumbers, hgiven]
    exact h.valid_iff

/-- **The numbers of virtual types.**  In a schema without errors, a virtual type of a generated message
is planned with the numbers that its fields ask for, and every other field takes, in order, the smallest
number above the one given before it that no field asks for.  So the numbers are positive and different,
and they are valid exactly if the explicit ones are and the others fit in front of the reserved range.
So it is for all virtual types of a plan. -/
theorem virtual_type_numbers {schema : Schema}
    (hfindings : ∀ finding ∈ schema.findings, ¬ finding.isError) :
    (∀ m ∈ schema.messages, m.options.generate → ∀ type ∈ m.options.virtualTypes,
      ∀ newFullName suffix, type.NumberedAs (virtualTypePlan m newFullName suffix type)) ∧
    ∀ settings plan, schema.plan settings = .ok plan →
      List.Forall₂ (fun m mp => m.options.generate →
        List.Forall₂ VirtualType.NumberedAs m.options.virtualTypes mp.virtualTypes)
        schema.messages plan.messages := by
  have hnumbered : ∀ m ∈ schema.messages, m.options.generate → ∀ type ∈ m.options.virtualTypes,
      ∀ newFullName suffix, type.NumberedAs (virtualTypePlan m newFullName suffix type) :=
    fun m hm hgenerate type htype => numberedAs_virtualTypePlan hfindings hm hgenerate htype
  refine ⟨hnumbered, fun settings plan hplan => ?_⟩
  have hplans := (Schema.plan_eq_ok hplan).messages
  refine ((List.forall₂_and_left _ _).mpr ⟨fun _ hm => hm, hplans⟩).imp ?_
  rintro m mp ⟨hm, outlined, houtlined, rfl⟩ hgenerate
  rw [SourceMessage.IsOutlinedAs, if_pos hgenerate] at houtlined
  rw [MessagePlan.rename, houtlined.rest]
  refine List.forall₂_map_right_iff.mpr (List.forall₂_map_right_iff.mpr ?_)
  refine List.forall₂_same.mpr fun type htype => ?_
  exact (hnumbered m hm hgenerate type htype _ _).retarget _

/-! ## An audited item -/

/-- An item whose virtual type asks for a number for its mark, and for none for what stands beside it. -/
def auditedItem (mark : Int) : MessageDecl where
  name := "Item"
  fields := [{ name := "sku", number := 1, kind := .scalar .string }]
  options :=
    { generate := true
      virtualTypes :=
        [{ name := "Audit"
           fields :=
            [{ name := "author", kind := "string" },
              { name := "mark", kind := "string", number := mark },
              { name := "reason", kind := "string" }] }] }

/-- The pool of an audited item. -/
def auditedPool (mark : Int) : Pool :=
  ((Pool.load [messageOptionsFile,
    { name := "item.proto", package := "p", messages := [auditedItem mark] }]).toOption).getD {}

/-- The plan of an audited item. -/
def auditedPlan (mark : Int) : SchemaPlan :=
  ((Schema.ofPool (auditedPool mark) []).plan {}).toOption.getD
    { suffix := "", messages := [], renames := {}, diagnostics := [] }

/-- The numbers of the virtual types of a plan. -/
def SchemaPlan.virtualNumbers (plan : SchemaPlan) : List (List Int) :=
  plan.messages.flatMap fun mp => mp.virtualTypes.map (·.numbers)

/-- The fields of an audit are numbered around its mark. -/
theorem audit_numbered :
    ∃ m ∈ (Schema.ofPool (auditedPool 2) []).messages, ∃ type ∈ m.options.virtualTypes,
      type.NumberedAs (virtualTypePlan m ".p.ItemPlain" "Plain" type) ∧
        (virtualTypePlan m ".p.ItemPlain" "Plain" type).numbers = [1, 2, 3] ∧
        ∃ mp ∈ (auditedPlan 2).messages,
          List.Forall₂ VirtualType.NumberedAs m.options.virtualTypes mp.virtualTypes := by
  have hfindings : ∀ finding ∈ (Schema.ofPool (auditedPool 2) []).findings, ¬ finding.isError := by
    decide +kernel
  obtain ⟨hnumbered, hplans⟩ := virtual_type_numbers hfindings
  have hplan : (Schema.ofPool (auditedPool 2) []).plan {} = .ok (auditedPlan 2) :=
    eq_ok_of_isOk (by decide +kernel) _
  have hgenerated : ∃ m ∈ (Schema.ofPool (auditedPool 2) []).messages, m.options.generate ∧
      ∃ type ∈ m.options.virtualTypes,
        (virtualTypePlan m ".p.ItemPlain" "Plain" type).numbers = [1, 2, 3] := by decide +kernel
  obtain ⟨m, hm, hgenerate, type, htype, hnumbers⟩ := hgenerated
  obtain ⟨mp, hmp, hplanned⟩ := exists_right_of_forall₂ (hplans _ _ hplan) hm
  exact ⟨m, hm, type, htype, hnumbered m hm hgenerate type htype _ _, hnumbers, mp, hmp,
    hplanned hgenerate⟩

/-- An audit passes validation with a mark in the reserved range and is planned with it.  Then the
derived files do not load. -/
theorem reserved_mark_planned :
    (∀ finding ∈ (Schema.ofPool (auditedPool 19500) []).findings, ¬ finding.isError) ∧
      (Schema.ofPool (auditedPool 19500) []).plan {} = .ok (auditedPlan 19500) ∧
      (auditedPlan 19500).virtualNumbers = [[1, 19500, 2]] ∧
      (Pool.load ((auditedPlan 19500).derive (auditedPool 19500).files)).isOk = false := by
  refine ⟨by decide +kernel, eq_ok_of_isOk (by decide +kernel) _, by decide +kernel, by decide +kernel⟩

end PlainSchema
