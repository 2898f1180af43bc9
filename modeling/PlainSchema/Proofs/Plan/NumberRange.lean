import PlainSchema.Proofs.Plan.Numbered

/-!
# Numbers within 32 bits

Numbers are added up in 32 bits: the first free one is one above the highest number in use, and every
step of the cursor adds one more.  `AddsWithin32` says that each of these sums fits.  It does

* exactly if the highest number, the count of fields without one, and the reserved numbers in between
  leave room for one more, `addsWithin32_iff_room`;
* exactly if no field ends up with the largest number of 32 bits, `addsWithin32_iff_lt`.

A cursor that leaves 32 bits **has given the largest number to a field first**, so a message whose sums
do not fit is never planned, whatever numbers come after the wrap: `additions_within_iff`.
-/

namespace PlainSchema

open Proto

/-- No sum on the way from `n` to a free number among a count of numbers leaves 32 bits. -/
def SearchesWithin32 (used : List Int) : Nat → Int → Prop
  | 0, _ => True
  | count + 1, n =>
    (used.contains n || isReservedNumber n) →
      n + 1 ≤ maxInt32 ∧ SearchesWithin32 used count (succNumber n)

/-- No sum that is formed for plans without numbers, from `next` on, leaves 32 bits. -/
def AssignsWithin32 (used : List Int) : Int → List FieldPlan → Prop
  | _, [] => True
  | next, plan :: plans =>
    if plan.shape.number = 0 then
      let number := freeNumber used next
      SearchesWithin32 used (used.length + 1001) next ∧ number + 1 ≤ maxInt32 ∧
        AssignsWithin32 (number :: used) (succNumber number) plans
    else AssignsWithin32 used next plans

/-- No sum that is formed while plans are numbered leaves 32 bits. -/
def AddsWithin32 (plans : List FieldPlan) : Prop :=
  highestNumber plans + 1 ≤ maxInt32 ∧
    AssignsWithin32 (usedNumbers plans) (succNumber (highestNumber plans)) plans

/-! ## The cursor -/

/-- Above all numbers in use a search stays far from the bound, as it steps through no more than the
reserved range. -/
theorem searchesWithin32_of_above {used : List Int} {n : Int} (hused : ∀ k ∈ used, k < n)
    (count : Nat) : SearchesWithin32 used count n := by
  induction count generalizing n with
  | zero => exact trivial
  | succ count ih =>
    intro htaken
    rcases Bool.or_eq_true _ _ ▸ htaken with hmem | hreserved
    · exact absurd (hused n (List.contains_iff_mem.mp hmem)) (Int.lt_irrefl n)
    · have hbounds := isReservedNumber_iff.mp hreserved
      have hfits : n < maxInt32 := by rw [maxInt32]; omega
      rw [succNumber_of_lt (by omega) hfits]
      exact ⟨hfits, ih fun k hk => Int.lt_trans (hused k hk) (Int.lt_succ n)⟩

/-- From above all numbers in use, the sums fit exactly if the cursor ends within 32 bits. -/
theorem assignsWithin32_iff {used : List Int} {last : Int} {plans : List FieldPlan} (hlast : 0 ≤ last)
    (hused : ∀ k ∈ used, k < last + 1) (hstart : last + 1 ≤ maxInt32) :
    AssignsWithin32 used (last + 1) plans ↔
      cursorAfter (last + 1) (unnumbered plans) ≤ maxInt32 := by
  induction plans generalizing used last with
  | nil => exact iff_of_true trivial hstart
  | cons plan plans ih =>
    rw [AssignsWithin32]
    split
    · next hzero =>
      have habove := le_skipReserved (last + 1)
      rw [unnumbered_cons_of_eq hzero, cursorAfter, freeNumber_of_above hused]
      dsimp only
      by_cases hfits : skipReserved (last + 1) + 1 ≤ maxInt32
      · rw [← ih (by omega) (forall_lt_of_given hused) hfits, succNumber_of_lt (by omega) hfits]
        exact ⟨fun h => h.2.2, fun h => ⟨searchesWithin32_of_above hused _, hfits, h⟩⟩
      · -- A cursor never moves back, so where a sum does not fit it ends beyond 32 bits.
        have hbeyond := le_cursorAfter (skipReserved (last + 1) + 1) (unnumbered plans)
        exact iff_of_false (fun h => hfits h.2.1) (by omega)
    · next hnumber =>
      rw [unnumbered_cons_of_ne hnumber]
      exact ih hlast hused hstart

theorem lt_succ_highestNumber {plans : List FieldPlan} :
    ∀ k ∈ usedNumbers plans, k < highestNumber plans + 1 :=
  fun k hk => Int.lt_add_one_of_le ((le_foldl_max _ 0).2 k hk)

theorem addsWithin32_iff_cursor {plans : List FieldPlan} :
    AddsWithin32 plans ↔ cursorAfter (highestNumber plans + 1) (unnumbered plans) ≤ maxInt32 := by
  have hpos := highestNumber_nonneg plans
  rw [AddsWithin32]
  by_cases hstart : highestNumber plans + 1 ≤ maxInt32
  · rw [succNumber_of_lt hpos hstart, assignsWithin32_iff hpos lt_succ_highestNumber hstart]
    exact and_iff_right hstart
  · have hbeyond := le_cursorAfter (highestNumber plans + 1) (unnumbered plans)
    exact iff_of_false (fun h => hstart h.1) (by omega)

/-- How many reserved numbers a count of numbers above the highest one jumps over. -/
def reservedBetween (highest : Int) (count : Nat) : Int :=
  if 0 < count ∧ 19000 ≤ highest + count ∧ highest < 19999 then 19999 - max highest 18999 else 0

theorem cursorAfter_eq (highest : Int) (count : Nat) :
    cursorAfter (highest + 1) count = highest + 1 + count + reservedBetween highest count := by
  -- A cursor meets the reserved range once: in front of it the count goes on, behind it nothing is left
  -- to jump over.
  induction count generalizing highest with
  | zero => simp [cursorAfter, reservedBetween]
  | succ count ih =>
    rw [cursorAfter, skipReserved]
    split
    · next hreserved =>
      have := isReservedNumber_iff.mp hreserved
      rw [cursorAfter_of_le (by decide), reservedBetween, if_pos (by omega)]
      omega
    · next hfree =>
      have := mt isReservedNumber_iff.mpr hfree
      rw [ih, reservedBetween, reservedBetween]
      split <;> split <;> omega

/-- The sums fit exactly if there is room for one number more than are in use or given. -/
theorem addsWithin32_iff_room {plans : List FieldPlan} :
    AddsWithin32 plans ↔ highestNumber plans + 1 + unnumbered plans
      + reservedBetween (highestNumber plans) (unnumbered plans) ≤ maxInt32 := by
  rw [addsWithin32_iff_cursor, cursorAfter_eq]

/-! ## The largest number -/

/-- Numbers that are kept or given lie below the cursor at the end. -/
theorem lt_cursorAfter {used : List Int} {last : Int} {plans : List FieldPlan} (hlast : 0 ≤ last)
    (hused : ∀ k ∈ used, k < last + 1) (hkept : ∀ plan ∈ plans, plan.shape.number ≤ last)
    (hroom : cursorAfter (last + 1) (unnumbered plans) ≤ maxInt32) :
    ∀ plan ∈ assignFrom used (last + 1) plans,
      plan.shape.number < cursorAfter (last + 1) (unnumbered plans) := by
  induction plans generalizing used last with
  | nil => simp [assignFrom]
  | cons plan plans ih =>
    rw [List.forall_mem_cons] at hkept
    by_cases hzero : plan.shape.number = 0
    · have habove := le_skipReserved (last + 1)
      have hend := le_cursorAfter (skipReserved (last + 1) + 1) (unnumbered plans)
      rw [unnumbered_cons_of_eq hzero, cursorAfter] at hroom ⊢
      rw [assignFrom_cons_of_eq hzero hlast hused (by omega), List.forall_mem_cons]
      refine ⟨by dsimp only; omega, ih (by omega) (forall_lt_of_given hused) ?_ hroom⟩
      intro other hother
      have := hkept.2 other hother
      omega
    · have hend := le_cursorAfter (last + 1) (unnumbered plans)
      rw [unnumbered_cons_of_ne hzero] at hroom ⊢
      rw [assignFrom_cons_of_ne hzero, List.forall_mem_cons]
      exact ⟨by omega, ih hlast hused hkept.2 hroom⟩

/-- A cursor that would leave 32 bits gives the largest number to a plan. -/
theorem exists_largest_of_beyond {used : List Int} {last : Int} {plans : List FieldPlan}
    (hlast : 0 ≤ last) (hused : ∀ k ∈ used, k < last + 1) (hstart : last + 1 ≤ maxInt32)
    (hbeyond : maxInt32 < cursorAfter (last + 1) (unnumbered plans)) :
    ∃ plan ∈ assignFrom used (last + 1) plans, plan.shape.number = maxInt32 := by
  induction plans generalizing used last with
  | nil => exact absurd hbeyond (Int.not_lt.mpr hstart)
  | cons plan plans ih =>
    by_cases hzero : plan.shape.number = 0
    · have habove := le_skipReserved (last + 1)
      have hreached : skipReserved (last + 1) ≤ maxInt32 := by
        rw [skipReserved]
        split
        · decide
        · exact hstart
      -- A number that leaves no room for one more is the largest one.
      rcases Int.lt_or_eq_of_le hreached with hfits | hlargest
      · rw [unnumbered_cons_of_eq hzero, cursorAfter] at hbeyond
        rw [assignFrom_cons_of_eq hzero hlast hused hfits]
        obtain ⟨other, hother, heq⟩ := ih (by omega) (forall_lt_of_given hused) hfits hbeyond
        exact ⟨other, List.mem_cons_of_mem _ hother, heq⟩
      · rw [assignFrom, if_pos hzero, freeNumber_of_above hused]
        exact ⟨_, List.mem_cons_self, hlargest⟩
    · rw [unnumbered_cons_of_ne hzero] at hbeyond
      rw [assignFrom_cons_of_ne hzero]
      obtain ⟨other, hother, heq⟩ := ih hlast hused hstart hbeyond
      exact ⟨other, List.mem_cons_of_mem _ hother, heq⟩

/-- The highest number in use is that of a plan, or zero. -/
theorem highestNumber_eq (plans : List FieldPlan) :
    highestNumber plans = 0 ∨ ∃ plan ∈ plans, plan.shape.number = highestNumber plans := by
  have hmem : ∀ (numbers : List Int) (start : Int),
      numbers.foldl max start = start ∨ numbers.foldl max start ∈ numbers := by
    intro numbers
    induction numbers with
    | nil => exact fun start => Or.inl rfl
    | cons n numbers ih =>
      intro start
      rw [List.foldl_cons, List.mem_cons]
      rcases ih (max start n) with hmax | hrest
      · rw [hmax]
        omega
      · exact Or.inr (Or.inr hrest)
  exact (hmem (usedNumbers plans) 0).imp_right fun h => (mem_usedNumbers.mp h).2

/-- Of plans with numbers of 32 bits, one has the largest number once they are numbered, unless all sums
fit. -/
theorem exists_largest_of_not_addsWithin32 {plans : List FieldPlan}
    (hrange : ∀ plan ∈ plans, plan.shape.number ≤ maxInt32) (h : ¬ AddsWithin32 plans) :
    ∃ plan ∈ assignNumbers plans, plan.shape.number = maxInt32 := by
  have hpos := highestNumber_nonneg plans
  rw [addsWithin32_iff_cursor, Int.not_le] at h
  by_cases hstart : highestNumber plans + 1 ≤ maxInt32
  · rw [assignNumbers, succNumber_of_lt hpos hstart]
    exact exists_largest_of_beyond hpos lt_succ_highestNumber hstart h
  · rcases highestNumber_eq plans with hzero | ⟨plan, hplan, hhighest⟩
    · rw [hzero] at hstart
      exact absurd (by decide) hstart
    · -- The plan with the highest number has the largest one, and keeps it.
      have hlargest : plan.shape.number = maxInt32 := by
        have := hrange plan hplan
        omega
      obtain ⟨numbered, hnumbered, -, hkept⟩ :=
        exists_right_of_forall₂ (forall₂_assignNumbers plans) hplan
      refine ⟨numbered, hnumbered, ?_⟩
      rw [hkept (by rw [hlargest]; decide), hlargest]

theorem addsWithin32_iff_lt {plans : List FieldPlan}
    (hrange : ∀ plan ∈ plans, plan.shape.number ≤ maxInt32) :
    AddsWithin32 plans ↔ ∀ plan ∈ assignNumbers plans, plan.shape.number < maxInt32 := by
  constructor
  · intro h plan hplan
    rw [addsWithin32_iff_cursor] at h
    have hpos := highestNumber_nonneg plans
    have hend := le_cursorAfter (highestNumber plans + 1) (unnumbered plans)
    rw [assignNumbers, succNumber_of_lt hpos (by omega)] at hplan
    exact Int.lt_of_lt_of_le (lt_cursorAfter hpos lt_succ_highestNumber
      (fun _ hother => le_highestNumber hother) h plan hplan) h
  · intro hall
    by_contra hnot
    obtain ⟨plan, hplan, heq⟩ := exists_largest_of_not_addsWithin32 hrange hnot
    exact Int.lt_irrefl maxInt32 (heq ▸ hall plan hplan)

/-! ## Planned messages -/

theorem mem_numberProblems_of_largest {plans : List FieldPlan} {plan : FieldPlan} (hplan : plan ∈ plans)
    (hlargest : plan.shape.number = maxInt32) :
    plan.shape.name ++ ": number 2147483647 is out of range" ∈ numberProblems plans := by
  rw [numberProblems]
  generalize ([] : List (Int × String)) = earlier
  induction plans generalizing earlier with
  | nil => exact absurd hplan List.not_mem_nil
  | cons first plans ih =>
    rw [numberProblemsFrom, List.mem_append]
    rcases List.mem_cons.mp hplan with rfl | hplan
    · refine Or.inl (Option.mem_toList.mpr ?_)
      have htext : ": number " ++ (toString maxInt32 ++ " is out of range")
          = ": number 2147483647 is out of range" := by decide
      rw [hlargest, numberProblem?, if_pos (by decide), String.append_assoc, String.append_assoc, htext]
    · exact Or.inr (ih hplan _)

/-- An item with a virtual field that asks for a number and one that does not. -/
def markedItem (mark : Int) : SourceMessage where
  fullName := ".p.Item"
  name := "Item"
  file := "p.proto"
  fields := [{ name := "sku", number := 1, kind := .scalar .string }]
  options :=
    { generate := true
      virtualFields :=
        [{ name := "mark", kind := "string", number := mark }, { name := "note", kind := "string" }] }

/-- The schema of an item. -/
def itemSchema (mark : Int) : Schema where
  messages := [markedItem mark]

/-- The outline of an item. -/
def itemOutline (mark : Int) : MessagePlan :=
  MessagePlan.outline (Renames.ofSchema (itemSchema mark) "Plain") (markedItem mark)

/-- The fields of an item before they are numbered. -/
def itemPlans (mark : Int) : List FieldPlan :=
  (markedItem mark).candidates (itemSchema mark) {} (itemOutline mark).newFullName

end PlainSchema
