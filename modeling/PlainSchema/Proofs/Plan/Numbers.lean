import Mathlib.Data.List.Chain
import Mathlib.Data.List.Forall2
import PlainSchema.Plan.Numbering

/-!
# The numbers that fields are given

Fields without a number are given numbers by a cursor that starts above all numbers in use and moves
upward past the reserved range, `skipReserved`.  As long as the cursor stays within 32 bits, the numbers
that it gives are consecutive except for the jump over that range: `numbersFreshly_assignNumbers`.

Beyond 32 bits the cursor wraps around.  The search for a free number goes on from there, so whatever
it finds, **no number is given twice**: `nodup_assignNumbers`.
-/

namespace PlainSchema

open Proto

theorem isReservedNumber_iff {n : Int} : isReservedNumber n ↔ 19000 ≤ n ∧ n ≤ 19999 := by
  simp [isReservedNumber]

theorem isFieldNumber_iff {n : Int} :
    isFieldNumber n ↔ 1 ≤ n ∧ n ≤ 536870911 ∧ ¬ (19000 ≤ n ∧ n ≤ 19999) := by
  rw [← isReservedNumber_iff, isFieldNumber, isNumberInRange, maxFieldNumber]
  simp only [Bool.and_eq_true, decide_eq_true_eq, Bool.not_eq_true', Bool.not_eq_true, and_assoc]
  exact Iff.rfl

/-- The largest number of 32 bits. -/
def maxInt32 : Int := 2147483647

theorem succNumber_of_lt {n : Int} (hpos : 0 ≤ n) (h : n < maxInt32) : succNumber n = n + 1 := by
  rw [maxInt32] at h
  rw [succNumber, Int.bmod_eq_of_le (by omega) (by omega)]

/-! ## The cursor -/

/-- The first number from `n` on that is not reserved. -/
def skipReserved (n : Int) : Int :=
  if isReservedNumber n then 20000 else n

theorem le_skipReserved (n : Int) : n ≤ skipReserved n := by
  rw [skipReserved]
  split
  · next h => exact Int.le_trans (isReservedNumber_iff.mp h).2 (by decide)
  · exact Int.le_refl n

theorem isReservedNumber_skipReserved (n : Int) : isReservedNumber (skipReserved n) = false := by
  rw [skipReserved]
  split
  · rfl
  · next h => exact Bool.not_eq_true _ ▸ h

/-- Where a cursor stands after a count of numbers. -/
def cursorAfter (next : Int) : Nat → Int
  | 0 => next
  | count + 1 => cursorAfter (skipReserved next + 1) count

theorem le_cursorAfter (next : Int) (count : Nat) : next + count ≤ cursorAfter next count := by
  induction count generalizing next with
  | zero => exact Int.le_of_eq (Int.add_zero next)
  | succ count ih =>
    have hskip := le_skipReserved next
    have hrest := ih (skipReserved next + 1)
    rw [cursorAfter]
    omega

theorem cursorAfter_of_le {next : Int} (h : 20000 ≤ next) (count : Nat) :
    cursorAfter next count = next + count := by
  induction count generalizing next with
  | zero => exact (Int.add_zero next).symm
  | succ count ih =>
    have hskip : skipReserved next = next :=
      if_neg fun hreserved => by have := isReservedNumber_iff.mp hreserved; omega
    rw [cursorAfter, hskip, ih (by omega)]
    omega

/-- The reserved range costs a cursor no more than its length. -/
theorem cursorAfter_le (next : Int) (count : Nat) :
    cursorAfter next count ≤ next + count + 1000 := by
  induction count generalizing next with
  | zero => rw [cursorAfter]; omega
  | succ count ih =>
    rw [cursorAfter, skipReserved]
    split
    · next hreserved =>
      have := isReservedNumber_iff.mp hreserved
      rw [cursorAfter_of_le (by decide)]
      omega
    · have := ih (next + 1)
      omega

/-! ## Free numbers -/

theorem le_foldl_max (numbers : List Int) (start : Int) :
    start ≤ numbers.foldl max start ∧ ∀ n ∈ numbers, n ≤ numbers.foldl max start := by
  induction numbers generalizing start with
  | nil => simp
  | cons n numbers ih =>
    obtain ⟨hstart, hrest⟩ := ih (max start n)
    rw [List.foldl_cons, List.forall_mem_cons]
    exact ⟨Int.le_trans (Int.le_max_left _ _) hstart, Int.le_trans (Int.le_max_right _ _) hstart,
      hrest⟩

/-- A number that was found is not in use. -/
theorem freeNumberAmong_notMem (used : List Int) (count : Nat) (n : Int) :
    freeNumberAmong used count n ∉ used := by
  induction count generalizing n with
  | zero =>
    intro hmem
    have hle := (le_foldl_max used 0).2 _ hmem
    rw [freeNumberAmong] at hle
    omega
  | succ count ih =>
    rw [freeNumberAmong]
    split
    · exact ih _
    · next hfree =>
      rw [Bool.or_eq_true, not_or, List.contains_iff_mem] at hfree
      exact hfree.1

/-- The search goes through the reserved range. -/
theorem freeNumberAmong_of_reserved {used : List Int} {n : Int} {count gap : Nat}
    (hused : ∀ k ∈ used, k < n) (hgap : n + gap = 20000) (hfrom : 19000 ≤ n) (hcount : gap < count) :
    freeNumberAmong used count n = 20000 := by
  have hunused : used.contains n = false := by
    rw [← Bool.not_eq_true, List.contains_iff_mem]
    exact fun hmem => Int.lt_irrefl n (hused n hmem)
  obtain ⟨count, rfl⟩ := Nat.exists_eq_succ_of_ne_zero (by omega : count ≠ 0)
  rw [freeNumberAmong, hunused, Bool.false_or]
  -- The gap is the way to the end of the reserved range.  No number on it is in use, so the search
  -- steps on for no other reason than the range.
  induction gap generalizing n count with
  | zero =>
    obtain rfl : n = 20000 := by omega
    rfl
  | succ gap ih =>
    have hreserved : isReservedNumber n := isReservedNumber_iff.mpr (by omega)
    have hnext : ∀ k ∈ used, k < n + 1 := fun k hk => by
      have := hused k hk
      omega
    have hunused' : used.contains (n + 1) = false := by
      rw [← Bool.not_eq_true, List.contains_iff_mem]
      exact fun hmem => Int.lt_irrefl _ (hnext _ hmem)
    obtain ⟨count, rfl⟩ := Nat.exists_eq_succ_of_ne_zero (by omega : count ≠ 0)
    rw [if_pos hreserved, succNumber_of_lt (by omega) (by rw [maxInt32]; omega), freeNumberAmong,
      hunused', Bool.false_or]
    exact ih hnext (by omega) (by omega) hunused' count (by omega)

/-- Above all numbers in use, the search stops at once or behind the reserved range. -/
theorem freeNumber_of_above {used : List Int} {n : Int} (hused : ∀ k ∈ used, k < n) :
    freeNumber used n = skipReserved n := by
  rw [freeNumber, skipReserved]
  split
  · next hreserved =>
    have := isReservedNumber_iff.mp hreserved
    have hgap : n + ((20000 - n).toNat : Int) = 20000 := by omega
    exact freeNumberAmong_of_reserved hused hgap this.1 (by omega)
  · next hfree =>
    rw [freeNumberAmong, if_neg]
    rw [Bool.or_eq_true, not_or, List.contains_iff_mem]
    exact ⟨fun hmem => Int.lt_irrefl n (hused n hmem), hfree⟩

/-! ## Assigned numbers -/

/-- Plans that have numbers stay as they are, and the others get no more than a number. -/
theorem forall₂_assignNumbers (plans : List FieldPlan) :
    List.Forall₂ (fun plan numbered =>
        (∃ number : Int, numbered = { plan with shape := { plan.shape with number } }) ∧
          (plan.shape.number ≠ 0 → numbered = plan)) plans (assignNumbers plans) := by
  rw [assignNumbers]
  generalize usedNumbers plans = used
  generalize succNumber (highestNumber plans) = next
  induction plans generalizing used next with
  | nil => exact .nil
  | cons plan plans ih =>
    rw [assignFrom]
    split
    · next hzero => exact .cons ⟨⟨_, rfl⟩, fun hnumber => absurd hzero hnumber⟩ (ih _ _)
    · exact .cons ⟨⟨plan.shape.number, rfl⟩, fun _ => rfl⟩ (ih _ _)

/-- The numbers of plans. -/
def numbersOf (plans : List FieldPlan) : List Int :=
  plans.map (·.shape.number)

@[simp] theorem numbersOf_cons (plan : FieldPlan) (plans : List FieldPlan) :
    numbersOf (plan :: plans) = plan.shape.number :: numbersOf plans :=
  rfl

theorem mem_numbersOf {plans : List FieldPlan} {n : Int} :
    n ∈ numbersOf plans ↔ ∃ plan ∈ plans, plan.shape.number = n :=
  List.mem_map

/-- The numbers that are given in place of zeros, in order. -/
def givenNumbers (before after : List Int) : List Int :=
  (before.zip after).filterMap fun (n, number) => if n = 0 then some number else none

@[simp] theorem givenNumbers_cons_zero (number : Int) (before after : List Int) :
    givenNumbers (0 :: before) (number :: after) = number :: givenNumbers before after :=
  rfl

theorem givenNumbers_cons_of_ne {n : Int} (h : n ≠ 0) (number : Int) (before after : List Int) :
    givenNumbers (n :: before) (number :: after) = givenNumbers before after := by
  rw [givenNumbers, List.zip_cons_cons, List.filterMap_cons]
  simp only [h, if_false]
  rfl

/-- Where all numbers but zeros are kept, there are these and the ones that are given. -/
theorem perm_givenNumbers {before after : List Int}
    (h : List.Forall₂ (fun n number => n ≠ 0 → number = n) before after) :
    after.Perm (before.filter (· ≠ 0) ++ givenNumbers before after) := by
  induction h with
  | nil => exact .refl _
  | @cons n number before after hkept _ ih =>
    by_cases hzero : n = 0
    · subst hzero
      rw [List.filter_cons_of_neg (by simp), givenNumbers_cons_zero]
      exact (ih.cons number).trans List.perm_middle.symm
    · rw [List.filter_cons_of_pos (by simpa using hzero), givenNumbers_cons_of_ne hzero, hkept hzero]
      exact ih.cons n

/-- How many plans have no number. -/
def unnumbered (plans : List FieldPlan) : Nat :=
  plans.countP (·.shape.number == 0)

theorem unnumbered_cons_of_eq {plan : FieldPlan} (h : plan.shape.number = 0)
    (plans : List FieldPlan) : unnumbered (plan :: plans) = unnumbered plans + 1 :=
  List.countP_cons_of_pos (by simpa using h)

theorem unnumbered_cons_of_ne {plan : FieldPlan} (h : plan.shape.number ≠ 0)
    (plans : List FieldPlan) : unnumbered (plan :: plans) = unnumbered plans :=
  List.countP_cons_of_neg (by simpa using h)

/-- The cursor stays above all numbers in use, those that it gave among them. -/
theorem forall_lt_of_given {used : List Int} {last : Int} (hused : ∀ k ∈ used, k < last + 1) :
    ∀ k ∈ skipReserved (last + 1) :: used, k < skipReserved (last + 1) + 1 := by
  have habove := le_skipReserved (last + 1)
  refine List.forall_mem_cons.mpr ⟨Int.lt_succ _, fun k hk => ?_⟩
  have := hused k hk
  omega

/-- From above all numbers in use, a plan without a number gets the first one that is not reserved. -/
theorem assignFrom_cons_of_eq {used : List Int} {last : Int} {plan : FieldPlan}
    (hzero : plan.shape.number = 0) (hlast : 0 ≤ last) (hused : ∀ k ∈ used, k < last + 1)
    (hfits : skipReserved (last + 1) < maxInt32) (plans : List FieldPlan) :
    assignFrom used (last + 1) (plan :: plans)
      = { plan with shape := { plan.shape with number := skipReserved (last + 1) } }
        :: assignFrom (skipReserved (last + 1) :: used) (skipReserved (last + 1) + 1) plans := by
  have habove := le_skipReserved (last + 1)
  rw [assignFrom, if_pos hzero, freeNumber_of_above hused]
  dsimp only
  rw [succNumber_of_lt (by omega) hfits]

theorem assignFrom_cons_of_ne {used : List Int} {next : Int} {plan : FieldPlan}
    (hnumber : plan.shape.number ≠ 0) (plans : List FieldPlan) :
    assignFrom used next (plan :: plans) = plan :: assignFrom used next plans := by
  rw [assignFrom, if_neg hnumber]

/-- From above all numbers in use, and within 32 bits, every number that is given is the one behind the
number before it. -/
theorem isChain_givenNumbers {used : List Int} {last : Int} {plans : List FieldPlan}
    (hlast : 0 ≤ last) (hused : ∀ k ∈ used, k < last + 1)
    (hroom : cursorAfter (last + 1) (unnumbered plans) ≤ maxInt32) :
    List.IsChain (fun a b => b = skipReserved (a + 1))
      (last :: givenNumbers (numbersOf plans) (numbersOf (assignFrom used (last + 1) plans))) := by
  -- A number that was given is in use from then on, and the cursor stands right above it: `last` is the
  -- highest number in use throughout.
  induction plans generalizing used last with
  | nil => exact List.isChain_singleton last
  | cons plan plans ih =>
    by_cases hzero : plan.shape.number = 0
    · rw [unnumbered_cons_of_eq hzero, cursorAfter] at hroom
      have habove := le_skipReserved (last + 1)
      have hwithin := le_cursorAfter (skipReserved (last + 1) + 1) (unnumbered plans)
      rw [assignFrom_cons_of_eq hzero hlast hused (by omega), numbersOf_cons, hzero]
      have hpos : 0 ≤ skipReserved (last + 1) := by omega
      exact List.isChain_cons_cons.mpr ⟨rfl, ih hpos (forall_lt_of_given hused) hroom⟩
    · rw [unnumbered_cons_of_ne hzero] at hroom
      rw [assignFrom_cons_of_ne hzero, numbersOf_cons, numbersOf_cons, givenNumbers_cons_of_ne hzero]
      exact ih hlast hused hroom

theorem mem_usedNumbers {plans : List FieldPlan} {n : Int} :
    n ∈ usedNumbers plans ↔ 0 < n ∧ ∃ plan ∈ plans, plan.shape.number = n := by
  rw [usedNumbers, List.mem_filter, List.mem_map, decide_eq_true_eq, and_comm]

theorem highestNumber_nonneg (plans : List FieldPlan) : 0 ≤ highestNumber plans :=
  (le_foldl_max _ 0).1

theorem le_highestNumber {plans : List FieldPlan} {plan : FieldPlan} (hplan : plan ∈ plans) :
    plan.shape.number ≤ highestNumber plans := by
  by_cases hpos : 0 < plan.shape.number
  · exact (le_foldl_max _ 0).2 _ (mem_usedNumbers.mpr ⟨hpos, plan, hplan, rfl⟩)
  · have := highestNumber_nonneg plans
    omega

/-- Plans with the numbers that they had, and with new ones above all of these in place of zeros:
strictly increasing, not reserved, and consecutive except for the jump over the reserved range. -/
structure NumbersFreshly (plans numbered : List FieldPlan) : Prop where
  keeps : List.Forall₂ (fun plan after =>
    (∃ number : Int, after = { plan with shape := { plan.shape with number } }) ∧
      (plan.shape.number ≠ 0 → after = plan)) plans numbered
  increasing : (givenNumbers (numbersOf plans) (numbersOf numbered)).Pairwise (· < ·)
  above : ∀ n ∈ givenNumbers (numbersOf plans) (numbersOf numbered),
    ∀ plan ∈ plans, plan.shape.number < n
  free : ∀ n ∈ givenNumbers (numbersOf plans) (numbersOf numbered), ¬ (19000 ≤ n ∧ n ≤ 19999)
  consecutive : List.IsChain
    (fun a b => b = if 19000 ≤ a + 1 ∧ a + 1 ≤ 19999 then 20000 else a + 1)
    (highestNumber plans :: givenNumbers (numbersOf plans) (numbersOf numbered))

theorem numbersFreshly_assignNumbers {plans : List FieldPlan}
    (hroom : cursorAfter (highestNumber plans + 1) (unnumbered plans) ≤ maxInt32) :
    NumbersFreshly plans (assignNumbers plans) := by
  have hpos := highestNumber_nonneg plans
  have hchain : List.IsChain (fun a b => b = skipReserved (a + 1))
      (highestNumber plans
        :: givenNumbers (numbersOf plans) (numbersOf (assignNumbers plans))) := by
    have hwithin := le_cursorAfter (highestNumber plans + 1) (unnumbered plans)
    rw [assignNumbers, succNumber_of_lt hpos (by omega)]
    refine isChain_givenNumbers hpos (fun k hk => ?_) hroom
    exact Int.lt_add_one_of_le ((le_foldl_max _ 0).2 k hk)
  -- The relation of neighbours is transitive once it says no more than larger and not reserved.
  have hgrows : List.Pairwise (fun a b => a < b ∧ isReservedNumber b = false)
      (highestNumber plans
        :: givenNumbers (numbersOf plans) (numbersOf (assignNumbers plans))) := by
    have htrans : Trans (fun a b : Int => a < b ∧ isReservedNumber b = false)
        (fun a b => a < b ∧ isReservedNumber b = false)
        (fun a b => a < b ∧ isReservedNumber b = false) :=
      ⟨fun hab hbc => ⟨Int.lt_trans hab.1 hbc.1, hbc.2⟩⟩
    refine List.isChain_iff_pairwise.mp (hchain.imp fun a b hab => ?_)
    rw [hab]
    exact ⟨Int.lt_of_add_one_le (le_skipReserved _), isReservedNumber_skipReserved _⟩
  obtain ⟨hhighest, hpairs⟩ := List.pairwise_cons.mp hgrows
  refine ⟨forall₂_assignNumbers plans, hpairs.imp And.left, fun n hn plan hplan => ?_,
    fun n hn hreserved => ?_, hchain.imp fun a b hab => ?_⟩
  · exact Int.lt_of_le_of_lt (le_highestNumber hplan) (hhighest n hn).1
  · have hfree := (hhighest n hn).2
    rw [isReservedNumber_iff.mpr hreserved] at hfree
    exact absurd hfree (by decide)
  · rw [hab, skipReserved]
    exact if_congr isReservedNumber_iff rfl rfl

/-! ## Distinct numbers -/

/-- Numbers in use are never given, and none is given twice. -/
theorem nodup_givenNumbers (used : List Int) (next : Int) (plans : List FieldPlan) :
    (givenNumbers (numbersOf plans) (numbersOf (assignFrom used next plans))).Nodup ∧
      ∀ n ∈ givenNumbers (numbersOf plans) (numbersOf (assignFrom used next plans)), n ∉ used := by
  -- The second part carries the first one, since a number that is given is in use for the later plans.
  induction plans generalizing used next with
  | nil => exact ⟨List.nodup_nil, by simp [numbersOf, givenNumbers]⟩
  | cons plan plans ih =>
    by_cases hzero : plan.shape.number = 0
    · obtain ⟨hnodup, hfresh⟩ :=
        ih (freeNumber used next :: used) (succNumber (freeNumber used next))
      rw [assignFrom, if_pos hzero, numbersOf_cons, numbersOf_cons, hzero, givenNumbers_cons_zero,
        List.nodup_cons, List.forall_mem_cons]
      exact ⟨⟨fun hmem => hfresh _ hmem List.mem_cons_self, hnodup⟩,
        freeNumberAmong_notMem used _ next,
        fun n hn hmem => hfresh n hn (List.mem_cons_of_mem _ hmem)⟩
    · rw [assignFrom_cons_of_ne hzero, numbersOf_cons, numbersOf_cons, givenNumbers_cons_of_ne hzero]
      exact ih used next

/-- Plans whose numbers are distinct as far as they have any get distinct numbers. -/
theorem nodup_assignNumbers {plans : List FieldPlan}
    (hnonneg : ∀ plan ∈ plans, 0 ≤ plan.shape.number)
    (hnodup : ((numbersOf plans).filter (· ≠ 0)).Nodup) :
    (numbersOf (assignNumbers plans)).Nodup := by
  have hkept : List.Forall₂ (fun n number => n ≠ 0 → number = n) (numbersOf plans)
      (numbersOf (assignNumbers plans)) := by
    refine List.forall₂_map_left_iff.mpr (List.forall₂_map_right_iff.mpr ?_)
    exact (forall₂_assignNumbers plans).imp fun plan numbered h hne =>
      congrArg (·.shape.number) (h.2 hne)
  obtain ⟨hgiven, hfresh⟩ :=
    nodup_givenNumbers (usedNumbers plans) (succNumber (highestNumber plans)) plans
  rw [(perm_givenNumbers hkept).nodup_iff, List.nodup_append]
  refine ⟨hnodup, hgiven, fun n hn k hk heq => hfresh k hk (mem_usedNumbers.mpr ?_)⟩
  obtain ⟨hn, hne⟩ := List.mem_filter.mp hn
  obtain ⟨plan, hplan, hnumber⟩ := mem_numbersOf.mp hn
  have := hnonneg plan hplan
  exact ⟨by simp only [decide_eq_true_eq] at hne; omega, plan, hplan, by omega⟩

/-! ## Problems with numbers -/

theorem lookup_eq_none_iff_notMem {earlier : List (Int × String)} {n : Int} :
    earlier.lookup n = none ↔ n ∉ earlier.map (·.1) := by
  simp only [List.lookup_eq_none_iff, List.mem_map, not_exists, not_and, bne_iff_ne]
  exact forall₂_congr fun pair _ => ne_comm

theorem numberProblem?_eq_none_iff {earlier : List (Int × String)} {name : String} {n : Int} :
    numberProblem? earlier name n = none ↔ isFieldNumber n ∧ n ∉ earlier.map (·.1) := by
  rw [numberProblem?, isFieldNumber, ← lookup_eq_none_iff_notMem]
  cases isNumberInRange n with
  | false => simp
  | true => cases isReservedNumber n <;> simp

theorem numberProblemsFrom_eq_nil_iff {earlier : List (Int × String)} {plans : List FieldPlan} :
    numberProblemsFrom earlier plans = [] ↔
      (∀ plan ∈ plans, isFieldNumber plan.shape.number ∧
        plan.shape.number ∉ earlier.map (·.1)) ∧ (numbersOf plans).Nodup := by
  induction plans generalizing earlier with
  | nil => simp [numberProblemsFrom, numbersOf]
  | cons plan plans ih =>
    rw [numberProblemsFrom, List.append_eq_nil_iff, Option.toList_eq_nil_iff,
      numberProblem?_eq_none_iff, ih, List.forall_mem_cons]
    simp only [List.map_cons, numbersOf_cons, List.nodup_cons, List.mem_cons, not_or, mem_numbersOf,
      not_exists, not_and]
    constructor
    · rintro ⟨hplan, hrest, hnodup⟩
      exact ⟨⟨hplan, fun other hother => ⟨(hrest other hother).1, (hrest other hother).2.2⟩⟩,
        fun other hother => (hrest other hother).2.1, hnodup⟩
    · rintro ⟨⟨hplan, hrest⟩, hne, hnodup⟩
      exact ⟨hplan, fun other hother =>
        ⟨(hrest other hother).1, hne other hother, (hrest other hother).2⟩, hnodup⟩

/-- There is no problem with plans that have valid numbers, all of them different, and with no others. -/
theorem numberProblems_eq_nil_iff {plans : List FieldPlan} :
    numberProblems plans = [] ↔
      (∀ plan ∈ plans, isFieldNumber plan.shape.number) ∧ (numbersOf plans).Nodup := by
  rw [numberProblems, numberProblemsFrom_eq_nil_iff]
  simp

/-- A text says that the number of a plan is out of range or reserved. -/
def IsRangeProblem (plan : FieldPlan) (text : String) : Prop :=
  let n := plan.shape.number
  let subject := plan.shape.name ++ ": number " ++ toString n
  ¬ (1 ≤ n ∧ n ≤ 536870911) ∧ text = subject ++ " is out of range" ∨
    (19000 ≤ n ∧ n ≤ 19999) ∧ text = subject ++ " falls in the reserved range 19000-19999"

theorem isRangeProblem_of_numberProblem? {earlier : List (Int × String)} {plan : FieldPlan}
    {text : String} (hnew : plan.shape.number ∉ earlier.map (·.1))
    (h : numberProblem? earlier plan.shape.name plan.shape.number = some text) :
    IsRangeProblem plan text := by
  rw [numberProblem?] at h
  split at h
  · next hrange =>
    refine Or.inl ⟨fun hwithin => ?_, (Option.some.inj h).symm⟩
    have hpos : 0 < plan.shape.number := hwithin.1
    simp [isNumberInRange, maxFieldNumber, hwithin.2, hpos] at hrange
  · split at h
    · next hreserved =>
      exact Or.inr ⟨isReservedNumber_iff.mp hreserved, (Option.some.inj h).symm⟩
    · rw [(lookup_eq_none_iff_notMem).mpr hnew] at h
      exact absurd h nofun

/-- Of different numbers every problem is about the range. -/
theorem isRangeProblem_of_mem_numberProblems {plans : List FieldPlan}
    (hnodup : (numbersOf plans).Nodup) {text : String} (h : text ∈ numberProblems plans) :
    ∃ plan ∈ plans, IsRangeProblem plan text := by
  -- Of the earlier numbers it only matters that no plan to come has one of them.
  suffices hfrom : ∀ earlier : List (Int × String),
      (∀ plan ∈ plans, plan.shape.number ∉ earlier.map (·.1)) →
      text ∈ numberProblemsFrom earlier plans → ∃ plan ∈ plans, IsRangeProblem plan text from
    hfrom [] (by simp) h
  clear h
  induction plans with
  | nil => simp [numberProblemsFrom]
  | cons plan plans ih =>
    rw [numbersOf_cons, List.nodup_cons] at hnodup
    intro earlier hnew h
    rw [List.forall_mem_cons] at hnew
    rw [numberProblemsFrom, List.mem_append, Option.mem_toList] at h
    rcases h with hfirst | hrest
    · exact ⟨plan, List.mem_cons_self, isRangeProblem_of_numberProblem? hnew.1 hfirst⟩
    · have hlater : ∀ other ∈ plans, other.shape.number ∉
          ((plan.shape.number, plan.shape.name) :: earlier).map (·.1) := by
        intro other hother
        rw [List.map_cons, List.mem_cons, not_or]
        exact ⟨fun heq => hnodup.1 (mem_numbersOf.mpr ⟨other, hother, heq⟩), hnew.2 other hother⟩
      obtain ⟨other, hother, hproblem⟩ := ih hnodup.2 _ hlater hrest
      exact ⟨other, List.mem_cons_of_mem _ hother, hproblem⟩

end PlainSchema
