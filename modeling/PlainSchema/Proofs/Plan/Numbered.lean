import PlainSchema.Proofs.Plan.Expanded
import PlainSchema.Proofs.Plan.Merged
import PlainSchema.Proofs.Plan.Sources
import PlainSchema.Proofs.Schema.VirtualNumbers

/-!
# Numbers of planned messages

The numbers of a planned message come from three places.

```text
a field at the root      the number of the source field: FieldPlan.NumberedAs
a virtual field          the number that it asks for, if any
anything else            no number: inlined fields, fields that serve a oneof, companions
```

In a schema without errors whose source fields have distinct numbers, **no two of these numbers are
the same**, `nodup_numbers_candidates`, and merging adds none, `numbers_sublist_of_resolveCollisions`.
So the numbers of a message are distinct once they are assigned, and no build fails because a number is
used twice: `numbers_stable_fresh_complete`.
-/

namespace PlainSchema

open Proto

/-- A plan stands at the root for a field of a message, and has its number. -/
structure FieldPlan.NumberedAs (m : SourceMessage) (field : SourceField) (plan : FieldPlan) :
    Prop where
  source : plan.source = some (m.refTo field)
  path : plan.origin.sourcePath = [field.name]
  number : plan.shape.number = field.number

/-- A plan that does not stand at the root has no number. -/
structure FieldPlan.NumberedLater (plan : FieldPlan) : Prop where
  path : plan.origin.sourcePath.length ≠ 1
  number : plan.shape.number = 0

/-- A field is planned at the root, or it is inlined. -/
def RootPlans (m : SourceMessage) (field : SourceField) (plans : List FieldPlan) : Prop :=
  (∃ plan, plans = [plan] ∧ plan.NumberedAs m field) ∨ ∀ plan ∈ plans, plan.NumberedLater

/-! ## The plans of one field -/

section Flattening

variable {ctx : PlanContext} {m : SourceMessage} {field : SourceField} {scope : Scope}
  {plans : List FieldPlan}

theorem RootPlans.map (h : RootPlans m field plans) {f : FieldPlan → FieldPlan}
    (hf : ∀ plan, (f plan).source = plan.source ∧
      (f plan).origin.sourcePath = plan.origin.sourcePath ∧
      (f plan).shape.number = plan.shape.number) : RootPlans m field (plans.map f) := by
  rcases h with ⟨plan, rfl, hplan⟩ | hlater
  · obtain ⟨hsource, hpath, hnumber⟩ := hf plan
    exact Or.inl ⟨f plan, rfl, hsource.trans hplan.source, hpath.trans hplan.path,
      hnumber.trans hplan.number⟩
  · refine Or.inr (List.forall_mem_map.mpr fun plan hplan => ?_)
    obtain ⟨-, hpath, hnumber⟩ := hf plan
    exact ⟨hpath ▸ (hlater plan hplan).path, hnumber.trans (hlater plan hplan).number⟩

theorem RootPlans.forall (h : RootPlans m field plans) :
    ∀ plan ∈ plans, plan.NumberedAs m field ∨ plan.NumberedLater := by
  rcases h with ⟨plan, rfl, hplan⟩ | hlater
  · exact List.forall_mem_singleton.mpr (Or.inl hplan)
  · exact fun plan hplan => Or.inr (hlater plan hplan)

theorem RootPlans.separates (h : RootPlans m field plans) :
    SeparatesFields (·.shape.number ≠ 0) (fun a b => a.shape.number ≠ b.shape.number)
      (FieldPlan.NumberedAs m) [field] plans := by
  rcases h with ⟨plan, rfl, hplan⟩ | hlater
  · refine .of_owned ?_ fun other hother _ => List.mem_singleton.mp hother ▸ hplan
    exact (List.pairwise_singleton _ _).filter _
  · exact .of_uncounted fun plan hplan => by simp [(hlater plan hplan).number]

theorem number_planField (ctx : PlanContext) (m : SourceMessage) (field : SourceField)
    (scope : Scope) : (ctx.planField m field scope).shape.number
      = if scope.path.isEmpty then field.number else 0 := by
  have hvalue : (ctx.valuePlan m field scope).shape.number
      = if scope.path.isEmpty then field.number else 0 := by
    rw [PlanContext.valuePlan]
    split
    · rfl
    · split
      · rfl
      · split <;> rfl
  rw [PlanContext.planField]
  split <;> exact hvalue

/-- Inlined fields stand below the field that inlines them, and have no number. -/
theorem numberedLater_embedWithin {levels : Nat} {isPrefixed : Bool} {plan : FieldPlan}
    (hplan : plan ∈ ctx.embedWithin levels m field scope isPrefixed) :
    scope.path.length + 1 < plan.origin.sourcePath.length ∧ plan.shape.number = 0 := by
  -- Every level adds a name to the path, so what is inlined never stands at the root.
  induction levels generalizing m field scope isPrefixed plan with
  | zero => simp [PlanContext.embedWithin] at hplan
  | succ levels ih =>
    rw [PlanContext.embedWithin] at hplan
    split at hplan
    · simp at hplan
    · next target htarget =>
      obtain ⟨f, hf, hplan⟩ := List.mem_flatMap.mp hplan
      obtain ⟨inner, hinner, rfl⟩ := List.mem_map.mp hplan
      have hpath : (PlanContext.innerScope m field scope isPrefixed).path = scope.path ++ [field.name] :=
        rfl
      split at hinner
      · obtain ⟨hlength, hnumber⟩ := ih hinner
        rw [hpath, List.length_append, List.length_singleton] at hlength
        exact ⟨Nat.lt_of_succ_lt hlength, hnumber⟩
      · rw [List.mem_singleton.mp hinner]
        change _ < (ctx.planField ..).origin.sourcePath.length ∧ (ctx.planField ..).shape.number = 0
        rw [sourcePath_planField, number_planField, hpath]
        simp

theorem rootPlans_embedField {isPrefixed : Bool} :
    RootPlans m field (ctx.embedField m field scope isPrefixed) := by
  refine Or.inr fun plan hplan => ?_
  obtain ⟨hlength, hnumber⟩ := numberedLater_embedWithin hplan
  exact ⟨by omega, hnumber⟩

theorem rootPlans_flattenField (hscope : scope.path = []) :
    RootPlans m field (ctx.flattenField m field scope) := by
  rw [PlanContext.flattenField]
  split
  · exact rootPlans_embedField
  · refine Or.inl ⟨_, rfl, (standsFor_planField ctx m field scope).source, ?_, ?_⟩
    · rw [sourcePath_planField, hscope, List.nil_append]
    · rw [number_planField, hscope, if_pos List.isEmpty_nil]

theorem rootPlans_memberPlans {oneof namePrefix : String} :
    RootPlans m field (ctx.memberPlans m oneof namePrefix field) := by
  rw [PlanContext.memberPlans]
  split
  · exact rootPlans_embedField
  · exact (rootPlans_flattenField rfl).map fun _ => ⟨rfl, rfl, rfl⟩

end Flattening

/-! ## The candidates of a message -/

section Candidates

variable {schema : Schema} {settings : Settings} {m : SourceMessage} {newFullName : String}

/-- The fields of every message of a schema have positive numbers of their own. -/
def Schema.NumbersFields (schema : Schema) : Prop :=
  ∀ m ∈ schema.messages, (m.fields.map (·.number)).Nodup ∧ ∀ field ∈ m.fields, 0 < field.number

instance (schema : Schema) : Decidable schema.NumbersFields :=
  inferInstanceAs (Decidable (∀ m ∈ schema.messages, _ ∧ _))

/-- The plans that the fields of a message are replaced by have numbers of fields at the root, each
once. -/
theorem separates_numbers {ctx : PlanContext} (hnumbers : (m.fields.map (·.number)).Nodup) :
    SeparatesFields (·.shape.number ≠ 0) (fun a b => a.shape.number ≠ b.shape.number)
      (FieldPlan.NumberedAs m) m.fields (expandFields ctx m newFullName).plans := by
  refine separates_expandFields (hnumbers.of_map _) ?_ ?_ ?_ ?_
  · intro first hfirst second hsecond hne a b ha hb heq
    rw [ha.number, hb.number] at heq
    exact hne (List.inj_on_of_nodup_map hnumbers hfirst hsecond heq)
  · intros
    rfl
  · intro field _ _ place
    have hroot : RootPlans m field (ctx.flattenField m field {}) := rootPlans_flattenField rfl
    refine RootPlans.separates (RootPlans.map hroot fun _ => ?_)
    exact ⟨rfl, rfl, rfl⟩
  · intro index _ member _ oneof namePrefix
    exact rootPlans_memberPlans.separates

/-- A plan stands at the root for a field of the message, or elsewhere and has a number or none. -/
def FieldPlan.NumberedFrom (m : SourceMessage) (plan : FieldPlan) : Prop :=
  (∃ field ∈ m.fields, plan.NumberedAs m field) ∨
    plan.origin.sourcePath.length ≠ 1 ∧ 0 ≤ plan.shape.number

theorem FieldPlan.NumberedLater.numberedFrom {plan : FieldPlan} (h : plan.NumberedLater) :
    plan.NumberedFrom m :=
  Or.inr ⟨h.path, Int.le_of_eq h.number.symm⟩

theorem RootPlans.numberedFrom {field : SourceField} {plans : List FieldPlan}
    (h : RootPlans m field plans) (hfield : field ∈ m.fields) :
    ∀ plan ∈ plans, plan.NumberedFrom m :=
  fun plan hplan => (h.forall plan hplan).elim (fun hroot => Or.inl ⟨field, hfield, hroot⟩)
    (·.numberedFrom)

theorem numberedFrom_expandFields {ctx : PlanContext} :
    ∀ plan ∈ (expandFields ctx m newFullName).plans, plan.NumberedFrom m := by
  refine expandFields_forall (fun field hfield plan hplan oneofIndex => ?_) fun index _ => ?_
  · rcases (rootPlans_flattenField rfl).numberedFrom hfield plan hplan with ⟨f, hf, hroot⟩ | hlater
    · exact Or.inl ⟨f, hf, hroot.source, hroot.path, hroot.number⟩
    · exact Or.inr hlater
  · refine expand_forall (fun _ _ _ _ _ _ _ => ?_) fun member hmember _ _ => ?_
    · exact FieldPlan.NumberedLater.numberedFrom ⟨by simp [oneofFieldPlan], rfl⟩
    · exact rootPlans_memberPlans.numberedFrom (List.mem_filter.mp hmember).1

/-- The candidates of a message of a schema without errors have no negative numbers, and those that
stand at the root have the numbers of their fields. -/
theorem numberedFrom_candidates :
    ∀ plan ∈ m.candidates schema settings newFullName, plan.NumberedFrom m := by
  refine List.forall_mem_append.mpr ⟨numberedFrom_expandFields, List.forall_mem_map.mpr ?_⟩
  exact fun field _ => Or.inr ⟨by simp [virtualFieldPlan], Int.le_max_right _ _⟩

/-- In a schema without errors the candidates of a generated message have distinct numbers, as far as
they have any. -/
theorem nodup_numbers_candidates (hfindings : NoErrors schema.findings) (hm : m ∈ schema.messages)
    (hgenerate : m.options.generate) (hnumbers : (m.fields.map (·.number)).Nodup) :
    ((numbersOf (m.candidates schema settings newFullName)).filter (· ≠ 0)).Nodup := by
  obtain ⟨hnonneg, hdistinct, hfresh⟩ :=
    numbers_of_virtualFieldsFindings (Schema.noErrors_of_virtual hfindings hm hgenerate).2
  have hexpanded : SeparatesFields (·.shape.number ≠ 0) (fun a b => a.shape.number ≠ b.shape.number)
      (FieldPlan.NumberedAs m) m.fields
      (expandFields (PlanContext.ofFile schema m.file) m newFullName).plans :=
    separates_numbers hnumbers
  have hvirtual : numbersOf (m.options.virtualFields.map
      (virtualFieldPlan m newFullName settings.suffix)) = m.options.virtualFields.map (·.number) := by
    rw [numbersOf, List.map_map]
    exact List.map_congr_left fun field hfield => Int.max_eq_left (hnonneg field hfield)
  have hpositive : (m.options.virtualFields.map (·.number)).filter (· ≠ 0)
      = (m.options.virtualFields.map (·.number)).filter (0 < ·) := by
    refine List.filter_congr (List.forall_mem_map.mpr fun field hfield => ?_)
    have := hnonneg field hfield
    simp only [decide_eq_decide]
    omega
  rw [SourceMessage.candidates, numbersOf, List.map_append, List.filter_append, ← numbersOf,
    ← numbersOf, hvirtual, hpositive, List.nodup_append]
  -- A number of a plan at the root is one of a source field, and validation has checked the virtual
  -- fields against all of these, also where the source field is dissolved.
  refine ⟨?_, hdistinct, fun n hn k hk heq => ?_⟩
  · rw [numbersOf, List.filter_map, List.Nodup, List.pairwise_map]
    exact hexpanded.apart
  · obtain ⟨hn, hne⟩ := List.mem_filter.mp hn
    obtain ⟨plan, hplan, rfl⟩ := List.mem_map.mp hn
    obtain ⟨field, hfield, hroot⟩ := hexpanded.owned plan hplan (by simpa using hne)
    obtain ⟨hk, hpos⟩ := List.mem_filter.mp hk
    obtain ⟨virtual, hmem, rfl⟩ := List.mem_map.mp hk
    refine hfresh virtual hmem (by simpa using hpos) ?_
    rw [← heq, hroot.number]
    exact List.mem_map_of_mem hfield

end Candidates

/-! ## Merged plans -/

/-- Merging leaves the numbers of some of the plans, in order, and adds none. -/
theorem numbers_sublist_of_resolveCollisions {message : String} {plans merged : List FieldPlan}
    {enableCrf : Bool} {entries : List CrfEntry}
    (h : resolveCollisions message plans enableCrf = .ok (merged, entries)) :
    ((numbersOf merged).filter (· ≠ 0)).Sublist ((numbersOf plans).filter (· ≠ 0)) := by
  obtain ⟨kept, groups, -, rfl, hgroups, firsts, hsub, hfrom⟩ := resolveCollisions_eq_ok_ordered h
  have hnumbers : numbersOf kept = numbersOf firsts :=
    map_eq_map_of_forall₂ hfrom fun _ _ hkept => congrArg FieldShape.number hkept.shape
  have hkept : (numbersOf groups.flatten).filter (· ≠ 0) = (numbersOf kept).filter (· ≠ 0) := by
    rw [numbersOf, numbersOf, List.filter_map, List.filter_map]
    exact congrArg (List.map _) (filter_flatten_of_companion hgroups fun _ => rfl)
  rw [hkept, hnumbers]
  exact (hsub.map _).filter _

/-- The companion of a merged field stands elsewhere and has no number. -/
theorem numberedFrom_resolveCollisions {m : SourceMessage} {message : String}
    {plans merged : List FieldPlan} {enableCrf : Bool} {entries : List CrfEntry}
    (hplans : ∀ plan ∈ plans, plan.NumberedFrom m)
    (h : resolveCollisions message plans enableCrf = .ok (merged, entries)) :
    ∀ plan ∈ merged, plan.NumberedFrom m := by
  refine resolveCollisions_forall (fun plan origin hplan => ?_) (fun field => ?_) hplans h
  · rcases hplan with ⟨field, hfield, hroot⟩ | hlater
    · exact Or.inl ⟨field, hfield, hroot.source, hroot.path, hroot.number⟩
    · exact Or.inr hlater
  · exact FieldPlan.NumberedLater.numberedFrom ⟨by simp [companionPlan], rfl⟩

/-- A planned message has the numbers of its source fields at the root, and no number twice. -/
theorem numbers_of_resolveCollisions {schema : Schema} {settings : Settings} {m : SourceMessage}
    {newFullName : String} {merged : List FieldPlan} {entries : List CrfEntry}
    (hnumbers : schema.NumbersFields) (hfindings : NoErrors schema.findings)
    (hm : m ∈ schema.messages) (hgenerate : m.options.generate)
    (h : resolveCollisions m.fullName (m.candidates schema settings newFullName) settings.enableCrf
      = .ok (merged, entries)) :
    (∀ plan ∈ assignNumbers merged, plan.origin.sourcePath.length = 1 →
        ∃ field ∈ m.fields, plan.NumberedAs m field) ∧
      (numbersOf (assignNumbers merged)).Nodup := by
  obtain ⟨hdistinct, hpositive⟩ := hnumbers m hm
  have hfrom : ∀ plan ∈ merged, plan.NumberedFrom m :=
    numberedFrom_resolveCollisions numberedFrom_candidates h
  constructor
  · intro numbered hnumbered hroot
    obtain ⟨plan, hplan, ⟨number, hnumber⟩, hkept⟩ :=
      exists_left_of_forall₂ (forall₂_assignNumbers merged) hnumbered
    have hsame : numbered.origin = plan.origin := by rw [hnumber]
    rw [hsame] at hroot
    rcases hfrom plan hplan with ⟨field, hfield, hplanned⟩ | ⟨hlater, -⟩
    · -- The number of a source field is positive, so the plan keeps it.
      have hne : plan.shape.number ≠ 0 := by
        rw [hplanned.number]
        exact Int.ne_of_gt (hpositive field hfield)
      exact ⟨field, hfield, hkept hne ▸ hplanned⟩
    · exact absurd hroot hlater
  · refine nodup_assignNumbers (fun plan hplan => ?_) ?_
    · rcases hfrom plan hplan with ⟨field, hfield, hplanned⟩ | ⟨-, hnonneg⟩
      · rw [hplanned.number]
        exact Int.le_of_lt (hpositive field hfield)
      · exact hnonneg
    · exact (numbers_sublist_of_resolveCollisions h).nodup
        (nodup_numbers_candidates hfindings hm hgenerate hdistinct)

/-- A schema whose plan fails over numbers has no errors, and the plan fails over the problems with one
generated message. -/
theorem Schema.plan_eq_invalidNumbers {schema : Schema} {settings : Settings}
    {findings : List Diagnostic} (h : schema.plan settings = .error (.invalidNumbers findings)) :
    NoErrors schema.findings ∧ ∃ m ∈ schema.messages, m.options.generate ∧
      ∃ newFullName merged entries,
        resolveCollisions m.fullName (m.candidates schema settings newFullName) settings.enableCrf
            = .ok (merged, entries) ∧
          findings = (numberProblems (assignNumbers merged)).map (.error m.fullName) := by
  rw [Schema.plan] at h
  dsimp only at h
  split at h
  · exact absurd h (by simp [bind, Except.bind])
  · next hnone =>
    refine ⟨fun finding hmem herror => hnone (List.any_eq_true.mpr ⟨finding, hmem, herror⟩), ?_⟩
    rcases bind_eq_error.mp h with hmessages | ⟨messages, -, h⟩
    · obtain ⟨m, hm, herror⟩ := mapM_eq_error hmessages
      split at herror
      · next hgenerate =>
        rw [SourceMessage.plan] at herror
        dsimp only at herror
        split at herror
        · exact absurd herror (by simp)
        · next merged entries hmerged =>
          split at herror
          · refine ⟨m, hm, hgenerate, _, merged, entries, hmerged, ?_⟩
            exact (PlanError.invalidNumbers.inj (Except.error.inj herror)).symm
          · exact absurd herror (by simp)
      · exact absurd herror (by simp)
    · exact absurd h (by simp [pure, Except.pure])

/-! ## The main result -/

/-- **Numbers are stable, fresh and complete.**  Plans keep the numbers that they have, and the others
are given new ones as `NumbersFreshly` says, whenever these fit into 32 bits.  No problem is found with
numbers exactly if all of them are valid and different.  In a schema without errors whose source fields
have positive numbers of their own, fields at the root have the numbers of their source fields and no
two fields of a message have one number, so a plan that fails over numbers fails over their range. -/
theorem numbers_stable_fresh_complete :
    (∀ plans : List FieldPlan, (∀ plan ∈ plans, 0 ≤ plan.shape.number) →
      highestNumber plans + plans.length + 1001 ≤ 2147483647 →
      NumbersFreshly plans (assignNumbers plans)) ∧
    (∀ plans : List FieldPlan, numberProblems plans = [] ↔
      (∀ plan ∈ plans, 1 ≤ plan.shape.number ∧ plan.shape.number ≤ 536870911 ∧
        ¬ (19000 ≤ plan.shape.number ∧ plan.shape.number ≤ 19999)) ∧
      (numbersOf plans).Nodup) ∧
    ∀ (schema : Schema) (settings : Settings), schema.NumbersFields →
      (∀ finding ∈ schema.findings, ¬ finding.isError) →
      (∀ m ∈ schema.messages, m.options.generate → ∀ newFullName merged entries,
        resolveCollisions m.fullName (m.candidates schema settings newFullName) settings.enableCrf
            = .ok (merged, entries) →
          (∀ plan ∈ assignNumbers merged, plan.origin.sourcePath.length = 1 →
            ∃ field ∈ m.fields, plan.NumberedAs m field) ∧
          (numbersOf (assignNumbers merged)).Nodup) ∧
      ∀ findings, schema.plan settings = .error (.invalidNumbers findings) →
        ∀ finding ∈ findings, ∃ m ∈ schema.messages, ∃ plan text,
          finding = .error m.fullName text ∧ IsRangeProblem plan text := by
  refine ⟨fun plans _ hroom => numbersFreshly_assignNumbers ?_, fun plans => ?_,
    fun schema settings hnumbers hfindings => ⟨fun m hm hgenerate newFullName merged entries h =>
      numbers_of_resolveCollisions hnumbers hfindings hm hgenerate h, ?_⟩⟩
  · have hcursor := cursorAfter_le (highestNumber plans + 1) (unnumbered plans)
    have hcount : unnumbered plans ≤ plans.length := List.countP_le_length
    rw [maxInt32]
    omega
  · simp only [numberProblems_eq_nil_iff, isFieldNumber_iff]
  · intro findings hplan finding hfinding
    obtain ⟨-, m, hm, hgenerate, newFullName, merged, entries, hmerged, rfl⟩ :=
      Schema.plan_eq_invalidNumbers hplan
    obtain ⟨text, htext, rfl⟩ := List.mem_map.mp hfinding
    have hdistinct := (numbers_of_resolveCollisions hnumbers hfindings hm hgenerate hmerged).2
    obtain ⟨plan, -, hproblem⟩ := isRangeProblem_of_mem_numberProblems hdistinct htext
    exact ⟨m, hm, plan, text, rfl, hproblem⟩

/-! ## A payment -/

/-- A payment by card or by note, with a virtual field that asks for a number and one that does not. -/
def markedPayment (mark : Int) : SourceMessage where
  fullName := ".p.Payment"
  name := "Payment"
  file := "p.proto"
  fields :=
    [{ name := "card", number := 2, kind := .message, typeRef := some ".p.Card", oneofIndex := some 0 },
      { name := "id", number := 3, kind := .scalar .string },
      { name := "note", number := 7, kind := .scalar .string, oneofIndex := some 0 }]
  oneofs := [{ name := "method", members := ["card", "note"], options := { embed := true } }]
  options :=
    { generate := true
      virtualFields :=
        [{ name := "mark", kind := "string", number := mark }, { name := "tag", kind := "string" }] }

/-- The schema of a payment.  A card has a number and an expiry date. -/
def markedSchema (mark : Int) : Schema where
  messages :=
    [{ fullName := ".p.Card", name := "Card", file := "p.proto"
       fields :=
        [{ name := "number", number := 1, kind := .scalar .string },
          { name := "expiry", number := 2, kind := .scalar .string }] },
      markedPayment mark]

/-- The fields of a payment before they are numbered. -/
def markedPlans (mark : Int) : List FieldPlan :=
  (((resolveCollisions ".p.Payment"
    ((markedPayment mark).candidates (markedSchema mark) {} ".p.PaymentPlain")
    false).toOption).getD ([], [])).1

/-- A payment keeps the numbers of its id, its note and its mark, and the fields of the card and the tag
are numbered behind them, past the reserved range if the mark stands in front of it.  If the mark stands
in the reserved range, nothing but the mark is wrong. -/
theorem marked_payment_numbered :
    NumbersFreshly (markedPlans 18998) (assignNumbers (markedPlans 18998)) ∧
      numberProblems (assignNumbers (markedPlans 18998)) = [] ∧
      numbersOf (assignNumbers (markedPlans 18998)) = [18999, 20000, 7, 3, 18998, 20001] ∧
      (numbersOf (assignNumbers (markedPlans 18998))).Nodup ∧
      (∃ plan ∈ assignNumbers (markedPlans 18998), plan.origin.sourcePath = ["note"] ∧
        ∃ field ∈ (markedPayment 18998).fields, plan.NumberedAs (markedPayment 18998) field) ∧
      ∃ findings, (markedSchema 19500).plan {} = .error (.invalidNumbers findings) ∧
        (∃ finding ∈ findings, ∃ m ∈ (markedSchema 19500).messages, ∃ plan text,
          finding = .error m.fullName text ∧ IsRangeProblem plan text) := by
  obtain ⟨hfresh, hproblems, hschemas⟩ := numbers_stable_fresh_complete
  have hmerged : resolveCollisions ".p.Payment" ((markedPayment 18998).candidates
      (markedSchema 18998) {} ".p.PaymentPlain") false = .ok (markedPlans 18998, []) := by
    decide +kernel
  have hnote : ∃ plan ∈ assignNumbers (markedPlans 18998), plan.origin.sourcePath = ["note"] := by
    decide +kernel
  have hfailed : (markedSchema 19500).plan {} = .error (.invalidNumbers
      [.error ".p.Payment" "mark: number 19500 falls in the reserved range 19000-19999"]) :=
    eq_error_of_errorOf? (by decide +kernel)
  obtain ⟨hmessages, -⟩ := hschemas (markedSchema 18998) {} (by decide +kernel) (by decide +kernel)
  obtain ⟨hroots, hdistinct⟩ := hmessages (markedPayment 18998) (by decide +kernel) rfl _ _ _ hmerged
  obtain ⟨-, hfails⟩ := hschemas (markedSchema 19500) {} (by decide +kernel) (by decide +kernel)
  obtain ⟨plan, hplan, hpath⟩ := hnote
  refine ⟨hfresh _ (by decide +kernel) (by decide +kernel), (hproblems _).mpr (by decide +kernel),
    by decide +kernel, hdistinct, ⟨plan, hplan, hpath, hroots plan hplan (by rw [hpath]; rfl)⟩,
    _, hfailed, _, List.mem_singleton_self _, hfails _ hfailed _ (List.mem_singleton_self _)⟩

end PlainSchema
