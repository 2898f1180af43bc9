import PlainSchema.Convert.ToPlain
import PlainSchema.Proofs.Convert.Tags
import PlainSchema.Proofs.Plan.Dispatched
import PlainSchema.Proofs.Schema.MemberOrder

/-!
# Which member a dispatch tag stands for

The enum that dispatches a oneof numbers the members from one on, and the converters read and write tags
by the same count.  All three follow the fields of the message that point at the oneof:

```text
generated enum     value i + 1 is named after the field at i            OneofPlan.DispatchedBy
Plain to source    tag i + 1 selects the field at i                     OneofPlan.TagsFields.reads
source to Plain    the field at i is recorded by the tag i + 1          OneofPlan.TagsFields.writes
```

A pool lists these fields **by ascending number**, and not in the order of declaration:
`members_by_number`.  The two orders agree exactly if the numbers ascend in the order of declaration.
With the member `card` of number 1 declared behind the member `bank` of number 2, the tag 1 stands for
`card`, see `bank_declared_first`.
-/

namespace PlainSchema

open Proto

/-- The tags of a dispatched oneof stand for some fields, in order, from one on. -/
structure OneofPlan.TagsFields (planned : OneofPlan) (fields : List SourceField) : Prop where
  reads : ∀ pool plain dispatch tag (i : Nat) field, planned.dispatch = some dispatch →
    valueNamed? pool plain dispatch.fieldName = some (.enum tag) → tag.toInt = i + 1 →
    fields[i]? = some field →
    ∃ member, selectedMember pool plain planned = .ok (some member) ∧ member.name = field.name
  writes : ∀ (c : Flattening) oneof (i : Nat), c.plan.oneof? oneof = some planned →
    populatedMember? c.pool c.source planned = some i →
    ∃ field, fields[i]? = some field ∧ hasNamed c.pool c.source field.name ∧
      ∀ target out, c.fillRole (.dispatchTag oneof) target out
        = c.set out target (.enum (Int32.ofNat (i + 1)))

section TagsFields

variable {planned : OneofPlan} {fields : List SourceField}

theorem tagsFields_of_members (h : planned.members.map (·.name) = fields.map (·.name)) :
    planned.TagsFields fields := by
  have hplace : ∀ i : Nat, (planned.members[i]?).map (·.name) = (fields[i]?).map (·.name) := fun i => by
    rw [← List.getElem?_map, h, List.getElem?_map]
  constructor
  · intro pool plain dispatch tag i field hdispatch htag hi hfield
    obtain ⟨member, hmember, hname⟩ := Option.map_eq_some_iff.mp
      ((hplace i).trans (congrArg _ hfield))
    exact ⟨member, selectedMember_eq_some hdispatch htag hmember hi, hname⟩
  · intro c oneof i honeof hpopulated
    obtain ⟨hi, hhas, -⟩ := List.findIdx?_eq_some_iff_getElem.mp hpopulated
    have hmember : planned.members[i]? = some planned.members[i] := List.getElem?_eq_getElem hi
    obtain ⟨field, hfield, hname⟩ := Option.map_eq_some_iff.mp
      ((hplace i).symm.trans (congrArg _ hmember))
    refine ⟨field, hfield, hname ▸ hhas, fun target out => ?_⟩
    have hfound : c.populated? oneof = some (i, planned.members[i]) := by
      rw [Flattening.populated?, honeof]
      simp only [Option.bind_eq_bind, Option.bind_some, hpopulated, hmember]
      rfl
    have hserved : (Role.dispatchTag oneof).target = oneof := rfl
    unfold Flattening.fillRole
    rw [hserved, hfound]

end TagsFields

/-- **Members are taken by ascending number.**  For every pool that loads and every oneof of a message,
the fields of the oneof are those of the declared members in the order of their numbers, which is the
order of declaration exactly if the numbers ascend in it.  When a plan dispatches the oneof by an enum,
the values of the enum, and the tags that the converters read and write, count the members in the order
of their numbers. -/
theorem members_by_number {declared : List FileDecl} {pool : Pool} {generate : List String}
    {m : SourceMessage} {index : Nat} {oneof : SourceOneof} (hload : Pool.load declared = .ok pool)
    (hm : m ∈ (Schema.ofPool pool generate).messages) (honeof : m.oneof? index = some oneof) :
    m.TakesByNumber index oneof ∧
      ((m.oneofFields index).map (·.name) = oneof.members ↔
        (m.declaredFields oneof).Pairwise (·.number < ·.number)) ∧
      ∀ settings plan, (Schema.ofPool pool generate).plan settings = .ok plan → m.options.generate →
        m.strategy index = .enumDispatch → oneof.members ≠ [] →
        ∃ mp ∈ plan.messages, mp.fullName = m.fullName ∧ ∃ planned, mp.oneofs[index]? = some planned ∧
          planned.TagsFields (m.oneofFields index) ∧
          ∃ enum ∈ mp.enums, planned.DispatchedBy enum (m.oneofFields index) := by
  obtain ⟨hpool, hlinked⟩ := Pool.load_eq_ok hload
  rw [hpool] at hm ⊢
  have htakes := takesByNumber_ofPool hlinked hm honeof
  refine ⟨htakes, htakes.names_eq_iff (namesFields_ofPool hlinked m hm), ?_⟩
  intro settings plan hplan hgenerate hstrategy hmembers
  have hplans := Schema.plan_eq_ok hplan
  obtain ⟨mp, hmp, hisPlan⟩ := exists_right_of_forall₂ hplans.messages hm
  have hnonempty : m.oneofFields index ≠ [] := by
    intro hnil
    have hnone : m.declaredFields oneof = [] := List.nil_perm.mp (hnil ▸ htakes.members)
    exact hmembers (by rw [← htakes.names, hnone, List.map_nil])
  have houtlines := hisPlan.outlines
  have hflattens : (m.strategy index).flattens := by
    rw [hstrategy]
    rfl
  obtain ⟨hplanned, henums⟩ := hisPlan.getElem?_oneofs_of_flattens (houtlines.generate ▸ hgenerate)
    hflattens hnonempty
  rw [hstrategy] at hplanned henums
  obtain ⟨enum, henum, hdispatched⟩ := dispatchedBy_expand mp.newFullName
  exact ⟨mp, hmp, houtlines.fullName, _, hplanned, tagsFields_of_members hdispatched.members, enum,
    henums enum henum, hdispatched⟩

/-! ## A payment by bank or by card -/

/-- A payment with a oneof that is dispatched by an enum.  The bank is declared in front of the card. -/
def methodFile (bank card : Int) : FileDecl :=
  { name := "payment.proto", package := "p"
    messages :=
      [{ name := "Card", fields := [{ name := "number", number := 1, kind := .scalar .string }] },
        { name := "Bank", fields := [{ name := "iban", number := 1, kind := .scalar .string }] },
        { name := "Payment", options := { generate := true }
          oneofs := [{ name := "method", options := { enumDispatched := true } }]
          fields :=
            [{ name := "bank", number := bank, kind := .message, typeRef := some ".p.Bank"
               oneofIndex := some 0 },
              { name := "card", number := card, kind := .message, typeRef := some ".p.Card"
                oneofIndex := some 0 }] }] }

def methodFiles (bank card : Int) : List FileDecl :=
  [{ messageOptionsFile with
      extensions := messageOptionsFile.extensions ++
        [{ name := "oneof", number := 3, kind := .scalar .string
           extendee := some ".plain.Options" }] },
    methodFile bank card]

def methodPool (bank card : Int) : Pool := (Pool.load (methodFiles bank card)).toOption.getD {}

def methodSchema (bank card : Int) : Schema := Schema.ofPool (methodPool bank card) []

/-- The payment as a source message. -/
def methodMessage (bank card : Int) : SourceMessage :=
  ((methodSchema bank card).message? ".p.Payment").getD default

def methodPlan (bank card : Int) : SchemaPlan :=
  ((methodSchema bank card).plan {}).toOption.getD
    { suffix := "", messages := [], renames := {}, diagnostics := [] }

/-- The enum that dispatches the oneof of a payment. -/
def methodEnum (first second : String) : GeneratedEnum :=
  { name := "MethodType", fullName := ".p.PaymentPlain.MethodType"
    values := [("METHOD_TYPE_UNSPECIFIED", 0), (first, 1), (second, 2)] }

/-- The plan of the oneof of a payment. -/
def methodOneof (first second : String) : OneofPlan :=
  { name := "method", strategy := .enumDispatch, members := [{ name := first }, { name := second }]
    dispatch := some
      { enumFullName := ".p.PaymentPlain.MethodType", fieldName := "method_type", withPrefix := false } }

/-- With ascending numbers the tags follow the order of declaration. -/
theorem bank_tagged_first :
    ∃ oneof, (methodMessage 1 2).oneof? 0 = some oneof ∧ oneof.members = ["bank", "card"] ∧
      (methodMessage 1 2).TakesByNumber 0 oneof ∧
      ((methodMessage 1 2).oneofFields 0).map (·.name) = oneof.members ∧
      ∃ mp ∈ (methodPlan 1 2).messages, ∃ planned, mp.oneofs[0]? = some planned ∧
        planned.TagsFields ((methodMessage 1 2).oneofFields 0) ∧
        ∃ enum ∈ mp.enums, planned.DispatchedBy enum ((methodMessage 1 2).oneofFields 0) := by
  have hchecks : (Pool.load (methodFiles 1 2)).isOk ∧ ((methodSchema 1 2).plan {}).isOk ∧
      methodMessage 1 2 ∈ (methodSchema 1 2).messages ∧ (methodMessage 1 2).options.generate ∧
      (methodMessage 1 2).strategy 0 = .enumDispatch ∧
      ((methodMessage 1 2).oneof? 0).map (·.members) = some ["bank", "card"] ∧
      ((methodMessage 1 2).oneof? 0).all (fun oneof =>
        ((methodMessage 1 2).declaredFields oneof).Pairwise (·.number < ·.number)) := by
    decide +kernel
  obtain ⟨hload, hplan, hm, hgenerate, hstrategy, hmembers, hascending⟩ := hchecks
  obtain ⟨oneof, honeof, hmembers⟩ := Option.map_eq_some_iff.mp hmembers
  rw [honeof, Option.all_some, decide_eq_true_eq] at hascending
  obtain ⟨htakes, hiff, hplans⟩ := members_by_number (eq_ok_of_isOk hload {}) hm honeof
  obtain ⟨mp, hmp, -, hdispatched⟩ := hplans {} _ (eq_ok_of_isOk hplan _) hgenerate hstrategy
    (by rw [hmembers]; exact List.cons_ne_nil _ _)
  exact ⟨oneof, honeof, hmembers, htakes, hiff.mpr hascending, mp, hmp, hdispatched⟩

/-- The bank is declared first, but with the larger number it is the second field and has the second value
of the enum, and the tag 1 selects the card. -/
theorem bank_declared_first :
    Pool.load (methodFiles 2 1) = .ok (methodPool 2 1) ∧
      methodMessage 2 1 ∈ (methodSchema 2 1).messages ∧
      ((methodMessage 2 1).oneof? 0).map (·.members) = some ["bank", "card"] ∧
      ((methodMessage 2 1).oneofFields 0).map (·.name) = ["card", "bank"] ∧
      (methodSchema 2 1).plan {} = .ok (methodPlan 2 1) ∧
      (∃ mp ∈ (methodPlan 2 1).messages, mp.oneofs = [methodOneof "card" "bank"] ∧
        mp.enums = [methodEnum "METHOD_TYPE_CARD" "METHOD_TYPE_BANK"]) ∧
      ∀ pool plain, valueNamed? pool plain "method_type" = some (.enum 1) →
        selectedMember pool plain (methodOneof "card" "bank") = .ok (some { name := "card" }) := by
  have hchecks : (Pool.load (methodFiles 2 1)).isOk ∧ ((methodSchema 2 1).plan {}).isOk ∧
      methodMessage 2 1 ∈ (methodSchema 2 1).messages ∧
      ((methodMessage 2 1).oneof? 0).map (·.members) = some ["bank", "card"] ∧
      ((methodMessage 2 1).oneofFields 0).map (·.name) = ["card", "bank"] ∧
      ∃ mp ∈ (methodPlan 2 1).messages, mp.oneofs = [methodOneof "card" "bank"] ∧
        mp.enums = [methodEnum "METHOD_TYPE_CARD" "METHOD_TYPE_BANK"] := by
    decide +kernel
  obtain ⟨hload, hplan, hm, hmembers, hfields, hplanned⟩ := hchecks
  refine ⟨eq_ok_of_isOk hload _, hm, hmembers, hfields, eq_ok_of_isOk hplan _, hplanned,
    fun pool plain htag => ?_⟩
  exact selectedMember_eq_some rfl htag (i := 0) rfl (by decide)

end PlainSchema
