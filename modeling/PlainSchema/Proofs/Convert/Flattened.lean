import PlainSchema.Convert.Converter
import PlainSchema.Proofs.Convert.Filled
import PlainSchema.Proofs.Plan.Entries

/-!
# What a Plain message holds

A Plain field holds the value of the first populated one of its origins, unless a write behind it
clears the field, `Flattening.Follows.value?_run`.  The values of the other origins are nowhere:
nothing populated is dropped exactly if the origins that are populated together agree and no written
field is cleared, `toPlain_keeps_origins_iff`.
-/

namespace PlainSchema

open Proto

namespace Flattening

variable {c : Flattening} {casters : Casters (Value → Except String Value)} {plan : FieldPlan}
  {target : Field} {p : Message}

/-! ## The value of a Plain field -/

/-- One of some plans writes a field that excludes a Plain field. -/
def Clears (c : Flattening) (plans : List FieldPlan) (target : Field) : Prop :=
  ∃ plan ∈ plans, ∃ written, c.writes plan = .ok written ∧ ∃ w ∈ written, w.1.Excludes target

theorem clears_iff {plans : List FieldPlan} {lists : List (List (Field × Value))}
    (h : List.Forall₂ (fun plan written => c.writes plan = .ok written) plans lists) :
    c.Clears plans target ↔ ∃ w ∈ lists.flatten, w.1.Excludes target := by
  constructor
  · rintro ⟨plan, hplan, written, hwritten, w, hw, hexcludes⟩
    obtain ⟨list, hlist, hwrites⟩ := exists_right_of_forall₂ h hplan
    obtain rfl := Except.ok.inj (hwritten.symm.trans hwrites)
    exact ⟨w, List.mem_flatten.mpr ⟨written, hlist, hw⟩, hexcludes⟩
  · rintro ⟨w, hw, hexcludes⟩
    obtain ⟨list, hlist, hw⟩ := List.mem_flatten.mp hw
    obtain ⟨plan, hplan, hwrites⟩ := exists_left_of_forall₂ h hlist
    exact ⟨plan, hplan, list, hwrites, w, hw, hexcludes⟩

/-- A conversion of a message of a type whose plan was made from a schema. -/
structure Follows (c : Flattening) (casters : Casters (Value → Except String Value))
    (schema : Schema) (settings : Settings) (renames : Renames) (source : SourceMessage) : Prop where
  mode : c.mode = .strict casters
  linked : c.type.Linked
  isPlan : source.IsPlanOf schema settings renames c.plan
  generate : c.plan.generate

section Run

variable {schema : Schema} {settings : Settings} {renames : Renames} {source : SourceMessage}
  {before after : List FieldPlan}
  (hc : c.Follows casters schema settings renames source)

include hc

/-- What a plan with a way back and the plans behind it write, apart from the field itself, are other
fields. -/
theorem Follows.number_ne (hsplit : c.plan.fields = before ++ plan :: after)
    (hreversible : plan.isReversible) (htarget : c.type.field? plan.shape.name = some target)
    {w : Field × Value} (hmem : w.1 ∈ c.type.fields)
    (hname : (∃ later ∈ after, w.1.name = later.shape.name) ∨
      ∃ entry ∈ c.plan.crf, w.1.name = entry.crfField) : w.1.number ≠ target.number := by
  intro heq
  obtain ⟨htargetMem, htargetName⟩ := MessageType.field?_mem htarget
  rw [hc.linked.eq_of_number hmem htargetMem heq, htargetName] at hname
  rcases hname with ⟨later, hlater, hname⟩ | ⟨entry, hentry, hname⟩
  · have hnodup := hc.isPlan.names_nodup hc.generate
    rw [hsplit, List.map_append, List.map_cons, List.nodup_middle, List.nodup_cons] at hnodup
    refine hnodup.1 (List.mem_append_right _ ?_)
    rw [hname]
    exact List.mem_map_of_mem hlater
  · have hrole := hc.isPlan.role_of_companionName hc.generate hentry
      (by simp [hsplit] : plan ∈ c.plan.fields) hname
    rw [FieldPlan.isReversible, hrole] at hreversible
    simp at hreversible

omit hc in
theorem writes_of_isReversible (hreversible : plan.isReversible)
    (htarget : c.type.field? plan.shape.name = some target) :
    c.writes plan = c.valueWrites plan target := by
  rw [FieldPlan.isReversible_iff] at hreversible
  rw [writes, requireField, htarget]
  simp only [bind, Except.bind, hreversible, Bool.false_eq_true, if_false]

/-- A Plain field holds the value of its first populated origin, unless it is cleared. -/
theorem Follows.value?_run (hsplit : c.plan.fields = before ++ plan :: after)
    (hreversible : plan.isReversible) (htarget : c.type.field? plan.shape.name = some target)
    {path : SourcePath} {leaf : Field} {value : Value}
    (hfirst : firstPopulated? c.pool c.source (c.plan.sourcePaths plan) = some (path, leaf, value))
    (h : c.run = .ok p) :
    ∃ found, c.adapted plan target leaf value = .ok found ∧
      ((c.Clears (plan :: after) target ∧ p.value? target.number = none) ∨
        (¬ c.Clears (plan :: after) target ∧ p.value? target.number = some found)) := by
  rw [run, fillStep_strict hc.mode, hsplit] at h
  obtain ⟨first, -, h⟩ := foldlM_append_eq_ok.mp h
  obtain ⟨second, hsecond, h⟩ := foldlM_cons_eq_ok.mp h
  obtain ⟨written, hwritten, hwrote⟩ := fillField_eq_ok hsecond
  obtain rfl := hwrote.eq
  obtain ⟨lists, hlists, hmore⟩ := exists_writes h
  obtain rfl := hmore.eq
  have hvalue := hwritten
  rw [writes_of_isReversible hreversible htarget] at hvalue
  rcases valueWrites_eq_ok hvalue with ⟨hnone, -⟩ | ⟨path', leaf', value', found, record, hfirst',
    hfound, hrecord, rfl⟩
  · rw [hfirst] at hnone
    exact absurd hnone (by simp)
  obtain ⟨rfl, rfl, rfl⟩ : path = path' ∧ leaf = leaf' ∧ value = value' := by
    simpa using hfirst.symm.trans hfirst'
  refine ⟨found, hfound, ?_⟩
  have htargetMem := (MessageType.field?_mem htarget).1
  have hothers : ∀ w ∈ record ++ lists.flatten, w.1.number ≠ target.number := by
    intro w hw
    rcases List.mem_append.mp hw with hw | hw
    · cases hrecord with
      | nothing => exact absurd hw List.not_mem_nil
      | companion hentry _ _ hfield =>
        rw [List.mem_singleton.mp hw]
        obtain ⟨hmem, hname⟩ := MessageType.field?_mem hfield
        exact hc.number_ne hsplit hreversible htarget hmem
          (Or.inr ⟨_, List.mem_of_find?_eq_some hentry, hname⟩)
    · obtain ⟨list, hlist, hw⟩ := List.mem_flatten.mp hw
      obtain ⟨later, hlater, hwrites⟩ := exists_left_of_forall₂ hlists hlist
      obtain ⟨hmem, hname⟩ := name_of_writes hwrites hw
      refine hc.number_ne hsplit hreversible htarget hmem ?_
      rcases hname with hname | ⟨entry, hentry, hname, -⟩
      · exact Or.inl ⟨later, hlater, hname⟩
      · exact Or.inr ⟨entry, List.mem_of_find?_eq_some hentry, hname⟩
  have hclears : c.Clears (plan :: after) target ↔
      ∃ w ∈ record ++ lists.flatten, w.1.Excludes target := by
    rw [clears_iff (.cons hwritten hlists), List.flatten_cons, List.cons_append]
    refine ⟨fun ⟨w, hw, hexcludes⟩ => ⟨w, ?_, hexcludes⟩, fun ⟨w, hw, hexcludes⟩ =>
      ⟨w, List.mem_cons_of_mem _ hw, hexcludes⟩⟩
    rcases List.mem_cons.mp hw with rfl | hw
    · exact absurd rfl hexcludes.1
    · exact hw
  have hsplitWrites : (first.setAll c.type ((target, found) :: record)).setAll c.type lists.flatten
      = (first.set c.type target found).setAll c.type (record ++ lists.flatten) := by
    rw [← Message.setAll_append, List.cons_append]
    rfl
  rw [hsplitWrites]
  by_cases hcleared : c.Clears (plan :: after) target
  · exact Or.inl ⟨hcleared, Message.value?_setAll_of_excludes hc.linked htargetMem hothers
      (hclears.mp hcleared)⟩
  · refine Or.inr ⟨hcleared, ?_⟩
    rw [Message.value?_setAll_of_not_excludes hc.linked htargetMem hothers, Message.value?_set_self]
    intro w hw hexcludes
    exact hcleared (hclears.mpr ⟨w, hw, hexcludes⟩)

end Run

/-! ## Populated origins -/

/-- One of the origins of a plan is populated, and the Plain field would hold a value from there that
is not its default. -/
def Populated (c : Flattening) (plan : FieldPlan) (target : Field) (found : Value) : Prop :=
  ∃ path ∈ c.plan.sourcePaths plan, ∃ leaf value, c.source.read? c.pool path.names = some (leaf, value) ∧
    c.adapted plan target leaf value = .ok found ∧ ¬ c.plain.isDefault target found

/-- The Plain message holds the value of every populated origin. -/
def KeepsOrigins (c : Flattening) (p : Message) : Prop :=
  ∀ plan ∈ c.plan.fields, plan.isReversible → ∀ target,
    c.type.field? plan.shape.name = some target → ∀ found, c.Populated plan target found →
      p.value? target.number = some found

/-- The Plain message holds the value of the first populated origin of every field that is not
cleared, and no value of a field that is. -/
def HoldsFirst (c : Flattening) (p : Message) : Prop :=
  ∀ before plan after, c.plan.fields = before ++ plan :: after → plan.isReversible → ∀ target,
    c.type.field? plan.shape.name = some target → ∀ path leaf value,
      firstPopulated? c.pool c.source (c.plan.sourcePaths plan) = some (path, leaf, value) →
      ∃ found, c.adapted plan target leaf value = .ok found ∧
        ((c.Clears (plan :: after) target ∧ p.value? target.number = none) ∨
          (¬ c.Clears (plan :: after) target ∧ p.value? target.number = some found))

/-- The populated origins of a field all have the value of the first one. -/
def OriginsAgree (c : Flattening) : Prop :=
  ∀ plan ∈ c.plan.fields, plan.isReversible → ∀ target,
    c.type.field? plan.shape.name = some target → ∀ found, c.Populated plan target found →
      ∀ path leaf value first,
        firstPopulated? c.pool c.source (c.plan.sourcePaths plan) = some (path, leaf, value) →
        c.adapted plan target leaf value = .ok first → first = found

/-- No field with a populated origin is cleared by itself or a later one. -/
def NothingCleared (c : Flattening) : Prop :=
  ∀ before plan after, c.plan.fields = before ++ plan :: after → plan.isReversible → ∀ target,
    c.type.field? plan.shape.name = some target → ∀ found, c.Populated plan target found →
      ¬ c.Clears (plan :: after) target

theorem exists_firstPopulated? {found : Value} (h : c.Populated plan target found) :
    ∃ path leaf value,
      firstPopulated? c.pool c.source (c.plan.sourcePaths plan) = some (path, leaf, value) := by
  obtain ⟨path, hpath, leaf, value, hread, -⟩ := h
  have hsome : (firstPopulated? c.pool c.source (c.plan.sourcePaths plan)).isSome := by
    rw [firstPopulated?, List.findSome?_isSome_iff]
    exact ⟨path, hpath, by rw [hread]; rfl⟩
  obtain ⟨⟨path, leaf, value⟩, hfirst⟩ := Option.isSome_iff_exists.mp hsome
  exact ⟨path, leaf, value, hfirst⟩

theorem keepsOrigins_iff (h : c.HoldsFirst p) :
    c.KeepsOrigins p ↔ c.OriginsAgree ∧ c.NothingCleared := by
  constructor
  · intro hkeeps
    constructor
    · intro plan hplan hreversible target htarget found hpopulated path leaf value first hfirst hadapted
      obtain ⟨before, after, hsplit⟩ := List.append_of_mem hplan
      have hkept := hkeeps plan hplan hreversible target htarget found hpopulated
      obtain ⟨held, hheld, ⟨-, hnone⟩ | ⟨-, hsome⟩⟩ :=
        h before plan after hsplit hreversible target htarget path leaf value hfirst
      · rw [hkept] at hnone
        exact absurd hnone (by simp)
      · rw [hkept] at hsome
        rw [hadapted] at hheld
        exact (Except.ok.inj hheld).trans (Option.some.inj hsome).symm
    · intro before plan after hsplit hreversible target htarget found hpopulated hcleared
      have hplan : plan ∈ c.plan.fields := by simp [hsplit]
      have hkept := hkeeps plan hplan hreversible target htarget found hpopulated
      obtain ⟨path, leaf, value, hfirst⟩ := exists_firstPopulated? hpopulated
      obtain ⟨held, -, ⟨-, hnone⟩ | ⟨hfree, -⟩⟩ :=
        h before plan after hsplit hreversible target htarget path leaf value hfirst
      · rw [hkept] at hnone
        exact absurd hnone (by simp)
      · exact hfree hcleared
  · rintro ⟨hagree, hfree⟩ plan hplan hreversible target htarget found hpopulated
    obtain ⟨before, after, hsplit⟩ := List.append_of_mem hplan
    obtain ⟨path, leaf, value, hfirst⟩ := exists_firstPopulated? hpopulated
    obtain ⟨held, hheld, ⟨hcleared, -⟩ | ⟨-, hsome⟩⟩ :=
      h before plan after hsplit hreversible target htarget path leaf value hfirst
    · exact absurd hcleared (hfree before plan after hsplit hreversible target htarget found hpopulated)
    · rw [hsome, hagree plan hplan hreversible target htarget found hpopulated path leaf value held
        hfirst hheld]

end Flattening

/-! ## The main result -/

/-- The conversion of a message to its Plain message by a plan. -/
def Converter.flattening (c : Converter) (casters : Casters (Value → Except String Value))
    (x : Message) (mp : MessagePlan) (type : MessageType) : Flattening where
  pool := c.source
  plain := c.plain
  mode := .strict casters
  nested := c.convertNested (.strict casters) .toPlain c.source (Converter.levels x)
  plan := mp
  type := type
  source := x

/-- **A Plain message holds the values of all populated origins exactly if the origins of each field
agree and no field is cleared.**  Otherwise it holds the first populated one of each field, and no
error tells of the others. -/
theorem toPlain_keeps_origins_iff {pool : Pool} {generate : List String} {settings : Settings}
    {plan : SchemaPlan} {c : Converter} {casters : Casters (Value → Except String Value)}
    {x p : Message} (hplan : (Schema.ofPool pool generate).plan settings = .ok plan)
    (hconverter : Converter.ofPool pool plan = .ok c) (h : c.toPlain casters c.source x = .ok p) :
    ∃ mp type, c.planFor? x.type .toPlain = some mp ∧
      Converter.requireType c.plain mp.newFullName = .ok type ∧
      (c.flattening casters x mp type).HoldsFirst p ∧
      ((c.flattening casters x mp type).KeepsOrigins p ↔
        (c.flattening casters x mp type).OriginsAgree ∧
          (c.flattening casters x mp type).NothingCleared) := by
  obtain ⟨plain, hload, hc⟩ := bind_eq_ok.mp hconverter
  obtain rfl := Except.ok.inj hc
  have hplans := Schema.plan_eq_ok hplan
  rw [Converter.toPlain, Converter.convert] at h
  split at h
  · next mp hmp =>
    obtain ⟨hfind, hgenerate⟩ := Option.filter_eq_some_iff.mp hmp
    obtain ⟨source, -, hisPlan⟩ :=
      exists_left_of_forall₂ hplans.messages (List.mem_of_find?_eq_some hfind)
    obtain ⟨type, htype, hrun⟩ := bind_eq_ok.mp h
    have hlinked : type.Linked := by
      obtain ⟨hpool, hfiles⟩ := Pool.load_eq_ok hload
      have hplain : plain.Linked := hpool ▸ types_linked hfiles
      rw [Converter.requireType] at htype
      split at htype
      · next found hfound =>
        have hmem := (Pool.message?_mem hfound).1
        rw [Except.ok.inj htype] at hmem
        exact hplain type hmem
      · exact absurd htype (by simp)
    let f := Converter.flattening { source := pool, plan, plain } casters x mp type
    have hfollows : f.Follows casters (Schema.ofPool pool generate) settings plan.renames source :=
      ⟨rfl, hlinked, hisPlan, hgenerate⟩
    have hfirst : f.HoldsFirst p := by
      intro before plan after hsplit hreversible target htarget path leaf value hfirst
      exact hfollows.value?_run hsplit hreversible htarget hfirst hrun
    exact ⟨mp, type, hmp, htype, hfirst, Flattening.keepsOrigins_iff hfirst⟩
  · exact absurd h (by simp)

/-! ## A payment with two numbers -/

/-- A payment that inlines a card and a bank account, both of which have a number. -/
def mergedPaymentFile : FileDecl :=
  { name := "payment.proto", package := "p"
    messages :=
      [{ name := "Card", fields := [{ name := "number", number := 1, kind := .scalar .string }] },
        { name := "Bank", fields := [{ name := "number", number := 1, kind := .scalar .string }] },
        { name := "Payment", options := { generate := true }
          fields :=
            [{ name := "card", number := 1, kind := .message, typeRef := some ".p.Card"
               options := { embed := true } },
              { name := "bank", number := 2, kind := .message, typeRef := some ".p.Bank"
                options := { embed := true } },
              { name := "note", number := 3, kind := .scalar .string }] }] }

/-- The files of the payment, with the extensions that carry the options of messages and fields. -/
def mergedPaymentFiles : List FileDecl :=
  [{ messageOptionsFile with
      extensions := messageOptionsFile.extensions ++
        [{ name := "field", number := 2, kind := .scalar .string
           extendee := some ".plain.Options" }] },
    mergedPaymentFile]

def mergedPaymentPool : Pool := (Pool.load mergedPaymentFiles).toOption.getD {}

def mergedPaymentPlan : SchemaPlan :=
  ((Schema.ofPool mergedPaymentPool []).plan { enableCrf := true }).toOption.getD
    { suffix := "", messages := [], renames := {}, diagnostics := [] }

def mergedPaymentConverter : Converter :=
  (Converter.ofPool mergedPaymentPool mergedPaymentPlan).toOption.getD default

/-- The plan of a payment. -/
def mergedPaymentEntry : MessagePlan :=
  (mergedPaymentConverter.planFor? "p.PaymentPlain" .toSource).getD default

/-- Whether a value is a text. -/
def Value.isText (text : String) : Value → Bool
  | .string found => found == text
  | _ => false

theorem eq_some_of_isText {value : Option Value} {text : String} (h : value.any (Value.isText text)) :
    value = some (.string text) := by
  cases value with
  | none => exact absurd h (by simp)
  | some found => cases found <;> simp_all [Value.isText]

/-- A payment with the number of a card, and with the number of a bank account if asked for. -/
def paymentWith (bank : Bool) : Message :=
  { type := "p.Payment"
    fields :=
      (1, .message { type := "p.Card", fields := [(1, .string "4")] }) ::
        if bank then [(2, .message { type := "p.Bank", fields := [(1, .string "7")] })] else [] }

/-- The Plain payment of a payment. -/
def plainPaymentWith (bank : Bool) : Message :=
  (mergedPaymentConverter.toPlain {} mergedPaymentConverter.source (paymentWith bank)).toOption.getD
    default

/-- The type of a Plain payment. -/
def mergedPaymentType : MessageType :=
  (Converter.requireType mergedPaymentConverter.plain mergedPaymentEntry.newFullName).toOption.getD
    default

/-- What can be read off a payment, its files and their plan. -/
theorem mergedPayment_checks :
    (Pool.load mergedPaymentFiles).isOk ∧
      ((Schema.ofPool mergedPaymentPool []).plan { enableCrf := true }).isOk ∧
      (Converter.ofPool mergedPaymentPool mergedPaymentPlan).isOk ∧
      mergedPaymentConverter.planFor? "p.Payment" .toPlain = some mergedPaymentEntry ∧
      mergedPaymentConverter.planFor? "p.PaymentPlain" .toSource = some mergedPaymentEntry ∧
      ∀ bank, (mergedPaymentConverter.toPlain {} mergedPaymentConverter.source
        (paymentWith bank)).isOk := by
  decide +kernel

theorem load_mergedPayment : Pool.load mergedPaymentFiles = .ok mergedPaymentPool :=
  eq_ok_of_isOk mergedPayment_checks.1 _

theorem plan_mergedPayment :
    (Schema.ofPool mergedPaymentPool []).plan { enableCrf := true } = .ok mergedPaymentPlan :=
  eq_ok_of_isOk mergedPayment_checks.2.1 _

theorem ofPool_mergedPayment :
    Converter.ofPool mergedPaymentPool mergedPaymentPlan = .ok mergedPaymentConverter :=
  eq_ok_of_isOk mergedPayment_checks.2.2.1 _

theorem planFor?_mergedPayment (direction : Direction) :
    mergedPaymentConverter.planFor? (match direction with
      | .toPlain => "p.Payment"
      | .toSource => "p.PaymentPlain") direction = some mergedPaymentEntry := by
  cases direction with
  | toPlain => exact mergedPayment_checks.2.2.2.1
  | toSource => exact mergedPayment_checks.2.2.2.2.1

theorem toPlain_paymentWith (bank : Bool) :
    mergedPaymentConverter.toPlain {} mergedPaymentConverter.source (paymentWith bank)
      = .ok (plainPaymentWith bank) :=
  eq_ok_of_isOk (mergedPayment_checks.2.2.2.2.2 bank) _

/-- The plan of the number. -/
def numberPlan : FieldPlan := (mergedPaymentEntry.field? "number").getD default

/-- The field of a Plain payment that holds the number. -/
def numberField : Field := (mergedPaymentType.field? "number").getD default

/-- A payment with one number keeps it. -/
theorem one_number_kept :
    ∃ mp type, mergedPaymentConverter.planFor? (paymentWith false).type .toPlain = some mp ∧
      Converter.requireType mergedPaymentConverter.plain mp.newFullName = .ok type ∧
      (mergedPaymentConverter.flattening {} (paymentWith false) mp type).HoldsFirst
        (plainPaymentWith false) ∧
      ((mergedPaymentConverter.flattening {} (paymentWith false) mp type).KeepsOrigins
          (plainPaymentWith false) ↔
        (mergedPaymentConverter.flattening {} (paymentWith false) mp type).OriginsAgree ∧
          (mergedPaymentConverter.flattening {} (paymentWith false) mp type).NothingCleared) :=
  toPlain_keeps_origins_iff plan_mergedPayment ofPool_mergedPayment (toPlain_paymentWith false)

/-- Of two numbers the second one is dropped. -/
theorem second_number_dropped :
    mergedPaymentConverter.toPlain {} mergedPaymentConverter.source (paymentWith true)
        = .ok (plainPaymentWith true) ∧
      mergedPaymentConverter.planFor? (paymentWith true).type .toPlain = some mergedPaymentEntry ∧
      Converter.requireType mergedPaymentConverter.plain mergedPaymentEntry.newFullName
        = .ok mergedPaymentType ∧
      ¬ (mergedPaymentConverter.flattening {} (paymentWith true) mergedPaymentEntry
          mergedPaymentType).KeepsOrigins (plainPaymentWith true) := by
  let f := mergedPaymentConverter.flattening {} (paymentWith true) mergedPaymentEntry
    mergedPaymentType
  have hchecks : (Converter.requireType mergedPaymentConverter.plain
        mergedPaymentEntry.newFullName).isOk ∧
      (numberPlan ∈ f.plan.fields ∧ numberPlan.isReversible ∧
        { names := ["bank", "number"], record := some ("numberCRF", "bank/number") }
          ∈ f.plan.sourcePaths numberPlan) ∧
      f.type.field? numberPlan.shape.name = some numberField ∧
      ((f.source.read? f.pool ["bank", "number"]).any fun found =>
        (f.adapted numberPlan numberField found.1 found.2).toOption.any (Value.isText "7")) ∧
      ¬ f.plain.isDefault numberField (.string "7") ∧
      ((plainPaymentWith true).value? numberField.number).any (Value.isText "4") := by
    decide +kernel
  obtain ⟨htype, hplan, htarget, hadapted, hdefault, hheld⟩ := hchecks
  refine ⟨toPlain_paymentWith true, planFor?_mergedPayment .toPlain, eq_ok_of_isOk htype _,
    fun hkeeps => ?_⟩
  obtain ⟨hmem, hreversible, hpath⟩ := hplan
  cases hfound : f.source.read? f.pool ["bank", "number"] with
  | none =>
    rw [hfound] at hadapted
    exact absurd hadapted (by simp)
  | some found =>
    rw [hfound, Option.any_some] at hadapted
    have hseven := hkeeps numberPlan hmem hreversible numberField htarget (.string "7")
      ⟨_, hpath, found.1, found.2, hfound, eq_ok_of_toOption (eq_some_of_isText hadapted), hdefault⟩
    rw [eq_some_of_isText hheld] at hseven
    exact absurd hseven (by simp)

end PlainSchema
