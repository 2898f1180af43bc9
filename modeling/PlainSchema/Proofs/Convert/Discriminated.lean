import PlainSchema.Proofs.Convert.Repacked

/-!
# Payloads and their discriminators

`payloads_restored_under_own_tags` is the main result.  In a message in which nothing is merged, the
payload of a oneof that is replaced by a discriminator and the text of the discriminator decide together
what the source message holds of the oneof:

```text
a payload without a member                nothing
member j, under no discriminator          j, with the value in the payload
member j, under one that names j          j, with the value in the payload
member j, under one of another member     strict: a mismatch, lenient: nothing
member j, under one that names none       strict: an unknown one, lenient: nothing
```

Nothing else of the payload shows in the source message.  And what a message holds in such a member
survives the way to its Plain message and back.

A strict conversion stops at the first error, so the error of a payload is the one that is returned only
if no tag and no field in front of the payload fails, see `wrong_state_before_wrong_tag`.
-/

namespace PlainSchema

open Proto

namespace Restoring

variable {c : Restoring} {oneof : OneofPlan} {index : Nat} {before after : List FieldPlan}
  {plan : FieldPlan} {member : OneofMember}

/-- What the payload of a oneof and its discriminator decide about the source message. -/
structure UnpacksOneof (c : Restoring) (oneof : OneofPlan) (before : List FieldPlan)
    (plan : FieldPlan) (after : List FieldPlan) : Prop where
  /-- A member that the source message holds came out of the payload. -/
  fromPayload : ∀ m, c.run = .ok m → ∀ member ∈ oneof.members,
    hasNamed c.source m member.name → ∃ payload, c.FromPayload oneof payload member m
  /-- A member of the payload is put back if the discriminator names it, or nothing. -/
  restored : ∀ m, c.run = .ok m → ∀ payload member, c.Packs oneof payload member →
    c.TagAllows oneof member →
    (∀ field, c.type.field? member.name = some field → field.isSingular) →
    c.FromPayload oneof payload member m
  /-- Apart from the members the message is as it would be with any other payload, or with none. -/
  nothingElse : ∀ p' m m', c.plain.AgreeBeside c.pool oneof.name p' → c.run = .ok m →
    (c.withPlain p').run = .ok m' →
    AgreeOutside c.source c.type (c.IsMemberOf oneof.name) m m'
  holdsOnly : ∀ m, c.run = .ok m → m.HoldsOnly c.type
  /-- A payload under a discriminator that does not name its member is refused. -/
  refused : ∀ payload member, c.Packs oneof payload member → c.tagText oneof ≠ "" →
    ¬ c.TagNames oneof member →
    match c.mode with
    | .strict _ => (∃ e, c.run = .error e) ∧ ∀ e, c.TagError oneof member e → ∀ selection out,
        selectMembers c.mode c.pool c.plain c.plan.oneofs = .ok selection →
        before.foldlM (c.restoreField selection) { type := c.type.fullName } = .ok out →
        c.run = .error e
    | .lenient _ => c.run = (c.withFields (before ++ after)).run

/-- A discriminator names a member, or it names none. -/
theorem exists_tagError (c : Restoring) (oneof : OneofPlan) (member : OneofMember) :
    ∃ e, c.TagError oneof member e := by
  by_cases hnames : ∃ tagged ∈ oneof.members, c.TagNames oneof tagged
  · obtain ⟨tagged, htagged, hnames⟩ := hnames
    exact ⟨_, .mismatch htagged hnames⟩
  · exact ⟨_, .unknown fun tagged htagged hnamed => hnames ⟨tagged, htagged, hnamed⟩⟩

theorem PayloadAt.unpacksOneof (h : c.PayloadAt oneof index before plan after) :
    c.UnpacksOneof oneof before plan after where
  fromPayload _ hrun _ hmember hhas := h.fromPayload_run hrun hmember hhas
  restored _ hrun _ _ hpacks hallows hsingular :=
    h.fromPayload_of_allows hrun hpacks hallows hsingular
  nothingElse _ _ _ hbeside hrun hrun' := h.agreeOutside_run hbeside hrun hrun'
  holdsOnly _ hrun := holdsOnly_run h.found hrun
  refused payload member hpacks htag hnot := by
    have hrefused : ∀ e, c.TagError oneof member e → ∀ selection out,
        c.restoreField selection out plan = .error e := by
      intro e herror selection out
      rw [h.restoreField_eq]
      exact h.restorePayload_eq_error hpacks htag hnot herror out
    have hleft : ∀ selection, selectMembers c.mode c.pool c.plain c.plan.oneofs = .ok selection →
        ∀ out, out.type? c.source = some c.type →
          (∃ e, c.restoreField selection out plan = .error e) ∧
            c.leftBehind selection out plan = out := by
      intro selection _ out _
      obtain ⟨e, herror⟩ := exists_tagError c oneof member
      exact ⟨⟨e, hrefused e herror selection out⟩,
        leftBehind_of_not_isReversible h.not_isReversible out⟩
    -- A strict run ends with an error, and with this one if it gets there.
    cases hmode : c.mode with
    | strict casters =>
      refine ⟨run_strict_of_error h.found h.split hleft hmode, ?_⟩
      intro e herror selection out hselection hbefore
      rw [← hmode] at hselection
      exact run_eq_error hmode hselection h.split hbefore (hrefused e herror selection out)
    | lenient casters =>
      refine run_lenient_of_error h.found h.split hleft hmode fun name hrole => ?_
      rw [h.role] at hrole
      cases hrole

end Restoring

/-! ## The main result -/

/-- What a plan without merged fields made of a well-typed message is converted back by the same plan. -/
theorem Converter.IsBuilt.repacks {c : Converter} {files : List FileDecl} {generate : List String}
    {settings : Settings} (hc : c.IsBuilt files generate settings) {schema : Schema}
    {renames : Renames} {source : SourceMessage} {mp : MessagePlan}
    (hplan : source.IsPlanOf schema settings renames mp) (hcrf : mp.crf = []) {type : MessageType}
    (htype : requireType c.source mp.fullName = .ok type) {x p : Message} (hx : x.WellTyped c.source)
    (hmp : c.planFor? x.type .toPlain = some mp) {mode : Mode}
    (h : c.convert mode .toPlain c.source x = .ok p) :
    c.planFor? p.type .toSource = some mp ∧ ∃ there type', ∀ mode' nested,
      (c.restoringIn mode' nested p mp type).Repacks mode there x type' := by
  obtain ⟨hmem, hgenerate, hname⟩ := mem_of_planFor? hmp
  obtain ⟨file, scope, m, d, type', hg, hlinked', htype'⟩ := hc.exists_generatedType hmem hgenerate
  obtain ⟨found, htyped, -⟩ := hx x .refl
  obtain ⟨hfound, hfullName⟩ := Pool.message?_mem htyped
  -- The type of the message is the one that the plan names.
  obtain rfl : found = type := by
    have hrequire := (hc.requireType_fullName hfound).2
    rw [hfullName, ← hname] at hrequire
    exact Except.ok.inj (hrequire.symm.trans htype)
  rw [convert, hmp] at h
  dsimp only [byPlan] at h
  rw [htype'] at h
  have hptype := Flattening.type_run h
  refine ⟨?_, c.convertNested mode .toPlain c.source (levels x), type', fun mode' nested => ?_⟩
  · rw [hptype]
    exact hc.derivation.planFor?_toSource hc.loadPlain rfl hc.names hmp htype'
  · exact
      { crf := hcrf
        names := hplan.names_nodup hgenerate
        linked := hlinked'
        found := hg.links.fullName ▸ hg.found
        roles := hg.roleFields hlinked' hplan
        typed := htyped
        wellTyped := hx
        run := h }

section Main

variable {files : List FileDecl} {pool : Pool} {generate : List String} {settings : Settings}
  {plan : SchemaPlan} {c : Converter} {mp : MessagePlan} {oneof : OneofPlan}

/-- **A payload is restored under the tag of its member, or under none**, and under no other tag; and a
member that a message holds comes back out of the payload that is made of it. -/
theorem payloads_restored_under_own_tags (hload : Pool.load files = .ok pool)
    (hnames : ProperNames pool.files) (hsuffix : '.' ∉ settings.suffix.toList)
    (hplan : (Schema.ofPool pool generate).plan settings = .ok plan)
    (hconverter : Converter.ofPool pool plan = .ok c) (hmem : mp ∈ plan.messages)
    (hgenerate : mp.generate) (hcrf : mp.crf = []) (honeof : oneof ∈ mp.oneofs)
    (hstrategy : oneof.strategy = .discriminatorOnly) :
    ∃ type before payload after, Converter.requireType c.source mp.fullName = .ok type ∧
      mp.fields = before ++ payload :: after ∧
      payload.origin.role = some (.payload oneof.name) ∧
      (∀ p, c.planFor? p.type .toSource = some mp → ∀ mode,
        c.convert mode .toSource c.plain p = (c.restoringIn mode
          (c.convertNested mode .toSource c.plain (Converter.levels p)) p mp type).run) ∧
      (∀ p mode nested,
        (c.restoringIn mode nested p mp type).UnpacksOneof oneof before payload after) ∧
      ∀ x, x.WellTyped c.source → c.planFor? x.type .toPlain = some mp →
        ∀ member ∈ oneof.members, ∀ field, type.field? member.name = some field →
        x.has c.source field → (x.only c.source type field).ReadsBack c.source →
        ∀ mode p, c.convert mode .toPlain c.source x = .ok p →
          c.planFor? p.type .toSource = some mp ∧ ∀ mode' nested,
            (c.restoringIn mode' nested p mp type).GivesBack payload x field := by
  obtain ⟨type, source, htype, hrestores⟩ :=
    exists_restores_of_mem hload hnames hplan hconverter hmem hgenerate
  have hfindings := (Schema.plan_eq_ok hplan).findings
  have hbuilt := Converter.isBuilt_of_ofPool hload hnames hsuffix hplan hconverter
  have hisPlan := (hrestores {} default).isPlan
  obtain ⟨-, -, payload, hpayload, hrole⟩ := hisPlan.exists_discriminated hgenerate honeof hstrategy
  obtain ⟨before, after, hsplit⟩ := List.append_of_mem hpayload
  have hat : ∀ p mode nested, ∃ index,
      (c.restoringIn mode nested p mp type).PayloadAt oneof index before payload after :=
    fun p _ _ => (hrestores {} p).payloadAt hsplit hrole honeof hfindings hstrategy hcrf
  refine ⟨type, before, payload, after, htype, hsplit, hrole, fun p hp mode => ?_,
    fun p mode nested => ?_, ?_⟩
  · rw [Converter.convert, hp]
    dsimp only [Converter.byPlan]
    rw [htype]
    rfl
  · obtain ⟨index, hplaced⟩ := hat p mode nested
    exact hplaced.unpacksOneof
  · intro x hx hmp member hmember field hfield hhas hreads mode p hp
    obtain ⟨hback, there, type', hrepacks⟩ := hbuilt.repacks hisPlan hcrf htype hx hmp hp
    refine ⟨hback, fun mode' nested => ?_⟩
    obtain ⟨index, hplaced⟩ := hat p mode' nested
    exact (hrepacks mode' nested).givesBack hplaced hmember hfield hhas hreads

end Main

/-! ## An invoice, by card or by bank -/

/-- An invoice that is paid by card or by bank, with a state that is carried as a text and a note that
casters carry. -/
def invoiceFile : FileDecl :=
  { name := "invoice.proto", package := "p"
    enums :=
      [{ name := "State", values := [("OPEN", 0), ("PAID", 1)] },
        { name := "Kind", values := [("CARD", 0), ("BANK", 1)] }]
    messages :=
      [{ name := "Invoice", options := { generate := true }
         oneofs := [{ name := "method" }]
         fields :=
           [{ name := "state", number := 1, kind := .enum, typeRef := some ".p.State"
              options := { enumAsString := true } },
             { name := "note", number := 2, kind := .scalar .string
               options := { overrideType := some { name := "Note" } } },
             { name := "card", number := 3, kind := .scalar .string, oneofIndex := some 0
               options := { withEnums := [".p.Kind.CARD"] } },
             { name := "bank", number := 4, kind := .scalar .string, oneofIndex := some 0
               options := { withEnums := [".p.Kind.BANK"] } }] }] }

def invoiceFiles : List FileDecl :=
  [{ messageOptionsFile with
      extensions := messageOptionsFile.extensions ++
        [{ name := "field", number := 2, kind := .scalar .string
           extendee := some ".plain.Options" }] },
    invoiceFile]

def invoicePool : Pool := (Pool.load invoiceFiles).toOption.getD {}

def invoicePlan : SchemaPlan :=
  ((Schema.ofPool invoicePool []).plan {}).toOption.getD
    { suffix := "", messages := [], renames := {}, diagnostics := [] }

def invoiceConverter : Converter := (Converter.ofPool invoicePool invoicePlan).toOption.getD default

/-- The plan of an invoice. -/
def invoiceEntry : MessagePlan := (invoiceConverter.planFor? "p.Invoice" .toPlain).getD default

/-- The member that a card pays with. -/
def cardMember : OneofMember := { name := "card", withEnums := ["p.Kind.CARD"] }

/-- The member that a bank pays with. -/
def bankMember : OneofMember := { name := "bank", withEnums := ["p.Kind.BANK"] }

/-- The plan of the oneof of an invoice. -/
def invoiceOneof : OneofPlan :=
  { name := "method", strategy := .discriminatorOnly, members := [cardMember, bankMember] }

def invoiceType : MessageType :=
  (Converter.requireType invoiceConverter.source invoiceEntry.fullName).toOption.getD default

def cardField : Field := (invoiceType.field? "card").getD default

/-- An invoice by a card without a number, with a note or without one. -/
def cardInvoice (note : Option String) : Message :=
  { type := "p.Invoice", fields := (note.map fun text => (2, .string text)).toList ++ [(3, .string "")] }

/-- Casters that take notes as they are. -/
def noteCasters : Casters (Value → Except String Value) :=
  Casters.insert {} "p.InvoicePlain" "note" .ok

/-- The Plain invoice of an invoice by card. -/
def plainCardInvoice (note : Option String) : Message :=
  (invoiceConverter.toPlain noteCasters invoiceConverter.source (cardInvoice note)).toOption.getD default

/-- A Plain invoice with a state that does not exist, and the payload of a card under the discriminator
of a bank. -/
def wrongInvoice : Message :=
  { type := "p.InvoicePlain"
    fields := [(1, .string "WRONG"), (3, .string "p.Kind.BANK"), (4, .bytes [26, 1, 55])] }

/-- The conversion back of it. -/
def wrongRestoring : Restoring :=
  invoiceConverter.restoring {} wrongInvoice invoiceEntry invoiceType

/-- What is in its payload. -/
def wrongPayload : Message :=
  (Wire.decode? wrongRestoring.source wrongRestoring.type.fullName [26, 1, 55]).getD default

/-- Whether a message holds one text and nothing else. -/
def Message.isText (type : String) (number : Nat) (text : String) : Message → Bool
  | ⟨found, [(field, .string value)], []⟩ => found == type && field == number && value == text
  | _ => false

theorem Message.eq_of_isText {m : Message} {type : String} {number : Nat} {text : String}
    (h : m.isText type number text) : m = { type, fields := [(number, .string text)] } := by
  unfold Message.isText at h
  split at h
  · simp only [Bool.and_eq_true, beq_iff_eq] at h
    obtain ⟨⟨rfl, rfl⟩, rfl⟩ := h
    rfl
  · exact absurd h Bool.false_ne_true

/-- What can be read off the invoice, its files and their plan. -/
theorem invoice_checks :
    (Pool.load invoiceFiles).isOk ∧ ProperNames invoicePool.files ∧
      ((Schema.ofPool invoicePool []).plan {}).isOk ∧
      (Converter.ofPool invoicePool invoicePlan).isOk ∧
      (invoiceConverter.planFor? "p.Invoice" .toPlain).isSome ∧
      invoiceEntry ∈ invoicePlan.messages ∧ invoiceEntry.generate ∧ invoiceEntry.crf = [] ∧
      invoiceOneof ∈ invoiceEntry.oneofs ∧
      (Converter.requireType invoiceConverter.source invoiceEntry.fullName).isOk ∧
      (invoiceType.field? "card").isSome ∧
      (∀ note ∈ [none, some "A"],
        (cardInvoice note).has invoiceConverter.source cardField ∧
        (∃ type ∈ (cardInvoice note).type? invoiceConverter.source,
          (cardInvoice note).FitsType invoiceConverter.source type) ∧
        ((cardInvoice note).only invoiceConverter.source invoiceType cardField).isText "p.Invoice" 3 "" ∧
        (invoiceConverter.toPlain noteCasters invoiceConverter.source (cardInvoice note)).isOk) ∧
      (Wire.decode? invoiceConverter.source "p.Invoice" (Wire.encode invoiceConverter.source
        { type := "p.Invoice", fields := [(3, .string "")] })).any (Message.isText "p.Invoice" 3 "") := by
  decide +kernel

theorem load_invoice : Pool.load invoiceFiles = .ok invoicePool :=
  eq_ok_of_isOk invoice_checks.1 _

theorem plan_invoice : (Schema.ofPool invoicePool []).plan {} = .ok invoicePlan :=
  eq_ok_of_isOk invoice_checks.2.2.1 _

theorem ofPool_invoice : Converter.ofPool invoicePool invoicePlan = .ok invoiceConverter :=
  eq_ok_of_isOk invoice_checks.2.2.2.1 _

theorem planFor?_invoice : invoiceConverter.planFor? "p.Invoice" .toPlain = some invoiceEntry := by
  obtain ⟨-, -, -, -, hsome, -⟩ := invoice_checks
  obtain ⟨found, hfound⟩ := Option.isSome_iff_exists.mp hsome
  rw [invoiceEntry, hfound, Option.getD_some]

theorem requireType_invoice :
    Converter.requireType invoiceConverter.source invoiceEntry.fullName = .ok invoiceType := by
  obtain ⟨-, -, -, -, -, -, -, -, -, htype, -⟩ := invoice_checks
  exact eq_ok_of_isOk htype _

theorem field?_card : invoiceType.field? "card" = some cardField := by
  obtain ⟨-, -, -, -, -, -, -, -, -, -, hsome, -⟩ := invoice_checks
  obtain ⟨found, hfound⟩ := Option.isSome_iff_exists.mp hsome
  rw [cardField, hfound, Option.getD_some]

section CardInvoice

variable {note : Option String} (hnote : note ∈ [none, some "A"])

include hnote

theorem has_cardInvoice : (cardInvoice note).has invoiceConverter.source cardField :=
  (invoice_checks.2.2.2.2.2.2.2.2.2.2.2.1 note hnote).1

theorem wellTyped_cardInvoice : (cardInvoice note).WellTyped invoiceConverter.source := by
  obtain ⟨-, hfits, -⟩ := invoice_checks.2.2.2.2.2.2.2.2.2.2.2.1 note hnote
  exact .of_texts hfits (by cases note <;> simp [cardInvoice])

/-- What is encoded of the invoice is its card, and that can be decoded. -/
theorem readsBack_cardInvoice :
    ((cardInvoice note).only invoiceConverter.source invoiceType cardField).ReadsBack
      invoiceConverter.source := by
  obtain ⟨-, -, honly, -⟩ := invoice_checks.2.2.2.2.2.2.2.2.2.2.2.1 note hnote
  obtain ⟨-, -, -, -, -, -, -, -, -, -, -, -, hdecodes⟩ := invoice_checks
  obtain ⟨found, hfound, htext⟩ := (Option.any_eq_true _ _).mp hdecodes
  rw [Message.eq_of_isText honly, Message.ReadsBack, hfound, Message.eq_of_isText htext]

theorem toPlain_cardInvoice :
    invoiceConverter.convert (.strict noteCasters) .toPlain invoiceConverter.source (cardInvoice note)
      = .ok (plainCardInvoice note) :=
  eq_ok_of_isOk (invoice_checks.2.2.2.2.2.2.2.2.2.2.2.1 note hnote).2.2.2 _

end CardInvoice

/-- A card without a number comes back out of the payload that was made of it. -/
theorem empty_card_returned :
    ∃ before payload after, invoiceEntry.fields = before ++ payload :: after ∧
      payload.origin.role = some (.payload invoiceOneof.name) ∧
      (∀ p mode nested, (invoiceConverter.restoringIn mode nested p invoiceEntry invoiceType).UnpacksOneof
        invoiceOneof before payload after) ∧
      ∀ mode nested, (invoiceConverter.restoringIn mode nested (plainCardInvoice none) invoiceEntry
        invoiceType).GivesBack payload (cardInvoice none) cardField := by
  obtain ⟨-, hnames, -, -, -, hmem, hgenerate, hcrf, honeof, -⟩ := invoice_checks
  obtain ⟨type, before, payload, after, htype, hsplit, hrole, -, hunpacks, hback⟩ :=
    payloads_restored_under_own_tags load_invoice hnames (by decide) plan_invoice ofPool_invoice hmem hgenerate
      hcrf honeof rfl
  obtain rfl := Except.ok.inj (requireType_invoice.symm.trans htype)
  have hnote : none ∈ [none, some "A"] := List.mem_cons_self
  obtain ⟨-, hgives⟩ := hback (cardInvoice none) (wellTyped_cardInvoice hnote) planFor?_invoice cardMember
    List.mem_cons_self cardField field?_card (has_cardInvoice hnote) (readsBack_cardInvoice hnote)
    (.strict noteCasters) (plainCardInvoice none) (toPlain_cardInvoice hnote)
  exact ⟨before, payload, after, hsplit, hrole, hunpacks, hgives⟩

/-- Whether a value is some bytes. -/
def Value.isBytes (bytes : List UInt8) : Value → Bool
  | .bytes found => found == bytes
  | _ => false

theorem eq_some_of_isBytes {value : Option Value} {bytes : List UInt8}
    (h : value.any (Value.isBytes bytes)) : value = some (.bytes bytes) := by
  cases value with
  | none => exact absurd h (by simp)
  | some found => cases found <;> simp_all [Value.isBytes]

/-- What can be read off an invoice with a wrong state and a wrong discriminator, and off one whose note
no caster takes back. -/
theorem wrongInvoice_checks :
    invoiceConverter.planFor? wrongInvoice.type .toSource = some invoiceEntry ∧
      (valueNamed? wrongRestoring.pool wrongRestoring.plain invoiceOneof.name).any
        (Value.isBytes [26, 1, 55]) ∧
      (Wire.decode? wrongRestoring.source wrongRestoring.type.fullName [26, 1, 55]).isSome ∧
      populatedMember? wrongRestoring.source wrongPayload invoiceOneof = some 0 ∧
      wrongRestoring.tagText invoiceOneof = "p.Kind.BANK" ∧
      errorOf? (invoiceConverter.toSource {} invoiceConverter.plain wrongInvoice)
        = some (.unknownEnumValue "state" "WRONG") ∧
      errorOf? (invoiceConverter.toSource {} invoiceConverter.plain (plainCardInvoice (some "A")))
        = some (.missingCaster ".p.InvoicePlain" "note") := by
  decide +kernel

/-- The payload of a card under the discriminator of a bank is not what is reported if the state in front
of it is wrong, too; and an invoice by card does not come back if the casters of its note are missing. -/
theorem wrong_state_before_wrong_tag :
    invoiceEntry ∈ invoicePlan.messages ∧ invoiceEntry.generate ∧ invoiceEntry.crf = [] ∧
      invoiceOneof ∈ invoiceEntry.oneofs ∧
      invoiceConverter.planFor? wrongInvoice.type .toSource = some invoiceEntry ∧
      wrongRestoring.Packs invoiceOneof wrongPayload cardMember ∧
      wrongRestoring.TagNames invoiceOneof bankMember ∧
      invoiceConverter.toSource {} invoiceConverter.plain wrongInvoice
        = .error (.unknownEnumValue "state" "WRONG") ∧
      invoiceConverter.toSource {} invoiceConverter.plain wrongInvoice
        ≠ .error (.dispatchMismatch "method" "bank" "card") ∧
      (cardInvoice (some "A")).has invoiceConverter.source cardField ∧
      invoiceConverter.toPlain noteCasters invoiceConverter.source (cardInvoice (some "A"))
        = .ok (plainCardInvoice (some "A")) ∧
      invoiceConverter.toSource {} invoiceConverter.plain (plainCardInvoice (some "A"))
        = .error (.missingCaster ".p.InvoicePlain" "note") := by
  obtain ⟨-, -, -, -, -, hmem, hgenerate, hcrf, honeof, -⟩ := invoice_checks
  obtain ⟨hplan, hbytes, hdecodes, hpopulated, htag, hstate, hnote⟩ := wrongInvoice_checks
  have hwrong := eq_error_of_errorOf? hstate
  have hcard : some "A" ∈ [none, some "A"] := List.mem_cons_of_mem _ List.mem_cons_self
  obtain ⟨found, hfound⟩ := Option.isSome_iff_exists.mp hdecodes
  have hpayload : wrongPayload = found := by rw [wrongPayload, hfound, Option.getD_some]
  rw [← hpayload] at hfound
  have hpacks : wrongRestoring.Packs invoiceOneof wrongPayload cardMember :=
    ⟨⟨[26, 1, 55], eq_some_of_isBytes hbytes, hfound⟩, 0, hpopulated, rfl⟩
  have hnames : wrongRestoring.TagNames invoiceOneof bankMember := by
    refine ⟨"p.Kind.BANK", List.mem_cons_self, ?_⟩
    rw [htag]
    decide
  refine ⟨hmem, hgenerate, hcrf, honeof, hplan, hpacks, hnames, hwrong, ?_, has_cardInvoice hcard,
    toPlain_cardInvoice hcard, eq_error_of_errorOf? hnote⟩
  rw [hwrong]
  exact nofun

end PlainSchema
