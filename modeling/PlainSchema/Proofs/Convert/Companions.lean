import PlainSchema.Proofs.Convert.Flattened
import PlainSchema.Proofs.Convert.Local
import PlainSchema.Proofs.Convert.Recorded

/-!
# What a companion decides

The text of a companion is read for one field only, `CompanionAlone.ignores`: the fields that are not
merged with it, the members that tags select and the discriminators of payloads are restored as they
would be with any other text, `Restoring.restoreField_withPlain`.  So two Plain messages that differ in
the text alone are restored to messages that agree in every field that neither path of the merged field
touches, `Restoring.agreeOutside_run`.
-/

namespace PlainSchema

open Proto

/-! ## Messages that differ in some fields -/

/-- Two messages of one type hold the same under every name but some. -/
structure Message.AgreeBut (pool : Pool) (names : List String) (p p' : Message) : Prop where
  type : p'.type = p.type
  stored : ∀ other, other ∉ names → p'.stored? pool other = p.stored? pool other

/-- Two messages of one type hold the same under every name but one. -/
structure Message.AgreeBeside (pool : Pool) (name : String) (p p' : Message) : Prop where
  type : p'.type = p.type
  stored : ∀ other, other ≠ name → p'.stored? pool other = p.stored? pool other

theorem Message.AgreeBeside.agreeBut {pool : Pool} {name : String} {p p' : Message}
    (h : AgreeBeside pool name p p') : AgreeBut pool [name] p p' :=
  ⟨h.type, fun other hother => h.stored other fun heq => hother (heq ▸ List.mem_singleton_self _)⟩

namespace Message.AgreeBut

variable {pool : Pool} {names : List String} {other : String} {p p' : Message}

theorem type? (h : AgreeBut pool names p p') : p'.type? pool = p.type? pool := by
  rw [Message.type?, Message.type?, h.type]

theorem value? (h : AgreeBut pool names p p') {type : MessageType} {field : Field}
    (htype : p.type? pool = some type) (hfield : type.field? other = some field)
    (hother : other ∉ names) : p'.value? field.number = p.value? field.number := by
  have hstored := h.stored other hother
  rw [stored?_eq htype hfield, stored?_eq (h.type?.trans htype) hfield] at hstored
  exact hstored

theorem valueNamed? (h : AgreeBut pool names p p') (hother : other ∉ names) :
    PlainSchema.valueNamed? pool p' other = PlainSchema.valueNamed? pool p other := by
  rw [PlainSchema.valueNamed?, PlainSchema.valueNamed?, h.type?]
  cases htype : p.type? pool with
  | none => rfl
  | some type =>
    cases hfield : type.field? other with
    | none => simp [hfield]
    | some field => simp [hfield, Message.get, h.value? htype hfield hother]

end Message.AgreeBut

/-! ## Fields that do not look at a name -/

/-- The Plain field of a name does not tell the members of a oneof apart. -/
structure NamesNoTag (plan : MessagePlan) (name : String) : Prop where
  tags : ∀ oneof ∈ plan.oneofs, ∀ dispatch, oneof.dispatch = some dispatch →
    dispatch.fieldName ≠ name
  discriminators : ∀ other ∈ plan.fields, ∀ oneof,
    other.origin.role = some (.discriminator oneof) → other.shape.name ≠ name

/-- Restoring a field does not look at the Plain field of a name. -/
structure Ignores (plan : MessagePlan) (name : String) (other : FieldPlan) : Prop where
  reversible : other.isReversible → other.shape.name ≠ name
  payload : ∀ oneof, other.origin.role = some (.payload oneof) → other.shape.name ≠ name
  companion : other.isReversible → ∀ entry, plan.mergedField? other.shape.name = some entry →
    entry.crfField ≠ name

/-- The name of a companion belongs to it alone. -/
structure CompanionAlone (plan : MessagePlan) (entry : CrfEntry) : Prop where
  role : ∀ other ∈ plan.fields, other.shape.name = entry.crfField →
    other.origin.role = some (.crfPath entry.field)
  entries : ∀ other ∈ plan.crf, other.crfField = entry.crfField → other.field = entry.field
  tags : ∀ oneof ∈ plan.oneofs, ∀ dispatch, oneof.dispatch = some dispatch →
    dispatch.fieldName ≠ entry.crfField

theorem SourceMessage.IsPlanOf.companionAlone {schema : Schema} {settings : Settings}
    {renames : Renames} {m : SourceMessage} {mp : MessagePlan} {entry : CrfEntry}
    (h : m.IsPlanOf schema settings renames mp) (hgenerate : mp.generate) (hentry : entry ∈ mp.crf) :
    CompanionAlone mp entry := by
  refine ⟨fun other hother hname => h.role_of_companionName hgenerate hentry hother hname, ?_, ?_⟩
  · intro other hother heq
    rw [h.crfField_eq hgenerate hother, h.crfField_eq hgenerate hentry] at heq
    exact String.append_left_inj "CRF" |>.mp heq
  · intro oneof honeof dispatch hdispatch heq
    obtain ⟨tag, htag, hname, hrole⟩ := h.exists_dispatchTag hgenerate honeof hdispatch
    have hcompanion := h.role_of_companionName hgenerate hentry htag (hname.trans heq)
    rw [hrole] at hcompanion
    exact absurd hcompanion (by simp)

namespace CompanionAlone

variable {plan : MessagePlan} {entry : CrfEntry} {other : FieldPlan} (h : CompanionAlone plan entry)

include h

theorem namesNoTag : NamesNoTag plan entry.crfField := by
  refine ⟨h.tags, fun other hother oneof hrole heq => ?_⟩
  rw [h.role other hother heq] at hrole
  exact absurd hrole (by simp)

/-- A companion is read for the fields that are merged with it, and for no others. -/
theorem ignores (hother : other ∈ plan.fields)
    (hne : other.isReversible → other.shape.name ≠ entry.field) :
    Ignores plan entry.crfField other where
  reversible hreversible heq := FieldPlan.role_ne hreversible _ (h.role other hother heq)
  payload oneof hrole heq := by
    rw [h.role other hother heq] at hrole
    exact absurd hrole (by simp)
  companion hreversible found hfound heq := by
    have hname : found.field = other.shape.name := by simpa using List.find?_some hfound
    have hfield := h.entries found (List.mem_of_find?_eq_some hfound) heq
    exact hne hreversible (hname.symm.trans hfield)

end CompanionAlone

namespace Restoring

variable {c : Restoring} {selection : Selection} {entry : CrfEntry} {plan other : FieldPlan}
  {p' m m' : Message} {name : String}

/-- The same conversion of another Plain message. -/
def withPlain (c : Restoring) (p' : Message) : Restoring :=
  { c with plain := p' }

section But

variable {names : List String} (hagree : c.plain.AgreeBut c.pool names p')

include hagree

theorem selectMembers_withPlain (hnames : ∀ name ∈ names, NamesNoTag c.plan name) :
    selectMembers c.mode c.pool p' c.plan.oneofs
      = selectMembers c.mode c.pool c.plain c.plan.oneofs := by
  have hselected : ∀ oneof ∈ c.plan.oneofs,
      selectedMember c.pool p' oneof = selectedMember c.pool c.plain oneof := by
    intro oneof honeof
    rw [selectedMember, selectedMember]
    cases hdispatch : oneof.dispatch with
    | none => rfl
    | some dispatch =>
      rw [Option.bind_some, Option.bind_some,
        hagree.valueNamed? fun hmem => (hnames _ hmem).tags oneof honeof dispatch hdispatch rfl]
  rw [selectMembers, selectMembers]
  refine foldlM_congr (fun selection oneof honeof => ?_) []
  rw [hselected oneof honeof]

theorem writePath_withPlain (hignores : ∀ name ∈ names, Ignores c.plan name other)
    (hreversible : other.isReversible) (selected : Option OneofMember) :
    (c.withPlain p').writePath other selected = c.writePath other selected := by
  rw [writePath, writePath]
  dsimp only [withPlain]
  cases hfound : c.plan.mergedField? other.shape.name with
  | none => rfl
  | some found =>
    have hrecorded : (c.withPlain p').recordedPath found = c.recordedPath found := by
      rw [recordedPath, recordedPath]
      dsimp only [withPlain]
      rw [hagree.valueNamed? fun hmem => (hignores _ hmem).companion hreversible found hfound rfl]
    dsimp only [withPlain] at hrecorded
    dsimp only
    rw [hrecorded]

theorem adapted_withPlain (hignores : ∀ name ∈ names, Ignores c.plan name other)
    (hreversible : other.isReversible) :
    (c.withPlain p').adapted selection other = c.adapted selection other := by
  rw [adapted, adapted]
  simp only [writePath_withPlain hagree hignores hreversible]
  dsimp only [withPlain]
  rw [hagree.type?]
  cases htype : c.plain.type? c.pool with
  | none => rfl
  | some type =>
    cases hfield : type.field? other.shape.name with
    | none => simp only [Option.map_some, Option.getD_some, bind, Except.bind, requireField, hfield]
    | some field =>
      have hget : Message.get? c.pool p' field = Message.get? c.pool c.plain field :=
        Message.get?_congr <| hagree.value? htype hfield fun hmem =>
          (hignores _ hmem).reversible hreversible rfl
      simp only [Option.map_some, Option.getD_some, bind, Except.bind, requireField, hfield, hget]

theorem discriminator?_withPlain (hnames : ∀ name ∈ names, NamesNoTag c.plan name) (oneof : String) :
    (c.withPlain p').discriminator? oneof = c.discriminator? oneof := by
  rw [discriminator?, discriminator?]
  dsimp only [withPlain]
  cases hfield : discriminatorField? c.plan oneof with
  | none => rfl
  | some field =>
    obtain ⟨found, hfound, rfl⟩ := Option.map_eq_some_iff.mp hfield
    have hrole : found.origin.role = some (.discriminator oneof) := by
      simpa using List.find?_some hfound
    have hother : found.shape.name ∉ names := fun hmem =>
      (hnames _ hmem).discriminators found (List.mem_of_find?_eq_some hfound) oneof hrole rfl
    simp only [Option.bind_eq_bind, Option.bind_some, hagree.valueNamed? hother]

/-- What some Plain fields hold changes nothing about restoring the fields that do not look at them. -/
theorem restoreField_withPlain (hnames : ∀ name ∈ names, NamesNoTag c.plan name)
    (hignores : ∀ name ∈ names, Ignores c.plan name other) (out : Message) :
    (c.withPlain p').restoreField selection out other = c.restoreField selection out other := by
  by_cases hreversible : other.isReversible
  · rw [restoreField_eq_restoreValue hreversible, restoreField_eq_restoreValue hreversible,
      restoreValue, restoreValue, adapted_withPlain hagree hignores hreversible]
    rfl
  · rw [restoreField, restoreField]
    cases hrole : other.origin.role with
    | none =>
      have hvirtual : other.origin.isVirtual := by
        simpa [FieldPlan.isReversible, hrole] using hreversible
      simp [hvirtual]
    | some role =>
      cases role with
      | payload oneof =>
        dsimp only
        rw [restorePayload, restorePayload]
        simp only [discriminator?_withPlain hagree hnames]
        dsimp only [withPlain]
        rw [hagree.valueNamed? fun hmem => (hignores _ hmem).payload oneof hrole rfl]
      | _ => rfl

theorem restoreStep_withPlain (hnames : ∀ name ∈ names, NamesNoTag c.plan name)
    (hignores : ∀ name ∈ names, Ignores c.plan name other) (out : Message) :
    (c.withPlain p').restoreStep selection out other = c.restoreStep selection out other := by
  have hleft : (c.withPlain p').leftBehind selection out other = c.leftBehind selection out other := by
    by_cases hreversible : other.isReversible
    · rw [leftBehind, leftBehind, if_pos hreversible, if_pos hreversible,
        adapted_withPlain hagree hignores hreversible]
      rfl
    · rw [leftBehind_of_not_isReversible hreversible, leftBehind_of_not_isReversible hreversible]
  rw [restoreStep, restoreStep, hleft, restoreField_withPlain hagree hnames hignores]
  rfl

end But

/-! ## Runs -/

/-- A run writes the fields back and then sets the selected members. -/
theorem exists_folds_of_run (hselection : selectMembers c.mode c.pool c.plain c.plan.oneofs
    = .ok selection) (h : c.run = .ok m) :
    ∃ out, c.plan.fields.foldlM (c.restoreStep selection) { type := c.type.fullName } = .ok out ∧
      selection.foldlM
        (fun out selected => c.mode.settle out (c.ensureSelected out selected.2)) out = .ok m := by
  rw [run, hselection] at h
  exact bind_eq_ok.mp h

/-- The fields that restoring a merged field may touch, with one text of the companion or the other. -/
def Reaches (c : Restoring) (p' : Message) (entry : CrfEntry) (selected : Option OneofMember)
    (field : Field) : Prop :=
  ∃ path, (c.LeadsThrough entry selected path ∨ (c.withPlain p').LeadsThrough entry selected path) ∧
    c.type.Touches path field

theorem IsMerged.actsOnOne (h : c.IsMerged entry plan) :
    ActsOnOne c.source c.type
      (fun field => ∃ path, c.LeadsThrough entry (selectedFor selection plan) path ∧
        c.type.Touches path field)
      (c.restoreStep selection · plan) := by
  refine (actsOnOne_restoreValue h.reversible).mono fun field hmem ⟨write, hadapted, hhead⟩ => ?_
  obtain ⟨_, _, -, -, ⟨-, hnone⟩ | ⟨found, hfound, hpath, -⟩⟩ := adapted_eq_ok hadapted
  · exact absurd hnone (by simp)
  obtain rfl := Option.some.inj hfound
  exact ⟨write.path, hpath ▸ h.leadsThrough _, field, hmem, hhead, Or.inl rfl⟩

/-- Two Plain messages that differ in a field that one step looks at are restored to messages that
agree outside what this step may touch. -/
theorem agreeOutside_run {before after : List FieldPlan} {touched : Field → Prop}
    (hpool : c.source.Linked) (hfound : c.source.message? c.type.fullName = some c.type)
    (hclosed : c.type.ClosedUnderOneofs touched)
    (hsplit : c.plan.fields = before ++ plan :: after) (hname : NamesNoTag c.plan name)
    (hignores : ∀ other, other ∈ before ∨ other ∈ after → Ignores c.plan name other)
    (hbeside : c.plain.AgreeBeside c.pool name p')
    (hselection : selectMembers c.mode c.pool c.plain c.plan.oneofs = .ok selection)
    (hacts : ActsOnOne c.source c.type touched (c.restoreStep selection · plan))
    (hacts' : ActsOnOne c.source c.type touched ((c.withPlain p').restoreStep selection · plan))
    (hrun : c.run = .ok m) (hrun' : (c.withPlain p').run = .ok m') :
    AgreeOutside c.source c.type touched m m' := by
  have hlinked : c.type.Linked := hpool c.type (Pool.message?_mem hfound).1
  have hnames : ∀ other ∈ [name], NamesNoTag c.plan other := List.forall_mem_singleton.mpr hname
  have hsame : ∀ other, other ∈ before ∨ other ∈ after → ∀ out,
      (c.withPlain p').restoreStep selection out other = c.restoreStep selection out other :=
    fun other hother out => restoreStep_withPlain hbeside.agreeBut hnames
      (List.forall_mem_singleton.mpr (hignores other hother)) out
  have hselection' : selectMembers c.mode c.pool p' c.plan.oneofs = .ok selection :=
    (selectMembers_withPlain hbeside.agreeBut hnames).trans hselection
  obtain ⟨fourth, hfields, hlast⟩ := exists_folds_of_run hselection hrun
  obtain ⟨fourth', hfields', hlast'⟩ :=
    exists_folds_of_run (c := c.withPlain p') hselection' hrun'
  change c.plan.fields.foldlM ((c.withPlain p').restoreStep selection) { type := c.type.fullName }
    = .ok fourth' at hfields'
  rw [hsplit] at hfields hfields'
  obtain ⟨first, hfirst, hrest⟩ := foldlM_append_eq_ok.mp hfields
  obtain ⟨first', hfirst', hrest'⟩ := foldlM_append_eq_ok.mp hfields'
  obtain ⟨second, hsecond, hthird⟩ := foldlM_cons_eq_ok.mp hrest
  obtain ⟨second', hsecond', hthird'⟩ := foldlM_cons_eq_ok.mp hrest'
  -- Up to the step both runs are the same.
  have hequal : first' = first := by
    rw [foldlM_congr fun out other hother => hsame other (Or.inl hother) out] at hfirst'
    exact Except.ok.inj (hfirst'.symm.trans hfirst)
  subst hequal
  have hnew : Message.type? c.source { type := c.type.fullName } = some c.type := hfound
  have htype := type?_foldlM_restoreStep hnew hfirst
  have hsettled : c.mode.settle first' (c.restoreStep selection first' plan) = .ok second := by
    rw [restoreStep, Mode.settle_settle]
    exact hsecond
  have hsettled' : c.mode.settle first' ((c.withPlain p').restoreStep selection first' plan)
      = .ok second' := by
    rw [restoreStep]
    exact (Mode.settle_settle _ _ _ _).trans hsecond'
  have hleft := hacts.agreeOutside_self hlinked hclosed htype hsettled
  have hright := hacts'.agreeOutside_self hlinked hclosed htype hsettled'
  -- Behind it they take the same steps.
  rw [foldlM_congr fun out other hother => hsame other (Or.inr hother) out] at hthird'
  rw [settle_restoreStep] at hthird hthird'
  have hagree := agreeOutside_foldlM hlinked hclosed
    (fun other _ => actsOnOne_restoreStep) (hleft.symm.trans hright) hthird hthird'
  exact agreeOutside_foldlM hlinked hclosed
    (fun selected _ => actsOnOne_ensureSelected.mono fun _ _ _ => trivial) hagree hlast hlast'

/-! ## What a companion decides -/

/-- A merged field is written back through one path, that of its companion if there is one. -/
structure RestoresMerged (c : Restoring) (entry : CrfEntry) (before : List FieldPlan)
    (plan : FieldPlan) (after : List FieldPlan) : Prop where
  /-- Restoring the field changes nothing, or is one write through the path. -/
  oneWrite : ∀ selection out out', out.type? c.source = some c.type →
    c.mode.settle out (c.restoreField selection out plan) = .ok out' →
    out' = out ∨ ∃ path value, c.LeadsThrough entry (selectedFor selection plan) path ∧
      WritesOnly c.source c.type path value out out'
  /-- A recorded path that leads to no field, or to one that the value does not fit, is an error of a
  strict conversion; a lenient one leaves the field out. -/
  refused : hasNamed c.pool c.plain entry.field → c.recordedPath entry ≠ [] →
    (∀ selection, selectMembers c.mode c.pool c.plain c.plan.oneofs = .ok selection →
      ¬ c.RecordedFits selection entry plan) →
    match c.mode with
    | .strict _ => ∃ e, c.run = .error e
    | .lenient _ => c.run = (c.withFields (before ++ after)).run
  /-- The other fields are restored as they would be with another text in the companion. -/
  others : ∀ p', c.plain.AgreeBeside c.pool entry.crfField p' →
    ∀ other, other ∈ before ∨ other ∈ after → ∀ selection out,
      (c.withPlain p').restoreField selection out other = c.restoreField selection out other
  /-- The message is the same as with another text, but for what the two paths touch. -/
  reaches : ∀ p' m m' selection, c.plain.AgreeBeside c.pool entry.crfField p' →
    selectMembers c.mode c.pool c.plain c.plan.oneofs = .ok selection →
    c.run = .ok m → (c.withPlain p').run = .ok m' →
    AgreeOutside c.source c.type (c.Reaches p' entry (selectedFor selection plan)) m m'

theorem IsMerged.restoresMerged {before after : List FieldPlan} (h : c.IsMerged entry plan)
    (hname : plan.shape.name = entry.field) (hpool : c.source.Linked)
    (hfound : c.source.message? c.type.fullName = some c.type)
    (halone : CompanionAlone c.plan entry) (hsplit : c.plan.fields = before ++ plan :: after)
    (hignores : ∀ other, other ∈ before ∨ other ∈ after → Ignores c.plan entry.crfField other) :
    c.RestoresMerged entry before plan after where
  oneWrite _ _ _ htype hstep := h.writesOnly hpool htype hstep
  refused hset hrecorded hfits := by
    rw [← hname] at hset
    have herror : ∀ selection, selectMembers c.mode c.pool c.plain c.plan.oneofs = .ok selection →
        ∀ out, out.type? c.source = some c.type →
          (∃ e, c.restoreField selection out plan = .error e) ∧
            c.leftBehind selection out plan = out :=
      fun selection hselection _ htype =>
        ⟨h.restoreField_error htype hset hrecorded (hfits selection hselection),
          h.leftBehind_eq htype hrecorded (hfits selection hselection)⟩
    cases hmode : c.mode with
    | strict casters => exact run_strict_of_error hfound hsplit herror hmode
    | lenient casters =>
      exact run_lenient_of_error hfound hsplit herror hmode fun _ => FieldPlan.role_ne h.reversible _
  others p' hbeside other hother selection out :=
    restoreField_withPlain hbeside.agreeBut (List.forall_mem_singleton.mpr halone.namesNoTag)
      (List.forall_mem_singleton.mpr (hignores other hother)) out
  reaches p' _ _ selection hbeside hselection hrun hrun' := by
    have hmerged : (c.withPlain p').IsMerged entry plan := ⟨h.reversible, h.found, h.first⟩
    refine agreeOutside_run hpool hfound (closedUnderOneofs_touches (hpool c.type
      (Pool.message?_mem hfound).1) _) hsplit halone.namesNoTag hignores hbeside hselection ?_ ?_ hrun
      hrun'
    · exact h.actsOnOne.mono fun field _ hpath => hpath.imp fun path => And.imp_left Or.inl
    · exact hmerged.actsOnOne.mono fun field _ hpath => hpath.imp fun path => And.imp_left Or.inr

end Restoring

/-! ## The main result -/

/-- The conversion back of a Plain message by a plan, in some mode and with some conversion of the
messages inside it. -/
def Converter.restoringIn (c : Converter) (mode : Mode) (nested : ConvertNested) (p : Message)
    (mp : MessagePlan) (type : MessageType) : Restoring where
  pool := c.plain
  source := c.source
  mode := mode
  nested := nested
  plan := mp
  type := type
  plain := p

/-- A Plain payment with a number, and the text of its companion. -/
def numberedPayment (text : String) : Message :=
  { type := "p.PaymentPlain", fields := [(4, .string "7"), (5, .string text)] }

/-- The entry about the number. -/
def numberEntry : CrfEntry :=
  { field := "number", crfField := "numberCRF", sources := ["card/number", "bank/number"] }

/-- The source payment of a Plain payment. -/
def mergedPayment (text : String) : Message :=
  (mergedPaymentConverter.toSource {} mergedPaymentConverter.plain (numberedPayment text)).toOption.getD
    default

/-- What can be read off a Plain payment whose companion records the note. -/
theorem numberedPayment_checks :
    ProperNames mergedPaymentPool.files ∧ numberEntry ∈ mergedPaymentEntry.crf ∧
      (mergedPaymentConverter.toSource {} mergedPaymentConverter.plain
        (numberedPayment "note")).isOk ∧
      (valueNamed? mergedPaymentConverter.plain (numberedPayment "note")
        numberEntry.crfField).any (Value.isText "note") ∧
      ((mergedPayment "note").at? mergedPaymentConverter.source ["note"]).any
        (Value.isText "7") ∧
      Crf.fieldNamesOf "note" = ["note"] ∧
      ∀ source ∈ numberEntry.sources, Crf.fieldNamesOf source ≠ Crf.fieldNamesOf "note" := by
  decide +kernel

theorem properNames_mergedPayment : ProperNames mergedPaymentPool.files :=
  numberedPayment_checks.1

theorem numberEntry_mem : numberEntry ∈ mergedPaymentEntry.crf :=
  numberedPayment_checks.2.1

end PlainSchema
