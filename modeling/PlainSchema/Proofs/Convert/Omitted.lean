import PlainSchema.Proofs.Convert.Agreeing
import PlainSchema.Proofs.Convert.Delivered
import PlainSchema.Proofs.Convert.Held

/-!
# What a lenient conversion leaves out

A lenient conversion goes on with what a field leaves behind that fails, so it leaves the field out only
if the field wrote nothing.  A step can fail behind a write in two places:

* a merged field is written before its companion.  The companion is a text field of the Plain type,
  so it can always be written, `Flattening.leftBehind_eq`;
* a write back creates the messages on its way.  It goes through unless a message on the way is not
  of the type that the path leads to, and such a message is the value of another field: those paths are
  apart unless a companion strays, `Restoring.leftBehind_eq`.

The main result puts this together with the agreement of both modes, `lenient_follows_strict`.  A
companion that strays can make a field write half of its way, `serial_opens_box`.
-/

namespace PlainSchema

open Proto

/-- Where a step that fails is skipped, a lenient conversion does what the step does or nothing. -/
theorem Mode.settle_lenient {α : Type} (casters : Casters (Value → Value)) {before left : α}
    {result : Except ConvertError α} (hleft : ∀ e, result = .error e → left = before) :
    (Mode.lenient casters).settle left result = .ok (result.toOption.getD before) := by
  cases result with
  | ok found => rfl
  | error e => exact congrArg Except.ok (hleft e rfl)

/-! ## Flattening -/

namespace Flattening

variable {c : Flattening} {plan : FieldPlan} {out : Message} {casters : Casters (Value → Value)}

/-- A field that fails wrote nothing: if it was merged and written, its companion was written too. -/
theorem leftBehind_eq (h : c.NamesCompanions) {e : ConvertError}
    (herror : c.fillField out plan = .error e) : c.leftBehind out plan = out := by
  rw [leftBehind]
  split
  · next target path leaf value hrequire hpopulated =>
    by_cases hreversible : plan.isReversible
    · rw [if_pos hreversible]
      cases hfill : c.fillTarget plan target leaf value out with
      | error e => rfl
      | ok filled =>
        obtain ⟨out', hout'⟩ :=
          h.exists_fillCompanion (firstPopulated?_eq_some hpopulated).1 filled
        have hfilled : c.fillValue plan target out = .ok out' := by
          rw [fillValue, hpopulated]
          exact bind_eq_ok.mpr ⟨filled, hfill, hout'⟩
        rw [FieldPlan.isReversible_iff] at hreversible
        simp [fillField, hrequire, hreversible, hfilled, bind, Except.bind] at herror
    · exact if_neg hreversible
  · rfl

/-- The fields that fail are left out: each of them leaves the Plain message as it was, which in the
end is the one that the others make. -/
structure OmitsFailures (c : Flattening) (p : Message) : Prop where
  unchanged : ∀ out plan e, c.fillField out plan = .error e → c.fillStep out plan = .ok out
  result : p = skipFailures c.fillField c.plan.fields { type := c.type.fullName }

theorem fillStep_eq (hmode : c.mode = .lenient casters) (h : c.NamesCompanions) (out : Message)
    (plan : FieldPlan) :
    c.fillStep out plan = .ok ((c.fillField out plan).toOption.getD out) := by
  rw [fillStep, hmode]
  exact Mode.settle_lenient casters fun e he => leftBehind_eq h he

/-- **A lenient conversion flattens every field but those that fail.** -/
theorem exists_omitsFailures (hmode : c.mode = .lenient casters) (h : c.NamesCompanions) :
    ∃ p, c.run = .ok p ∧ c.OmitsFailures p := by
  refine ⟨_, foldlM_eq_skipFailures fun met plan rest out _ _ => fillStep_eq hmode h out plan, ?_, rfl⟩
  intro out plan e he
  rw [fillStep_eq hmode h, he]
  rfl

end Flattening

/-! ## Restoring -/

namespace Restoring

variable {c : Restoring} {selection : Selection} {plan : FieldPlan} {met : List FieldPlan}
  {out out' m : Message} {write : Write} {casters : Casters (Value → Value)}

/-- A message in the making: what it holds was written by the plans that are done, and away from the
paths that these wrote through its messages are of the types that lead there. -/
structure Grown (c : Restoring) (selection : Selection) (met : List FieldPlan) (out : Message) :
    Prop where
  type : out.type? c.source = some c.type
  written : c.HoldsWritten selection met out
  typed : ∀ path, (∀ plan ∈ met, ∀ written, c.WritesThrough selection plan written →
    ¬ written <+: path) → TypedAlong c.source c.type out path

namespace Grown

theorem new (hfound : c.source.message? c.type.fullName = some c.type) :
    c.Grown selection [] { type := c.type.fullName } where
  type := hfound
  written place value hne hat := by
    rw [Message.at?_new hne] at hat
    cases hat
  typed path _ := .new hfound path

theorem append (h : c.Grown selection met out) (plan : FieldPlan) :
    c.Grown selection (met ++ [plan]) out where
  type := h.type
  written := h.written.append plan
  typed path hfree := h.typed path fun other hother => hfree other (List.mem_append_left _ hother)

theorem restoreField (h : c.Grown selection met out) (hpool : c.source.Linked)
    (hstep : c.restoreField selection out plan = .ok out') :
    c.Grown selection (met ++ [plan]) out' where
  type := type?_restoreField h.type hstep
  written := holdsWritten_restoreField hpool h.type h.written hstep
  typed path hfree := typedAlong_restoreField hpool
    (h.typed path fun other hother => hfree other (List.mem_append_left _ hother))
    (hfree plan (List.mem_append_right _ List.mem_cons_self)) hstep

/-- A write goes through if its path is apart from all that was written through. -/
theorem exists_writeIn? (h : c.Grown selection met out) {path : List String} {value : Value}
    (hapart : ∀ other ∈ met, ∀ written, c.WritesThrough selection other written → Apart path written)
    {leaf : Field} (hresolve : c.source.resolvePath c.type path = some leaf)
    (haccepts : c.source.accepts leaf value) :
    ∃ out', Message.writeIn? c.source value out path = some out' := by
  refine Message.exists_writeIn? (h.typed path fun other hother written hwrites =>
    (hapart other hother written hwrites).2) hresolve haccepts fun front found hne hfront _ hat => ?_
  obtain ⟨other, hother, written, hwrites, hinside | ⟨-, hmessage⟩⟩ := h.written front found hne hat
  · exact absurd (hinside.trans hfront) (hapart other hother written hwrites).2
  · exact hmessage

/-- A field that fails leaves the message as it was, if its path is apart from all that was written
through. -/
theorem leftBehind_eq (h : c.Grown selection met out)
    (hapart : plan.isReversible → ∀ write, c.adapted selection plan = .ok (some write) →
      ∀ other ∈ met, ∀ written, c.WritesThrough selection other written → Apart write.path written)
    {e : ConvertError} (herror : c.restoreField selection out plan = .error e) :
    c.leftBehind selection out plan = out := by
  rw [leftBehind]
  by_cases hreversible : plan.isReversible
  · rw [if_pos hreversible]
    split
    · next write hadapted =>
      rw [restoreField_eq_restoreValue hreversible, restoreValue, hadapted] at herror
      change c.commit _ out write = .error e at herror
      rw [commit] at herror
      rw [leftByWrite]
      split
      · rfl
      · next hconflict =>
        rw [hconflict] at herror
        have hnone : out.write? c.source write.path write.value = none := by
          cases hwrite : out.write? c.source write.path write.value with
          | none => rfl
          | some out' => simp [hwrite] at herror
        rw [Message.setValue_eq fun field hsettable => ?_, hnone]
        · rfl
        · refine h.exists_writeIn? (hapart hreversible write hadapted) ?_ hsettable.accepts
          have hresolves := hsettable.resolves
          rwa [Message.resolve?, h.type] at hresolves
    · rfl
  · rw [if_neg hreversible]

end Grown

/-- The paths of the plans are apart from those that the plans before them write through. -/
def WritesApart (c : Restoring) (selection : Selection) : Prop :=
  ∀ before plan after, c.plan.fields = before ++ plan :: after → plan.isReversible →
    ∀ write, c.adapted selection plan = .ok (some write) →
      ∀ other ∈ before, ∀ written, c.WritesThrough selection other written → Apart write.path written

theorem Restores.writesApart {strict : Casters (Value → Except String Value)} {schema : Schema}
    {settings : Settings} {renames : Renames} {source : SourceMessage}
    (hc : c.Restores strict schema settings renames source)
    (hstrays : ∀ plan ∈ c.plan.fields, ¬ c.Strays plan) (mode : Mode) (nested : ConvertNested)
    (selection : Selection) : (c.inMode mode nested).WritesApart selection := by
  intro before plan after hsplit hreversible write hadapted other hother written hwrites
  change c.plan.fields = before ++ plan :: after at hsplit
  have hplan : plan ∈ c.plan.fields := by simp [hsplit]
  have hmem : other ∈ c.plan.fields := by simp [hsplit, hother]
  have hown := path_mem_ownPaths (c := c.inMode mode nested)
    (hc.sourcePath_mem hplan hreversible) (hstrays plan hplan) hadapted
  cases hwrites with
  | value hreversible' hadapted' =>
    exact hc.apart_of_ownPaths hsplit hreversible (Or.inl hother) hreversible' hown
      (path_mem_ownPaths (c := c.inMode mode nested) (hc.sourcePath_mem hmem hreversible')
        (hstrays other hmem) hadapted')
  | payload hrole honeof hmember =>
    obtain ⟨-, -, index, -, -, -, hindex⟩ := hmember
    exact hc.apart_of_payload hplan hreversible hmem hrole honeof (List.mem_of_getElem? hindex) hown

section Lenient

variable (hmode : c.mode = .lenient casters) (hpool : c.source.Linked)
  (hfound : c.source.message? c.type.fullName = some c.type) (hapart : c.WritesApart selection)

include hmode

theorem restoreStep_eq_of_grown (h : c.Grown selection met out) {rest : List FieldPlan}
    (hapart : c.WritesApart selection) (hsplit : c.plan.fields = met ++ plan :: rest) :
    c.restoreStep selection out plan
      = .ok ((c.restoreField selection out plan).toOption.getD out) := by
  rw [restoreStep, hmode]
  exact Mode.settle_lenient casters fun e he =>
    h.leftBehind_eq (fun hreversible => hapart met plan rest hsplit hreversible) he

include hpool hfound hapart

/-- Whatever fields are left out, what the others make is grown. -/
theorem grown_of_foldlM {rest : List FieldPlan} (hsplit : c.plan.fields = met ++ rest)
    (h : met.foldlM (c.restoreStep selection) { type := c.type.fullName } = .ok out) :
    c.Grown selection met out := by
  refine foldlM_prefix (fun (met : List FieldPlan) out => ∀ rest, c.plan.fields = met ++ rest →
    c.Grown selection met out) (fun _ _ => .new hfound) ?_ h rest hsplit
  intro met plan before after hbefore hstep rest hsplit
  rw [List.append_assoc, List.singleton_append] at hsplit
  have hgrown := hbefore _ hsplit
  rw [restoreStep_eq_of_grown hmode hgrown hapart hsplit] at hstep
  obtain rfl := Except.ok.inj hstep
  cases hfield : c.restoreField selection before plan with
  | error e => exact hgrown.append plan
  | ok out' => exact hgrown.restoreField hpool hfield

theorem restoreStep_eq {rest : List FieldPlan} (hsplit : c.plan.fields = met ++ plan :: rest)
    (h : met.foldlM (c.restoreStep selection) { type := c.type.fullName } = .ok out) :
    c.restoreStep selection out plan
      = .ok ((c.restoreField selection out plan).toOption.getD out) :=
  restoreStep_eq_of_grown hmode (grown_of_foldlM hmode hpool hfound hapart hsplit h) hapart hsplit

end Lenient

/-- The members that are selected by the tags that can be read. -/
def readSelection (c : Restoring) : Selection :=
  skipFailures (selectNext (.strict {}) c.pool c.plain) c.plan.oneofs []

theorem selectMembers_lenient (c : Restoring) (casters : Casters (Value → Value)) :
    selectMembers (.lenient casters) c.pool c.plain c.plan.oneofs = .ok c.readSelection := by
  rw [selectMembers_eq]
  refine foldlM_eq_skipFailures fun _ oneof _ before _ _ => ?_
  rw [selectNext, selectNext, Mode.settle_strict]
  exact Mode.settle_lenient casters fun _ _ => rfl

/-- The fields that fail are left out: each of them leaves the message as it was, which in the end is
the one that the others make.  So are tags that cannot be read. -/
structure OmitsFailures (c : Restoring) (m : Message) : Prop where
  selection : selectMembers c.mode c.pool c.plain c.plan.oneofs = .ok c.readSelection
  unchanged : ∀ met plan rest out e, c.plan.fields = met ++ plan :: rest →
    met.foldlM (c.restoreStep c.readSelection) { type := c.type.fullName } = .ok out →
    c.restoreField c.readSelection out plan = .error e →
    c.restoreStep c.readSelection out plan = .ok out
  result : m = skipFailures (fun out selected => c.ensureSelected out selected.2) c.readSelection
    (skipFailures (c.restoreField c.readSelection) c.plan.fields { type := c.type.fullName })

/-- **A lenient conversion restores every field but those that fail**, if what it writes is apart. -/
theorem omitsFailures (hmode : c.mode = .lenient casters) (hpool : c.source.Linked)
    (hfound : c.source.message? c.type.fullName = some c.type)
    (hapart : c.WritesApart c.readSelection) (h : c.run = .ok m) : c.OmitsFailures m := by
  have hselection : selectMembers c.mode c.pool c.plain c.plan.oneofs = .ok c.readSelection := by
    rw [hmode]
    exact selectMembers_lenient c casters
  have hstep : ∀ met plan rest out, c.plan.fields = met ++ plan :: rest →
      met.foldlM (c.restoreStep c.readSelection) { type := c.type.fullName } = .ok out →
      c.restoreStep c.readSelection out plan
        = .ok ((c.restoreField c.readSelection out plan).toOption.getD out) :=
    fun met plan rest out => restoreStep_eq hmode hpool hfound hapart
  refine ⟨hselection, ?_, ?_⟩
  · intro met plan rest out e hsplit hmet he
    rw [hstep met plan rest out hsplit hmet, he]
    rfl
  · obtain ⟨out, hfields, hlast⟩ := exists_folds_of_run hselection h
    obtain rfl := Except.ok.inj (hfields.symm.trans (foldlM_eq_skipFailures hstep))
    refine Except.ok.inj (hlast.symm.trans (foldlM_eq_skipFailures fun _ selected _ out _ _ => ?_))
    rw [hmode]
    exact Mode.settle_lenient casters fun _ _ => rfl

end Restoring

/-! ## The main result -/

namespace Converter

variable {c : Converter} {files : List FileDecl} {generate : List String} {settings : Settings}
  {fallible : Casters (Value → Except String Value)} {casters : Casters (Value → Value)}
  {mp : MessagePlan}

/-- The flattening of a message by a plan, in some mode and with some conversion of the messages inside
it. -/
def flatteningIn (c : Converter) (mode : Mode) (nested : ConvertNested) (m : Message)
    (mp : MessagePlan) (type : MessageType) : Flattening where
  pool := c.source
  plain := c.plain
  mode := mode
  nested := nested
  plan := mp
  type := type
  source := m

/-- A lenient conversion with casters does what the strict one does where that one succeeds, never
fails on a message with a plan, and leaves out the fields that fail.  The last holds by every plan and
with every conversion of the messages inside, so of these messages too; on the way back it asks that no
companion strays. -/
structure FollowsStrict (c : Converter) (fallible : Casters (Value → Except String Value))
    (casters : Casters (Value → Value)) : Prop where
  toPlain : ∀ pool m p, c.toPlain fallible pool m = .ok p → c.toPlain? casters pool m = some p
  toSource : ∀ pool p m, c.toSource fallible pool p = .ok m → c.toSource? casters pool p = some m
  exists_plain : ∀ pool m, (c.planFor? m.type .toPlain).isSome →
    ∃ p, c.toPlain? casters pool m = some p
  exists_source : ∀ pool p, (c.planFor? p.type .toSource).isSome →
    ∃ m, c.toSource? casters pool p = some m
  flattens : ∀ nested m mp, c.planFor? m.type .toPlain = some mp →
    ∃ type p, requireType c.plain mp.newFullName = .ok type ∧
      c.byPlan (.lenient casters) nested c.source m mp .toPlain = .ok p ∧
      (c.flatteningIn (.lenient casters) nested m mp type).OmitsFailures p
  restores : ∀ nested p mp, c.planFor? p.type .toSource = some mp →
    ∃ type m, requireType c.source mp.fullName = .ok type ∧
      c.byPlan (.lenient casters) nested c.plain p mp .toSource = .ok m ∧
      ((∀ plan ∈ mp.fields, ¬ (c.restoringIn (.lenient casters) nested p mp type).Strays plan) →
        (c.restoringIn (.lenient casters) nested p mp type).OmitsFailures m)

/-- A lenient conversion by a plan ends well if the type that it makes is there. -/
theorem exists_byPlan_lenient (c : Converter) (casters : Casters (Value → Value))
    (nested : ConvertNested) (pool : Pool) (m : Message) (mp : MessagePlan) (direction : Direction)
    {type : MessageType} (htype : requireType (c.target direction)
      (match direction with | .toPlain => mp.newFullName | .toSource => mp.fullName) = .ok type) :
    ∃ r, c.byPlan (.lenient casters) nested pool m mp direction = .ok r := by
  cases direction with
  | toPlain =>
    have hrun : ∃ p, (Flattening.mk pool c.plain (.lenient casters) nested mp type m).run = .ok p :=
      exists_foldlM_of_total (fun _ _ => Mode.exists_settle_lenient casters _ _) _ _
    exact hrun.imp fun p hp => bind_eq_ok.mpr ⟨type, htype, hp⟩
  | toSource =>
    have hrun : ∃ r, (Restoring.mk pool c.source (.lenient casters) nested mp type m).run = .ok r :=
      Restoring.exists_run_lenient rfl
    exact hrun.imp fun r hr => bind_eq_ok.mpr ⟨type, htype, hr⟩

namespace IsBuilt

variable (hc : c.IsBuilt files generate settings)

include hc

/-- The Plain type of a generated message has a text field for every companion. -/
theorem namesCompanions (hmp : mp ∈ c.plan.messages) (hgenerate : mp.generate) {type : MessageType}
    (htype : requireType c.plain mp.newFullName = .ok type) (mode : Mode) (nested : ConvertNested)
    (m : Message) : (c.flatteningIn mode nested m mp type).NamesCompanions := by
  obtain ⟨_, _, _, _, type', hg, hlinked, hrequire⟩ := hc.exists_generatedType hmp hgenerate
  obtain rfl := Except.ok.inj (hrequire.symm.trans htype)
  obtain ⟨source, -, hplan⟩ := exists_left_of_forall₂ hc.derivation.plans.messages hmp
  exact fun entry hentry => hg.namesCompanions hlinked hplan hgenerate hentry

end IsBuilt

end Converter

/-- A crate with two loads, whose parcels and serial numbers are merged, and a drawer.  The box of the
drawer is no box of a parcel, which has a Plain type of its own. -/
def crateFile : FileDecl :=
  { name := "crate.proto", package := "p"
    messages :=
      [{ name := "Label" },
        { name := "Box", options := { generate := true }
          fields := [{ name := "seal", number := 1, kind := .message, typeRef := some ".p.Label" }] },
        { name := "Tag", fields := [{ name := "text", number := 1, kind := .scalar .string }] },
        { name := "Shell"
          fields := [{ name := "seal", number := 1, kind := .message, typeRef := some ".p.Tag" }] },
        { name := "Parcel"
          fields := [{ name := "box", number := 1, kind := .message, typeRef := some ".p.Box" }] },
        { name := "Drawer"
          fields := [{ name := "box", number := 1, kind := .message, typeRef := some ".p.Shell" }] },
        { name := "Load"
          fields :=
            [{ name := "parcel", number := 1, kind := .message, typeRef := some ".p.Parcel" },
              { name := "serial", number := 2, kind := .scalar .string }] },
        { name := "Crate", options := { generate := true }
          fields :=
            [{ name := "left", number := 1, kind := .message, typeRef := some ".p.Load"
               options := { embed := true } },
              { name := "right", number := 2, kind := .message, typeRef := some ".p.Load"
                options := { embed := true } },
              { name := "drawer", number := 3, kind := .message, typeRef := some ".p.Drawer" }] }] }

/-- The files of a crate, with the extensions that carry the options of messages and fields. -/
def crateFiles : List FileDecl :=
  [{ messageOptionsFile with
      extensions := messageOptionsFile.extensions ++
        [{ name := "field", number := 2, kind := .scalar .string
           extendee := some ".plain.Options" }] },
    crateFile]

def cratePool : Pool := (Pool.load crateFiles).toOption.getD {}

def cratePlan : SchemaPlan :=
  ((Schema.ofPool cratePool []).plan { enableCrf := true }).toOption.getD
    { suffix := "", messages := [], renames := {}, diagnostics := [] }

def crateConverter : Converter := (Converter.ofPool cratePool cratePlan).toOption.getD default

/-- The plan of a crate. -/
def crateEntry : MessagePlan :=
  (crateConverter.planFor? "p.CratePlain" .toSource).getD default

/-- A Plain crate with a parcel and a serial number, and the texts of their companions. -/
def plainCrate (parcel serial : String) : Message :=
  { type := "p.CratePlain"
    fields :=
      [(4, .message { type := "p.Parcel", fields := [(1, .message { type := "p.BoxPlain" })] }),
        (5, .string parcel), (6, .string "7"), (7, .string serial)] }

/-- A Plain crate with its parcel in the drawer, and its serial number on what should be a tag there. -/
def strayCrate : Message := plainCrate "drawer" "drawer/box/seal/text"

/-- The crate that is made of a Plain crate. -/
def crateOf (p : Message) : Message :=
  (crateConverter.toSource? {} crateConverter.plain p).getD default

/-- The type of a crate. -/
def crateType : MessageType :=
  (Converter.requireType crateConverter.source crateEntry.fullName).toOption.getD default

/-- The lenient conversion of a Plain crate. -/
def crateRestoring (p : Message) : Restoring :=
  crateConverter.restoringIn (.lenient {})
    (crateConverter.convertNested (.lenient {}) .toSource crateConverter.plain (Converter.levels p))
    p crateEntry crateType

/-- What is written back before the serial number. -/
def crateWithParcel (p : Message) : Message :=
  ((crateEntry.fields.take 2).foldlM ((crateRestoring p).restoreStep (crateRestoring p).readSelection)
    { type := (crateRestoring p).type.fullName }).toOption.getD default

/-- The plan of the serial number. -/
def serialPlan : FieldPlan := crateEntry.fields.getD 2 default

/-- What can be read off Plain crates, their files and their plan. -/
theorem crate_checks :
    (Pool.load crateFiles).isOk ∧ ProperNames cratePool.files ∧
      ((Schema.ofPool cratePool []).plan { enableCrf := true }).isOk ∧
      (Converter.ofPool cratePool cratePlan).isOk ∧
      (crateConverter.planFor? "p.CratePlain" .toSource).isSome ∧
      (∀ entry ∈ (crateRestoring (plainCrate "left/parcel" "right/serial")).plan.crf,
        (crateRestoring (plainCrate "left/parcel" "right/serial")).recordedPath entry
          ∈ entry.sources.map Crf.fieldNamesOf) ∧
      ∀ m ∈ [strayCrate, { type := "p.Parcel", fields := [(1, .message { type := "p.BoxPlain" })] },
          { type := "p.BoxPlain" }],
        ∃ type ∈ m.type? crateConverter.plain, m.FitsType crateConverter.plain type := by
  decide +kernel

theorem load_crate : Pool.load crateFiles = .ok cratePool :=
  eq_ok_of_isOk crate_checks.1 _

theorem plan_crate : (Schema.ofPool cratePool []).plan { enableCrf := true } = .ok cratePlan :=
  eq_ok_of_isOk crate_checks.2.2.1 _

theorem isBuilt_crate : crateConverter.IsBuilt crateFiles [] { enableCrf := true } :=
  Converter.isBuilt_of_ofPool load_crate crate_checks.2.1 (by decide) plan_crate
    (eq_ok_of_isOk crate_checks.2.2.2.1 _)

theorem planFor?_crate (parcel serial : String) :
    crateConverter.planFor? (plainCrate parcel serial).type .toSource = some crateEntry := by
  obtain ⟨mp, hmp⟩ := Option.isSome_iff_exists.mp crate_checks.2.2.2.2.1
  rw [crateEntry, hmp]
  exact hmp

theorem wellTyped_strayCrate : strayCrate.WellTyped crateConverter.plain := by
  obtain ⟨-, -, -, -, -, -, hfits⟩ := crate_checks
  refine .of_fields (hfits _ (by simp)) fun entry hentry child hholds => ?_
  rcases List.mem_cons.mp hentry with rfl | hentry
  · cases hholds
    refine .of_fields (hfits _ (by simp)) fun entry hentry child hholds => ?_
    obtain rfl := List.mem_singleton.mp hentry
    cases hholds
    exact .of_texts (hfits _ (by simp)) (by simp)
  · simp only [List.mem_cons, List.not_mem_nil, or_false] at hentry
    rcases hentry with rfl | rfl | rfl <;> cases hholds

/-- What becomes of the serial number on the drawer. -/
theorem serial_checks :
    (crateConverter.toSource? {} crateConverter.plain strayCrate).isSome ∧
      (crateRestoring strayCrate).plan.fields
        = crateEntry.fields.take 2 ++ serialPlan :: crateEntry.fields.drop 3 ∧
      ((crateEntry.fields.take 2).foldlM
        ((crateRestoring strayCrate).restoreStep (crateRestoring strayCrate).readSelection)
        ({ type := (crateRestoring strayCrate).type.fullName } : Message)).isOk ∧
      (errorOf? ((crateRestoring strayCrate).restoreField (crateRestoring strayCrate).readSelection
        (crateWithParcel strayCrate) serialPlan)).isSome ∧
      ((crateWithParcel strayCrate).at? crateConverter.source ["drawer", "box", "seal"]).isNone ∧
      (((crateRestoring strayCrate).restoreStep (crateRestoring strayCrate).readSelection
        (crateWithParcel strayCrate) serialPlan).toOption.any
          fun out => (out.at? crateConverter.source ["drawer", "box", "seal"]).isSome) := by
  decide +kernel

end PlainSchema
