import Mathlib.Data.Fintype.Defs
import PlainSchema.Proofs.Convert.Built
import PlainSchema.Proofs.Convert.Transcoded
import PlainSchema.Proofs.Convert.Undone

/-!
# Messages that can be converted back

`toSource_of_toPlain` is the main result: a Plain message that the strict conversion made of a
well-typed message is converted back without an error, as long as the fields of a dispatched oneof are
read from its members alone, corresponding fields have corresponding types, and what is encoded can be
decoded.

Without the first condition the conversion back can fail, see `dispatched_number_refused`: a field that
was merged with one from outside of the oneof may have been read from there, and then the path that its
companion records does not start with the selected member.
-/

namespace PlainSchema

open Proto

/-- The fields of a dispatched oneof are read from its members alone. -/
def MessagePlan.DispatchesMembers (mp : MessagePlan) : Prop :=
  ∀ plan ∈ mp.fields, plan.isReversible → ∀ oneof ∈ mp.oneofs,
    plan.origin.oneofGroup = some oneof.name → oneof.dispatch.isSome →
    ∀ path ∈ mp.ownPaths plan, ∃ member ∈ oneof.members, path.head? = some member.name

/-- What a plan encodes of a message: the messages in a serialized field, and the member that a payload
holds. -/
inductive MessagePlan.Encodes (pool : Pool) (mp : MessagePlan) (x : Message) : Message → Prop
  | serialized {plan : FieldPlan} {path : List String} {leaf : Field} {value : Value} {m : Message}
      (hplan : plan ∈ mp.fields) (hserialized : plan.origin.isSerialized)
      (hread : x.read? pool path = some (leaf, value)) (hholds : value.Holds m) : Encodes pool mp x m
  | payload {plan : FieldPlan} {name : String} {oneof : OneofPlan} {index : Nat}
      {member : OneofMember} {type : MessageType} {field : Field} (hplan : plan ∈ mp.fields)
      (hrole : plan.origin.role = some (.payload name)) (honeof : mp.oneof? name = some oneof)
      (hindex : populatedMember? pool x oneof = some index)
      (hmember : oneof.members[index]? = some member) (htype : x.type? pool = some type)
      (hfield : type.field? member.name = some field) :
      Encodes pool mp x (Message.set { type := x.type } type field (x.get pool field))

instance (plan : FieldPlan) : Decidable plan.Copies :=
  inferInstanceAs (Decidable (_ ∧ _ ∧ _))

instance (mp : MessagePlan) : Decidable mp.DispatchesMembers :=
  inferInstanceAs (Decidable (∀ plan ∈ mp.fields, plan.isReversible → ∀ oneof ∈ mp.oneofs,
    plan.origin.oneofGroup = some oneof.name → oneof.dispatch.isSome →
    ∀ path ∈ mp.ownPaths plan, ∃ member ∈ oneof.members, path.head? = some member.name))

namespace Converter

variable {c : Converter}

/-- The messages of a type that has no plan are moved to the type with the new name. -/
def Moves (c : Converter) (name name' : String) : Prop :=
  (c.planFor? name .toPlain).isNone → dotted name' = c.plan.renames.rename (dotted name)

instance (c : Converter) (name name' : String) : Decidable (c.Moves name name') :=
  inferInstanceAs (Decidable (_ → _))

/-- A Plain field is of the kind of a field that it is read from. -/
def MirrorsField (c : Converter) (plan : FieldPlan) (leaf target : Field) : Prop :=
  (leaf.isSingular → target.isSingular) ∧
    (plan.Copies → KeepsTypes c.source c.plain c.Moves leaf target)

instance (c : Converter) (plan : FieldPlan) (leaf target : Field) :
    Decidable (c.MirrorsField plan leaf target) :=
  inferInstanceAs (Decidable (_ ∧ _))

/-- The planned fields of a Plain message fit the fields that they are read from. -/
structure MirrorsPlan (c : Converter) (mp : MessagePlan) (type type' : MessageType) : Prop where
  fields : ∀ plan ∈ mp.fields, plan.isReversible → ∀ path ∈ mp.ownPaths plan,
    ∀ leaf ∈ c.source.resolvePath type path, ∀ target ∈ type'.field? plan.shape.name,
      c.MirrorsField plan leaf target
  /-- Companions stand in no oneof. -/
  companions : ∀ entry ∈ mp.crf, ∀ field ∈ type'.field? entry.crfField, field.oneof = none
  counts : ∀ oneof ∈ mp.oneofs, oneof.members.length < 2147483648
  /-- A tag that is not set selects no member. -/
  tags : ∀ oneof ∈ mp.oneofs, ∀ dispatch ∈ oneof.dispatch, ∀ field ∈ type'.field? dispatch.fieldName,
    ∀ n ∈ (c.plain.default field).tag?, n = 0

/-- Corresponding fields of both sides hold messages of corresponding types. -/
structure Mirrors (c : Converter) : Prop where
  planned : ∀ mp ∈ c.plan.messages, mp.generate →
    ∀ type ∈ (requireType c.source mp.fullName).toOption,
      ∀ type' ∈ (requireType c.plain mp.newFullName).toOption, c.MirrorsPlan mp type type'
  moved : ∀ type ∈ c.source.messages, (c.planFor? type.fullName .toPlain).isNone →
    ∀ type' ∈ c.plain.messages, c.Moves type.fullName type'.fullName →
    ∀ field ∈ type.fields, ∀ target ∈ type'.fields, target.number = field.number →
      KeepsTypes c.source c.plain c.Moves field target

/-- Decided on the one number that the value holds: the instance for finite types tries them all. -/
instance (value : Value) (n : Int32) : Decidable (∀ k ∈ value.tag?, k = n) :=
  Option.decidableForallMem value.tag?

instance (c : Converter) (mp : MessagePlan) (type type' : MessageType) :
    Decidable (c.MirrorsPlan mp type type') :=
  decidable_of_iff (_ ∧ _ ∧ _ ∧ _)
    ⟨fun ⟨hfields, hcompanions, hcounts, htags⟩ => ⟨hfields, hcompanions, hcounts, htags⟩,
      fun h => ⟨h.fields, h.companions, h.counts, h.tags⟩⟩

instance (c : Converter) : Decidable c.Mirrors :=
  decidable_of_iff (_ ∧ _)
    ⟨fun ⟨hplanned, hmoved⟩ => ⟨hplanned, hmoved⟩, fun h => ⟨h.planned, h.moved⟩⟩

/-- What the plans encode of a message can be decoded. -/
def Decodes (c : Converter) (x : Message) : Prop :=
  ∀ inner : Message, inner.Within x → ∀ mp, c.planFor? inner.type .toPlain = some mp →
    ∀ m, mp.Encodes c.source inner m → m.Survives c.source

theorem Decodes.within {x inner : Message} (h : c.Decodes x) (hinner : inner.Within x) :
    c.Decodes inner :=
  fun _ hdeep => h _ (hdeep.trans hinner)

/-- The conversion back of a Plain message by a plan, with a conversion of the messages in it. -/
def restoringWith (c : Converter) (casters : Casters (Value → Except String Value))
    (back : ConvertNested) (p : Message) (mp : MessagePlan) (type : MessageType) : Restoring :=
  { c.restoring casters p mp type with nested := back }

/-- Messages whose Plain messages are not too deep are converted back. -/
def ConvertsBack (c : Converter) (there back : ConvertNested) (depth : Nat) : Prop :=
  ∀ m m' name, m.WellTyped c.source → c.Decodes m → c.Moves m.type name → m'.depth ≤ depth →
    there name m = .ok m' → ∃ m'', back m.type m' = .ok m'' ∧ m''.type = m.type

/-- The messages inside of a message are less deep. -/
theorem ConvertsBack.returns {there back : ConvertNested} {depth : Nat} {x p inner : Message}
    (h : c.ConvertsBack there back depth) (hx : x.WellTyped c.source) (hdecodes : c.Decodes x)
    (hdepth : p.depth ≤ depth + 1) (hinner : inner.Within x) {number number' : Nat}
    {value moved : Value} (hvalue : inner.value? number = some value)
    (hmoved : p.value? number' = some moved) : Returns there back c.Moves value moved := by
  intro m m' hholds hholds' name hmoves hthere
  have hwithin : m.Within x := .trans (.step hvalue hholds .refl) hinner
  have hless := Message.depth_lt_of_holds hmoved hholds'
  exact h m m' name (hx.within hwithin) (hdecodes.within hwithin) hmoves (by omega) hthere

section ByPlan

variable {fillers : Casters (Value → Except String Value)}
  (casters : Casters (Value → Except String Value)) {x p : Message} {there : ConvertNested}
  (back : ConvertNested) {mp : MessagePlan} {type type' : MessageType} {schema : Schema}
  {settings : Settings} {renames : Renames} {source : SourceMessage}

theorem undoes (hmirrors : c.MirrorsPlan mp type type') (hdispatch : mp.DispatchesMembers)
    (hcasters : ∀ fp ∈ mp.fields, ¬ fp.needsCaster) (hlinked : type'.Linked)
    (hfindings : ∀ finding ∈ schema.findings, ¬ finding.isError)
    (hmp : c.planFor? x.type .toPlain = some mp) (hx : x.WellTyped c.source)
    (htyped : x.type? c.source = some type) (hdecodes : c.Decodes x)
    (hfound : c.plain.message? type'.fullName = some type')
    {depth : Nat} (hback : c.ConvertsBack there back depth) (hdepth : p.depth ≤ depth + 1)
    (hrun : (Restoring.forward (c.restoringWith casters back p mp type) fillers there x type').run
      = .ok p)
    (hrestores : (c.restoringWith casters back p mp type).Restores casters schema settings renames
      source) :
    (c.restoringWith casters back p mp type).Undoes fillers there x type' casters schema settings
      renames source where
  restores := hrestores
  linked := hlinked
  found := hfound
  run := hrun
  typed := htyped
  wellTyped := hx
  noCaster := hcasters
  findings := hfindings
  companions := hmirrors.companions
  counts := hmirrors.counts
  tags := hmirrors.tags
  dispatched := hdispatch
  payloads := by
    intro plan hplan name hrole index member field hpopulated hfield
    obtain ⟨oneof, honeof, hindex, hmember⟩ := Flattening.populated?_eq_some hpopulated
    exact hdecodes x .refl mp hmp _ (.payload hplan hrole honeof hindex hmember htyped hfield)
  returns := by
    intro plan hplan hreversible target path leaf found value htarget hvalue hfrom
    obtain ⟨hresolved, hfits, hne, -, inner, hinner, hstored⟩ := hx.resolvePath htyped hfrom.read
    have hpath : path.names ∈ mp.ownPaths plan := List.mem_map_of_mem hfrom.mem
    have hmirror := hmirrors.fields plan hplan hreversible _ hpath leaf hresolved target htarget
    exact
      { fits := hfits
        nonempty := hne
        accepts := hfrom.accepts
        label := hmirror.1
        wellTyped := fun m hholds => (hx.within hinner).nested hstored hholds
        decodes := fun hserialized m hholds =>
          hdecodes x .refl mp hmp m (.serialized hplan hserialized hfrom.read hholds)
        copies := fun hcopies => ⟨c.Moves, hmirror.2 hcopies,
          hback.returns hx hdecodes hdepth hinner hstored hvalue⟩ }

end ByPlan

/-- A message inside a value was converted by its plan or field by field, in whatever way the messages
inside of it were converted. -/
theorem exists_convertMessage {mode : Mode} {direction : Direction} {pool : Pool}
    {deeper levels : Nat} {type : String} {m m' : Message}
    (h : c.convertWithin mode direction pool (c.convertNested mode direction pool deeper) levels type m
      = .ok m') :
    ∃ deeper' inside, c.convertMessage mode direction pool
      (c.convertWithin mode direction pool (c.convertNested mode direction pool deeper') inside) type m
        = .ok m' := by
  have hdeeper : c.convertNested mode direction pool deeper type m = .ok m' →
      ∃ deeper' inside, c.convertMessage mode direction pool
        (c.convertWithin mode direction pool (c.convertNested mode direction pool deeper') inside) type m
          = .ok m' := by
    intro h
    cases deeper with
    | zero => cases h
    | succ deeper =>
      obtain ⟨inside, hdepth⟩ : ∃ inside, m.depth = inside + 1 := by
        cases m
        exact ⟨_, rfl⟩
      rw [convertNested, hdepth, convertWithin, if_neg (by omega)] at h
      exact ⟨deeper, inside, h⟩
  cases levels with
  | zero => exact hdeeper h
  | succ inside =>
    rw [convertWithin] at h
    split at h
    · exact hdeeper h
    · exact ⟨deeper, inside, h⟩

section Built

variable {files : List FileDecl} {generate : List String} {settings : Settings}
  (fillers casters : Casters (Value → Except String Value)) {x p : Message}
  {there back : ConvertNested} {mp : MessagePlan} (hc : c.IsBuilt files generate settings)
  (hmirrors : c.Mirrors)
  (hdispatch : ∀ mp ∈ c.plan.messages, mp.generate → mp.DispatchesMembers)
  (hcasters : ∀ mp ∈ c.plan.messages, mp.generate → ∀ fp ∈ mp.fields, ¬ fp.needsCaster)

include hc hmirrors hdispatch hcasters

variable {fillers} in
/-- What a plan made of a message is read by the same plan, and its conversion back undoes the one that
made it. -/
theorem exists_undoes (hmp : c.planFor? x.type .toPlain = some mp) (hx : x.WellTyped c.source)
    (hdecodes : c.Decodes x) {depth : Nat} (hconverts : c.ConvertsBack there back depth)
    (hdepth : p.depth ≤ depth + 1)
    (h : c.byPlan (.strict fillers) there c.source x mp .toPlain = .ok p) :
    c.planFor? p.type .toSource = some mp ∧ ∃ type type' source,
      requireType c.source mp.fullName = .ok type ∧ requireType c.plain mp.newFullName = .ok type' ∧
      (c.restoringWith casters back p mp type).Undoes fillers there x type' casters
        (Schema.ofPool c.source generate) settings c.plan.renames source := by
  obtain ⟨type', htype', hrun⟩ := bind_eq_ok.mp h
  obtain ⟨hmem, hgenerate, hname⟩ := mem_of_planFor? hmp
  obtain ⟨hfullName', hfind'⟩ := fullName_of_requireType htype'
  have hback : c.planFor? p.type .toSource = some mp := by
    rw [Flattening.type_run hrun]
    exact hc.derivation.planFor?_toSource hc.loadPlain rfl hc.names hmp htype'
  refine ⟨hback, ?_⟩
  obtain ⟨type, source, htype, hrestores⟩ :=
    exists_restores_of_planFor? hc.load hc.names hc.plan hc.converter hback casters
  obtain ⟨found, htyped, -⟩ := hx x .refl
  obtain ⟨hfound, hfullName⟩ := Pool.message?_mem htyped
  obtain rfl : found = type := by
    have hrequire := (hc.requireType_fullName hfound).2
    rw [hfullName, ← hname] at hrequire
    exact Except.ok.inj (hrequire.symm.trans htype)
  exact ⟨found, type', source, htype, htype', undoes casters back
    (hmirrors.planned mp hmem hgenerate found (htype ▸ rfl) type' (htype' ▸ rfl)) (hdispatch mp hmem hgenerate)
    (hcasters mp hmem hgenerate) (hc.linkedPlain type' (Pool.message?_mem hfind').1)
    (Schema.plan_eq_ok hc.plan).findings hmp hx htyped hdecodes hfind' hconverts hdepth hrun
    ⟨hrestores.mode, hrestores.linked, hrestores.found, hrestores.isPlan, hrestores.generate,
      hrestores.mem, hrestores.names, hrestores.fieldNames, hrestores.oneofNames, hrestores.views⟩⟩

variable {fillers} in
/-- What a plan made of a message is converted back by the same plan. -/
theorem exists_byPlan (hmp : c.planFor? x.type .toPlain = some mp) (hx : x.WellTyped c.source)
    (hdecodes : c.Decodes x) {depth : Nat} (hconverts : c.ConvertsBack there back depth)
    (hdepth : p.depth ≤ depth + 1)
    (h : c.byPlan (.strict fillers) there c.source x mp .toPlain = .ok p) :
    c.planFor? p.type .toSource = some mp ∧
      ∃ m, c.byPlan (.strict casters) back c.plain p mp .toSource = .ok m ∧ m.type = x.type := by
  obtain ⟨hback, type, type', source, htype, -, hundoes⟩ := exists_undoes casters hc hmirrors hdispatch
    hcasters hmp hx hdecodes hconverts hdepth h
  obtain ⟨m, hm, hmtype⟩ := hundoes.exists_run
  refine ⟨hback, m, ?_, hmtype.trans (Pool.message?_mem hundoes.typed).2⟩
  rw [byPlan, htype]
  exact hm

/-- **Messages inside messages are converted back level by level**, by their plans or field by field. -/
theorem convertsBack (beyond : ConvertNested) (deeper levels levels' : Nat) :
    c.ConvertsBack
      (c.convertWithin (.strict fillers) .toPlain c.source
        (c.convertNested (.strict fillers) .toPlain c.source deeper) levels)
      (c.convertWithin (.strict casters) .toSource c.plain beyond levels') levels' := by
  induction levels' generalizing deeper levels with
  | zero =>
    rintro m ⟨type, fields, unknown⟩ name - - - hdepth -
    rw [Message.depth] at hdepth
    omega
  | succ levels' ih =>
    intro m m' name hm hdecodes hmoves hdepth h
    obtain ⟨deeper', inside, h⟩ := exists_convertMessage h
    rw [convertMessage] at h
    rw [convertWithin, if_neg (by omega), convertMessage]
    cases hmp : c.planFor? m.type .toPlain with
    | some mp =>
      rw [hmp] at h
      obtain ⟨hback, m'', hm'', htype⟩ := exists_byPlan casters hc hmirrors hdispatch
        hcasters hmp hm hdecodes (ih deeper' inside) hdepth h
      refine ⟨m'', ?_, htype⟩
      rw [hback]
      exact hm''
    | none =>
      rw [hmp] at h
      obtain ⟨type, htype, hfits⟩ := hm m .refl
      obtain ⟨hmem, hfullName⟩ := Pool.message?_mem htype
      obtain ⟨type', htype'⟩ := exists_requireType htype h
      obtain ⟨-, hfind'⟩ := fullName_of_requireType htype'
      obtain ⟨hmem', -⟩ := Pool.message?_mem hfind'
      have hmoved := hmoves (by rw [hmp]; rfl)
      obtain ⟨hmoved', hback⟩ := hc.derivation.planFor?_toSource_eq_none hc.loadPlain rfl hc.names
        (hfullName ▸ hc.mem_messageNames hmem) hmp hmoved htype'
      have hkeeps := hmirrors.moved type hmem (by rw [hfullName, hmp]; rfl) type' hmem'
        (fun _ => hfullName ▸ hmoved')
      obtain ⟨hname', -⟩ := exists_movedFrom htype htype' h
      rw [hname', hback]
      exact exists_transcode hfits htype htype' hfind' (hc.linked type hmem)
        (hc.linkedPlain type' hmem') (hfullName ▸ (hc.requireType_fullName hmem).1) hkeeps
        (fun number value number' moved hvalue hmoved =>
          (ih deeper' inside).returns hm hdecodes hdepth .refl hvalue hmoved) h

/-- Messages inside messages are converted back, however deep they are. -/
theorem convertsBack_convertNested (deeper deeper' depth : Nat) :
    c.ConvertsBack (c.convertNested (.strict fillers) .toPlain c.source deeper)
      (c.convertNested (.strict casters) .toSource c.plain (deeper' + 1)) depth := by
  intro m m' name hm hdecodes hmoves _ h
  cases deeper with
  | zero =>
    rw [convertNested] at h
    cases h
  | succ deeper =>
    exact convertsBack fillers casters hc hmirrors hdispatch hcasters _ deeper m.depth m'.depth m m'
      name hm hdecodes hmoves (Nat.le_refl _) h

end Built

end Converter

/-! ## The main result -/

/-- **Whatever the strict conversion made of a well-typed message is converted back without an
error**, as long as the fields of dispatched oneofs are read from their members alone. -/
theorem toSource_of_toPlain {files : List FileDecl} {pool : Pool} {generate : List String}
    {settings : Settings} {plan : SchemaPlan} {c : Converter}
    {fillers casters : Casters (Value → Except String Value)} {x p : Message}
    (hload : Pool.load files = .ok pool) (hnames : ProperNames pool.files)
    (hsuffix : '.' ∉ settings.suffix.toList)
    (hplan : (Schema.ofPool pool generate).plan settings = .ok plan)
    (hconverter : Converter.ofPool pool plan = .ok c) (hmirrors : c.Mirrors)
    (hdispatch : ∀ mp ∈ plan.messages, mp.generate → mp.DispatchesMembers)
    (hcasters : ∀ mp ∈ plan.messages, mp.generate → ∀ fp ∈ mp.fields, ¬ fp.needsCaster)
    (hx : x.WellTyped pool) (hdecodes : c.Decodes x) (h : c.toPlain fillers pool x = .ok p) :
    ∃ m, c.toSource casters c.plain p = .ok m ∧ m.type = x.type := by
  obtain ⟨plain, hplain, hc⟩ := bind_eq_ok.mp hconverter
  obtain rfl := Except.ok.inj hc
  have hbuilt : Converter.IsBuilt ⟨pool, plain, plan⟩ files generate settings :=
    ⟨hload, hnames, hsuffix, hplan, hconverter⟩
  rw [Converter.toPlain, Converter.convert] at h
  split at h
  · next mp hmp =>
    have hconverts := Converter.convertsBack_convertNested fillers casters hbuilt hmirrors hdispatch
      hcasters (Converter.levels x) 99 p.depth
    obtain ⟨hback, m, hm, htype⟩ := Converter.exists_byPlan casters hbuilt hmirrors
      hdispatch hcasters hmp hx hdecodes hconverts (Nat.le_succ _) h
    refine ⟨m, ?_, htype⟩
    rw [Converter.toSource, Converter.convert, hback]
    exact hm
  · cases h

/-! ## A payment with a tag -/

/-- A payment by card or by bank, which an enum tells apart, with an inlined message whose field may
have the name of a field of the card. -/
def taggedFile (extra : String) : FileDecl :=
  { name := "payment.proto", package := "p"
    messages :=
      [{ name := "Card"
         fields :=
           [{ name := "number", number := 1, kind := .scalar .string },
             { name := "owner", number := 2, kind := .scalar .string }] },
        { name := "Bank"
          fields :=
            [{ name := "iban", number := 1, kind := .scalar .string },
              { name := "owner", number := 2, kind := .scalar .string }] },
        { name := "Extra", fields := [{ name := extra, number := 1, kind := .scalar .string }] },
        { name := "Payment", options := { generate := true }
          oneofs := [{ name := "method", options := { enumDispatched := true } }]
          fields :=
            [{ name := "card", number := 1, kind := .message, typeRef := some ".p.Card"
               oneofIndex := some 0 },
              { name := "bank", number := 2, kind := .message, typeRef := some ".p.Bank"
                oneofIndex := some 0 },
              { name := "extra", number := 3, kind := .message, typeRef := some ".p.Extra"
                options := { embed := true } }] }] }

def taggedFiles (extra : String) : List FileDecl :=
  [{ messageOptionsFile with
      extensions := messageOptionsFile.extensions ++
        [{ name := "field", number := 2, kind := .scalar .string
           extendee := some ".plain.Options" },
          { name := "oneof", number := 3, kind := .scalar .string
            extendee := some ".plain.Options" }] },
    taggedFile extra]

def taggedPool (extra : String) : Pool := (Pool.load (taggedFiles extra)).toOption.getD {}

def taggedPlan (extra : String) : SchemaPlan :=
  ((Schema.ofPool (taggedPool extra) []).plan { enableCrf := true }).toOption.getD
    { suffix := "", messages := [], renames := {}, diagnostics := [] }

def taggedConverter (extra : String) : Converter :=
  (Converter.ofPool (taggedPool extra) (taggedPlan extra)).toOption.getD default

/-- The bank of a payment. -/
def taggedBank : Message := { type := "p.Bank", fields := [(1, .string "DE"), (2, .string "A")] }

/-- The inlined message of a payment. -/
def taggedExtra : Message := { type := "p.Extra", fields := [(1, .string "7")] }

/-- A payment by bank. -/
def taggedPayment : Message :=
  { type := "p.Payment", fields := [(2, .message taggedBank), (3, .message taggedExtra)] }

/-- The Plain payment of a payment by bank. -/
def plainTaggedPayment (extra : String) : Message :=
  ((taggedConverter extra).toPlain {} (taggedPool extra) taggedPayment).toOption.getD default

/-- What can be read off a payment by bank, its files and their plan. -/
theorem tagged_checks (extra : String) (h : extra = "note" ∨ extra = "number") :
    (Pool.load (taggedFiles extra)).isOk ∧
      ProperNames (taggedPool extra).files ∧
      ((Schema.ofPool (taggedPool extra) []).plan { enableCrf := true }).isOk ∧
      (Converter.ofPool (taggedPool extra) (taggedPlan extra)).isOk ∧
      ((taggedConverter extra).toPlain {} (taggedPool extra) taggedPayment).isOk ∧
      (∀ m ∈ [taggedPayment, taggedBank, taggedExtra],
        ∃ type ∈ m.type? (taggedPool extra), m.FitsType (taggedPool extra) type) ∧
      (∀ mp ∈ (taggedConverter extra).plan.messages, ∀ fp ∈ mp.fields,
        ¬ fp.origin.isSerialized ∧ ∀ oneof ∈ mp.oneofs,
          fp.origin.role ≠ some (.payload oneof.name)) ∧
      (taggedConverter extra).Mirrors ∧
      ((∀ mp ∈ (taggedPlan extra).messages, mp.generate → mp.DispatchesMembers) ↔ extra = "note") ∧
      (∀ mp ∈ (taggedPlan extra).messages, mp.generate → ∀ fp ∈ mp.fields, ¬ fp.needsCaster) ∧
      (extra = "number" →
        errorOf? ((taggedConverter extra).toSource {} (taggedConverter extra).plain
            (plainTaggedPayment extra)) = some (.dispatchMismatch "method" "bank" "extra")) := by
  rcases h with rfl | rfl <;> decide +kernel

section Tagged

variable (extra : String) (h : extra = "note" ∨ extra = "number")

include h

theorem load_tagged : Pool.load (taggedFiles extra) = .ok (taggedPool extra) :=
  eq_ok_of_isOk (tagged_checks extra h).1 _

theorem properNames_tagged : ProperNames (taggedPool extra).files :=
  (tagged_checks extra h).2.1

theorem plan_tagged :
    (Schema.ofPool (taggedPool extra) []).plan { enableCrf := true } = .ok (taggedPlan extra) :=
  eq_ok_of_isOk (tagged_checks extra h).2.2.1 _

theorem ofPool_tagged :
    Converter.ofPool (taggedPool extra) (taggedPlan extra) = .ok (taggedConverter extra) :=
  eq_ok_of_isOk (tagged_checks extra h).2.2.2.1 _

theorem toPlain_tagged :
    (taggedConverter extra).toPlain {} (taggedPool extra) taggedPayment
      = .ok (plainTaggedPayment extra) :=
  eq_ok_of_isOk (tagged_checks extra h).2.2.2.2.1 _

theorem wellTyped_tagged : taggedPayment.WellTyped (taggedPool extra) := by
  obtain ⟨-, -, -, -, -, hfits, -⟩ := tagged_checks extra h
  refine .of_fields (hfits _ List.mem_cons_self) fun entry hentry child hholds => ?_
  rcases List.mem_cons.mp hentry with rfl | hentry
  · cases hholds
    exact .of_texts (hfits taggedBank (by simp)) (by simp [taggedBank])
  · obtain rfl := List.mem_singleton.mp hentry
    cases hholds
    exact .of_texts (hfits taggedExtra (by simp)) (by simp [taggedExtra])

/-- The plan of the payment encodes nothing. -/
theorem decodes_tagged : (taggedConverter extra).Decodes taggedPayment := by
  obtain ⟨-, -, -, -, -, -, hnone, -⟩ := tagged_checks extra h
  intro inner _ mp hmp m hencodes
  obtain ⟨hmem, -⟩ := Converter.mem_of_planFor? hmp
  cases hencodes with
  | serialized hplan hserialized => exact absurd hserialized (hnone mp hmem _ hplan).1
  | payload hplan hrole honeof =>
    have hname := List.find?_some honeof
    rw [beq_iff_eq] at hname
    exact absurd (hname ▸ hrole) ((hnone mp hmem _ hplan).2 _ (List.mem_of_find?_eq_some honeof))

end Tagged

/-- A payment by bank is converted back, as each field of the oneof is read from its members alone. -/
theorem tagged_payment_returned :
    ∃ m, (taggedConverter "note").toSource {} (taggedConverter "note").plain
      (plainTaggedPayment "note") = .ok m ∧ m.type = "p.Payment" :=
  have h : "note" = "note" ∨ "note" = "number" := Or.inl rfl
  have ⟨_, _, _, _, _, _, _, hmirrors, hdispatch, hcasters, _⟩ := tagged_checks "note" h
  toSource_of_toPlain (load_tagged _ h) (properNames_tagged _ h) (by decide) (plan_tagged _ h)
    (ofPool_tagged _ h) hmirrors (hdispatch.mpr rfl) hcasters (wellTyped_tagged _ h)
    (decodes_tagged _ h) (toPlain_tagged _ h)

/-- The number of the extra message is merged with the one of the card, and the conversion back takes
it for a card that contradicts the tag. -/
theorem dispatched_number_refused :
    (taggedConverter "number").toPlain {} (taggedPool "number") taggedPayment
        = .ok (plainTaggedPayment "number") ∧
      (taggedConverter "number").toSource {} (taggedConverter "number").plain
          (plainTaggedPayment "number") = .error (.dispatchMismatch "method" "bank" "extra") ∧
      ¬ ∀ mp ∈ (taggedPlan "number").messages, mp.generate → mp.DispatchesMembers :=
  have h : "number" = "note" ∨ "number" = "number" := Or.inr rfl
  have ⟨_, _, _, _, _, _, _, _, hdispatch, _, hrefused⟩ := tagged_checks "number" h
  ⟨toPlain_tagged _ h, eq_error_of_errorOf? (hrefused rfl),
    fun hdispatches => absurd (hdispatch.mp hdispatches) (by decide)⟩

end PlainSchema
