import PlainSchema.Proofs.Convert.Kept
import PlainSchema.Proofs.Plan.Entries

/-!
# Strict conversions back

A strict conversion back writes every Plain field that is set to a place of its own: its source
path, or one of the recorded origins if the field is merged, `Restoring.Restores.apart_of_own`.  So
what was written is lost only to a member of the same oneof at the top level, to another optional
field of a synthetic oneof, or where a companion records a path that is none of the origins of its
field, `toSource_keeps`.
-/

namespace PlainSchema

open Proto

/-! ## Own paths -/

namespace Restoring

variable {c : Restoring} {casters : Casters (Value → Except String Value)} {selection : Selection}
  {plan later : FieldPlan} {before middle after : List FieldPlan} {write : Write} {m : Message}

/-- The companion of a merged field records a path that is none of the origins of the field. -/
def Strays (c : Restoring) (plan : FieldPlan) : Prop :=
  ∃ entry, c.plan.mergedField? plan.shape.name = some entry ∧ c.recordedPath entry ≠ [] ∧
    c.recordedPath entry ∉ c.plan.ownPaths plan

/-- A companion that records one of the origins of its field does not stray. -/
theorem not_strays_of_recorded
    (h : ∀ entry ∈ c.plan.crf, c.recordedPath entry ∈ entry.sources.map Crf.fieldNamesOf)
    (plan : FieldPlan) : ¬ c.Strays plan := by
  rintro ⟨entry, hentry, -, hother⟩
  apply hother
  rw [MessagePlan.ownPaths, MessagePlan.sourcePaths, hentry, List.map_map]
  exact h entry (List.mem_of_find?_eq_some hentry)

/-- A Plain field is written back through one of its own paths, unless its companion strays. -/
theorem writePath_mem_ownPaths (hown : plan.origin.sourcePath ∈ c.plan.ownPaths plan)
    (hstrays : ¬ c.Strays plan) (selected : Option OneofMember) :
    c.writePath plan selected ∈ c.plan.ownPaths plan := by
  rw [writePath]
  split
  · exact hown
  · next entry hentry =>
    dsimp only
    split
    · next hrecorded =>
      by_contra hnot
      exact hstrays ⟨entry, hentry, by simpa using hrecorded, hnot⟩
    · cases hmember : selected.bind fun member =>
          (entry.sources.map Crf.fieldNamesOf).find? (·.head? == some member.name) with
      | none => exact hown
      | some path =>
        obtain ⟨member, -, hfind⟩ := Option.bind_eq_some_iff.mp hmember
        have hmem := List.mem_of_find?_eq_some hfind
        rw [MessagePlan.ownPaths, MessagePlan.sourcePaths, hentry, List.map_map]
        simpa [Function.comp_def] using hmem

theorem path_mem_ownPaths (hown : plan.origin.sourcePath ∈ c.plan.ownPaths plan)
    (hstrays : ¬ c.Strays plan) (h : c.adapted selection plan = .ok (some write)) :
    write.path ∈ c.plan.ownPaths plan := by
  obtain ⟨_, _, -, -, ⟨-, hnone⟩ | ⟨found, hfound, hpath, -⟩⟩ := adapted_eq_ok h
  · exact absurd hnone (by simp)
  obtain rfl := Option.some.inj hfound
  rw [hpath]
  exact writePath_mem_ownPaths hown hstrays _

/-- A conversion back of a message of a type whose plan was made from a schema. -/
structure Restores (c : Restoring) (casters : Casters (Value → Except String Value))
    (schema : Schema) (settings : Settings) (renames : Renames) (source : SourceMessage) : Prop where
  mode : c.mode = .strict casters
  linked : c.source.Linked
  found : c.source.message? c.type.fullName = some c.type
  isPlan : source.IsPlanOf schema settings renames c.plan
  generate : c.plan.generate
  mem : source ∈ schema.messages
  names : schema.NamesFields
  fieldNames : ∀ m ∈ schema.messages, ∀ field ∈ m.fields, field.name ≠ ""
  oneofNames : (source.oneofs.map (·.name)).Nodup
  views : source.ViewsType c.source c.type

namespace Restores

variable {schema : Schema} {settings : Settings} {renames : Renames} {source : SourceMessage}
  (hc : c.Restores casters schema settings renames source)

include hc

theorem sourcePath_mem (hplan : plan ∈ c.plan.fields) (hreversible : plan.isReversible) :
    plan.origin.sourcePath ∈ c.plan.ownPaths plan :=
  (hc.isPlan.ownPaths_of_candidates hc.generate hc.mem hc.fieldNames hplan hreversible).1

/-- The members of the oneofs of the plan record that they were set. -/
theorem presence : ∀ oneof ∈ c.plan.oneofs, ∀ member ∈ oneof.members, ∀ field,
    c.type.field? member.name = some field → field.tracksPresence := by
  intro oneof honeof member hmember field hfield
  obtain ⟨index, -, -, -, hplans⟩ := hc.isPlan.exists_plansOneof hc.generate honeof
  obtain ⟨sourceField, hsource, hname, hindex⟩ := hplans.exists_field hmember
  have hlinked := hc.linked c.type hc.views.mem
  obtain ⟨found, hfound, rfl, hfind⟩ := hc.views.exists_field hlinked hsource
  rw [hname, hfield] at hfind
  obtain rfl := Option.some.inj hfind
  exact hlinked.presence field hfound (by rw [show field.oneof = some index from hindex]; rfl)

/-- A field of the plan is the only one of its name. -/
theorem name_ne (hsplit : c.plan.fields = before ++ plan :: after)
    (hlater : later ∈ before ∨ later ∈ after) : plan.shape.name ≠ later.shape.name := by
  have hnodup := hc.isPlan.names_nodup hc.generate
  rw [hsplit, List.map_append, List.map_cons, List.nodup_middle, List.nodup_cons] at hnodup
  intro hname
  refine hnodup.1 ?_
  rw [hname, ← List.map_append]
  exact List.mem_map_of_mem (List.mem_append.mpr hlater)

/-- The own paths of two plans are apart. -/
theorem apart_of_ownPaths (hsplit : c.plan.fields = before ++ plan :: after)
    (hreversible : plan.isReversible) (hlater : later ∈ before ∨ later ∈ after)
    (hreversible' : later.isReversible) {path written : List String}
    (hown : path ∈ c.plan.ownPaths plan) (hown' : written ∈ c.plan.ownPaths later) :
    Apart path written := by
  have hmem : later ∈ c.plan.fields := by
    rw [hsplit, List.mem_append, List.mem_cons]
    exact hlater.imp_right Or.inr
  exact hc.isPlan.ownPaths_apart hc.generate hc.mem hc.names hc.fieldNames (by simp [hsplit]) hmem
    hreversible hreversible' (hc.name_ne hsplit hlater) hown hown'

/-- An own path does not start with a member that a payload holds. -/
theorem apart_of_payload (hplan : plan ∈ c.plan.fields) (hreversible : plan.isReversible)
    (hmem : later ∈ c.plan.fields) {name : String} (hrole : later.origin.role = some (.payload name))
    {oneof : OneofPlan} (honeof : c.plan.oneof? name = some oneof) {member : OneofMember}
    (hmember : member ∈ oneof.members) {path : List String} (hown : path ∈ c.plan.ownPaths plan) :
    Apart path [member.name] := by
  obtain ⟨field, hfield, hhead, hstrategy⟩ := hc.isPlan.head_of_ownPath hc.generate hc.mem
    hc.names hc.fieldNames hplan hreversible hown
  refine apart_of_prefix [] hhead (List.prefix_refl [member.name]) fun heq => ?_
  obtain ⟨position, found, hfound, hname, hplans⟩ := hc.isPlan.exists_plansOneof hc.generate
    (List.mem_of_find?_eq_some honeof)
  obtain ⟨other, hother, hotherName, hotherIndex⟩ := hplans.exists_field hmember
  obtain ⟨position', found', hfound', hname', hpayload⟩ :=
    hc.isPlan.strategy_of_payload hc.generate hmem name hrole
  have hsame : position = position' := by
    have honeofName : oneof.name = name := by simpa using List.find?_some honeof
    have hat : (source.oneofs.map (·.name))[position]? = some name := by
      rw [List.getElem?_map, show source.oneofs[position]? = some found from hfound,
        Option.map_some, ← hname, honeofName]
    have hat' : (source.oneofs.map (·.name))[position']? = some name := by
      rw [List.getElem?_map, show source.oneofs[position']? = some found' from hfound',
        Option.map_some, hname']
    obtain ⟨hlt, -⟩ := List.getElem?_eq_some_iff.mp hat
    exact (List.getElem?_inj hlt hc.oneofNames).mp (hat.trans hat'.symm)
  have hsameField : field = other :=
    List.inj_on_of_nodup_map (hc.names source hc.mem) hfield hother (heq.trans hotherName.symm)
  exact hstrategy position (hsameField ▸ hotherIndex) (hsame ▸ hpayload)

/-- No two plans write through paths of which one goes on from the other, as long as their paths are
their own. -/
theorem apart_of_own (hsplit : c.plan.fields = before ++ plan :: after)
    (hreversible : plan.isReversible) (hadapted : c.adapted selection plan = .ok (some write))
    (hlater : later ∈ before ∨ later ∈ after) {written : List String}
    (hwrites : c.WritesThrough selection later written) (hstrays : ¬ c.Strays plan)
    (hstrays' : ¬ c.Strays later) : Apart write.path written := by
  have hplan : plan ∈ c.plan.fields := by simp [hsplit]
  have hmem : later ∈ c.plan.fields := by
    rw [hsplit, List.mem_append, List.mem_cons]
    exact hlater.imp_right Or.inr
  have hown := path_mem_ownPaths (hc.sourcePath_mem hplan hreversible) hstrays hadapted
  cases hwrites with
  | value hreversible' hadapted' =>
    exact hc.apart_of_ownPaths hsplit hreversible hlater hreversible' hown
      (path_mem_ownPaths (hc.sourcePath_mem hmem hreversible') hstrays' hadapted')
  | payload hrole honeof hmember =>
    obtain ⟨-, -, index, -, -, -, hindex⟩ := hmember
    exact hc.apart_of_payload hplan hreversible hmem hrole honeof (List.mem_of_getElem? hindex) hown

end Restores

/-! ## What is kept -/

/-- What a plan wrote through a path is taken away: a later plan writes another member of the same
oneof at the top level, or another field of a synthetic oneof, or goes through the same place
because of a companion that strays; or the oneof is put on its selected member in the end. -/
def Loses (c : Restoring) (selection : Selection) (plan : FieldPlan) (after : List FieldPlan)
    (path : List String) : Prop :=
  (∃ later ∈ after, ∃ written, c.WritesThrough selection later written ∧
      (Displaces c.source c.type written path ∨
        (¬ Apart path written ∧ (c.Strays plan ∨ c.Strays later)))) ∨
    ∃ selected ∈ selection, Displaces c.source c.type [selected.2.name] path

/-- Every field that is set is adapted, and the message holds the adapted value in the place where it
was written, unless it was lost. -/
def Keeps (c : Restoring) (selection : Selection) (m : Message) : Prop :=
  ∀ before plan after, c.plan.fields = before ++ plan :: after → plan.isReversible →
    hasNamed c.pool c.plain plan.shape.name →
    ∃ write, c.adapted selection plan = .ok (some write) ∧
      (m.at? c.source write.path = some write.value ∨ c.Loses selection plan after write.path)

/-- Two paths go to different members of one oneof of a message below the top level. -/
def CollidesInside (c : Restoring) (kept written : List String) : Prop :=
  ∃ front left right inner, PartAt front left right kept written ∧ front ≠ [] ∧
    c.source.typeAt? c.type front = some inner ∧ inner.Separates left right ∧
    ∀ field i, inner.field? right = some field → field.oneof = some i → inner.isSynthetic i = false

/-- Two set fields are written to different members of one oneof of an embedded message only if the
first of them was lost in between, or one of them, or a field before them, strays. -/
def KeepsMembersApart (c : Restoring) (selection : Selection) : Prop :=
  ∀ before plan middle other after write write',
    c.plan.fields = before ++ plan :: (middle ++ other :: after) →
    plan.isReversible → other.isReversible → c.adapted selection plan = .ok (some write) →
    c.adapted selection other = .ok (some write') → c.CollidesInside write.path write'.path →
    ∃ earlier written, c.WritesThrough selection earlier written ∧
      ((earlier ∈ middle ∧ Displaces c.source c.type written write.path) ∨
        (earlier ∈ before ++ middle ∧ (c.Strays plan ∨ c.Strays earlier)))

namespace Restores

variable {schema : Schema} {settings : Settings} {renames : Renames} {source : SourceMessage}
  (hc : c.Restores casters schema settings renames source)
  (hselection : selectMembers c.mode c.pool c.plain c.plan.oneofs = .ok selection)
  (h : c.run = .ok m)

include hc hselection h

theorem keeps : c.Keeps selection m := by
  intro before plan after hsplit hreversible hset
  have hplan : plan ∈ c.plan.fields := by simp [hsplit]
  obtain ⟨write, hadapted⟩ := exists_adapted hc.mode hselection h hplan hreversible hset
  refine ⟨write, hadapted, or_iff_not_imp_right.mpr fun hkept => ?_⟩
  refine at?_run hc.mode hc.linked hc.found hselection h hc.presence hsplit hreversible hadapted
    (fun later hlater written hwrites hover => hkept (Or.inl ⟨later, hlater, written, hwrites, ?_⟩))
    fun selected hmem hdisplaces => hkept (Or.inr ⟨selected, hmem, hdisplaces⟩)
  rcases hover with hapart | hdisplaces
  · refine Or.inr ⟨hapart, ?_⟩
    by_contra hstrays
    rw [not_or] at hstrays
    exact hapart (hc.apart_of_own hsplit hreversible hadapted (Or.inr hlater) hwrites hstrays.1
      hstrays.2)
  · exact Or.inl hdisplaces

theorem keepsMembersApart : c.KeepsMembersApart selection := by
  intro before plan middle other after write write' hsplit hreversible hreversible' hadapted
    hadapted' ⟨front, left, right, inner, hparts, hfront, hinner, hseparates, hreal⟩
  obtain ⟨earlier, written, hwrites, ⟨hmem, hapart⟩ | hdisplaced⟩ := lost_of_partAt hc.mode
    hc.linked hc.found hselection h hsplit hreversible hreversible' hadapted hadapted' hparts hfront
    hinner hseparates hreal
  · refine ⟨earlier, written, hwrites, Or.inr ⟨hmem, ?_⟩⟩
    by_contra hstrays
    rw [not_or] at hstrays
    have hlater : earlier ∈ before ∨ earlier ∈ middle ++ other :: after := by
      rw [List.mem_append]
      exact (List.mem_append.mp hmem).imp_right Or.inl
    exact hapart (hc.apart_of_own hsplit hreversible hadapted hlater hwrites hstrays.1 hstrays.2)
  · exact ⟨earlier, written, hwrites, Or.inl hdisplaced⟩

end Restores

end Restoring

/-! ## The main result -/

/-- The conversion back of a Plain message by a plan. -/
def Converter.restoring (c : Converter) (casters : Casters (Value → Except String Value))
    (p : Message) (mp : MessagePlan) (type : MessageType) : Restoring where
  pool := c.plain
  source := c.source
  mode := .strict casters
  nested := c.convertNested (.strict casters) .toSource c.plain (Converter.levels p)
  plan := mp
  type := type
  plain := p

section Main

variable {files : List FileDecl} {pool : Pool} {generate : List String} {settings : Settings}
  {plan : SchemaPlan} {c : Converter} {casters : Casters (Value → Except String Value)}
  {p m : Message}

/-- Plain messages are converted back by the plan of a message of the schema. -/
theorem exists_restores_of_mem (hload : Pool.load files = .ok pool) (hnames : ProperNames pool.files)
    (hplan : (Schema.ofPool pool generate).plan settings = .ok plan)
    (hconverter : Converter.ofPool pool plan = .ok c) {mp : MessagePlan}
    (hmem : mp ∈ plan.messages) (hgenerate : mp.generate) :
    ∃ type source, Converter.requireType c.source mp.fullName = .ok type ∧
      ∀ casters p, (c.restoring casters p mp type).Restores casters (Schema.ofPool pool generate)
        settings plan.renames source := by
  obtain ⟨hpool, hlinked⟩ := Pool.load_eq_ok hload
  obtain ⟨plain, -, hc⟩ := bind_eq_ok.mp hconverter
  obtain rfl := Except.ok.inj hc
  have hplans := Schema.plan_eq_ok hplan
  obtain ⟨source, hsource, hisPlan⟩ := exists_left_of_forall₂ hplans.messages hmem
  rw [hpool] at hsource
  obtain ⟨found, hviews, hfind, hrequire⟩ := exists_type_ofPool hlinked hnames hsource
  rw [← hpool] at hviews hfind hrequire
  rw [← hisPlan.outlines.fullName] at hrequire
  refine ⟨found, source, hrequire, fun casters p =>
    ⟨rfl, ?_, hfind, hisPlan, hgenerate, hpool ▸ hsource, ?_, ?_, ?_, hviews⟩⟩
  · exact hpool ▸ types_linked hlinked
  · exact hpool ▸ namesFields_ofPool hlinked
  · exact hpool ▸ fieldNames_ofPool hnames
  · exact oneofNames_ofPool hlinked hsource

/-- A Plain message is converted back by the plan of a message of the schema. -/
theorem exists_restores_of_planFor? (hload : Pool.load files = .ok pool)
    (hnames : ProperNames pool.files)
    (hplan : (Schema.ofPool pool generate).plan settings = .ok plan)
    (hconverter : Converter.ofPool pool plan = .ok c) {mp : MessagePlan}
    (hmp : c.planFor? p.type .toSource = some mp)
    (casters : Casters (Value → Except String Value)) :
    ∃ type source, Converter.requireType c.source mp.fullName = .ok type ∧
      (c.restoring casters p mp type).Restores casters (Schema.ofPool pool generate) settings
        plan.renames source := by
  have hgenerate : mp.generate := by
    have := List.find?_some hmp
    simp only [Bool.and_eq_true] at this
    exact this.1
  have hmem : mp ∈ plan.messages := by
    obtain ⟨plain, -, hc⟩ := bind_eq_ok.mp hconverter
    obtain rfl := Except.ok.inj hc
    exact List.mem_of_find?_eq_some hmp
  obtain ⟨type, source, htype, hrestores⟩ :=
    exists_restores_of_mem hload hnames hplan hconverter hmem hgenerate
  exact ⟨type, source, htype, hrestores casters p⟩

/-- A strict conversion back runs by the plan of a message of the schema. -/
theorem exists_restores (hload : Pool.load files = .ok pool) (hnames : ProperNames pool.files)
    (hplan : (Schema.ofPool pool generate).plan settings = .ok plan)
    (hconverter : Converter.ofPool pool plan = .ok c) (h : c.toSource casters c.plain p = .ok m) :
    ∃ mp type source, c.planFor? p.type .toSource = some mp ∧
      Converter.requireType c.source mp.fullName = .ok type ∧
      (c.restoring casters p mp type).Restores casters (Schema.ofPool pool generate) settings
        plan.renames source ∧
      (c.restoring casters p mp type).run = .ok m := by
  rw [Converter.toSource, Converter.convert] at h
  split at h
  · next mp hmp =>
    obtain ⟨type, htype, hrun⟩ := bind_eq_ok.mp h
    obtain ⟨found, source, hfound, hrestores⟩ :=
      exists_restores_of_planFor? hload hnames hplan hconverter hmp casters
    obtain rfl := Except.ok.inj (hfound.symm.trans htype)
    exact ⟨mp, found, source, hmp, htype, hrestores, hrun⟩
  · exact absurd h (by simp)

/-- **A strict conversion back loses no value silently**, beyond the members of a oneof at the top
level that a later member displaces, the fields of a synthetic oneof, and what a companion with a
path of its own overwrites; and members of one oneof of an embedded message are never written
both. -/
theorem toSource_keeps (hload : Pool.load files = .ok pool) (hnames : ProperNames pool.files)
    (hplan : (Schema.ofPool pool generate).plan settings = .ok plan)
    (hconverter : Converter.ofPool pool plan = .ok c) (h : c.toSource casters c.plain p = .ok m) :
    ∃ mp type selection, c.planFor? p.type .toSource = some mp ∧
      Converter.requireType c.source mp.fullName = .ok type ∧
      selectMembers (.strict casters) c.plain p mp.oneofs = .ok selection ∧
      (c.restoring casters p mp type).Keeps selection m ∧
      (c.restoring casters p mp type).KeepsMembersApart selection := by
  obtain ⟨mp, type, source, hmp, htype, hrestores, hrun⟩ :=
    exists_restores hload hnames hplan hconverter h
  obtain ⟨selection, _, hselection, -, -⟩ := Restoring.run_eq_ok hrestores.mode hrun
  exact ⟨mp, type, selection, hmp, htype, hselection, hrestores.keeps hselection hrun,
    hrestores.keepsMembersApart hselection hrun⟩

end Main

/-! ## A payment by card or by bank -/

/-- A payment with a oneof whose members are inlined. -/
def paymentFile : FileDecl :=
  { name := "payment.proto", package := "p"
    messages :=
      [{ name := "Card", fields := [{ name := "expiry", number := 1, kind := .scalar .string }] },
        { name := "Bank", fields := [{ name := "swift", number := 1, kind := .scalar .string }] },
        { name := "Payment", options := { generate := true }
          oneofs := [{ name := "method", options := { embed := true } }]
          fields :=
            [{ name := "card", number := 1, kind := .message, typeRef := some ".p.Card"
               oneofIndex := some 0 },
              { name := "bank", number := 2, kind := .message, typeRef := some ".p.Bank"
                oneofIndex := some 0 }] }] }

/-- The files of a payment, with the extensions that carry the options of messages and oneofs. -/
def paymentFiles : List FileDecl :=
  [{ messageOptionsFile with
      extensions := messageOptionsFile.extensions ++
        [{ name := "oneof", number := 2, kind := .scalar .string
           extendee := some ".plain.Options" }] },
    paymentFile]

def paymentPool : Pool := (Pool.load paymentFiles).toOption.getD {}

def paymentPlan : SchemaPlan :=
  ((Schema.ofPool paymentPool []).plan {}).toOption.getD
    { suffix := "", messages := [], renames := {}, diagnostics := [] }

def paymentConverter : Converter := (Converter.ofPool paymentPool paymentPlan).toOption.getD default

/-- A Plain payment with the fields of the bank, and with those of the card too if asked for. -/
def plainPayment (withCard : Bool) : Message :=
  { type := "p.PaymentPlain"
    fields := (if withCard then [(1, .string "12/30")] else []) ++ [(2, .string "ABCD")] }

/-- The payment that a Plain payment stands for. -/
def payment (withCard : Bool) : Message :=
  (paymentConverter.toSource {} paymentConverter.plain (plainPayment withCard)).toOption.getD default

/-- What can be read off a Plain payment, its files and their plan. -/
theorem payment_checks :
    (Pool.load paymentFiles).isOk ∧ ProperNames paymentPool.files ∧
      ((Schema.ofPool paymentPool []).plan {}).isOk ∧
      (Converter.ofPool paymentPool paymentPlan).isOk ∧
      (∀ withCard, (paymentConverter.toSource {} paymentConverter.plain
        (plainPayment withCard)).isOk) ∧
      hasNamed paymentConverter.plain (plainPayment false) "swift" := by
  decide +kernel

theorem load_payment : Pool.load paymentFiles = .ok paymentPool :=
  eq_ok_of_isOk payment_checks.1 _

theorem properNames_payment : ProperNames paymentPool.files :=
  payment_checks.2.1

theorem plan_payment : (Schema.ofPool paymentPool []).plan {} = .ok paymentPlan :=
  eq_ok_of_isOk payment_checks.2.2.1 _

theorem ofPool_payment : Converter.ofPool paymentPool paymentPlan = .ok paymentConverter :=
  eq_ok_of_isOk payment_checks.2.2.2.1 _

theorem toSource_payment (withCard : Bool) :
    paymentConverter.toSource {} paymentConverter.plain (plainPayment withCard)
      = .ok (payment withCard) :=
  eq_ok_of_isOk (payment_checks.2.2.2.2.1 withCard) _

/-- The plan of a payment. -/
def paymentEntry : MessagePlan :=
  (paymentConverter.planFor? "p.PaymentPlain" .toSource).getD default

/-- The type of a payment. -/
def paymentType : MessageType :=
  (Converter.requireType paymentConverter.source paymentEntry.fullName).toOption.getD default

/-- A payment by bank keeps what was written. -/
theorem payment_by_bank_keeps :
    hasNamed paymentConverter.plain (plainPayment false) "swift" ∧
      ∃ mp type selection,
        paymentConverter.planFor? (plainPayment false).type .toSource = some mp ∧
        Converter.requireType paymentConverter.source mp.fullName = .ok type ∧
        selectMembers (.strict {}) paymentConverter.plain (plainPayment false) mp.oneofs
          = .ok selection ∧
        (paymentConverter.restoring {} (plainPayment false) mp type).Keeps selection
          (payment false) ∧
        (paymentConverter.restoring {} (plainPayment false) mp type).KeepsMembersApart selection :=
  ⟨payment_checks.2.2.2.2.2, toSource_keeps load_payment properNames_payment plan_payment ofPool_payment
    (toSource_payment false)⟩

/-- With the fields of both members set, the conversion succeeds and the card is lost. -/
theorem card_lost_to_bank :
    paymentConverter.toSource {} paymentConverter.plain (plainPayment true) = .ok (payment true) ∧
      paymentConverter.planFor? (plainPayment true).type .toSource = some paymentEntry ∧
      Converter.requireType paymentConverter.source paymentEntry.fullName = .ok paymentType ∧
      selectMembers (.strict {}) paymentConverter.plain (plainPayment true) paymentEntry.oneofs
        = .ok [] ∧
      ∃ plan ∈ paymentEntry.fields, plan.isReversible ∧
        hasNamed paymentConverter.plain (plainPayment true) plan.shape.name ∧
        ∃ write, (paymentConverter.restoring {} (plainPayment true) paymentEntry
            paymentType).adapted [] plan = .ok (some write) ∧
          write.path = ["card", "expiry"] ∧
          (payment true).at? paymentConverter.source write.path = none := by
  have hchecks : (paymentConverter.planFor? (plainPayment true).type .toSource).isSome ∧
      (Converter.requireType paymentConverter.source paymentEntry.fullName).isOk ∧
      (selectMembers (.strict {}) paymentConverter.plain (plainPayment true)
        paymentEntry.oneofs).toOption = some [] ∧
      (∃ plan ∈ paymentEntry.fields, plan.isReversible ∧
        hasNamed paymentConverter.plain (plainPayment true) plan.shape.name ∧
        ((paymentConverter.restoring {} (plainPayment true) paymentEntry
          paymentType).adapted [] plan).toOption.join.map (·.path) = some ["card", "expiry"]) ∧
      ((payment true).at? paymentConverter.source ["card", "expiry"]).isNone := by
    decide +kernel
  obtain ⟨hentry, htype, hselection, hcard, hlost⟩ := hchecks
  obtain ⟨plan, hplan, hreversible, hset, hpath⟩ := hcard
  obtain ⟨write, hwrite, hpath⟩ := Option.map_eq_some_iff.mp hpath
  refine ⟨toSource_payment true, ?_, eq_ok_of_isOk htype _, eq_ok_of_toOption hselection, plan,
    hplan, hreversible, hset, write, ?_, hpath, ?_⟩
  · rw [← Option.some_get hentry, Option.get_eq_getD]
    rfl
  · exact eq_ok_of_toOption (Option.join_eq_some_iff.mp hwrite)
  · rw [hpath]
    exact Option.isNone_iff_eq_none.mp hlost

end PlainSchema
