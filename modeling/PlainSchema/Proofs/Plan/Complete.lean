import PlainSchema.Proofs.Plan.OwnPaths
import PlainSchema.Proofs.Plan.Slots
import PlainSchema.Proofs.Schema.Types
import PlainSchema.Proofs.Value.Hops

/-!
# Flattening loses no field

Without merging, the fields of a plan are those of the slots that the walk of the message gives, one
for each slot and in their order, and no two of them are read from one place.

The path of a leaf is the chain of names that leads to it.  It resolves to the field of the leaf as
long as every hop is singular, `Walk.leadsTo`.  A field that embeds is singular, but the members of a
dissolved oneof are inlined whatever their labels: **the path of a leaf below a repeated member is
refused**, `flattening_complete`.
-/

namespace PlainSchema

open Proto PlanContext

/-! ## Paths to leaves -/

/-- The path of a leaf resolves to its field in the type that the owner of the leaf views, unless a hop
is repeated: then it does not resolve. -/
def Leaf.LeadsTo (pool : Pool) (type : MessageType) (leaf : Leaf) : Prop :=
  ∃ ownerType field, leaf.owner.ViewsType pool ownerType ∧
    ownerType.field? leaf.field.name = some field ∧
    leaf.field = SourceField.ofField pool (OptionExtensions.ofPool pool) field ∧
    pool.resolvePath type leaf.path
      = if leaf.hops.any (·.2.isRepeated) then none else some field

theorem Leaf.path_ne_nil (leaf : Leaf) : leaf.path ≠ [] := by
  simp [path]

theorem isRepeated_ofField (pool : Pool) (known : OptionExtensions) (field : Field) :
    (SourceField.ofField pool known field).isRepeated = !field.isSingular := by
  change (field.cardinality == .repeated) = !(field.label != .repeated)
  rw [Field.cardinality]
  cases field.label with
  | repeated => rfl
  | required => rfl
  | optional => dsimp only; split <;> rfl

section Paths

variable {files : List FileDecl} {generate : List String} {inlines : SourceField → Bool}
  {m : SourceMessage} {type : MessageType} {fields : List SourceField} {leaves : List Leaf}
  (hlinked : FilesLinked files)
  (hfindings : ∀ finding ∈ (Schema.ofPool (Pool.link files) generate).findings, ¬ finding.isError)

include hlinked hfindings

/-- The paths of a walk lead to its leaves. -/
theorem Walk.leadsTo (h : Walk (Schema.ofPool (Pool.link files) generate) inlines m fields leaves)
    (hviews : m.ViewsType (Pool.link files) type) (hfields : ∀ field ∈ fields, field ∈ m.fields)
    (hkinds : ∀ field ∈ fields, inlines field → field.kind = .message) {leaf : Leaf}
    (hleaf : leaf ∈ leaves) : leaf.LeadsTo (Pool.link files) type := by
  induction h generalizing type leaf with
  | nil => exact absurd hleaf List.not_mem_nil
  | @leaf inlines m field fields leaves _ _ ih =>
    rw [List.forall_mem_cons] at hfields hkinds
    rcases List.mem_cons.mp hleaf with rfl | hleaf
    · obtain ⟨f, -, hview, hfound⟩ :=
        hviews.exists_field (types_linked hlinked type hviews.mem) hfields.1
      exact ⟨type, f, hviews, hfound, hview, hfound⟩
    · exact ih hviews hfields.2 hkinds.2 hleaf
  | @inlined inlines m target field fields inner leaves hinlines htarget _ _ ihInner ih =>
    rw [List.forall_mem_cons] at hfields hkinds
    rcases List.mem_append.mp hleaf with hleaf | hleaf
    · obtain ⟨below, hbelow, rfl⟩ := List.mem_map.mp hleaf
      obtain ⟨f, -, rfl, hfound⟩ :=
        hviews.exists_field (types_linked hlinked type hviews.mem) hfields.1
      obtain ⟨name, htype⟩ := FieldType.eq_message_of_kind (hkinds.1 hinlines)
      have hname : f.type.typeName? = some name := by rw [htype]; rfl
      obtain ⟨next, hnext, hfind⟩ := exists_viewsType_of_typeName? hlinked hname htarget
      have htarget := Schema.message?_mem (Option.bind_eq_some_iff.mp htarget).choose_spec.2
      obtain ⟨ownerType, owned, howner, howned, hview, hresolve⟩ := ihInner hnext (fun _ hf => hf)
        (fun f hf hembeds => ((Schema.valid_field hfindings htarget hf).embedded hembeds).1) hbelow
      refine ⟨ownerType, owned, howner, howned, hview, ?_⟩
      have hmessage : (Pool.link files).messageTypeOf? f = some next := by
        rw [Pool.messageTypeOf?, htype]
        exact hfind
      change (Pool.link files).resolvePath type (_ :: below.path)
        = if (SourceField.isRepeated _ || below.hops.any (·.2.isRepeated)) then none else some owned
      rw [Pool.resolvePath_cons below.path_ne_nil, hfound, Option.bind_some, hmessage,
        Option.bind_some, hresolve, isRepeated_ofField]
      cases f.isSingular <;> rfl
    · exact ih hviews hfields.2 hkinds.2 hleaf

omit hlinked in
/-- Only the fields that a walk starts from can be repeated hops, since a field that embeds is not
repeated. -/
theorem Walk.of_isRepeated
    (h : Walk (Schema.ofPool (Pool.link files) generate) inlines m fields leaves) {leaf : Leaf}
    (hleaf : leaf ∈ leaves) {hop : SourceMessage × SourceField} (hhop : hop ∈ leaf.hops)
    (hrepeated : hop.2.isRepeated) : hop.2 ∈ fields ∧ inlines hop.2 := by
  induction h generalizing leaf with
  | nil => exact absurd hleaf List.not_mem_nil
  | leaf _ _ ih =>
    rcases List.mem_cons.mp hleaf with rfl | hleaf
    · exact absurd hhop List.not_mem_nil
    · exact (ih hleaf hhop).imp_left (List.mem_cons_of_mem _)
  | @inlined inlines m target field fields inner leaves hinlines htarget _ _ ihInner ih =>
    rcases List.mem_append.mp hleaf with hleaf | hleaf
    · obtain ⟨below, hbelow, rfl⟩ := List.mem_map.mp hleaf
      rcases List.mem_cons.mp hhop with rfl | hhop
      · exact ⟨List.mem_cons_self, hinlines⟩
      · have htarget := Schema.message?_mem (Option.bind_eq_some_iff.mp htarget).choose_spec.2
        obtain ⟨hfield, hembeds⟩ := ihInner hbelow hhop
        have hsingle := ((Schema.valid_field hfindings htarget hfield).embedded hembeds).2.1
        exact absurd hrepeated (by simp [hsingle])
    · exact (ih hleaf hhop).imp_left (List.mem_cons_of_mem _)

end Paths

/-! ## Finished fields -/

theorem Slot.FilledBy.finished {slot : Slot} {plan final : FieldPlan} {renames : Renames}
    (h : slot.FilledBy plan) (hfinished : plan.FinishedAs renames final) : slot.FilledBy final := by
  have hsame := hfinished.sameOrigin
  have hsource := hfinished.source
  cases slot with
  | leaf namePrefix leaf =>
    exact ⟨hsource.trans h.source, hsame.name.symm.trans h.name, hsame.origin ▸ h.path,
      hsame.origin ▸ h.embedSource, hsame.isReversible ▸ h.isReversible⟩
  | role served => exact ⟨hsame.origin ▸ h.1, hsource.trans h.2⟩
  | virtual field => exact ⟨hsame.origin ▸ h.1, hsame.name.symm.trans h.2.1, hsource.trans h.2.2⟩

section Planned

variable {schema : Schema} {settings : Settings} {renames : Renames} {m : SourceMessage}
  {mp : MessagePlan}

/-- Without merging every candidate is finished. -/
theorem SourceMessage.IsPlanOf.finished_candidates (h : m.IsPlanOf schema settings renames mp)
    (hgenerate : mp.generate) (hcrf : settings.enableCrf = false) :
    List.Forall₂ (FieldPlan.FinishedAs renames) (m.candidates schema settings mp.newFullName)
      mp.fields := by
  have houtlines := h.outlines
  obtain ⟨outlined, houtlined, rfl⟩ := h
  rw [IsOutlinedAs, if_pos (houtlines.generate ▸ hgenerate)] at houtlined
  obtain ⟨merged, hmerged, hfields⟩ := houtlined.collisions
  have hsame : merged = m.candidates schema settings (MessagePlan.outline renames m).newFullName := by
    rw [resolveCollisions, hcrf, if_neg Bool.false_ne_true] at hmerged
    split at hmerged
    · exact (Prod.mk.inj (Except.ok.inj hmerged)).1.symm
    · cases hmerged
  rw [houtlines.newFullName]
  have hnumbered := forall₂_assignNumbers merged
  rw [← hfields, hsame] at hnumbered
  refine List.forall₂_map_right_iff.mpr (hnumbered.imp ?_)
  rintro plan _ ⟨⟨number, rfl⟩, -⟩
  exact ⟨number, rfl⟩

end Planned

/-! ## The main result -/

/-- The references of the schema of a pool have their dots. -/
theorem hasDottedRefs_ofPool (pool : Pool) (generate : List String) :
    (Schema.ofPool pool generate).HasDottedRefs := by
  intro m hm field hfield ref href
  obtain ⟨type, -, rfl⟩ := List.mem_map.mp hm
  obtain ⟨f, -, rfl⟩ := List.mem_map.mp hfield
  obtain ⟨name, -, rfl⟩ := Option.map_eq_some_iff.mp href
  simp

/-- The path of a leaf resolves to its field, in the type that declares it. -/
def Leaf.ResolvesIn (pool : Pool) (type : MessageType) (leaf : Leaf) : Prop :=
  ∃ ownerType field, leaf.owner.ViewsType pool ownerType ∧
    ownerType.field? leaf.field.name = some field ∧ pool.resolvePath type leaf.path = some field

theorem Leaf.LeadsTo.resolvesIn_iff {pool : Pool} {type : MessageType} {leaf : Leaf}
    (h : leaf.LeadsTo pool type) :
    leaf.ResolvesIn pool type ↔ ∀ hop ∈ leaf.hops, ¬ hop.2.isRepeated := by
  obtain ⟨ownerType, field, howner, hfield, -, hresolve⟩ := h
  have hnone : (∀ hop ∈ leaf.hops, ¬ hop.2.isRepeated) ↔ ¬ leaf.hops.any (·.2.isRepeated) := by
    simp
  rw [hnone]
  constructor
  · rintro ⟨_, found, -, -, hfound⟩ hrepeated
    rw [hresolve, if_pos hrepeated] at hfound
    exact absurd hfound nofun
  · intro hsingular
    rw [if_neg hsingular] at hresolve
    exact ⟨ownerType, field, howner, hfield, hresolve⟩

/-- The leaves of a message are where their paths lead.  A repeated hop is a member of a dissolved oneof
that does not ask to be inlined. -/
theorem SourceMessage.FlattensTo.leadsTo {files : List FileDecl} {generate : List String}
    {m : SourceMessage} {type : MessageType} {slots : List Slot} (hlinked : FilesLinked files)
    (hfindings : ∀ finding ∈ (Schema.ofPool (Pool.link files) generate).findings, ¬ finding.isError)
    (hm : m ∈ (Schema.ofPool (Pool.link files) generate).messages)
    (hviews : m.ViewsType (Pool.link files) type)
    (h : m.FlattensTo (Schema.ofPool (Pool.link files) generate) slots) {leaf : Leaf}
    (hleaf : leaf ∈ slots.filterMap Slot.leaf?) :
    leaf.LeadsTo (Pool.link files) type ∧ ∀ hop ∈ leaf.hops, hop.2.isRepeated →
      ¬ hop.2.options.embeds ∧ ∃ index, hop.2 ∈ m.oneofFields index ∧
        (m.strategy index = .embedOnly ∨ m.strategy index = .enumDispatch) := by
  have hvalid : ∀ field ∈ m.fields, field.Valid (Schema.ofPool (Pool.link files) generate) m :=
    fun field hfield => Schema.valid_field hfindings hm hfield
  rcases h.exists_walk hleaf with
    ⟨field, hfield, leaves, hwalk, hleaf⟩ | ⟨index, hstrategy, leaves, hwalk, hleaf⟩
  · have hfields : ∀ f ∈ [field], f ∈ m.fields := by simpa using hfield
    refine ⟨hwalk.leadsTo hlinked hfindings hviews hfields (fun f hf hembeds =>
      ((hvalid f (hfields f hf)).embedded hembeds).1) hleaf, fun hop hhop hrepeated => ?_⟩
    obtain ⟨hmem, hembeds⟩ := hwalk.of_isRepeated hfindings hleaf hhop hrepeated
    have hsingle := ((hvalid hop.2 (hfields hop.2 hmem)).embedded hembeds).2.1
    exact absurd hrepeated (by simp [hsingle])
  · have hfields : ∀ f ∈ m.oneofFields index, f ∈ m.fields := fun f hf => (mem_oneofFields.mp hf).1
    refine ⟨hwalk.leadsTo hlinked hfindings hviews hfields (fun f hf hinlines => ?_) hleaf,
      fun hop hhop hrepeated => ?_⟩
    · rcases (Bool.or_eq_true _ _).mp hinlines with hembeds | hembeddable
      · exact ((hvalid f (hfields f hf)).embedded hembeds).1
      · rw [Bool.and_eq_true, Bool.and_eq_true, beq_iff_eq] at hembeddable
        exact hembeddable.1.1
    · obtain ⟨hmem, -⟩ := hwalk.of_isRepeated hfindings hleaf hhop hrepeated
      refine ⟨fun hembeds => ?_, index, hmem, hstrategy⟩
      have hsingle := ((hvalid hop.2 (hfields hop.2 hmem)).embedded hembeds).2.1
      exact absurd hrepeated (by simp [hsingle])

/-- **Flattening loses and duplicates no field.**  Without merging, the walk of a generated message has
one outcome, and the fields of the plan are those of its slots, one each and in order, no two of which
are read from one place.  The path of a leaf resolves to the field of the leaf exactly if no hop is
repeated, and a repeated hop is a member of a dissolved oneof that does not ask to be inlined. -/
theorem flattening_complete {declared : List FileDecl} {pool : Pool} {generate : List String}
    {settings : Settings} {plan : SchemaPlan} {mp : MessagePlan}
    (hload : Pool.load declared = .ok pool)
    (hplan : (Schema.ofPool pool generate).plan settings = .ok plan)
    (hcrf : settings.enableCrf = false) (hmp : mp ∈ plan.messages) (hgenerate : mp.generate) :
    ∃ (type : MessageType) (m : SourceMessage) (slots : List Slot),
      m.ViewsType pool type ∧ mp.fullName = m.fullName ∧
      m.FlattensTo (Schema.ofPool pool generate) slots ∧
      (∀ others, m.FlattensTo (Schema.ofPool pool generate) others → others = slots) ∧
      List.Forall₂ Slot.FilledBy slots mp.fields ∧
      ((mp.fields.filter (·.isReversible)).map (·.origin.sourcePath)).Pairwise Apart ∧
      ∀ leaf ∈ slots.filterMap Slot.leaf?,
        (leaf.ResolvesIn pool type ↔ ∀ hop ∈ leaf.hops, ¬ hop.2.isRepeated) ∧
        ∀ hop ∈ leaf.hops, hop.2.isRepeated → ¬ hop.2.options.embeds ∧ ∃ index,
          hop.2 ∈ m.oneofFields index ∧
            (m.strategy index = .embedOnly ∨ m.strategy index = .enumDispatch) := by
  obtain ⟨hpool, hlinked⟩ := Pool.load_eq_ok hload
  have hplans := Schema.plan_eq_ok hplan
  obtain ⟨m, hm, hof⟩ := exists_left_of_forall₂ hplans.messages hmp
  rw [hpool] at hm hof hplans ⊢
  obtain ⟨type, hviews⟩ := exists_viewsType hm
  have hnames : (Schema.ofPool (Pool.link pool.files) generate).NamesFields := namesFields_ofPool hlinked
  obtain ⟨slots, hslots, hfilled⟩ := SourceMessage.exists_flattensTo hm
    (hof.outlines.generate ▸ hgenerate) (hasDottedRefs_ofPool _ _) hplans.findings
    ((hnames m hm).of_map _) settings mp.newFullName
  have hfinished := hof.finished_candidates hgenerate hcrf
  refine ⟨type, m, slots, hviews, hof.outlines.fullName, hslots,
    fun others hothers => hothers.unique hslots,
    forall₂_comp hfilled hfinished fun _ _ _ hfills hlast => hfills.finished hlast, ?_,
    fun leaf hleaf => ?_⟩
  · have hpaths := map_filter_eq_of_forall₂ hfinished (p := (·.isReversible)) (q := (·.isReversible))
      (f := (·.origin.sourcePath)) (g := (·.origin.sourcePath)) fun plan final hlast =>
        ⟨hlast.sameOrigin.isReversible, by rw [hlast.sameOrigin.origin]⟩
    rw [← hpaths, List.pairwise_map]
    exact apart_candidates hnames hm settings mp.newFullName
  · obtain ⟨hleads, hhops⟩ := hslots.leadsTo hlinked hplans.findings hm hviews hleaf
    exact ⟨hleads.resolvesIn_iff, hhops⟩

/-! ## A payment by card -/

/-- A payment with a oneof that is replaced by the fields of its members: a card with some label, or a
voucher. -/
def chargeFile (label : Label) : FileDecl :=
  { name := "payment.proto", package := "p"
    messages :=
      [{ name := "Card", fields := [{ name := "number", number := 1, kind := .scalar .string }] },
        { name := "Payment", options := { generate := true }
          oneofs := [{ name := "method", options := { embed := true } }]
          fields :=
            [{ name := "card", number := 1, kind := .message, typeRef := some ".p.Card"
               label, oneofIndex := some 0 },
              { name := "voucher", number := 2, kind := .scalar .string, oneofIndex := some 0 }] }] }

def chargeFiles (label : Label) : List FileDecl :=
  [{ messageOptionsFile with
      extensions := messageOptionsFile.extensions ++
        [{ name := "oneof", number := 3, kind := .scalar .string
           extendee := some ".plain.Options" }] },
    chargeFile label]

def chargePool (label : Label) : Pool := (Pool.load (chargeFiles label)).toOption.getD {}

def chargePlan (label : Label) : SchemaPlan :=
  ((Schema.ofPool (chargePool label) []).plan {}).toOption.getD
    { suffix := "", messages := [], renames := {}, diagnostics := [] }

/-- The plan of a payment. -/
def chargeEntry (label : Label) : MessagePlan :=
  ((chargePlan label).message? ".p.Payment").getD default

/-- The schema, its plan and the plan of the payment are all there. -/
theorem charge_builds (label : Label) : (Pool.load (chargeFiles label)).isOk ∧
    ((Schema.ofPool (chargePool label) []).plan {}).isOk ∧
    chargeEntry label ∈ (chargePlan label).messages ∧ (chargeEntry label).generate := by
  cases label <;> decide +kernel

/-- The number of a single card is where its path leads. -/
theorem charge_flattens :
    ∃ (type : MessageType) (m : SourceMessage) (slots : List Slot),
      m.ViewsType (chargePool .optional) type ∧
      m.FlattensTo (Schema.ofPool (chargePool .optional) []) slots ∧
      List.Forall₂ Slot.FilledBy slots (chargeEntry .optional).fields ∧
      ∀ leaf ∈ slots.filterMap Slot.leaf?, leaf.ResolvesIn (chargePool .optional) type := by
  obtain ⟨hload, hplan, hmp, hgenerate⟩ := charge_builds .optional
  have hsingular : ∀ type ∈ (chargePool .optional).messages, ∀ field ∈ (SourceMessage.ofType
      (chargePool .optional) (OptionExtensions.ofPool (chargePool .optional)) type).fields,
      ¬ field.isRepeated := by
    decide +kernel
  obtain ⟨type, m, slots, hviews, -, hslots, -, hfilled, -, hleaves⟩ := flattening_complete
    (eq_ok_of_isOk hload _) (eq_ok_of_isOk hplan _) rfl hmp hgenerate
  refine ⟨type, m, slots, hviews, hslots, hfilled, fun leaf hleaf => ?_⟩
  obtain ⟨hiff, hhops⟩ := hleaves leaf hleaf
  refine hiff.mpr fun hop hhop hrepeated => ?_
  obtain ⟨-, index, hmember, -⟩ := hhops hop hhop hrepeated
  rw [hviews.view] at hmember
  exact hsingular type hviews.mem hop.2 (mem_oneofFields.mp hmember).1 hrepeated

/-- The number of a repeated card is planned, but its path does not resolve. -/
theorem repeated_card_not_resolved :
    Pool.load (chargeFiles .repeated) = .ok (chargePool .repeated) ∧
      (Schema.ofPool (chargePool .repeated) []).plan {} = .ok (chargePlan .repeated) ∧
      chargeEntry .repeated ∈ (chargePlan .repeated).messages ∧ (chargeEntry .repeated).generate ∧
      ∃ fp ∈ (chargeEntry .repeated).fields, fp.isReversible ∧
        fp.source = some { message := ".p.Card", name := "number", number := 1 } ∧
        fp.origin.sourcePath = ["card", "number"] ∧
        ∃ type, (chargePool .repeated).message? "p.Payment" = some type ∧
          (chargePool .repeated).resolvePath type fp.origin.sourcePath = none := by
  obtain ⟨hload, hplan, hmp, hgenerate⟩ := charge_builds .repeated
  have hfield : ∃ fp ∈ (chargeEntry .repeated).fields, fp.isReversible ∧
      fp.source = some { message := ".p.Card", name := "number", number := 1 } ∧
      fp.origin.sourcePath = ["card", "number"] := by
    decide +kernel
  have htype : ((chargePool .repeated).message? "p.Payment").any fun type =>
      ((chargePool .repeated).resolvePath type ["card", "number"]).isNone := by
    decide +kernel
  obtain ⟨fp, hfp, hreversible, hsource, hpath⟩ := hfield
  obtain ⟨type, hfound, hnone⟩ := (Option.any_eq_true _ _).mp htype
  refine ⟨eq_ok_of_isOk hload _, eq_ok_of_isOk hplan _, hmp, hgenerate, fp, hfp, hreversible, hsource,
    hpath, type, hfound, ?_⟩
  rw [hpath]
  exact Option.isNone_iff_eq_none.mp hnone

end PlainSchema
