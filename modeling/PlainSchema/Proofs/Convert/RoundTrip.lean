import PlainSchema.Proofs.Convert.Delivered
import PlainSchema.Proofs.Convert.Levels
import PlainSchema.Proofs.Convert.Mirrored
import PlainSchema.Proofs.Convert.Rebuilt
import PlainSchema.Proofs.Convert.Retraced
import PlainSchema.Proofs.Convert.Returning
import PlainSchema.Proofs.Plan.Grouped
import PlainSchema.Proofs.Schema.EnumValues

/-!
# Round trips

The sources of a merged field may begin with different members of one oneof that is flattened,
`MessagePlan.MergesMembers`.  Only one member is set in a message, so at most one source holds a value,
`MessagePlan.MergesMembers.alone`; and a field of a dispatched oneof is read from the members of that
oneof alone, `MessagePlan.MergesMembers.dispatches`.

The conversion back makes of a Plain message what was converted, `Converter.IsReversible.same_of_toPlain`.
Three things carry it:

```text
the converter   its schemas mirror each other, and one source of a merged field holds a
                value: Converter.IsReversible
the message     all that is set in it can be seen in its Plain message: Converter.Faithful
the levels      what a message holds is less deep than the message: Converter.convertsSame
```

At one level a planned message is put together from parts of the message that was converted,
`Converter.same_of_byPlan`, and a message without a plan is moved field by field.  The messages inside
are left to the next level, so the induction is on the depth of the Plain message, which bounds how far
the conversion back goes down.
-/

namespace PlainSchema

open Proto

/-! ## Fields merged from the members of a oneof -/

/-- The sources of a merged field begin with different members of a oneof. -/
structure CrfEntry.StartsIn (entry : CrfEntry) (oneof : OneofPlan) : Prop where
  flattened : oneof.strategy = .embedOnly ∨ oneof.strategy = .enumDispatch
  members : ∀ source ∈ entry.sources, ∃ member ∈ oneof.members,
    (Crf.fieldNamesOf source).head? = some member.name
  different : (entry.sources.map fun source => (Crf.fieldNamesOf source).head?).Nodup

instance (entry : CrfEntry) (oneof : OneofPlan) : Decidable (entry.StartsIn oneof) :=
  decidable_of_iff (_ ∧ _ ∧ _)
    ⟨fun ⟨hflattened, hmembers, hdifferent⟩ => ⟨hflattened, hmembers, hdifferent⟩,
      fun h => ⟨h.flattened, h.members, h.different⟩⟩

/-- Merged fields are read from different members of one flattened oneof. -/
def MessagePlan.MergesMembers (mp : MessagePlan) : Prop :=
  ∀ entry ∈ mp.crf, ∃ oneof ∈ mp.oneofs, entry.StartsIn oneof

instance (mp : MessagePlan) : Decidable mp.MergesMembers :=
  inferInstanceAs (Decidable (∀ _ ∈ _, ∃ _ ∈ _, _))

namespace MessagePlan

variable {mp : MessagePlan} {plan : FieldPlan}

theorem mergesMembers_of_crf (hcrf : mp.crf = []) : mp.MergesMembers := by
  intro entry hentry
  rw [hcrf] at hentry
  exact absurd hentry List.not_mem_nil

/-- A Plain field is read from one path, or from the sources of an entry. -/
theorem ownPaths_cases (mp : MessagePlan) (plan : FieldPlan) :
    mp.ownPaths plan = [plan.origin.sourcePath] ∨
      ∃ entry ∈ mp.crf, mp.ownPaths plan = entry.sources.map Crf.fieldNamesOf := by
  cases hentry : mp.mergedField? plan.shape.name with
  | none =>
    left
    rw [ownPaths, sourcePaths, hentry]
    rfl
  | some entry =>
    refine Or.inr ⟨entry, List.mem_of_find?_eq_some hentry, ?_⟩
    rw [ownPaths, sourcePaths, hentry]
    simp [Function.comp_def]

namespace MergesMembers

variable {schema : Schema} {settings : Settings} {renames : Renames} {m : SourceMessage}
  (hmerges : mp.MergesMembers) (h : m.IsPlanOf schema settings renames mp) (hgenerate : mp.generate)

include hmerges h hgenerate

/-- **At most one of the paths of a Plain field leads to a value**, since no two members of a oneof are
set. -/
theorem alone (hnames : (m.fields.map (·.name)).Nodup) {pool : Pool} {type : MessageType} {x : Message}
    (hviews : m.ViewsType pool type) (hlinked : type.Linked) (hx : x.WellTyped pool) (htype : x.type? pool = some type)
    {path path' : List String} (hpath : path ∈ mp.ownPaths plan) (hpath' : path' ∈ mp.ownPaths plan)
    (hread : (x.read? pool path).isSome) (hread' : (x.read? pool path').isSome) : path = path' := by
  rcases mp.ownPaths_cases plan with hown | ⟨entry, hentry, hown⟩
  · rw [hown, List.mem_singleton] at hpath hpath'
    exact hpath.trans hpath'.symm
  · obtain ⟨oneof, honeof, hstarts⟩ := hmerges entry hentry
    rw [hown] at hpath hpath'
    obtain ⟨source, hsource, rfl⟩ := List.mem_map.mp hpath
    obtain ⟨source', hsource', rfl⟩ := List.mem_map.mp hpath'
    obtain ⟨member, hmember, hhead⟩ := hstarts.members source hsource
    obtain ⟨member', hmember', hhead'⟩ := hstarts.members source' hsource'
    obtain ⟨found, hfound⟩ := Option.isSome_iff_exists.mp hread
    obtain ⟨found', hfound'⟩ := Option.isSome_iff_exists.mp hread'
    obtain rfl := h.eq_of_hasNamed hgenerate hnames hviews hlinked hx htype honeof hmember hmember'
      (hasNamed_of_read? hhead hfound) (hasNamed_of_read? hhead' hfound')
    -- The entry has one source that begins with this member.
    rw [List.inj_on_of_nodup_map hstarts.different hsource hsource' (hhead.trans hhead'.symm)]

/-- **The fields of a dispatched oneof are read from its members alone.** -/
theorem dispatches (hm : m ∈ schema.messages)
    (hnames : ∀ m ∈ schema.messages, ∀ field ∈ m.fields, field.name ≠ "")
    (honeofs : (m.oneofs.map (·.name)).Nodup) (hfields : (m.fields.map (·.name)).Nodup) :
    mp.DispatchesMembers := by
  intro plan hplan hreversible oneof honeof hgroup _ path hpath
  obtain ⟨member, hmember, hhead⟩ :=
    h.exists_member_of_group hgenerate honeofs hplan hreversible honeof hgroup
  rcases mp.ownPaths_cases plan with hown | ⟨entry, hentry, hown⟩
  · rw [hown, List.mem_singleton] at hpath
    rw [hpath]
    exact ⟨member, hmember, hhead⟩
  · obtain ⟨other, hother, hstarts⟩ := hmerges entry hentry
    -- The path that the plan was made for begins with members of both oneofs, so both are one.
    have horigin := (h.mem_ownPaths hgenerate hm hnames hplan hreversible).2.1
    rw [hown] at horigin hpath
    obtain ⟨first, hfirst, hnamesOf⟩ := List.mem_map.mp horigin
    obtain ⟨member', hmember', hhead'⟩ := hstarts.members first hfirst
    rw [hnamesOf, hhead, Option.some.injEq] at hhead'
    obtain ⟨index, -, -, -, hplans⟩ := h.exists_plansOneof hgenerate honeof
    obtain ⟨index', -, -, -, hplans'⟩ := h.exists_plansOneof hgenerate hother
    obtain ⟨field, hfield, hname, hindex⟩ := hplans.exists_field hmember
    obtain ⟨field', hfield', hname', hindex'⟩ := hplans'.exists_field hmember'
    obtain rfl := List.inj_on_of_nodup_map hfields hfield hfield'
      (hname.trans (hhead'.trans hname'.symm))
    rw [hindex, Option.some.injEq] at hindex'
    obtain ⟨source, hsource, rfl⟩ := List.mem_map.mp hpath
    obtain ⟨begins, hbegins, hstart⟩ := hstarts.members source hsource
    rw [hplans'.members, ← hindex', ← hplans.members] at hbegins
    exact ⟨begins, hbegins, hstart⟩

end MergesMembers

end MessagePlan

/-! ## Enum values -/

/-- No value of an enum has the name of a number. -/
def Pool.SpellsValues (pool : Pool) : Prop :=
  ∀ type ∈ pool.enums, ∀ value ∈ type.values,
    Text.integer? (-2147483648) 2147483647 value.1 = none

instance (pool : Pool) : Decidable pool.SpellsValues :=
  inferInstanceAs (Decidable (∀ _ ∈ _, _))

namespace Converter

variable {c : Converter}

/-! ## What is to come back -/

/-- What the plans encode of a message is decoded to what holds the same. -/
def Recovers (c : Converter) (x : Message) : Prop :=
  ∀ inner : Message, inner.Within x → ∀ mp, c.planFor? inner.type .toPlain = some mp →
    ∀ m, mp.Encodes c.source inner m →
      ∃ m', Wire.decode? c.source m.type (Wire.encode c.source m) = some m' ∧
        m'.WellTyped c.source ∧ m'.Same c.source m

theorem Recovers.within {x inner : Message} (h : c.Recovers x) (hinner : inner.Within x) :
    c.Recovers inner :=
  fun _ hdeep => h _ (hdeep.trans hinner)

/-- What can be recovered can be decoded. -/
theorem Recovers.decodes {x : Message} (h : c.Recovers x) : c.Decodes x := by
  intro inner hinner mp hmp m hencodes
  obtain ⟨m', hm', hwell, hsame⟩ := h inner hinner mp hmp m hencodes
  exact ⟨m', hm', hsame.type_eq, hwell, fun type htype field hfield => hsame.has_eq htype hfield⟩

/-- A Plain message shows what is set in the message that it was made of. -/
structure Shows (c : Converter) (generate : List String) (x p : Message) (mp : MessagePlan) :
    Prop where
  /-- What is set in a source field counts as set in the Plain field. -/
  leaves : ∀ plan ∈ mp.fields, plan.isReversible → ∀ path ∈ mp.ownPaths plan,
    (x.read? c.source path).isSome → hasNamed c.plain p plan.shape.name
  /-- An inlined message holds something that is shown, or is told by a tag. -/
  inlined : ∀ source ∈ (Schema.ofPool c.source generate).messages, source.fullName = mp.fullName →
    ∀ path child, InlinedAt (Schema.ofPool c.source generate)
        (source.dissolves (Schema.ofPool c.source generate)) source path →
      x.at? c.source path = some (.message child) → mp.ShowsAt c.source x path
  /-- A wrapped field that tracks presence is set. -/
  wrappers : ∀ plan ∈ mp.fields, plan.isReversible → ¬ plan.origin.isSerialized →
    plan.origin.aliasType.isSome → ∀ path ∈ mp.ownPaths plan, ∀ leaf value,
      x.read? c.source path = some (leaf, value) → ∀ m, value.Holds m → ∀ type,
        m.type? c.source = some type → ∀ field, type.field? plan.aliasField = some field →
          field.tracksPresence → m.has c.source field

/-- A Plain message shows what is set in the message that it was made of, if no inlined message inlines
another one and no wrapped field tracks presence. -/
structure ShowsFlat (c : Converter) (generate : List String) (x p : Message) (mp : MessagePlan) :
    Prop where
  leaves : ∀ plan ∈ mp.fields, plan.isReversible → ∀ path ∈ mp.ownPaths plan,
    (x.read? c.source path).isSome → hasNamed c.plain p plan.shape.name
  inlined : ∀ source ∈ (Schema.ofPool c.source generate).messages, source.fullName = mp.fullName →
    ∀ field ∈ source.fields, source.dissolves (Schema.ofPool c.source generate) field →
      ((x.at? c.source [field.name]).isSome → mp.ShowsAt c.source x [field.name]) ∧
      ∀ target ∈ field.typeRef.bind (Schema.ofPool c.source generate).message?,
        ∀ inner ∈ target.fields, ¬ inner.options.embeds
  wrappers : ∀ plan ∈ mp.fields, plan.origin.aliasType.isSome → ∀ type ∈ c.source.messages,
    ∀ field ∈ type.field? plan.aliasField, ¬ field.tracksPresence

instance (c : Converter) (generate : List String) (x p : Message) (mp : MessagePlan) :
    Decidable (c.ShowsFlat generate x p mp) :=
  decidable_of_iff (_ ∧ _ ∧ _)
    ⟨fun ⟨hleaves, hinlined, hwrappers⟩ => ⟨hleaves, hinlined, hwrappers⟩,
      fun h => ⟨h.leaves, h.inlined, h.wrappers⟩⟩

theorem ShowsFlat.shows {generate : List String} {x p : Message} {mp : MessagePlan}
    (h : c.ShowsFlat generate x p mp) : c.Shows generate x p mp where
  leaves := h.leaves
  inlined source hsource hname path child hpath hat := by
    cases hpath with
    | here hfield hdissolves =>
      exact (h.inlined source hsource hname _ hfield hdissolves).1 (by rw [hat]; rfl)
    | inside hfield hdissolves htarget hpath =>
      obtain ⟨field, hfield', hembeds⟩ := hpath.exists_field
      exact absurd hembeds ((h.inlined source hsource hname _ hfield hdissolves).2 _ htarget field hfield')
  wrappers plan hplan _ _ halias _ _ _ _ _ _ _ type htype field hfield htracks :=
    absurd htracks (h.wrappers plan hplan halias type (Pool.message?_mem htype).1 field hfield)

/-- All that is set in a message and in the messages in it can be seen in their Plain messages. -/
def Visible (c : Converter) (fillers : Casters (Value → Except String Value)) (generate : List String)
    (x : Message) : Prop :=
  ∀ inner : Message, inner.Within x → ∀ mp, c.planFor? inner.type .toPlain = some mp →
    ∀ p, c.toPlain fillers c.source inner = .ok p → c.Shows generate inner p mp

/-- A message of which nothing is lost. -/
structure Faithful (c : Converter) (fillers : Casters (Value → Except String Value))
    (generate : List String) (x : Message) : Prop where
  wellTyped : x.WellTyped c.source
  known : x.Known c.source
  recovers : c.Recovers x
  visible : c.Visible fillers generate x

theorem Faithful.within {fillers : Casters (Value → Except String Value)} {generate : List String}
    {x inner : Message} (h : c.Faithful fillers generate x) (hinner : inner.Within x) :
    c.Faithful fillers generate inner where
  wellTyped := h.wellTyped.within hinner
  known := h.known.within hinner
  recovers := h.recovers.within hinner
  visible _ hdeep := h.visible _ (hdeep.trans hinner)

/-- Messages whose Plain messages are not too deep come back as they were. -/
def ConvertsSame (c : Converter) (fillers : Casters (Value → Except String Value))
    (generate : List String) (there back : ConvertNested) (depth : Nat) : Prop :=
  ∀ m m' m'' name, c.Faithful fillers generate m → c.Moves m.type name → m'.depth ≤ depth →
    there name m = .ok m' → back m.type m' = .ok m'' → m''.Same c.source m

/-- The messages inside of a message are less deep. -/
theorem ConvertsSame.regained {fillers : Casters (Value → Except String Value)}
    {generate : List String} {there back : ConvertNested} {depth : Nat} {x p inner : Message}
    (h : c.ConvertsSame fillers generate there back depth) (hx : c.Faithful fillers generate x)
    (hdepth : p.depth ≤ depth + 1) (hinner : inner.Within x) {number number' : Nat}
    {value moved : Value} (hvalue : inner.value? number = some value)
    (hmoved : p.value? number' = some moved) :
    Regained there back c.Moves (Message.Same c.source) value moved := by
  intro m m' m'' hholds hholds' name hmoves hthere hback
  have hwithin : m.Within x := .trans (.step hvalue hholds .refl) hinner
  have hless := Message.depth_lt_of_holds hmoved hholds'
  exact h m m' m'' name (hx.within hwithin) hmoves (by omega) hthere hback

/-! ## Converters that lose nothing -/

/-- A converter whose schemas mirror each other, with nothing merged but the members of a oneof. -/
structure IsReversible (c : Converter) (files : List FileDecl) (generate : List String)
    (settings : Settings) : Prop extends c.IsBuilt files generate settings where
  namesTypes : c.plan.NamesTypes c.source.files generate
  alike : c.plan.MergesAlike (Schema.ofPool c.source generate) settings
  members : ∀ mp ∈ c.plan.messages, mp.generate → mp.MergesMembers
  casters : ∀ mp ∈ c.plan.messages, mp.generate → ∀ fp ∈ mp.fields, ¬ fp.needsCaster
  spelled : c.source.SpellsValues

section Reversible

variable {files : List FileDecl} {generate : List String} {settings : Settings}
  (fillers casters : Casters (Value → Except String Value)) {x p m : Message}
  {there back : ConvertNested} {mp : MessagePlan} (hc : c.IsReversible files generate settings)

include hc

namespace IsReversible

theorem mirrors : c.Mirrors :=
  hc.toIsBuilt.mirrors hc.namesTypes hc.alike

theorem dispatches : ∀ mp ∈ c.plan.messages, mp.generate → mp.DispatchesMembers := by
  intro mp hmp hgenerate
  have h := hc.derivation
  obtain ⟨source, hsource, hplanned⟩ := exists_left_of_forall₂ h.plans.messages hmp
  exact (hc.members mp hmp hgenerate).dispatches hplanned hgenerate hsource
    (fieldNames_ofPool hc.names) (oneofNames_ofPool h.linked hsource)
    (namesFields_ofPool h.linked source hsource)

/-- The text of an enum value is read as the value. -/
theorem readsBack (name : String) : ((c.source.enum? name).getD default).ReadsBack := by
  cases henum : c.source.enum? name with
  | none => exact EnumType.readsBack List.nodup_nil nofun
  | some type =>
    have hmem := List.mem_of_find?_eq_some henum
    refine EnumType.readsBack ?_ (hc.spelled type hmem)
    rw [hc.source_eq] at hmem
    exact hc.derivation.linked.valueNames_nodup hmem

variable {fillers} in
/-- **A wrapper holds the same as one with nothing but the wrapped field**, from whichever path it is
read. -/
theorem same_of_wrapped (hx : c.Faithful fillers generate x)
    (hmp : c.planFor? x.type .toPlain = some mp) (hp : c.toPlain fillers c.source x = .ok p)
    {plan : FieldPlan} (hplan : plan ∈ mp.fields) (hreversible : plan.isReversible)
    (hserialized : ¬ plan.origin.isSerialized) (halias : plan.origin.aliasType.isSome)
    {path : List String} (hpath : path ∈ mp.ownPaths plan) {leaf : Field} {value : Value}
    (hread : x.read? c.source path = some (leaf, value)) (hholds : value.Holds m)
    {type : MessageType} (htype : m.type? c.source = some type) {field : Field}
    (hfield : type.field? plan.aliasField = some field) :
    (Message.set { type := type.fullName } type field (m.get c.source field)).Same c.source m := by
  obtain ⟨hmem, hgenerate, hname⟩ := mem_of_planFor? hmp
  have h := hc.derivation
  have hshown := (hx.visible x .refl mp hmp p hp).wrappers plan hplan hreversible hserialized halias path
    hpath leaf value hread m hholds type htype field hfield
  obtain ⟨source, hsource, hplanned, candidate, hcandidate, hreversible', hpath', hlike⟩ :=
    hc.exists_alike hc.alike hmem hgenerate hplan hreversible hpath
  obtain ⟨viewed, hviews, -, hrequire⟩ := exists_type_ofPool h.linked hc.names hsource
  obtain ⟨found, hfound, -⟩ := hx.wellTyped x .refl
  obtain ⟨hfoundMem, hfullName⟩ := Pool.message?_mem hfound
  have hpool := hc.source_eq
  -- The plan is that of the type of the message.
  obtain rfl : viewed = found := by
    have hown := (hc.requireType_fullName hfoundMem).2
    rw [hfullName, ← hname, hplanned.outlines.fullName, hpool, hrequire] at hown
    exact Except.ok.inj hown
  rw [hpool] at hfound hread htype hshown ⊢
  refine ((traces_candidates hcandidate).retarget c.plan.renames).same_of_wrapped h.linked hviews
    (hpool ▸ hx.wellTyped) (hpool ▸ hx.known) hfound hreversible' ?_ ?_ (hpath'.symm ▸ hread) hholds htype
    (hlike.aliasField ▸ hfield) hshown
  · rw [← hlike.isSerialized]
    exact hserialized
  · rw [← hlike.aliasType]
    exact halias

end IsReversible

variable {fillers casters} in
/-- What a plan made of a message comes back as it was by the same plan. -/
theorem same_of_byPlan (hmp : c.planFor? x.type .toPlain = some mp)
    (hx : c.Faithful fillers generate x) {depth : Nat} (hconverts : c.ConvertsBack there back depth)
    (hsame : c.ConvertsSame fillers generate there back depth) (hdepth : p.depth ≤ depth + 1)
    (hp : c.toPlain fillers c.source x = .ok p)
    (h : c.byPlan (.strict fillers) there c.source x mp .toPlain = .ok p)
    (h' : c.byPlan (.strict casters) back c.plain p mp .toSource = .ok m) : m.Same c.source x := by
  obtain ⟨hmem, hgenerate, -⟩ := mem_of_planFor? hmp
  obtain ⟨-, type, type', source, htype, htype', hundoes⟩ := exists_undoes casters hc.toIsBuilt hc.mirrors
    hc.dispatches hc.casters hmp hx.wellTyped hx.recovers.decodes hconverts hdepth h
  have hshows := hx.visible x .refl mp hmp p hp
  have hplanned := hundoes.restores.isPlan
  have hreproduces : (c.restoringWith casters back p mp type).Reproduces fillers there x type' casters
      (Schema.ofPool c.source generate) settings c.plan.renames source :=
    { hundoes with
      known := hx.known
      regains := by
        intro plan hplan hreversible target path leaf found value htarget hvalue hfrom
        obtain ⟨hresolved, hfits, -, -, inner, hinner, hstored⟩ :=
          hx.wellTyped.resolvePath hundoes.typed hfrom.read
        have hpath : path.names ∈ mp.ownPaths plan := List.mem_map_of_mem hfrom.mem
        have hmirror := (hc.mirrors.planned mp hmem hgenerate type (htype ▸ rfl) type'
          (htype' ▸ rfl)).fields plan hplan hreversible _ hpath leaf hresolved target htarget
        exact
          { fits := hfits
            accepts := hfrom.accepts
            label := hmirror.1
            decodes := by
              intro hserialized child hholds m' hdecode
              obtain ⟨m'', hm'', -, hsame⟩ :=
                hx.recovers x .refl mp hmp child (.serialized hplan hserialized hfrom.read hholds)
              obtain rfl := Option.some.inj (hm''.symm.trans hdecode)
              exact hsame
            wraps := fun hserialized halias m hholds wrapper hwrapper field hfield =>
              hc.same_of_wrapped hx hmp hp hplan hreversible hserialized halias hpath hfrom.read hholds
                hwrapper hfield
            enums := fun name _ => hc.readsBack name
            copies := fun hcopies => ⟨c.Moves, hmirror.2 hcopies,
              hsame.regained hx hdepth hinner hstored hvalue⟩ }
      recovers := by
        intro plan hplan name hrole index member field hpopulated hfield payload hdecode
        obtain ⟨oneof, honeof, hindex, hmember⟩ := Flattening.populated?_eq_some hpopulated
        have hencodes : mp.Encodes c.source x _ :=
          .payload hplan hrole honeof hindex hmember hundoes.typed hfield
        obtain ⟨m', hm', -, hsame⟩ := hx.recovers x .refl mp hmp _ hencodes
        rw [Message.type_set] at hm'
        obtain rfl := Option.some.inj (hm'.symm.trans hdecode)
        exact hsame
      roles := fun plan hplan hrole target htarget =>
        hc.oneof_of_role hmem hgenerate htype' hplan hrole htarget
      shown := hshows.leaves
      alone := fun plan hplan hreversible path hpath path' hpath' hread hread' =>
        (hc.members mp hmem hgenerate).alone hplanned hgenerate
          (hundoes.restores.names source hundoes.restores.mem) hundoes.restores.views
          (hc.linked type hundoes.restores.views.mem) hx.wellTyped hundoes.typed hpath hpath' hread hread' }
  have hrun : (c.restoringWith casters back p mp type).run = .ok m := by
    rw [byPlan, htype] at h'
    exact h'
  exact hreproduces.same_of_run hc.source_eq hc.derivation.linked
    (hshows.inlined source hundoes.restores.mem hplanned.outlines.fullName.symm) hrun

/-- A message without a plan is moved to a type whose fields count as set like its own. -/
theorem exists_resembles {name : String} {type type' : MessageType}
    (hmp : c.planFor? x.type .toPlain = none) (htype : x.type? c.source = some type)
    (hmoved : dotted name = c.plan.renames.rename (dotted x.type))
    (htype' : requireType c.plain name = .ok type') :
    ∀ field ∈ type.fields, ∃ target ∈ type'.fields, target.number = field.number ∧
      field.Resembles c.source c.plain target := by
  obtain ⟨hmem, hfullName⟩ := Pool.message?_mem htype
  have hdotted := hc.dotted_fullName hmem
  have hlinkMem : type ∈ (Pool.link c.source.files).messages := hc.source_eq ▸ hmem
  obtain ⟨found, hfind, hmovesTo, hfields⟩ := hc.derivation.exists_plainType hc.loadPlain hlinkMem
  -- There is one type with the new name, however the name is written.
  obtain rfl : found = type' := by
    obtain ⟨hbare, hdot⟩ := hc.requireType_plain (hc.mem_messageNames hmem) hmovesTo.dotted hfind
    rw [← hfullName, hdotted, ← hmovesTo.dotted, dotted] at hmoved
    split at hmoved
    · rw [hmoved] at htype'
      exact Except.ok.inj (hdot.symm.trans htype')
    · rw [dot_append_injective hmoved] at htype'
      exact Except.ok.inj (hbare.symm.trans htype')
  have hkept : ∀ mp, c.plan.message? ("." ++ type.fullName) = some mp → ¬ mp.generate := by
    intro mp hfound hgenerate
    have hsome : c.planFor? x.type .toPlain = some mp :=
      Option.filter_eq_some_iff.mpr ⟨by rw [← hfullName, hdotted]; exact hfound, hgenerate⟩
    rw [hmp] at hsome
    cases hsome
  intro field hfield
  obtain ⟨target, htarget, hto⟩ := hfields hkept field hfield
  refine ⟨target, htarget, hto.number, hto.label, hto.oneof, hto.presence, fun hmessage => ?_⟩
  rw [hto.type, hc.source_eq]
  exact hc.derivation.defaultOf_moved hc.loadPlain
    (declared_of_mem hc.derivation.linked hlinkMem hfield) hmessage

/-- **Messages inside messages come back as they were, level by level**, by their plans or field by
field. -/
theorem convertsSame (beyond : ConvertNested) (deeper levels : Nat) :
    c.ConvertsSame fillers generate
      (c.convertNested (.strict fillers) .toPlain c.source (deeper + 1))
      (c.convertWithin (.strict casters) .toSource c.plain beyond levels) levels := by
  induction levels with
  | zero =>
    rintro m ⟨type, fields, unknown⟩ m'' name - - hdepth - -
    rw [Message.depth] at hdepth
    omega
  | succ levels ih =>
    intro m m' m'' name hm hmoves hdepth h h'
    have hconverts : c.ConvertsBack (c.convertNested (.strict fillers) .toPlain c.source (deeper + 1))
        (c.convertWithin (.strict casters) .toSource c.plain beyond levels) levels := by
      intro inner inner' name hinner hdecodes hmoves hdepth hthere
      exact convertsBack fillers casters hc.toIsBuilt hc.mirrors hc.dispatches hc.casters beyond deeper
        inner.depth levels inner inner' name hinner hdecodes hmoves hdepth hthere
    have hmessage := h
    rw [convertNested_toPlain deeper deeper, convertMessage] at hmessage
    rw [convertWithin, if_neg (by omega), convertMessage] at h'
    cases hmp : c.planFor? m.type .toPlain with
    | some mp =>
      rw [hmp] at hmessage
      obtain ⟨hback, -⟩ := exists_undoes casters hc.toIsBuilt hc.mirrors hc.dispatches hc.casters hmp
        hm.wellTyped hm.recovers.decodes hconverts hdepth hmessage
      rw [hback] at h'
      rw [toPlain_of_convertNested hmp] at h
      exact same_of_byPlan hc hmp hm hconverts ih hdepth h hmessage h'
    | none =>
      rw [hmp] at hmessage
      obtain ⟨type, htype, hfits⟩ := hm.wellTyped m .refl
      obtain ⟨hmem, hfullName⟩ := Pool.message?_mem htype
      obtain ⟨type', htype'⟩ := exists_requireType htype hmessage
      obtain ⟨-, hfind'⟩ := fullName_of_requireType htype'
      obtain ⟨hmem', -⟩ := Pool.message?_mem hfind'
      have hmoved := hmoves (by rw [hmp]; rfl)
      obtain ⟨hmoved', hback⟩ := hc.derivation.planFor?_toSource_eq_none hc.loadPlain rfl hc.names
        (hfullName ▸ hc.mem_messageNames hmem) hmp hmoved htype'
      have hkeeps := hc.mirrors.moved type hmem (by rw [hfullName, hmp]; rfl) type' hmem'
        (fun _ => hfullName ▸ hmoved')
      obtain ⟨hname', -⟩ := exists_movedFrom htype htype' hmessage
      rw [hname', hback] at h'
      exact same_of_transcode hfits (hm.known m .refl) htype htype' hfind' (hc.linked type hmem)
        (hc.linkedPlain type' hmem') (hfullName ▸ (hc.requireType_fullName hmem).1)
        (exists_resembles hc hmp htype hmoved htype') hkeeps
        (fun number value number' moved hvalue hmoved =>
          ih.regained hm hdepth .refl hvalue hmoved) hmessage h'

/-- Messages inside messages come back as they were, however deep they are. -/
theorem convertsSame_convertNested (deeper deeper' depth : Nat) :
    c.ConvertsSame fillers generate
      (c.convertNested (.strict fillers) .toPlain c.source (deeper + 1))
      (c.convertNested (.strict casters) .toSource c.plain (deeper' + 1)) depth := by
  intro m m' m'' name hm hmoves _ h h'
  exact convertsSame fillers casters hc _ deeper m'.depth m m' m'' name hm hmoves (Nat.le_refl _) h h'

end Reversible

end Converter

/-! ## The main result -/

/-- **What the strict conversion made of a message of which nothing is lost comes back as it was.** -/
theorem Converter.IsReversible.same_of_toPlain {files : List FileDecl} {generate : List String}
    {settings : Settings} {c : Converter} {fillers casters : Casters (Value → Except String Value)}
    {x p : Message} (hc : c.IsReversible files generate settings) (hx : c.Faithful fillers generate x)
    (h : c.toPlain fillers c.source x = .ok p) :
    ∃ m, c.toSource casters c.plain p = .ok m ∧ m.Same c.source x := by
  have hp := h
  rw [toPlain, convert] at h
  split at h
  · next mp hmp =>
    have hconverts := convertsBack_convertNested fillers casters hc.toIsBuilt hc.mirrors hc.dispatches
      hc.casters (levels x) 99 p.depth
    obtain ⟨hback, m, hm, -⟩ := exists_byPlan casters hc.toIsBuilt hc.mirrors hc.dispatches hc.casters
      hmp hx.wellTyped hx.recovers.decodes hconverts (Nat.le_succ _) h
    refine ⟨m, ?_, same_of_byPlan hc hmp hx hconverts
      (convertsSame_convertNested fillers casters hc 99 99 p.depth) (Nat.le_succ _) hp h hm⟩
    rw [toSource, convert, hback]
    exact hm
  · cases h

end PlainSchema
