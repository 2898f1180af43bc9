import PlainSchema.Proofs.Convert.Discriminated
import PlainSchema.Proofs.Convert.RoundTrip

/-!
# Round trips without merged fields

Without merged fields and casters, a message comes back as it was: `unmerged_round_trip`.  What it needs
of the files is that every reference of the plan keeps its meaning, `SchemaPlan.NamesTypes`, and that no
enum value has the name of a number; what it needs of the message is `Converter.Visible`.

A reference loses its meaning if the Plain name of one message is the name of another generated message:
`note_of_parcel_lost`.
-/

namespace PlainSchema

open Proto

/-! ## The main result -/

/-- A converter whose plan merges nothing and casts nothing loses nothing, if what the plan refers to is
found under its name. -/
theorem Converter.isReversible_of_crf {files : List FileDecl} {pool : Pool} {generate : List String}
    {settings : Settings} {plan : SchemaPlan} {c : Converter}
    (hload : Pool.load files = .ok pool) (hproper : ProperNames pool.files)
    (hsuffix : '.' ∉ settings.suffix.toList)
    (hplan : (Schema.ofPool pool generate).plan settings = .ok plan)
    (hconverter : Converter.ofPool pool plan = .ok c) (hnames : plan.NamesTypes pool.files generate)
    (hcrf : ∀ mp ∈ plan.messages, mp.crf = [])
    (hcasters : ∀ mp ∈ plan.messages, mp.generate → ∀ fp ∈ mp.fields, ¬ fp.needsCaster)
    (hspelled : pool.SpellsValues) : c.IsReversible files generate settings := by
  have hbuilt := Converter.isBuilt_of_ofPool hload hproper hsuffix hplan hconverter
  obtain ⟨rfl, rfl⟩ := Converter.ofPool_eq_ok hconverter
  have halike := SchemaPlan.mergesAlike_of_crf hbuilt.derivation hcrf
  rw [← hbuilt.source_eq] at halike
  exact ⟨hbuilt, hnames, halike, fun mp hmp _ => MessagePlan.mergesMembers_of_crf (hcrf mp hmp),
    hcasters, hspelled⟩

/-- **Without merged fields and casters a message comes back as it was**, if all that is set in it can be
seen in its Plain message. -/
theorem unmerged_round_trip {files : List FileDecl} {pool : Pool} {generate : List String}
    {settings : Settings} {plan : SchemaPlan} {c : Converter}
    {fillers casters : Casters (Value → Except String Value)} {x p : Message}
    (hload : Pool.load files = .ok pool) (hproper : ProperNames pool.files)
    (hsuffix : '.' ∉ settings.suffix.toList)
    (hplan : (Schema.ofPool pool generate).plan settings = .ok plan)
    (hconverter : Converter.ofPool pool plan = .ok c) (hnames : plan.NamesTypes pool.files generate)
    (hcrf : ∀ mp ∈ plan.messages, mp.crf = [])
    (hcasters : ∀ mp ∈ plan.messages, mp.generate → ∀ fp ∈ mp.fields, ¬ fp.needsCaster)
    (hspelled : pool.SpellsValues) (hx : x.WellTyped pool) (hknown : x.Known pool)
    (hrecovers : c.Recovers x) (hvisible : c.Visible fillers generate x)
    (h : c.toPlain fillers pool x = .ok p) :
    ∃ m, c.toSource casters c.plain p = .ok m ∧ m.Same pool x := by
  have hc := Converter.isReversible_of_crf hload hproper hsuffix hplan hconverter hnames hcrf hcasters
    hspelled
  obtain ⟨rfl, rfl⟩ := Converter.ofPool_eq_ok hconverter
  exact hc.same_of_toPlain ⟨hx, hknown, hrecovers, hvisible⟩ h

/-! ## A parcel -/

/-- A parcel with a note in it.  The message that stands beside its sender may have the Plain name of the
sender. -/
def parcelFile (shadowed : Bool) : FileDecl :=
  { name := "parcel.proto", package := "p"
    enums := [{ name := "Status", values := [("UNKNOWN", 0), ("SENT", 1)] }]
    messages :=
      [{ name := "UserId", options := { typeAlias := true }
         fields := [{ name := "value", number := 1, kind := .scalar .string }] },
        { name := "Road", fields := [{ name := "plate", number := 1, kind := .scalar .string }] },
        { name := "Sea", fields := [{ name := "vessel", number := 1, kind := .scalar .string }] },
        { name := "Tag", fields := [{ name := "text", number := 1, kind := .scalar .string }] },
        { name := "Seal", fields := [{ name := "code", number := 1, kind := .scalar .string }] },
        { name := "Sender", options := { generate := true }
          messages :=
            [{ name := "Note", fields := [{ name := "text", number := 1, kind := .scalar .string }] }] },
        { name := if shadowed then "SenderPlain" else "Carrier", options := { generate := shadowed }
          messages :=
            [{ name := "Note", fields := [{ name := "text", number := 2, kind := .scalar .string }] }] },
        { name := "Parcel", options := { generate := true }
          oneofs := [{ name := "route", options := { enumDispatched := true } }]
          messages :=
            [{ name := "CountsEntry", isMapEntry := true
               fields :=
                 [{ name := "key", number := 1, kind := .scalar .string },
                   { name := "value", number := 2, kind := .scalar .int32 }] }]
          fields :=
            [{ name := "id", number := 1, kind := .scalar .string },
              { name := "owner", number := 2, kind := .message, typeRef := some ".p.UserId" },
              { name := "status", number := 3, kind := .enum, typeRef := some ".p.Status"
                options := { enumAsString := true } },
              { name := "counts", number := 4, kind := .message, label := .repeated
                typeRef := some ".p.Parcel.CountsEntry" },
              { name := "road", number := 5, kind := .message, typeRef := some ".p.Road"
                oneofIndex := some 0 },
              { name := "sea", number := 6, kind := .message, typeRef := some ".p.Sea"
                oneofIndex := some 0 },
              { name := "tag", number := 7, kind := .message, typeRef := some ".p.Tag"
                options := { embedWithPrefix := true } },
              { name := "seal", number := 8, kind := .message, typeRef := some ".p.Seal"
                options := { serialize := true } },
              { name := "note", number := 9, kind := .message, typeRef := some ".p.Sender.Note" },
              { name := "parts", number := 10, kind := .message, label := .repeated
                typeRef := some ".p.Parcel" }] }] }

def parcelFiles (shadowed : Bool) : List FileDecl :=
  [{ messageOptionsFile with
      extensions := messageOptionsFile.extensions ++
        [{ name := "field", number := 2, kind := .scalar .string
           extendee := some ".plain.Options" },
          { name := "oneof", number := 3, kind := .scalar .string
            extendee := some ".plain.Options" }] },
    parcelFile shadowed]

def parcelPool (shadowed : Bool) : Pool := (Pool.load (parcelFiles shadowed)).toOption.getD {}

def parcelPlan (shadowed : Bool) : SchemaPlan :=
  ((Schema.ofPool (parcelPool shadowed) []).plan {}).toOption.getD
    { suffix := "", messages := [], renames := {}, diagnostics := [] }

def parcelConverter (shadowed : Bool) : Converter :=
  (Converter.ofPool (parcelPool shadowed) (parcelPlan shadowed)).toOption.getD default

/-- A message with one text. -/
def textMessage (type : String) (number : Nat) (text : String) : Message :=
  { type, fields := [(number, .string text)] }

/-- The messages in a parcel: their types, and the text in each of them. -/
def parcelTexts : List (String × Nat × String) :=
  [("p.UserId", 1, "A"), ("p.Sea", 1, "V"), ("p.Tag", 1, "T"), ("p.Seal", 1, "9"),
    ("p.Sender.Note", 1, "N"), ("p.Parcel", 1, "8")]

/-- The messages in a parcel. -/
def parcelParts : List Message :=
  parcelTexts.map fun content => textMessage content.1 content.2.1 content.2.2

/-- A parcel by sea, with one part. -/
def parcel : Message :=
  { type := "p.Parcel"
    fields :=
      [(1, .string "7"), (2, .message (textMessage "p.UserId" 1 "A")), (3, .enum 1),
        (4, .map [(.string "a", .i32 1)]), (6, .message (textMessage "p.Sea" 1 "V")),
        (7, .message (textMessage "p.Tag" 1 "T")), (8, .message (textMessage "p.Seal" 1 "9")),
        (9, .message (textMessage "p.Sender.Note" 1 "N")),
        (10, .list [.message (textMessage "p.Parcel" 1 "8")])] }

/-- The Plain parcel of a parcel. -/
def plainParcel (shadowed : Bool) : Message :=
  ((parcelConverter shadowed).toPlain {} (parcelPool shadowed) parcel).toOption.getD default

/-- What can be read off a parcel, its files and their plan. -/
theorem parcel_checks (shadowed : Bool) :
    (Pool.load (parcelFiles shadowed)).isOk ∧
      ProperNames (parcelPool shadowed).files ∧
      ((Schema.ofPool (parcelPool shadowed) []).plan {}).isOk ∧
      (Converter.ofPool (parcelPool shadowed) (parcelPlan shadowed)).isOk ∧
      ((parcelConverter shadowed).toPlain {} (parcelPool shadowed) parcel).isOk ∧
      (∀ mp ∈ (parcelPlan shadowed).messages, mp.crf = []) ∧
      (∀ mp ∈ (parcelPlan shadowed).messages, mp.generate → ∀ fp ∈ mp.fields, ¬ fp.needsCaster) ∧
      (parcelPool shadowed).SpellsValues := by
  cases shadowed <;> decide +kernel

/-- What can be read off a parcel and its parts, and off the Plain messages of them. -/
theorem parcelParts_checks (shadowed : Bool) :
    (∀ m ∈ parcel :: parcelParts,
      (∃ type ∈ m.type? (parcelPool shadowed), m.FitsType (parcelPool shadowed) type) ∧
        ∀ type ∈ m.type? (parcelPool shadowed), ∀ entry ∈ m.fields, ∃ field ∈ type.fields,
          field.number = entry.1) ∧
      (∀ mp ∈ (parcelPlan shadowed).messages, ∀ fp ∈ mp.fields, ∀ oneof ∈ mp.oneofs,
        fp.origin.role ≠ some (.payload oneof.name)) ∧
      (∀ content ∈ parcelTexts,
        (Wire.decode? (parcelPool shadowed) content.1 (Wire.encode (parcelPool shadowed)
          (textMessage content.1 content.2.1 content.2.2))).any
            (Message.isText content.1 content.2.1 content.2.2)) ∧
      ∀ m ∈ parcel :: parcelParts, ∀ mp ∈ (parcelConverter shadowed).planFor? m.type .toPlain,
        ∀ p ∈ ((parcelConverter shadowed).toPlain {} (parcelConverter shadowed).source m).toOption,
          (parcelConverter shadowed).ShowsFlat [] m p mp := by
  cases shadowed <;> decide +kernel

section Parcel

variable (shadowed : Bool)

theorem load_parcel : Pool.load (parcelFiles shadowed) = .ok (parcelPool shadowed) :=
  eq_ok_of_isOk (parcel_checks shadowed).1 _

theorem plan_parcel :
    (Schema.ofPool (parcelPool shadowed) []).plan {} = .ok (parcelPlan shadowed) :=
  eq_ok_of_isOk (parcel_checks shadowed).2.2.1 _

theorem ofPool_parcel :
    Converter.ofPool (parcelPool shadowed) (parcelPlan shadowed) = .ok (parcelConverter shadowed) :=
  eq_ok_of_isOk (parcel_checks shadowed).2.2.2.1 _

theorem toPlain_parcel :
    (parcelConverter shadowed).toPlain {} (parcelPool shadowed) parcel = .ok (plainParcel shadowed) :=
  eq_ok_of_isOk (parcel_checks shadowed).2.2.2.2.1 _

/-- What a parcel holds is one of its parts, and these hold texts alone. -/
theorem mem_parcelParts :
    (∀ entry ∈ parcel.fields, ∀ child, entry.2.Holds child → child ∈ parcelParts) ∧
      ∀ part ∈ parcelParts, ∀ entry ∈ part.fields, ∀ child, ¬ entry.2.Holds child := by
  constructor
  · intro entry hentry child hholds
    simp only [parcel, List.mem_cons, List.not_mem_nil, or_false] at hentry
    rcases hentry with rfl | rfl | rfl | rfl | rfl | rfl | rfl | rfl | rfl
    · exact absurd hholds nofun
    · cases hholds
      simp [parcelParts, parcelTexts]
    · exact absurd hholds nofun
    · cases hholds with
      | entry h => exact absurd h (by simp)
    · cases hholds
      simp [parcelParts, parcelTexts]
    · cases hholds
      simp [parcelParts, parcelTexts]
    · cases hholds
      simp [parcelParts, parcelTexts]
    · cases hholds
      simp [parcelParts, parcelTexts]
    · cases hholds with
      | item h => simp [Value.message.inj (List.mem_singleton.mp h), parcelParts, parcelTexts]
  · intro part hpart entry hentry child hholds
    obtain ⟨content, -, rfl⟩ := List.mem_map.mp hpart
    rw [List.mem_singleton.mp hentry] at hholds
    exact absurd hholds nofun

theorem within_parcel {inner : Message} (h : inner.Within parcel) :
    inner ∈ parcel :: parcelParts := by
  refine h.mem_of_closed ?_ List.mem_cons_self
  intro part hpart entry hentry child hholds
  rcases List.mem_cons.mp hpart with rfl | hpart
  · exact List.mem_cons_of_mem _ (mem_parcelParts.1 entry hentry child hholds)
  · exact absurd hholds (mem_parcelParts.2 part hpart entry hentry child)

theorem wellTyped_parcel : parcel.WellTyped (parcelPool shadowed) :=
  fun inner hinner => ((parcelParts_checks shadowed).1 inner (within_parcel hinner)).1

theorem known_parcel : parcel.Known (parcelPool shadowed) := by
  intro inner hinner
  refine .of_fields ?_ ((parcelParts_checks shadowed).1 inner (within_parcel hinner)).2
  rcases List.mem_cons.mp (within_parcel hinner) with rfl | hpart
  · rfl
  · obtain ⟨content, -, rfl⟩ := List.mem_map.mp hpart
    rfl

/-- The parts of a parcel can be decoded, and no payload is encoded. -/
theorem recovers_parcel : (parcelConverter shadowed).Recovers parcel := by
  obtain ⟨-, hroles, hdecodes, -⟩ := parcelParts_checks shadowed
  obtain ⟨hsource, hplan⟩ := Converter.ofPool_eq_ok (ofPool_parcel shadowed)
  intro inner hinner mp hmp m hencodes
  rw [hsource] at hencodes ⊢
  cases hencodes with
  | serialized _ _ hread hholds =>
    obtain ⟨type, htype, -⟩ := wellTyped_parcel shadowed inner hinner
    obtain ⟨-, -, -, -, holder, hholder, hstored⟩ :=
      ((wellTyped_parcel shadowed).within hinner).resolvePath htype hread
    have hentry := mem_of_lookup hstored
    have hpart : m ∈ parcelParts := by
      rcases List.mem_cons.mp (within_parcel (hholder.trans hinner)) with rfl | hpart
      · exact mem_parcelParts.1 _ hentry m hholds
      · exact absurd hholds (mem_parcelParts.2 _ hpart _ hentry m)
    have hwell : m.WellTyped (parcelPool shadowed) :=
      ((wellTyped_parcel shadowed).within (hholder.trans hinner)).nested hstored hholds
    obtain ⟨type, htype, -⟩ := hwell m .refl
    obtain ⟨content, hcontent, rfl⟩ := List.mem_map.mp hpart
    obtain ⟨found, hfound, htext⟩ := (Option.any_eq_true _ _).mp (hdecodes content hcontent)
    rw [Message.eq_of_isText htext] at hfound
    exact ⟨_, hfound, hwell, .refl htype⟩
  | payload hfield hrole honeof =>
    have hname := List.find?_some honeof
    rw [beq_iff_eq] at hname
    obtain ⟨hmem, -⟩ := Converter.mem_of_planFor? hmp
    exact absurd (hname ▸ hrole)
      (hroles mp (hplan ▸ hmem) _ hfield _ (List.mem_of_find?_eq_some honeof))

/-- A Plain parcel shows all that is set in a parcel. -/
theorem visible_parcel : (parcelConverter shadowed).Visible {} [] parcel := by
  obtain ⟨-, -, -, hshows⟩ := parcelParts_checks shadowed
  intro inner hinner mp hmp p hp
  exact (hshows inner (within_parcel hinner) mp hmp p (by rw [hp]; rfl)).shows

end Parcel

theorem namesTypes_parcel : (parcelPlan false).NamesTypes (parcelPool false).files [] := by
  have hchecks : (Schema.ofPool (Pool.link (parcelPool false).files) []).EntriesOfMaps ∧
      (Pool.link (parcelPool false).files).KeysEntries ∧
      (∀ mp ∈ (parcelPlan false).messages, ∀ fp ∈ mp.fields,
        ∀ ref ∈ fp.shape.declaredRef
          (fileEntries (parcelPlan false).renames (parcelPool false).files) mp.newFullName,
          (parcelPlan false).renames.rename ref = ref) ∧
      findsEntries (parcelPool false).files (parcelPlan false) ∧
      ∀ mp ∈ (parcelPlan false).messages, ∀ e ∈ mp.enums,
        (parcelPlan false).renames.rename e.fullName = e.fullName := by
    decide +kernel
  obtain ⟨hentries, hkeyed, hreferences, hfinds, henums⟩ := hchecks
  obtain ⟨hpool, hlinked⟩ := Pool.load_eq_ok (load_parcel false)
  have h : Derivation (parcelPool false).files [] {} (parcelPlan false) :=
    ⟨hlinked, (parcel_checks false).2.1.simple, by decide, hpool ▸ plan_parcel false⟩
  exact ⟨hentries, hkeyed, h.keepsPlannedReferences hreferences, mapEntriesApart_of_findsEntries h hfinds,
    henums⟩

/-- A parcel comes back as it was. -/
theorem parcel_returned :
    ∃ m, (parcelConverter false).toSource {} (parcelConverter false).plain (plainParcel false) = .ok m ∧
      m.Same (parcelPool false) parcel := by
  obtain ⟨-, hproper, -, -, -, hcrf, hcasters, hspelled⟩ := parcel_checks false
  exact unmerged_round_trip (load_parcel false) hproper (by decide) (plan_parcel false)
    (ofPool_parcel false) namesTypes_parcel hcrf hcasters hspelled (wellTyped_parcel false)
    (known_parcel false) (recovers_parcel false) (visible_parcel false) (toPlain_parcel false)

/-- The type of the note is renamed twice if there is a message with the Plain name of its sender.  The
note is then moved to the Plain type of another message, and its text is lost. -/
theorem note_of_parcel_lost :
    Pool.load (parcelFiles true) = .ok (parcelPool true) ∧ ProperNames (parcelPool true).files ∧
      (Schema.ofPool (parcelPool true) []).plan {} = .ok (parcelPlan true) ∧
      Converter.ofPool (parcelPool true) (parcelPlan true) = .ok (parcelConverter true) ∧
      (∀ mp ∈ (parcelPlan true).messages, mp.crf = []) ∧
      (∀ mp ∈ (parcelPlan true).messages, mp.generate → ∀ fp ∈ mp.fields, ¬ fp.needsCaster) ∧
      (parcelPool true).SpellsValues ∧ parcel.WellTyped (parcelPool true) ∧
      parcel.Known (parcelPool true) ∧ (parcelConverter true).Recovers parcel ∧
      (parcelConverter true).Visible {} [] parcel ∧
      (parcelConverter true).toPlain {} (parcelPool true) parcel = .ok (plainParcel true) ∧
      ∃ m, (parcelConverter true).toSource {} (parcelConverter true).plain (plainParcel true) = .ok m ∧
        ¬ m.Same (parcelPool true) parcel := by
  have hlost : (parcel.read? (parcelPool true) ["note", "text"]).isSome ∧
      ((parcelConverter true).toSource {} (parcelConverter true).plain
        (plainParcel true)).toOption.any
          fun m => (m.read? (parcelPool true) ["note", "text"]).isNone := by
    decide +kernel
  obtain ⟨hset, hback⟩ := hlost
  obtain ⟨m, hm, hnone⟩ := (Option.any_eq_true _ _).mp hback
  obtain ⟨-, hproper, -, -, -, hcrf, hcasters, hspelled⟩ := parcel_checks true
  refine ⟨load_parcel true, hproper, plan_parcel true, ofPool_parcel true, hcrf, hcasters, hspelled,
    wellTyped_parcel true, known_parcel true, recovers_parcel true, visible_parcel true,
    toPlain_parcel true, m, eq_ok_of_toOption hm, fun hsame => ?_⟩
  have hread := hsame.isSome_read? hset
  rw [Option.isNone_iff_eq_none] at hnone
  rw [hnone] at hread
  exact absurd hread Bool.false_ne_true

end PlainSchema
