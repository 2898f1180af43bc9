import PlainSchema.Proofs.Convert.RoundTrip

/-!
# Round trips with merged fields

A field that is merged from the members of one oneof holds the value of the member that is set, and its
companion records where that was: `Restoring.Undoes.recordsMember`.  So a message comes back as it was,
whichever members are set: `merged_round_trip`.

```text
to Plain       what is merged is carried alike, SchemaPlan.MergesAlike,
               so the field takes the value of every member
companion      the origin of the value, which begins with the member that is set
way back       through the recorded origin, Converter.IsReversible.same_of_toPlain
```

Fields of one kind that are not carried alike are merged as well.  A wrapped number is then not
unwrapped, and the conversion to Plain fails: `wrapped_number_refused`.
-/

namespace PlainSchema

open Proto

/-! ## Companions -/

/-- The companion of a merged field holds the origin of its value, which begins with the populated member
of a oneof. -/
def CrfEntry.RecordsMember (entry : CrfEntry) (pool plain : Pool) (mp : MessagePlan) (x p : Message) :
    Prop :=
  ∃ text ∈ entry.sources, ∃ oneof ∈ mp.oneofs, ∃ member, Restoring.Populates pool x oneof member ∧
    (Crf.fieldNamesOf text).head? = some member.name ∧
    valueNamed? plain p entry.crfField = some (.string text)

/-- **What is recorded of a merged field is the origin in the populated member.** -/
theorem Restoring.Undoes.recordsMember {c : Restoring}
    {fillers casters : Casters (Value → Except String Value)} {there : ConvertNested} {x : Message}
    {type : MessageType} {schema : Schema} {settings : Settings} {renames : Renames}
    {source : SourceMessage} (hc : c.Undoes fillers there x type casters schema settings renames source)
    (hmembers : c.plan.MergesMembers) {entry : CrfEntry} (hentry : entry ∈ c.plan.crf)
    (hset : hasNamed c.pool c.plain entry.field) :
    entry.RecordsMember c.source c.pool c.plan x c.plain := by
  have hplanned := hc.restores.isPlan
  have hgenerate := hc.restores.generate
  obtain ⟨hmerged, plan, hplan, hreversible, hname, -⟩ :=
    hplanned.exists_plan_of_entry hgenerate hc.restores.mem hc.restores.fieldNames hentry
  obtain ⟨target, htarget, hhas⟩ := exists_of_hasNamed hc.type?_plain hset
  obtain ⟨value, hvalue⟩ := Option.isSome_iff_exists.mp (isSome_of_has hhas)
  obtain ⟨path, leaf, found, hfrom⟩ :=
    hc.exists_cameFrom hplan hreversible (hname ▸ htarget) hvalue
  -- The value was read from an origin, which the companion records.
  have hpath : path ∈ c.plan.sourcePaths plan := hfrom.mem
  rw [MessagePlan.sourcePaths, hname, hmerged] at hpath
  obtain ⟨text, htext, rfl⟩ := List.mem_map.mp hpath
  obtain ⟨field, hfield, hstored⟩ := hfrom.recorded entry.crfField text rfl
  -- Only one member of the oneof is set, so that is the one which the origin begins with.
  obtain ⟨oneof, honeof, hstarts⟩ := hmembers entry hentry
  obtain ⟨member, hmember, hhead⟩ := hstarts.members text htext
  have hnamed : hasNamed c.source x member.name := hasNamed_of_read? hhead hfrom.read
  refine ⟨text, htext, oneof, honeof, member, ?_, hhead, ?_⟩
  · exact populates_of_hasNamed hmember hnamed fun other hother hother' =>
      hc.eq_of_hasNamed honeof hother hmember hother' hnamed
  · rw [valueNamed?, hc.type?_plain, Option.bind_eq_bind, Option.bind_some, hfield,
      Option.bind_eq_bind, Option.bind_some, Message.get, hstored, Option.getD_some]
    rfl

/-- The companions of a Plain message record what its merged fields were read from. -/
theorem Converter.IsReversible.recordsMembers {c : Converter} {files : List FileDecl}
    {generate : List String} {settings : Settings} {fillers : Casters (Value → Except String Value)}
    {x p : Message} {mp : MessagePlan} (hc : c.IsReversible files generate settings)
    (hx : c.Faithful fillers generate x) (hmp : c.planFor? x.type .toPlain = some mp)
    (h : c.toPlain fillers c.source x = .ok p) {entry : CrfEntry} (hentry : entry ∈ mp.crf)
    (hset : hasNamed c.plain p entry.field) : entry.RecordsMember c.source c.plain mp x p := by
  obtain ⟨hmem, hgenerate, -⟩ := mem_of_planFor? hmp
  rw [toPlain, convert, hmp] at h
  have hconverts := convertsBack_convertNested fillers {} hc.toIsBuilt hc.mirrors hc.dispatches
    hc.casters (levels x) 99 p.depth
  obtain ⟨-, type, type', source, -, -, hundoes⟩ := exists_undoes {} hc.toIsBuilt hc.mirrors
    hc.dispatches hc.casters hmp hx.wellTyped hx.recovers.decodes hconverts (Nat.le_succ _) h
  exact hundoes.recordsMember (hc.members mp hmem hgenerate) hentry hset

/-! ## The main result -/

/-- Plans that name types and serialize no maps find what they carry. -/
theorem SchemaPlan.NamesTypes.isCarriable {plan : SchemaPlan} {files : List FileDecl}
    {generate : List String} (h : plan.NamesTypes files generate)
    (hmaps : ∀ mp ∈ plan.messages, ∀ fp ∈ mp.fields, fp.origin.isSerialized → ¬ fp.shape.isMap) :
    plan.IsCarriable files generate :=
  ⟨h.entries, hmaps, h.references, h.apart, h.enums⟩

/-- **A message comes back from merged fields as it was**, whichever members of its oneofs are set: if
what is merged comes from different members of one oneof and is carried in one way, it is converted to
Plain, the companions record the members that are set, and the way back restores them. -/
theorem merged_round_trip {files : List FileDecl} {pool : Pool} {generate : List String}
    {settings : Settings} {plan : SchemaPlan} {c : Converter}
    {fillers casters : Casters (Value → Except String Value)} {x : Message}
    (hload : Pool.load files = .ok pool) (hproper : ProperNames pool.files)
    (hsuffix : '.' ∉ settings.suffix.toList)
    (hplan : (Schema.ofPool pool generate).plan settings = .ok plan)
    (hconverter : Converter.ofPool pool plan = .ok c) (hnames : plan.NamesTypes pool.files generate)
    (halike : plan.MergesAlike (Schema.ofPool pool generate) settings)
    (hmembers : ∀ mp ∈ plan.messages, mp.generate → mp.MergesMembers)
    (hmaps : ∀ mp ∈ plan.messages, ∀ fp ∈ mp.fields, fp.origin.isSerialized → ¬ fp.shape.isMap)
    (hcasters : ∀ mp ∈ plan.messages, mp.generate → ∀ fp ∈ mp.fields, ¬ fp.needsCaster)
    (hspelled : pool.SpellsValues) (hgenerated : (c.planFor? x.type .toPlain).isSome)
    (hx : x.WellTyped pool) (hknown : x.Known pool) (hrecovers : c.Recovers x)
    (hvisible : c.Visible fillers generate x) :
    ∃ p m, c.toPlain fillers pool x = .ok p ∧
      (∀ mp ∈ c.planFor? x.type .toPlain, ∀ entry ∈ mp.crf, hasNamed c.plain p entry.field →
        entry.RecordsMember pool c.plain mp x p) ∧
      c.toSource casters c.plain p = .ok m ∧ m.Same pool x := by
  have hbuilt := Converter.isBuilt_of_ofPool hload hproper hsuffix hplan hconverter
  obtain ⟨rfl, rfl⟩ := Converter.ofPool_eq_ok hconverter
  have hc : c.IsReversible files generate settings :=
    ⟨hbuilt, hnames, halike, hmembers, hcasters, hspelled⟩
  have hfaithful : c.Faithful fillers generate x := ⟨hx, hknown, hrecovers, hvisible⟩
  have hserve : fillers.Serve c.plan c.plain :=
    fun mp hmp hgenerate fp hfp hneeds => absurd hneeds (hcasters mp hmp hgenerate fp hfp)
  obtain ⟨p, hp⟩ := hbuilt.exists_toPlain (hnames.isCarriable hmaps) halike hserve hx hgenerated
  obtain ⟨m, hm, hsame⟩ := hc.same_of_toPlain hfaithful hp
  exact ⟨p, m, hp, fun mp hmp entry hentry hset => hc.recordsMembers hfaithful hmp hp hentry hset, hm,
    hsame⟩

/-! ## A wallet -/

/-- A wallet that is paid from by card or from a bank, each with a number and an owner.  The number of the
bank may be wrapped. -/
def walletFile (aliased : Bool) : FileDecl :=
  { name := "wallet.proto", package := "p"
    messages :=
      [{ name := "Id", options := { typeAlias := true }
         fields := [{ name := "value", number := 1, kind := .scalar .string }] },
        { name := "Card"
          fields :=
            [{ name := "number", number := 1, kind := .scalar .string },
              { name := "owner", number := 2, kind := .message, typeRef := some ".p.Id" }] },
        { name := "Bank"
          fields :=
            [if aliased then
                { name := "number", number := 1, kind := .message, typeRef := some ".p.Id" }
              else { name := "number", number := 1, kind := .scalar .string },
              { name := "owner", number := 2, kind := .message, typeRef := some ".p.Id" }] },
        { name := "Wallet", options := { generate := true }
          oneofs := [{ name := "method", options := { embed := true } }]
          fields :=
            [{ name := "card", number := 1, kind := .message, typeRef := some ".p.Card"
               oneofIndex := some 0 },
              { name := "bank", number := 2, kind := .message, typeRef := some ".p.Bank"
                oneofIndex := some 0 }] }] }

def walletFiles (aliased : Bool) : List FileDecl :=
  [{ messageOptionsFile with
      extensions := messageOptionsFile.extensions ++
        [{ name := "field", number := 2, kind := .scalar .string
           extendee := some ".plain.Options" },
          { name := "oneof", number := 3, kind := .scalar .string
            extendee := some ".plain.Options" }] },
    walletFile aliased]

def walletPool (aliased : Bool) : Pool := (Pool.load (walletFiles aliased)).toOption.getD {}

def walletPlan (aliased : Bool) : SchemaPlan :=
  ((Schema.ofPool (walletPool aliased) []).plan { enableCrf := true }).toOption.getD
    { suffix := "", messages := [], renames := {}, diagnostics := [] }

def walletConverter (aliased : Bool) : Converter :=
  (Converter.ofPool (walletPool aliased) (walletPlan aliased)).toOption.getD default

/-- A wrapped text. -/
def walletId (text : String) : Message := { type := "p.Id", fields := [(1, .string text)] }

/-- The bank of a wallet. -/
def walletBank (aliased : Bool) : Message :=
  { type := "p.Bank"
    fields :=
      [(1, if aliased then .message (walletId "42") else .string "42"),
        (2, .message (walletId "A"))] }

/-- A wallet with a bank. -/
def wallet (aliased : Bool) : Message :=
  { type := "p.Wallet", fields := [(2, .message (walletBank aliased))] }

/-- A wallet and the messages in it. -/
def walletMessages (aliased : Bool) : List Message :=
  [wallet aliased, walletBank aliased, walletId "42", walletId "A"]

/-- What can be read off a wallet, its files and their plan. -/
theorem wallet_checks (aliased : Bool) :
    (Pool.load (walletFiles aliased)).isOk ∧
      ProperNames (walletPool aliased).files ∧
      ((Schema.ofPool (walletPool aliased) []).plan { enableCrf := true }).isOk ∧
      (Converter.ofPool (walletPool aliased) (walletPlan aliased)).isOk ∧
      (∀ mp ∈ (walletPlan aliased).messages, mp.generate → mp.MergesMembers) ∧
      (∀ mp ∈ (walletPlan aliased).messages, ∀ fp ∈ mp.fields,
        ¬ fp.origin.isSerialized ∧ ∀ oneof ∈ mp.oneofs,
          fp.origin.role ≠ some (.payload oneof.name)) ∧
      (∀ mp ∈ (walletPlan aliased).messages, mp.generate → ∀ fp ∈ mp.fields, ¬ fp.needsCaster) ∧
      (walletPool aliased).SpellsValues ∧
      ((walletConverter aliased).planFor? (wallet aliased).type .toPlain).isSome ∧
      ∀ m ∈ walletMessages aliased,
        (∃ type ∈ m.type? (walletPool aliased), m.FitsType (walletPool aliased) type) ∧
          ∀ type ∈ m.type? (walletPool aliased), ∀ entry ∈ m.fields, ∃ field ∈ type.fields,
            field.number = entry.1 := by
  cases aliased <;> decide +kernel

section Wallet

variable (aliased : Bool)

theorem load_wallet : Pool.load (walletFiles aliased) = .ok (walletPool aliased) :=
  eq_ok_of_isOk (wallet_checks aliased).1 _

theorem plan_wallet :
    (Schema.ofPool (walletPool aliased) []).plan { enableCrf := true } = .ok (walletPlan aliased) :=
  eq_ok_of_isOk (wallet_checks aliased).2.2.1 _

theorem ofPool_wallet :
    Converter.ofPool (walletPool aliased) (walletPlan aliased) = .ok (walletConverter aliased) :=
  eq_ok_of_isOk (wallet_checks aliased).2.2.2.1 _

theorem within_wallet {inner : Message} (h : inner.Within (wallet aliased)) :
    inner ∈ walletMessages aliased := by
  refine h.mem_of_closed ?_ List.mem_cons_self
  intro part hpart entry hentry child hholds
  simp only [walletMessages, List.mem_cons, List.not_mem_nil, or_false] at hpart
  rcases hpart with rfl | rfl | rfl | rfl
  · rw [List.mem_singleton.mp hentry] at hholds
    cases hholds
    simp [walletMessages]
  · rcases List.mem_pair.mp hentry with rfl | rfl
    · cases aliased
      · exact absurd hholds nofun
      · cases hholds
        simp [walletMessages]
    · cases hholds
      simp [walletMessages]
  · rw [List.mem_singleton.mp hentry] at hholds
    exact absurd hholds nofun
  · rw [List.mem_singleton.mp hentry] at hholds
    exact absurd hholds nofun

theorem wellTyped_wallet : (wallet aliased).WellTyped (walletPool aliased) := by
  obtain ⟨-, -, -, -, -, -, -, -, -, hparts⟩ := wallet_checks aliased
  exact fun inner hinner => (hparts inner (within_wallet aliased hinner)).1

theorem known_wallet : (wallet aliased).Known (walletPool aliased) := by
  obtain ⟨-, -, -, -, -, -, -, -, -, hparts⟩ := wallet_checks aliased
  intro inner hinner
  have hmem := within_wallet aliased hinner
  refine .of_fields ?_ (hparts inner hmem).2
  simp only [walletMessages, List.mem_cons, List.not_mem_nil, or_false] at hmem
  rcases hmem with rfl | rfl | rfl | rfl <;> rfl

/-- The plan of a wallet encodes nothing. -/
theorem recovers_wallet : (walletConverter aliased).Recovers (wallet aliased) := by
  obtain ⟨-, -, -, -, -, hnone, -⟩ := wallet_checks aliased
  obtain ⟨-, hplan⟩ := Converter.ofPool_eq_ok (ofPool_wallet aliased)
  intro inner _ mp hmp m hencodes
  obtain ⟨hmem, -⟩ := Converter.mem_of_planFor? hmp
  rw [hplan] at hmem
  cases hencodes with
  | serialized hfield hserialized => exact absurd hserialized (hnone mp hmem _ hfield).1
  | payload hfield hrole honeof =>
    have hname := List.find?_some honeof
    rw [beq_iff_eq] at hname
    exact absurd (hname ▸ hrole) ((hnone mp hmem _ hfield).2 _ (List.mem_of_find?_eq_some honeof))

end Wallet

/-- What can be read off the Plain wallet: the number of a bank is shown if it can be merged. -/
theorem plainWallet_checks :
    (∀ m ∈ walletMessages false, ∀ mp ∈ (walletConverter false).planFor? m.type .toPlain,
      ∀ p ∈ ((walletConverter false).toPlain {} (walletConverter false).source m).toOption,
        (walletConverter false).ShowsFlat [] m p mp) ∧
      (∀ m ∈ walletMessages true, ((walletConverter true).planFor? m.type .toPlain).isSome →
        errorOf? ((walletConverter true).toPlain {} (walletConverter true).source m)
          = some (.invalidValue "number")) := by
  decide +kernel

/-- The Plain messages of a wallet show all that is set in it, if there are any. -/
theorem visible_wallet (aliased : Bool) : (walletConverter aliased).Visible {} [] (wallet aliased) := by
  obtain ⟨hshown, hrefused⟩ := plainWallet_checks
  intro inner hinner mp hmp p hp
  have hmem := within_wallet aliased hinner
  cases aliased with
  | false => exact (hshown inner hmem mp hmp p (by rw [hp]; rfl)).shows
  | true =>
    have herror := eq_error_of_errorOf? (hrefused inner hmem (by rw [hmp]; rfl))
    rw [hp] at herror
    cases herror

theorem wallet_plan_checks :
    (Schema.ofPool (Pool.link (walletPool false).files) []).EntriesOfMaps ∧
      (Pool.link (walletPool false).files).KeysEntries ∧
      (∀ mp ∈ (walletPlan false).messages, ∀ fp ∈ mp.fields,
        ∀ ref ∈ fp.shape.declaredRef
          (fileEntries (walletPlan false).renames (walletPool false).files) mp.newFullName,
          (walletPlan false).renames.rename ref = ref) ∧
      findsEntries (walletPool false).files (walletPlan false) ∧
      (∀ mp ∈ (walletPlan false).messages, ∀ e ∈ mp.enums,
        (walletPlan false).renames.rename e.fullName = e.fullName) ∧
      ∀ aliased : Bool, (walletPlan aliased).MergesAlike (Schema.ofPool (walletPool aliased) [])
        { enableCrf := true } ↔ aliased = false := by
  decide +kernel

theorem namesTypes_wallet : (walletPlan false).NamesTypes (walletPool false).files [] := by
  obtain ⟨hentries, hkeyed, hreferences, hfinds, henums, -⟩ := wallet_plan_checks
  obtain ⟨hpool, hlinked⟩ := Pool.load_eq_ok (load_wallet false)
  have h : Derivation (walletPool false).files [] { enableCrf := true } (walletPlan false) :=
    ⟨hlinked, (wallet_checks false).2.1.simple, by decide, hpool ▸ plan_wallet false⟩
  exact ⟨hentries, hkeyed, h.keepsPlannedReferences hreferences, mapEntriesApart_of_findsEntries h hfinds,
    henums⟩

/-- A wallet with a bank comes back as it was, with the number and the owner of the bank, although a card
has them too. -/
theorem wallet_returned :
    ∃ p m, (walletConverter false).toPlain {} (walletPool false) (wallet false) = .ok p ∧
      (∀ mp ∈ (walletConverter false).planFor? (wallet false).type .toPlain, ∀ entry ∈ mp.crf,
        hasNamed (walletConverter false).plain p entry.field →
          entry.RecordsMember (walletPool false) (walletConverter false).plain mp (wallet false) p) ∧
      (walletConverter false).toSource {} (walletConverter false).plain p = .ok m ∧
        m.Same (walletPool false) (wallet false) := by
  obtain ⟨-, hproper, -, -, hmembers, hnone, hcasters, hspelled, hgenerated, -⟩ := wallet_checks false
  obtain ⟨-, -, -, -, -, halike⟩ := wallet_plan_checks
  exact merged_round_trip (load_wallet false) hproper (by decide) (plan_wallet false) (ofPool_wallet false)
    namesTypes_wallet ((halike false).mpr rfl) hmembers
    (fun mp hmp fp hfp hserialized => absurd hserialized (hnone mp hmp fp hfp).1) hcasters hspelled
    hgenerated (wellTyped_wallet false) (known_wallet false) (recovers_wallet false) (visible_wallet false)

/-- A wrapped number is merged with one that is not: the wrapper is then copied into a field for texts,
which does not take it. -/
theorem wrapped_number_refused :
    Pool.load (walletFiles true) = .ok (walletPool true) ∧ ProperNames (walletPool true).files ∧
      (Schema.ofPool (walletPool true) []).plan { enableCrf := true } = .ok (walletPlan true) ∧
      Converter.ofPool (walletPool true) (walletPlan true) = .ok (walletConverter true) ∧
      (∀ mp ∈ (walletPlan true).messages, mp.generate → mp.MergesMembers) ∧
      (∀ mp ∈ (walletPlan true).messages, mp.generate → ∀ fp ∈ mp.fields, ¬ fp.needsCaster) ∧
      ((walletConverter true).planFor? (wallet true).type .toPlain).isSome ∧
      (wallet true).WellTyped (walletPool true) ∧ (wallet true).Known (walletPool true) ∧
      (walletConverter true).Recovers (wallet true) ∧
      (walletConverter true).Visible {} [] (wallet true) ∧
      (walletConverter true).toPlain {} (walletPool true) (wallet true)
        = .error (.invalidValue "number") ∧
      ¬ (walletPlan true).MergesAlike (Schema.ofPool (walletPool true) []) { enableCrf := true } := by
  obtain ⟨-, hproper, -, -, hmembers, -, hcasters, -, hgenerated, -⟩ := wallet_checks true
  obtain ⟨-, -, -, -, -, halike⟩ := wallet_plan_checks
  obtain ⟨hsource, -⟩ := Converter.ofPool_eq_ok (ofPool_wallet true)
  have hrefused := eq_error_of_errorOf?
    (plainWallet_checks.2 (wallet true) List.mem_cons_self hgenerated)
  rw [hsource] at hrefused
  exact ⟨load_wallet true, hproper, plan_wallet true, ofPool_wallet true, hmembers, hcasters, hgenerated,
    wellTyped_wallet true, known_wallet true, recovers_wallet true, visible_wallet true, hrefused,
    fun h => absurd ((halike true).mp h) (by decide)⟩

end PlainSchema
