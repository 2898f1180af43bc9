import Mathlib.Data.List.Sort
import PlainSchema.Proofs.Derive.Generated
import PlainSchema.Proofs.Plan.CopiedMembers
import PlainSchema.Proofs.Schema.Types

/-!
# The oneofs of a Plain message

A Plain message has the copied oneofs first, in their positions and under their names, and behind
them one oneof for each optional field.  `copied_oneofs_keep_members_iff` says which fields are their
members: in a copied oneof the members of the source oneof that come first among the fields of their
names, in a oneof of an optional field that field alone.  All members are there, and nothing else is
in them, exactly if no other field has the name of a member.

The condition fails when a field that is inlined from elsewhere comes before a member of its name and
the two are merged: the member leaves its oneof, see `number_leaves_its_oneof`.
-/

namespace PlainSchema

open Proto

/-! ## Names -/

/-- The name of the oneof at an index. -/
def SourceMessage.oneofName (m : SourceMessage) (index : Nat) : String :=
  ((m.oneof? index).map (·.name)).getD ""

/-- The order of the copied oneofs: by position, then by name. -/
def positionLe (a b : Nat × String) : Bool :=
  a.1 < b.1 || a.1 == b.1 && !(b.2 < a.2)

theorem positionLe_iff {a b : Nat × String} :
    positionLe a b ↔ a.1 < b.1 ∨ a.1 = b.1 ∧ a.2 ≤ b.2 := by
  rw [positionLe, Bool.or_eq_true, Bool.and_eq_true, decide_eq_true_eq, beq_iff_eq,
    Bool.not_eq_true', decide_eq_false_iff_not, String.not_lt]

theorem pairwise_positionLe (pairs : List (Nat × String)) :
    (sortBy positionLe pairs).Pairwise fun a b => positionLe a b := by
  refine pairwise_sortBy (fun a b c => ?_) (fun a b => ?_) pairs
  · rw [positionLe_iff, positionLe_iff, positionLe_iff]
    rintro (hab | ⟨hab, hle⟩) (hbc | ⟨hbc, hle'⟩)
    · exact Or.inl (by omega)
    · exact Or.inl (by omega)
    · exact Or.inl (by omega)
    · exact Or.inr ⟨by omega, String.le_trans hle hle'⟩
  · rw [Bool.or_eq_true, positionLe_iff, positionLe_iff]
    rcases Nat.lt_trichotomy a.1 b.1 with hlt | heq | hlt
    · exact Or.inl (Or.inl hlt)
    · exact (String.le_total a.2 b.2).imp (fun hle => Or.inr ⟨heq, hle⟩)
        fun hle => Or.inr ⟨heq.symm, hle⟩
    · exact Or.inr (Or.inl hlt)

variable {schema : Schema} {settings : Settings} {renames : Renames} {m : SourceMessage}
  {mp : MessagePlan}

/-- The copied oneofs have their names, by their positions. -/
theorem SourceMessage.IsPlanOf.keptOneofs_eq (h : m.IsPlanOf schema settings renames mp)
    (hgenerate : mp.generate) (hnames : (m.oneofs.map (·.name)).Nodup) :
    keptOneofs mp = m.copiedOneofs.map m.oneofName := by
  have hname : ∀ {index : Nat} {oneof : OneofPlan}, mp.oneofs[index]? = some oneof →
      oneof.name = m.oneofName index := by
    intro index oneof honeof
    have hat := congrArg (·[index]?) (h.map_name_oneofs hgenerate)
    simp only [List.getElem?_map, honeof, Option.map_some] at hat
    rw [SourceMessage.oneofName, SourceMessage.oneof?, ← hat, Option.getD_some]
  have hnodup : (mp.oneofs.map (·.name)).Nodup := h.map_name_oneofs hgenerate ▸ hnames
  -- Both lists hold the same pairs, once each, and both are in order.
  let placed := m.copiedOneofs.mapIdx fun position index => (position, m.oneofName index)
  have hplaced : placed.Pairwise fun a b => a.1 < b.1 := by
    refine List.pairwise_iff_getElem.mpr fun i j hi hj hij => ?_
    simpa [placed] using hij
  have hperm : (mp.oneofs.filterMap fun oneof => oneof.newIndex.map (·, oneof.name)).Perm placed := by
    refine (List.perm_ext_iff_of_nodup ?_ (hplaced.imp fun hlt heq => ?_)).mpr fun pair => ?_
    · refine List.pairwise_filterMap.mpr ((List.pairwise_map.mp hnodup).imp ?_)
      intro a b hne pair ha other hb heq
      obtain ⟨i, -, rfl⟩ := Option.map_eq_some_iff.mp ha
      obtain ⟨j, -, rfl⟩ := Option.map_eq_some_iff.mp hb
      exact hne (Prod.mk.inj heq).2
    · rw [heq] at hlt
      exact Nat.lt_irrefl _ hlt
    · simp only [List.mem_filterMap, Option.map_eq_some_iff, placed, List.mem_mapIdx]
      constructor
      · rintro ⟨oneof, honeof, position, hposition, rfl⟩
        obtain ⟨index, hindex⟩ := List.getElem?_of_mem honeof
        have hat := (h.newIndex_iff hgenerate).mp (by rw [hindex, Option.bind_some, hposition])
        obtain ⟨hlt, heq⟩ := List.getElem?_eq_some_iff.mp hat
        exact ⟨position, hlt, by rw [heq, hname hindex]⟩
      · rintro ⟨position, hlt, rfl⟩
        have hat := (h.newIndex_iff hgenerate).mpr (List.getElem?_eq_getElem hlt)
        obtain ⟨oneof, honeof, hposition⟩ := Option.bind_eq_some_iff.mp hat
        exact ⟨oneof, List.mem_of_getElem? honeof, position, hposition, by rw [hname honeof]⟩
  have heq : sortBy positionLe (mp.oneofs.filterMap fun oneof => oneof.newIndex.map (·, oneof.name))
      = placed := by
    refine List.Perm.eq_of_pairwise (fun a b ha hb hab hba => ?_) (pairwise_positionLe _)
      (hplaced.imp fun hlt => positionLe_iff.mpr (Or.inl hlt)) ((sortBy_perm _ _).trans hperm)
    have ha := hperm.mem_iff.mp (mem_sortBy.mp ha)
    simp only [placed, List.mem_mapIdx] at ha hb
    obtain ⟨i, hi, rfl⟩ := ha
    obtain ⟨j, hj, rfl⟩ := hb
    rw [positionLe_iff] at hab hba
    dsimp only at hab hba
    obtain rfl : i = j := by omega
    rfl
  calc keptOneofs mp = placed.map (·.2) := by rw [← heq]; rfl
    _ = m.copiedOneofs.map m.oneofName :=
      List.ext_getElem? fun i => by simp [placed, Function.comp_def]

/-! ## Optional fields -/

/-- Behind the given oneofs every optional field has a oneof of its own, and there are no others. -/
structure PlacesOptionals (oneofs : List String) (fields : List FieldDecl) (all : List String) :
    Prop where
  kept : oneofs <+: all
  behind : ∀ field ∈ fields, field.proto3Optional → ∃ position : Nat, oneofs.length ≤ position ∧
    position < all.length ∧ field.oneofIndex = some (position : Int)
  alone : ∀ position : Nat, oneofs.length ≤ position → position < all.length →
    ∃ field, field.proto3Optional ∧
      fields.filter (·.oneofIndex == some (position : Int)) = [field]

theorem placesOptionals (taken : Nat) {fields : List FieldDecl}
    (hfields : ∀ field ∈ fields, ¬ field.proto3Optional → ∀ position : Nat,
      field.oneofIndex = some (position : Int) → position < taken)
    {oneofs : List String} (htaken : taken ≤ oneofs.length) :
    PlacesOptionals oneofs (placeOptionals oneofs fields).1 (placeOptionals oneofs fields).2 := by
  induction fields generalizing oneofs with
  | nil =>
    refine ⟨List.prefix_rfl, by simp [placeOptionals], fun position hle hlt => ?_⟩
    rw [placeOptionals] at hlt
    exact absurd hlt (by simpa using hle)
  | cons field fields ih =>
    rw [List.forall_mem_cons] at hfields
    rw [placeOptionals]
    split
    · next hoptional =>
      generalize freshOneof oneofs ("_" ++ field.name) = oneof
      dsimp only
      have hrest : PlacesOptionals (oneofs ++ [oneof]) (placeOptionals (oneofs ++ [oneof]) fields).1
          (placeOptionals (oneofs ++ [oneof]) fields).2 :=
        ih hfields.2 (by simp; omega)
      have hlength : (oneofs ++ [oneof]).length = oneofs.length + 1 := by simp
      have hlast : oneofs.length < (placeOptionals (oneofs ++ [oneof]) fields).2.length := by
        have hle := hrest.kept.length_le
        omega
      refine ⟨(List.prefix_append _ _).trans hrest.kept, ?_, fun position hle hlt => ?_⟩
      · refine List.forall_mem_cons.mpr ⟨fun _ => ⟨oneofs.length, le_rfl, hlast, rfl⟩, ?_⟩
        intro other hother hoptional'
        obtain ⟨position, hle, hlt, hat⟩ := hrest.behind other hother hoptional'
        exact ⟨position, by omega, hlt, hat⟩
      · rw [List.filter_cons]
        by_cases hposition : position = oneofs.length
        · -- The fields behind this one stand in earlier oneofs, or in later ones of their own.
          have hnone : (placeOptionals (oneofs ++ [oneof]) fields).1.filter
              (·.oneofIndex == some (position : Int)) = [] := by
            refine List.filter_eq_nil_iff.mpr fun other hother hat => ?_
            have hat : other.oneofIndex = some (position : Int) := by simpa using hat
            by_cases hoptional' : other.proto3Optional
            · obtain ⟨position', hle', -, hat'⟩ := hrest.behind other hother hoptional'
              rw [hat] at hat'
              have := Int.ofNat_inj.mp (Option.some.inj hat')
              omega
            · obtain ⟨before, hbefore, hsame⟩ :=
                exists_left_of_forall₂ (forall₂_placeOptionals _ fields) hother
              have hkept : ¬ before.proto3Optional := by
                rw [hsame.1] at hoptional'
                exact hoptional'
              rw [hsame.2 hkept] at hat
              have := hfields.2 before hbefore hkept position hat
              omega
          refine ⟨{ field with oneofIndex := some (Int.ofNat oneofs.length) }, hoptional, ?_⟩
          rw [hnone, if_pos (by simp [hposition])]
        · obtain ⟨own, hown, hfilter⟩ := hrest.alone position (by omega) hlt
          refine ⟨own, hown, ?_⟩
          rw [if_neg, hfilter]
          simpa using fun heq => hposition (Int.ofNat_inj.mp heq).symm
    · next hoptional =>
      have hrest := ih hfields.2 htaken
      dsimp only
      refine ⟨hrest.kept, ?_, fun position hle hlt => ?_⟩
      · exact List.forall_mem_cons.mpr ⟨fun h => absurd h hoptional, hrest.behind⟩
      · rw [List.filter_cons, if_neg]
        · exact hrest.alone position hle hlt
        · intro hat
          have := hfields.1 hoptional position (by simpa using hat)
          omega

/-- What leaves oneofs and optional fields alone leaves them in their places. -/
theorem PlacesOptionals.map {oneofs all : List String} {fields : List FieldDecl}
    (h : PlacesOptionals oneofs fields all) {f : FieldDecl → FieldDecl}
    (hf : ∀ field, (f field).oneofIndex = field.oneofIndex ∧
      (f field).proto3Optional = field.proto3Optional) :
    PlacesOptionals oneofs (fields.map f) all := by
  refine ⟨h.kept, fun field hfield hoptional => ?_, fun position hle hlt => ?_⟩
  · obtain ⟨inner, hinner, rfl⟩ := List.mem_map.mp hfield
    rw [(hf inner).2] at hoptional
    rw [(hf inner).1]
    exact h.behind inner hinner hoptional
  · obtain ⟨own, hoptional, hfilter⟩ := h.alone position hle hlt
    refine ⟨f own, (hf own).2 ▸ hoptional, ?_⟩
    rw [List.filter_map, Function.comp_def]
    simp only [(hf _).1, hfilter, List.map_singleton]

/-! ## Members -/

section Members

variable {files : List FileDecl} {generate : List String} {plan : SchemaPlan} {decl : MessageDecl}

/-- The fields that a Plain message has in the oneof at a position, each with the path in the source
that its plan reads. -/
def declaredMembers (mp : MessagePlan) (decl : MessageDecl) (position : Nat) :
    List (List String × String) :=
  ((mp.fields.zip decl.fields).filter (·.2.oneofIndex == some (position : Int))).map
    fun (plan, field) => (plan.origin.sourcePath, field.name)

variable (h : Derivation files generate settings plan)
  (hd : DerivesMessage files generate plan m mp decl)
include h hd

/-- The fields of a Plain message stand for those of its plan, and behind the copied oneofs every
optional field has a oneof of its own. -/
theorem declared_of_derivesMessage :
    PlacesOptionals (m.copiedOneofs.map m.oneofName) decl.fields (decl.oneofs.map (·.name)) ∧
      ∃ dialect, List.Forall₂ (DeclaredAs plan.renames dialect (fileEntries plan.renames files)
        mp.newFullName) mp.fields decl.fields := by
  have hplan := h.isPlanOf_of_derivesMessage hd
  have hkept := hplan.keptOneofs_eq hd.generated (oneofNames_ofPool h.linked hd.source)
  obtain ⟨file, hfile, scope, d, -, hfound, rfl⟩ := h.declares_of_derivesMessage hd
  refine ⟨?_, file.dialect, fields_plainMessage plan file.dialect _ hfound hd.generated⟩
  rw [plainMessage_generated plan file.dialect _ hfound hd.generated, retargetMessage_eq,
    MessagePlan.declare]
  dsimp only
  rw [List.map_map, declareFields_fst, ← hkept]
  change PlacesOptionals _ _ (List.map id _)
  rw [List.map_id]
  refine PlacesOptionals.map (placesOptionals m.copiedOneofs.length ?_ ?_)
    fun field => ⟨rfl, rfl⟩
  · intro field hfield _ position hposition
    rw [List.map_map] at hfield
    obtain ⟨fp, hfp, rfl⟩ := List.mem_map.mp hfield
    obtain ⟨index, hindex, heq⟩ := Option.map_eq_some_iff.mp hposition
    have hlt := hplan.oneofIndex_lt hd.generated hfp hindex
    have : index = position := Int.ofNat_inj.mp heq
    omega
  · rw [hkept, List.length_map]

/-- The fields in the oneof at the position of a copied oneof are those that are planned there. -/
theorem declaredMembers_eq {position : Nat} (hposition : position < m.copiedOneofs.length) :
    declaredMembers mp decl position
      = (mp.membersAt position).map fun plan => (plan.origin.sourcePath, plan.shape.name) := by
  obtain ⟨hplaces, dialect, hfields⟩ := declared_of_derivesMessage h hd
  rw [declaredMembers, MessagePlan.membersAt]
  refine map_filter_eq_of_forall₂ (forall₂_zip hfields) ?_
  rintro ⟨fp, field⟩ _ ⟨rfl, hfield, hdeclared, hkept⟩
  dsimp only at hfield hdeclared hkept ⊢
  refine ⟨?_, by rw [hdeclared]; rfl⟩
  by_cases hoptional : (fp.shape.declare dialect).proto3Optional
  · -- An optional field is in no copied oneof, and its own one stands behind them.
    have hown : field.proto3Optional := by
      rw [hdeclared]
      exact hoptional
    obtain ⟨other, hle, -, hat⟩ := hplaces.behind field hfield hown
    have hnone : fp.shape.oneofIndex = none := by
      rw [FieldShape.declare] at hoptional
      simpa using (Bool.and_eq_true_iff.mp hoptional).2
    rw [List.length_map] at hle
    rw [hat, hnone]
    simp
    omega
  · rw [hkept hoptional]
    cases fp.shape.oneofIndex with
    | none => rfl
    | some index =>
      rw [Option.map_some, Bool.eq_iff_iff, beq_iff_eq, beq_iff_eq, Option.some.injEq,
        Option.some.injEq]
      exact Int.ofNat_inj

end Members

/-! ## The main result -/

/-- Every copied oneof of a Plain message has the members of its source oneof, all of them and in
order, and each is read from the member that it stands for and from nowhere else. -/
def KeepsMembers (m : SourceMessage) (mp : MessagePlan) (decl : MessageDecl) : Prop :=
  ∀ position index, m.copiedOneofs[position]? = some index →
    declaredMembers mp decl position
        = (m.oneofFields index).map (fun field => ([field.name], field.name)) ∧
      ∀ plan ∈ mp.membersAt position, ∀ path ∈ mp.ownPaths plan, path = plan.origin.sourcePath

/-- What a Plain message has for the oneofs of its source message. -/
structure CopiesOneofs (schema : Schema) (settings : Settings) (m : SourceMessage) (mp : MessagePlan)
    (decl : MessageDecl) : Prop where
  distinct : m.copiedOneofs.Nodup
  copied : ∀ index, index ∈ m.copiedOneofs ↔ (m.oneof? index).any (!·.synthetic) ∧
    m.strategy index = .untouched ∧ m.oneofFields index ≠ []
  positions : ∀ index position : Nat, (mp.oneofs[index]?).bind (·.newIndex) = some position ↔
    m.copiedOneofs[position]? = some index
  members : ∀ position index : Nat, m.copiedOneofs[position]? = some index →
    declaredMembers mp decl position
      = ((m.oneofFields index).filter
          (·.comesFirst (m.candidates schema settings mp.newFullName))).map
        fun field => ([field.name], field.name)
  optionals : PlacesOptionals (m.copiedOneofs.map m.oneofName) decl.fields (decl.oneofs.map (·.name))

/-- **Copied oneofs keep exactly their members** if and only if no other field has the name of a
member, as is always the case without merging.  In any case they stand in their positions under their
names, a member in them is one of the source oneof, and the oneofs behind them belong to one optional
field each. -/
theorem copied_oneofs_keep_members_iff {declared : List FileDecl} {pool : Pool}
    {generate : List String} {settings : Settings} {plan : SchemaPlan} {m : SourceMessage}
    {mp : MessagePlan} {decl : MessageDecl} (hload : Pool.load declared = .ok pool)
    (hnames : ProperNames pool.files) (hsuffix : '.' ∉ settings.suffix.toList)
    (hplan : (Schema.ofPool pool generate).plan settings = .ok plan)
    (hd : DerivesMessage pool.files generate plan m mp decl) :
    CopiesOneofs (Schema.ofPool pool generate) settings m mp decl ∧
      (KeepsMembers m mp decl ↔
        m.MembersApart (Schema.ofPool pool generate) settings mp.newFullName) ∧
      (settings.enableCrf = false →
        m.MembersApart (Schema.ofPool pool generate) settings mp.newFullName) := by
  obtain ⟨hpool, hlinked⟩ := Pool.load_eq_ok hload
  rw [hpool] at hplan
  have h : Derivation pool.files generate settings plan := ⟨hlinked, hnames.simple, hsuffix, hplan⟩
  have hof := h.isPlanOf_of_derivesMessage hd
  have hmembers : ∀ {position index : Nat}, m.copiedOneofs[position]? = some index →
      declaredMembers mp decl position
        = (mp.membersAt position).map fun plan => (plan.origin.sourcePath, plan.shape.name) :=
    fun hposition => declaredMembers_eq h hd (List.getElem?_eq_some_iff.mp hposition).1
  rw [hpool]
  refine ⟨⟨m.copiedAmong_nodup m.fields, fun index => ?_, fun index position =>
    hof.newIndex_iff hd.generated, fun position index hposition => ?_,
    (declared_of_derivesMessage h hd).1⟩, ?_, fun hcrf => ?_⟩
  · rw [SourceMessage.mem_copiedOneofs, SourceMessage.copies, Bool.and_eq_true, beq_iff_eq, and_assoc]
  · rw [hmembers hposition]
    exact hof.paths_at hd.generated hd.source h.plans.findings (namesFields_ofPool hlinked) hposition
  · rw [← hof.keepsMembers_iff hd.generated hd.source h.plans.findings (namesFields_ofPool hlinked)
      (fieldNames_ofPool hnames)]
    refine forall_congr' fun position => forall_congr' fun index => forall_congr' fun hposition => ?_
    rw [hmembers hposition]
  · exact hof.membersApart hd.generated hd.source h.plans.findings (hof.crf_eq_nil hd.generated hcrf)

/-! ## A transfer by number -/

/-- A transfer by number or by account, with a card inlined in front whose one field has some name. -/
def transferFile (inlined : String) : FileDecl :=
  { name := "transfer.proto", package := "p"
    messages :=
      [{ name := "Card", fields := [{ name := inlined, number := 1, kind := .scalar .string }] },
        { name := "Transfer", options := { generate := true }
          oneofs := [{ name := "method" }]
          fields :=
            [{ name := "card", number := 1, kind := .message, typeRef := some ".p.Card"
               options := { embed := true } },
              { name := "number", number := 2, kind := .scalar .string, oneofIndex := some 0 },
              { name := "iban", number := 3, kind := .scalar .string, oneofIndex := some 0 }] }] }

def transferFiles (inlined : String) : List FileDecl :=
  [{ messageOptionsFile with
      extensions := messageOptionsFile.extensions ++
        [{ name := "field", number := 2, kind := .scalar .string
           extendee := some ".plain.Options" }] },
    transferFile inlined]

def transferPool (inlined : String) : Pool := (Pool.load (transferFiles inlined)).toOption.getD {}

def transferSchema (inlined : String) : Schema := Schema.ofPool (transferPool inlined) []

def transferPlan (inlined : String) : SchemaPlan :=
  ((transferSchema inlined).plan { enableCrf := true }).toOption.getD
    { suffix := "", messages := [], renames := {}, diagnostics := [] }

/-- The transfer as a source message. -/
def transfer (inlined : String) : SourceMessage :=
  ((transferSchema inlined).message? ".p.Transfer").getD default

section Transfer

variable {inlined : String} (h : inlined = "digits" ∨ inlined = "number")
include h

/-- What can be read off a transfer, its files and their plan. -/
theorem transfer_checks :
    (Pool.load (transferFiles inlined)).isOk ∧
      ((transferSchema inlined).plan { enableCrf := true }).isOk ∧
      ProperNames (transferPool inlined).files ∧
      transfer inlined ∈ (transferSchema inlined).messages ∧
      (transfer inlined).options.generate ∧
      (transferPlan inlined).renames.rename (transfer inlined).fullName = ".p.TransferPlain" ∧
      (transfer inlined).copiedOneofs = [0] ∧
      ((transfer inlined).oneofFields 0).map (·.name) = ["number", "iban"] ∧
      (inlined = "digits" → (transfer inlined).MembersApart (transferSchema inlined)
        { enableCrf := true } ".p.TransferPlain") ∧
      (inlined = "number" → (((transfer inlined).oneofFields 0).filter (·.comesFirst
          ((transfer inlined).candidates (transferSchema inlined) { enableCrf := true }
            ".p.TransferPlain"))).map (fun field => ([field.name], field.name))
        = [(["iban"], "iban")]) := by
  rcases h with rfl | rfl <;> decide +kernel

theorem load_transfer : Pool.load (transferFiles inlined) = .ok (transferPool inlined) :=
  eq_ok_of_isOk (transfer_checks h).1 _

theorem plan_transfer :
    (transferSchema inlined).plan { enableCrf := true } = .ok (transferPlan inlined) :=
  eq_ok_of_isOk (transfer_checks h).2.1 _

theorem properNames_transfer : ProperNames (transferPool inlined).files :=
  (transfer_checks h).2.2.1

theorem derivation_transfer :
    Derivation (transferPool inlined).files [] { enableCrf := true } (transferPlan inlined) := by
  obtain ⟨hpool, hlinked⟩ := Pool.load_eq_ok (load_transfer h)
  exact ⟨hlinked, (properNames_transfer h).simple, by decide, hpool ▸ plan_transfer h⟩

theorem exists_derived_transfer :
    ∃ mp decl, DerivesMessage (transferPool inlined).files [] (transferPlan inlined)
      (transfer inlined) mp decl ∧ mp.newFullName = ".p.TransferPlain" := by
  obtain ⟨hpool, -⟩ := Pool.load_eq_ok (load_transfer h)
  have hderivation := derivation_transfer h
  obtain ⟨-, -, -, hm, hgenerate, hrename, -⟩ := transfer_checks h
  obtain ⟨mp, decl, hd⟩ := hderivation.exists_derivesMessage (hpool ▸ hm) hgenerate
  exact ⟨mp, decl, hd, (hderivation.isPlanOf_of_derivesMessage hd).outlines.newFullName.trans hrename⟩

end Transfer

/-- A transfer whose card has digits keeps its number in the oneof. -/
theorem transfer_keeps_members :
    ∃ mp decl, DerivesMessage (transferPool "digits").files [] (transferPlan "digits")
        (transfer "digits") mp decl ∧
      (transfer "digits").copiedOneofs = [0] ∧ KeepsMembers (transfer "digits") mp decl := by
  obtain ⟨mp, decl, hd, hname⟩ := exists_derived_transfer (Or.inl rfl)
  obtain ⟨-, hiff, -⟩ := copied_oneofs_keep_members_iff (load_transfer (Or.inl rfl))
    (properNames_transfer (Or.inl rfl)) (by decide) (plan_transfer (Or.inl rfl)) hd
  obtain ⟨-, -, -, -, -, -, hcopied, -, hapart, -⟩ :=
    transfer_checks (Or.inl rfl : "digits" = "digits" ∨ "digits" = "number")
  refine ⟨mp, decl, hd, hcopied, hiff.mpr ?_⟩
  rw [hname]
  exact hapart rfl

/-- A transfer whose card has a number too loses its own number from the oneof: the two are merged
into the field of the card, which is in no oneof. -/
theorem number_leaves_its_oneof :
    ∃ mp decl, DerivesMessage (transferPool "number").files [] (transferPlan "number")
        (transfer "number") mp decl ∧
      (transfer "number").copiedOneofs = [0] ∧
      ((transfer "number").oneofFields 0).map (·.name) = ["number", "iban"] ∧
      declaredMembers mp decl 0 = [(["iban"], "iban")] ∧ ¬ KeepsMembers (transfer "number") mp decl := by
  obtain ⟨mp, decl, hd, hname⟩ := exists_derived_transfer (Or.inr rfl)
  obtain ⟨hpool, hlinked⟩ := Pool.load_eq_ok (load_transfer (Or.inr rfl))
  have hderivation := derivation_transfer (Or.inr rfl : "number" = "digits" ∨ "number" = "number")
  obtain ⟨-, -, -, -, -, -, hcopied, hfields, -, hfirst⟩ :=
    transfer_checks (Or.inr rfl : "number" = "digits" ∨ "number" = "number")
  have hmembers : declaredMembers mp decl 0 = [(["iban"], "iban")] := by
    rw [declaredMembers_eq hderivation hd (by rw [hcopied]; decide),
      (hderivation.isPlanOf_of_derivesMessage hd).paths_at hd.generated hd.source
        hderivation.plans.findings (namesFields_ofPool hlinked) (by rw [hcopied]; rfl), hname, ← hpool]
    exact hfirst rfl
  refine ⟨mp, decl, hd, hcopied, hfields, hmembers, fun hkeeps => ?_⟩
  have hall := (hkeeps 0 0 (by rw [hcopied]; rfl)).1
  have hlength := congrArg List.length (congrArg (List.map (·.2)) hall)
  have hnames := congrArg List.length hfields
  rw [hmembers] at hlength
  simp only [List.length_map] at hlength hnames
  rw [hnames] at hlength
  exact absurd hlength (by decide)

end PlainSchema
