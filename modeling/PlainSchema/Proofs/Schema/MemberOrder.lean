import PlainSchema.Proofs.Schema.Types

/-!
# The order of the members of a oneof

There are two lists of the members of a oneof: the one that the oneof declares, and the fields of the
message that point at the oneof.  A pool lists the fields of a message by ascending number, so the two
lists have the same members, `takesByNumber_ofPool`, and the **same order exactly if the numbers of the
members ascend in the order of declaration**, `SourceMessage.TakesByNumber.names_eq_iff`.
-/

namespace PlainSchema

open Proto

namespace SourceMessage

/-- The fields of the members that a oneof declares, in the order of declaration. -/
def declaredFields (m : SourceMessage) (oneof : SourceOneof) : List SourceField :=
  oneof.members.filterMap m.field?

/-- The fields of a oneof are those of the declared members, by ascending number. -/
structure TakesByNumber (m : SourceMessage) (index : Nat) (oneof : SourceOneof) : Prop where
  names : (m.declaredFields oneof).map (·.name) = oneof.members
  members : (m.oneofFields index).Perm (m.declaredFields oneof)
  ascending : (m.oneofFields index).Pairwise (·.number < ·.number)

variable {m : SourceMessage} {index : Nat} {oneof : SourceOneof}

/-- Fields are found again by their names. -/
theorem filterMap_field? (hnames : (m.fields.map (·.name)).Nodup) {fields : List SourceField}
    (hfields : fields ⊆ m.fields) : (fields.map (·.name)).filterMap m.field? = fields := by
  rw [List.filterMap_map]
  refine (List.filterMap_congr fun field hfield => ?_).trans List.filterMap_some
  exact find?_eq_some_of_nodup hnames (hfields hfield)

/-- The members come in the order of declaration exactly if their numbers ascend in that order. -/
theorem TakesByNumber.names_eq_iff (h : m.TakesByNumber index oneof)
    (hnames : (m.fields.map (·.name)).Nodup) :
    (m.oneofFields index).map (·.name) = oneof.members ↔
      (m.declaredFields oneof).Pairwise (·.number < ·.number) := by
  constructor
  · intro heq
    have hsame : m.declaredFields oneof = m.oneofFields index := by
      rw [declaredFields, ← heq]
      exact filterMap_field? hnames (List.filter_subset_self _)
    exact hsame ▸ h.ascending
  · intro hdeclared
    -- Of the arrangements of some fields no more than one ascends.
    have hsame : m.oneofFields index = m.declaredFields oneof :=
      h.members.eq_of_pairwise (fun a b _ _ hab hba => absurd hab (Int.lt_asymm hba)) h.ascending
        hdeclared
    rw [hsame, h.names]

end SourceMessage

/-! ## Oneofs of a pool -/

section Pool

variable {files : List FileDecl} {generate : List String} {m : SourceMessage} {index : Nat}
  {oneof : SourceOneof}

/-- The fields of a type come by ascending number. -/
theorem pairwise_linkMessage {file : FileDecl} {d : DeclaredMessage}
    (hlinked : (linkMessage file d).Linked) :
    (linkMessage file d).fields.Pairwise (·.number < ·.number) := by
  have hsorted : (linkMessage file d).fields.Pairwise fun a b => decide (a.number ≤ b.number) :=
    pairwise_sortBy (by simpa using fun a b c => Nat.le_trans) (by simpa using fun a b => Nat.le_total _ _)
      (d.decl.fields.map (linkField file.dialect d.fullName))
  have hdistinct := List.pairwise_map.mp hlinked.numbers
  exact (hsorted.and hdistinct).imp fun h => Nat.lt_of_le_of_ne (of_decide_eq_true h.1) h.2

/-- The declared fields that point at a oneof. -/
def memberDecls (d : DeclaredMessage) (index : Nat) : List FieldDecl :=
  d.decl.fields.filter (·.oneofIndex == some (Int.ofNat index))

/-- The view of a declared field in the schema of a pool. -/
def viewOfDecl (pool : Pool) (dialect : Dialect) (d : DeclaredMessage) (decl : FieldDecl) :
    SourceField :=
  SourceField.ofField pool (OptionExtensions.ofPool pool) (linkField dialect d.fullName decl)

/-- A oneof lists the declared fields that point at it. -/
theorem members_ofType {pool : Pool} {known : OptionExtensions} {file : FileDecl}
    {d : DeclaredMessage}
    (honeof : (SourceMessage.ofType pool known (linkMessage file d)).oneof? index = some oneof) :
    oneof.members = (memberDecls d index).map (·.name) := by
  rw [SourceMessage.oneof?, SourceMessage.ofType, List.getElem?_map, linkMessage, linkOneofs,
    List.getElem?_mapIdx, Option.map_map] at honeof
  obtain ⟨decl, -, rfl⟩ := Option.map_eq_some_iff.mp honeof
  rfl

/-- The fields of a message that point at a oneof are the views of the declared ones. -/
theorem perm_oneofFields_ofType {pool : Pool} {file : FileDecl} {d : DeclaredMessage}
    (hfields : FieldsLinked files d) :
    ((SourceMessage.ofType pool (OptionExtensions.ofPool pool) (linkMessage file d)).oneofFields
      index).Perm ((memberDecls d index).map (viewOfDecl pool file.dialect d)) := by
  have hperm : (SourceMessage.ofType pool (OptionExtensions.ofPool pool)
      (linkMessage file d)).fields.Perm (d.decl.fields.map (viewOfDecl pool file.dialect d)) := by
    have hlinked := (sortBy_perm (fun a b : Field => a.number ≤ b.number)
      (d.decl.fields.map (linkField file.dialect d.fullName))).map
      (SourceField.ofField pool (OptionExtensions.ofPool pool))
    rwa [List.map_map] at hlinked
  refine (hperm.filter _).trans (List.Perm.of_eq ?_)
  rw [List.filter_map, memberDecls]
  refine congrArg _ (List.filter_congr fun decl hdecl => ?_)
  -- Indices of oneofs are natural numbers in a linked type, and a file declares them as integers.
  change (decl.oneofIndex.map Int.toNat == some index) = _
  cases hindex : decl.oneofIndex with
  | none => rfl
  | some i =>
    have hnonneg := (hfields.oneofs decl hdecl i hindex).1
    rw [Option.map_some, Bool.eq_iff_iff, beq_iff_eq, beq_iff_eq, Option.some_inj, Option.some_inj,
      Int.ofNat_eq_natCast]
    omega

/-- The fields of a oneof of a pool are those of the declared members, by ascending number. -/
theorem takesByNumber_ofPool (hlinked : FilesLinked files)
    (hm : m ∈ (Schema.ofPool (Pool.link files) generate).messages)
    (honeof : m.oneof? index = some oneof) : m.TakesByNumber index oneof := by
  have hnames := namesFields_ofPool hlinked m hm
  obtain ⟨file, hfile, d, hd, hview⟩ := (mem_schema_messages generate).mp hm
  have hfields := hlinked.messages file hfile d hd
  have hperm : (m.oneofFields index).Perm
      ((memberDecls d index).map (viewOfDecl (Pool.link files) file.dialect d)) :=
    hview ▸ perm_oneofFields_ofType hfields
  have hmembers : oneof.members
      = ((memberDecls d index).map (viewOfDecl (Pool.link files) file.dialect d)).map (·.name) := by
    rw [members_ofType (hview ▸ honeof), List.map_map]
    rfl
  have hdeclared : m.declaredFields oneof
      = (memberDecls d index).map (viewOfDecl (Pool.link files) file.dialect d) := by
    rw [SourceMessage.declaredFields, hmembers]
    refine SourceMessage.filterMap_field? hnames fun field hfield => ?_
    exact (List.mem_filter.mp (hperm.mem_iff.mpr hfield)).1
  refine ⟨hdeclared ▸ hmembers.symm, hdeclared ▸ hperm, List.Pairwise.filter _ ?_⟩
  rw [hview]
  refine List.pairwise_map.mpr ?_
  exact (pairwise_linkMessage (linkMessage_linked hfields)).imp Int.ofNat_lt.mpr

end Pool

end PlainSchema
