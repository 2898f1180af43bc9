import PlainSchema.Proofs.Plan.Oneofs
import PlainSchema.Proofs.Schema.Types
import PlainSchema.Proofs.Schema.Valid
import PlainSchema.Proofs.Text.Split
import PlainSchema.Proofs.Value.Fields

/-!
# The members of the oneofs of a plan

The oneofs of a plan have distinct names, `SourceMessage.IsPlanOf.oneof?_name`, and the members of one
oneof have distinct names too.  No two members of a oneof that is replaced by a discriminator have an
enum value in common, `SourceMessage.IsPlanOf.eq_of_withEnums`.
-/

namespace PlainSchema

open Proto

namespace SourceMessage.IsPlanOf

variable {schema : Schema} {settings : Settings} {renames : Renames} {m : SourceMessage}
  {mp : MessagePlan} {oneof : OneofPlan}

theorem map_name_oneofs (h : m.IsPlanOf schema settings renames mp) (hgenerate : mp.generate) :
    mp.oneofs.map (·.name) = m.oneofs.map (·.name) := by
  have hgenerates := h.outlines.generate
  obtain ⟨outlined, houtlined, rfl⟩ := h
  rw [SourceMessage.IsOutlinedAs, if_pos (hgenerates ▸ hgenerate)] at houtlined
  change outlined.oneofs.map (·.name) = _
  rw [houtlined.oneofs]
  refine List.ext_getElem? fun i => ?_
  rw [List.getElem?_map, List.getElem?_map, List.getElem?_mapIdx]
  cases honeof : m.oneofs[i]? with
  | none => rfl
  | some oneof =>
    rw [Option.map_some, Option.map_some, Option.map_some]
    cases hlookup : (expandFields (PlanContext.ofFile schema m.file) m
        (MessagePlan.outline renames m).newFullName).oneofs.lookup i with
    | none => simp [SourceMessage.untouchedPlan, SourceMessage.oneof?, honeof]
    | some found =>
      have hplans := plansOneof_expandFields (i, found) (mem_of_lookup hlookup)
      rw [Option.getD_some, hplans.name honeof]

/-- The name of a oneof belongs to it alone. -/
theorem oneof?_name (h : m.IsPlanOf schema settings renames mp) (hgenerate : mp.generate)
    (hnames : (m.oneofs.map (·.name)).Nodup) (honeof : oneof ∈ mp.oneofs) :
    mp.oneof? oneof.name = some oneof := by
  rw [← h.map_name_oneofs hgenerate] at hnames
  exact find?_eq_some_of_nodup hnames honeof

theorem members_nodup (h : m.IsPlanOf schema settings renames mp) (hgenerate : mp.generate)
    (hnames : (m.fields.map (·.name)).Nodup) (honeof : oneof ∈ mp.oneofs) :
    (oneof.members.map (·.name)).Nodup := by
  obtain ⟨index, -, -, -, hplans⟩ := h.exists_plansOneof hgenerate honeof
  rw [hplans.members, SourceMessage.oneofMembers, List.map_map]
  exact hnames.sublist (List.Sublist.map _ List.filter_sublist)

/-- The enum values of members are full names without leading dots. -/
theorem trimFront_of_withEnums (h : m.IsPlanOf schema settings renames mp) (hgenerate : mp.generate)
    (honeof : oneof ∈ mp.oneofs) {member : OneofMember} (hmember : member ∈ oneof.members)
    {value : String} (hvalue : value ∈ member.withEnums) : Text.trimFront value '.' = value := by
  obtain ⟨index, -, -, -, hplans⟩ := h.exists_plansOneof hgenerate honeof
  rw [hplans.members] at hmember
  obtain ⟨field, -, rfl⟩ := List.mem_map.mp hmember
  obtain ⟨name, -, rfl⟩ := List.mem_map.mp hvalue
  exact trimFront_trimFront name '.'

/-- The fields of two members of a oneof exclude each other. -/
theorem excludes_of_members (h : m.IsPlanOf schema settings renames mp) (hgenerate : mp.generate)
    {pool : Pool} {type : MessageType} (hviews : m.ViewsType pool type) (hlinked : type.Linked)
    (honeof : oneof ∈ mp.oneofs) {first second : OneofMember} (hfirst : first ∈ oneof.members)
    (hsecond : second ∈ oneof.members) {field other : Field}
    (hfield : type.field? first.name = some field) (hother : type.field? second.name = some other)
    (hne : field.number ≠ other.number) : field.Excludes other := by
  obtain ⟨index, -, -, -, hplans⟩ := h.exists_plansOneof hgenerate honeof
  have hindex : ∀ {member : OneofMember} {field : Field}, member ∈ oneof.members →
      type.field? member.name = some field → field.oneof = some index := by
    intro member field hmember hfield
    obtain ⟨sourceField, hsource, hname, hindex⟩ := hplans.exists_field hmember
    obtain ⟨found, -, rfl, hfind⟩ := hviews.exists_field hlinked hsource
    rw [hname, hfield] at hfind
    obtain rfl := Option.some.inj hfind
    exact hindex
  exact ⟨hne, index, hindex hfirst hfield, hindex hsecond hother⟩

end SourceMessage.IsPlanOf

/-! ## Enum values of members -/

/-- In a list of distinct parts every element is in one part only. -/
theorem eq_of_mem_flatMap_nodup {α β : Type} {f : α → List β} {xs : List α}
    (h : (xs.flatMap f).Nodup) {a b : α} (ha : a ∈ xs) (hb : b ∈ xs) {y : β} (hya : y ∈ f a)
    (hyb : y ∈ f b) : a = b := by
  by_contra hne
  obtain ⟨-, hdisjoint⟩ := List.nodup_flatMap.mp h
  have : Std.Symm (Function.onFun List.Disjoint f) := ⟨fun _ _ h _ hy hy' => h hy' hy⟩
  exact hdisjoint.forall ha hb hne hya hyb

/-- Without findings about the members of a discriminated oneof their enum values are distinct. -/
theorem nodup_of_discriminatorFindings (subject : String) {members : List SourceField}
    (h : ∀ finding ∈ SourceMessage.discriminatorFindings subject members, ¬ finding.isError) :
    ((members.flatMap (·.options.withEnums)).map (Text.trimFront · '.')).Nodup := by
  rw [List.nodup_iff_getElem?_ne_getElem?]
  intro i j hij hj heq
  rw [List.length_map] at hj
  have hi : i < (members.flatMap (·.options.withEnums)).length := by omega
  rw [List.getElem?_map, List.getElem?_map, List.getElem?_eq_getElem hi,
    List.getElem?_eq_getElem hj] at heq
  -- The later one of two equal values would be found.
  have hnone := not_of_errorIf fun finding hfinding =>
    h finding (List.mem_append_right _ (List.mem_flatten.mpr
      ⟨_, List.mem_mapIdx.mpr ⟨j, hj, rfl⟩, hfinding⟩))
  rw [List.any_eq_false] at hnone
  refine hnone _ (List.mem_take_iff_getElem.mpr ⟨i, by omega, rfl⟩) ?_
  exact beq_iff_eq.mpr (Option.some.inj heq)

/-- The enum values of the members of a discriminated oneof are distinct in a schema without errors. -/
theorem Schema.nodup_withEnums {schema : Schema} {m : SourceMessage} (hm : m ∈ schema.messages)
    (hfindings : ∀ finding ∈ schema.findings, ¬ finding.isError) {index : Nat} {oneof : SourceOneof}
    (honeof : m.oneof? index = some oneof) (hstrategy : m.strategy index = .discriminatorOnly) :
    ((m.oneofFields index).flatMap fun field =>
      field.options.withEnums.map (Text.trimFront · '.')).Nodup := by
  have hreal : oneof.synthetic = false := by
    by_contra hsynthetic
    rw [Bool.not_eq_false] at hsynthetic
    rw [SourceMessage.strategy, honeof] at hstrategy
    simp [hsynthetic] at hstrategy
  rw [← List.map_flatMap]
  refine nodup_of_discriminatorFindings (m.fullName ++ ".oneof:" ++ oneof.name) ?_
  intro finding hfinding
  refine hfindings finding (Schema.mem_findings hm (List.mem_append_right _ ?_))
  obtain ⟨hindex, hget⟩ := List.getElem?_eq_some_iff.mp honeof
  refine List.mem_flatten.mpr ⟨_, List.mem_mapIdx.mpr ⟨index, hindex, rfl⟩, ?_⟩
  rw [SourceMessage.oneofFindings, hget, if_neg (by simp [hreal]), if_pos hstrategy]
  exact hfinding

/-- Two members of a oneof that a payload stands for have no enum value in common. -/
theorem SourceMessage.IsPlanOf.eq_of_withEnums {schema : Schema} {settings : Settings}
    {renames : Renames} {m : SourceMessage} {mp : MessagePlan} {oneof : OneofPlan}
    (h : m.IsPlanOf schema settings renames mp) (hgenerate : mp.generate)
    (hm : m ∈ schema.messages) (hfindings : ∀ finding ∈ schema.findings, ¬ finding.isError)
    (hnames : (m.oneofs.map (·.name)).Nodup) (honeof : oneof ∈ mp.oneofs) {plan : FieldPlan}
    (hplan : plan ∈ mp.fields) (hrole : plan.origin.role = some (.payload oneof.name))
    {first second : OneofMember} (hfirst : first ∈ oneof.members) (hsecond : second ∈ oneof.members)
    {value : String} (hvalue : value ∈ first.withEnums) (hvalue' : value ∈ second.withEnums) :
    first = second := by
  obtain ⟨index, found, hfound, hname, hplans⟩ := h.exists_plansOneof hgenerate honeof
  obtain ⟨index', found', hfound', hname', hstrategy⟩ := h.strategy_of_payload hgenerate hplan _ hrole
  obtain rfl : index = index' := by
    have hat : (m.oneofs.map (·.name))[index]? = some oneof.name := by
      rw [List.getElem?_map, show m.oneofs[index]? = some found from hfound, Option.map_some, hname]
    have hat' : (m.oneofs.map (·.name))[index']? = some oneof.name := by
      rw [List.getElem?_map, show m.oneofs[index']? = some found' from hfound', Option.map_some, hname']
    obtain ⟨hlt, -⟩ := List.getElem?_eq_some_iff.mp hat
    exact (List.getElem?_inj hlt hnames).mp (hat.trans hat'.symm)
  rw [hplans.members] at hfirst hsecond
  obtain ⟨field, hfield, rfl⟩ := List.mem_map.mp hfirst
  obtain ⟨other, hother, rfl⟩ := List.mem_map.mp hsecond
  rw [eq_of_mem_flatMap_nodup (Schema.nodup_withEnums hm hfindings hfound hstrategy) hfield hother
    hvalue hvalue']

end PlainSchema
