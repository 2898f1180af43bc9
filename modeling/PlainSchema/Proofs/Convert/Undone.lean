import PlainSchema.Proofs.Convert.Held
import PlainSchema.Proofs.Convert.Payloads
import PlainSchema.Proofs.Value.Written

/-!
# The way back is free

Everything that is written on the way back is written to a place where the message that was converted
holds a value.  As that message holds one member of each oneof at most, and the places of different
fields are apart, no write meets a conflict and every write goes through,
`Restoring.Undoes.exists_run`.
-/

namespace PlainSchema

open Proto

namespace Restoring

variable {c : Restoring} {fillers casters : Casters (Value → Except String Value)}
  {there : ConvertNested}  {x out : Message} {type : MessageType} {schema : Schema} {settings : Settings} {renames : Renames}
  {source : SourceMessage} {plan : FieldPlan} {before after : List FieldPlan} {selection : Selection}

/-- A selected member takes its default. -/
theorem exists_ensureSelected (c : Restoring) (out : Message) (member : OneofMember) :
    ∃ out', c.ensureSelected out member = .ok out' ∧ out'.type = out.type := by
  rw [ensureSelected]
  split
  · exact ⟨out, rfl, rfl⟩
  · next field _ =>
    split
    · exact ⟨out, rfl, rfl⟩
    · refine ⟨out.set c.type field (c.source.defaultOf field.type), ?_, Message.type_set _ _ _ _⟩
      rw [setField, Message.set?, if_pos (accepts_defaultOf c.source field)]

namespace Undoes

variable (hc : c.Undoes fillers there x type casters schema settings renames source)

include hc

/-- What is written back goes to a place where the converted message holds a value. -/
theorem isSome_at?_of_writesThrough (hselection : c.SelectsPopulated x selection)
    (hplan : plan ∈ c.plan.fields) {written : List String}
    (h : c.WritesThrough selection plan written) : (x.at? c.source written).isSome := by
  cases h with
  | value hreversible hadapted =>
    obtain ⟨result, hresult, hfrom⟩ := hc.exists_adapted hselection hplan hreversible
    obtain rfl := Except.ok.inj (hresult.symm.trans hadapted)
    obtain ⟨leaf, found, hread, -⟩ := hfrom _ rfl
    rw [Message.at?_of_read? hread]
    rfl
  | payload hrole honeof hholds =>
    obtain ⟨bytes, payload, index, hvalue, hdecode, hindex, hmember⟩ := hholds
    obtain ⟨found, hfound, hpayload⟩ := hc.exists_payload hplan hrole hvalue
    obtain rfl := Option.some.inj (hdecode.symm.trans hfound)
    obtain ⟨hpopulates, -⟩ := hpayload _ honeof _ ⟨index, hindex, hmember⟩
    obtain ⟨field, hfield, hset⟩ := exists_of_hasNamed hc.typed hpopulates.hasNamed.2
    rw [Message.at?_singleton, Message.stored?_eq hc.typed hfield]
    exact isSome_of_has hset

section Step

variable (hselection : c.SelectsPopulated x selection)
  (hsplit : c.plan.fields = before ++ plan :: after)
  (hbefore : before.foldlM (c.restoreField selection) { type := c.type.fullName } = .ok out)
  (hreversible : plan.isReversible) {write : Write}
  (hadapted : c.adapted selection plan = .ok (some write))

include hselection hsplit hbefore hreversible hadapted

omit hselection hbefore in
theorem apart_of_before {earlier : FieldPlan} (hearlier : earlier ∈ before) {written : List String}
    (h : c.WritesThrough selection earlier written) : Apart write.path written :=
  hc.restores.apart_of_own hsplit hreversible hadapted (Or.inl hearlier) h (hc.not_strays plan)
    (hc.not_strays earlier)

omit hselection in
/-- Along a path that is still to be written the messages are of the types that it leads through. -/
theorem typedAlong_of_before {front : List String} (hfront : front <+: write.path) :
    TypedAlong c.source c.type out front := by
  refine typedAlong_foldlM_restoreField hc.restores.linked (TypedAlong.new hc.restores.found front) ?_
    hbefore
  intro earlier hearlier written hwrites hwritten
  exact (hc.apart_of_before hsplit hreversible hadapted hearlier hwrites).2 (hwritten.trans hfront)

omit hselection in
/-- Nothing but messages stand on the way to a place that is still to be written. -/
theorem exists_message_of_before {front : List String} {found : Value} (hne : front ≠ [])
    (hfront : front <+: write.path) (hat : out.at? c.source front = some found) :
    ∃ inner, found = .message inner := by
  obtain ⟨earlier, hearlier, written, hwrites, hinside | ⟨-, hmessage⟩⟩ :=
    holdsWritten_foldlM hc.restores.linked hc.restores.found hbefore front found hne hat
  · exact absurd (hinside.trans hfront)
      (hc.apart_of_before hsplit hreversible hadapted hearlier hwrites).2
  · exact hmessage

/-- No message along a path that is still to be written holds another member of a oneof on it. -/
theorem pathConflict?_of_before : pathConflict? c.source false out write.path = none := by
  obtain ⟨result, hresult, hfrom⟩ :=
    hc.exists_adapted hselection (by simp [hsplit]) hreversible
  obtain rfl := Except.ok.inj (hresult.symm.trans hadapted)
  obtain ⟨leaf, found, hread, hresolve, -⟩ := hfrom write rfl
  refine pathConflict?_eq_none fun front right inner innerType field hpath hbelow hinner hinnerType
    hfield => ?_
  have hfrontPath : front <+: write.path := (List.prefix_append _ _).trans hpath
  obtain ⟨next, nextField, hnext, hnextField⟩ := Pool.exists_typeAt? hresolve hpath
  obtain rfl := Option.some.inj (hinnerType.symm.trans
    ((hc.typedAlong_of_before hsplit hbefore hreversible hadapted hfrontPath).type?_eq hinner hnext))
  have hlinked := hc.restores.linked innerType (Pool.message?_mem hinnerType).1
  refine siblingConflict?_of_not_has fun other hother hexcludes => ?_
  by_contra hset
  obtain ⟨value, hvalue⟩ := Option.isSome_iff_exists.mp (isSome_of_has (by simpa using hset))
  have hotherField := hlinked.field?_name hother
  have hat : out.at? c.source (front ++ [other.name]) = some value := by
    rw [Message.at?_append hinner, Message.at?_singleton, Message.stored?_eq hinnerType hotherField]
    exact hvalue
  -- The converted message holds both members.
  obtain ⟨earlier, hearlier, written, hwrites, hbelongs⟩ :=
    holdsWritten_foldlM hc.restores.linked hc.restores.found hbefore _ value (by simp) hat
  have hapart := hc.apart_of_before hsplit hreversible hadapted hearlier hwrites
  have hwritten := hc.isSome_at?_of_writesThrough hselection
    (by simp [hsplit, hearlier] : earlier ∈ c.plan.fields) hwrites
  have hright : (x.at? c.source (front ++ [right])).isSome :=
    Message.isSome_at?_of_prefix hpath (by rw [Message.at?_of_read? hread]; rfl)
  have hleft : (x.at? c.source (front ++ [other.name])).isSome := by
    rcases hbelongs with hinside | ⟨houtside, -⟩
    · rcases List.prefix_concat_iff.mp hinside with heq | hfront
      · exact heq ▸ hwritten
      · exact absurd (hfront.trans hfrontPath) hapart.2
    · exact Message.isSome_at?_of_prefix houtside hwritten
  exact hc.wellTyped.not_both hc.typed hnext hright hleft hfield hotherField hexcludes

/-- A field that is set is put back. -/
theorem exists_commit : ∃ out', c.commit plan.shape.name out write = .ok out' := by
  obtain ⟨result, hresult, hfrom⟩ :=
    hc.exists_adapted hselection (by simp [hsplit]) hreversible
  obtain rfl := Except.ok.inj (hresult.symm.trans hadapted)
  obtain ⟨leaf, found, hread, hresolve, hfits⟩ := hfrom write rfl
  have htyped := hc.typedAlong_of_before hsplit hbefore hreversible hadapted (List.prefix_refl _)
  obtain ⟨out', hout⟩ := Message.exists_writeIn? htyped hresolve hfits.accepts
    fun front found hne hfront _ hat =>
      hc.exists_message_of_before hsplit hbefore hreversible hadapted hne hfront hat
  refine ⟨out', ?_⟩
  rw [commit, hc.pathConflict?_of_before hselection hsplit hbefore hreversible hadapted]
  simp only [Message.write?_eq htyped.type?, hresolve, Option.bind_some, hfits.accepts,
    hfits.sameType, Bool.and_self, if_true, hout]

end Step

/-- Every plan is put back after the ones before it. -/
theorem exists_restoreField (hselection : c.SelectsPopulated x selection)
    (hsplit : c.plan.fields = before ++ plan :: after)
    (hbefore : before.foldlM (c.restoreField selection) { type := c.type.fullName } = .ok out) :
    ∃ out', c.restoreField selection out plan = .ok out' := by
  have hplan : plan ∈ c.plan.fields := by simp [hsplit]
  by_cases hreversible : plan.isReversible
  · obtain ⟨result, hadapted, -⟩ := hc.exists_adapted hselection hplan hreversible
    rw [restoreField_eq_restoreValue hreversible, restoreValue, hadapted]
    cases result with
    | none => exact ⟨out, rfl⟩
    | some write =>
      exact hc.exists_commit hselection hsplit hbefore hreversible hadapted
  · rw [restoreField]
    cases hrole : plan.origin.role with
    | none =>
      have hvirtual : plan.origin.isVirtual := by
        simpa [FieldPlan.isReversible, hrole] using hreversible
      exact ⟨out, if_pos hvirtual⟩
    | some role =>
      cases role with
      | payload oneof => exact hc.exists_restorePayload hplan hrole out
      | _ => exact ⟨out, rfl⟩

/-- **A Plain message that was made from a well-typed message is converted back without an error.** -/
theorem exists_run : ∃ m, c.run = .ok m ∧ m.type = c.type.fullName := by
  obtain ⟨selection, hselected, hselection⟩ := hc.exists_selectMembers
  have hfields : ∃ out, c.plan.fields.foldlM (c.restoreField selection) { type := c.type.fullName }
      = .ok out ∧ _ :=
    exists_foldlM
      (fun met out => met.foldlM (c.restoreField selection) { type := c.type.fullName } = .ok out) rfl
      fun met plan rest out hsplit hmet => by
        obtain ⟨out', hout'⟩ := hc.exists_restoreField hselection hsplit hmet
        have hnext : [plan].foldlM (c.restoreField selection) out = .ok out' :=
          foldlM_cons_eq_ok.mpr ⟨out', hout', rfl⟩
        exact ⟨out', hout', foldlM_append_eq_ok.mpr ⟨out, hmet, hnext⟩⟩
  obtain ⟨out, hout, -⟩ := hfields
  have hnew : Message.type? c.source { type := c.type.fullName } = some c.type := hc.restores.found
  have htype : out.type = c.type.fullName :=
    (Pool.message?_mem (type?_foldlM_restoreField hnew hout)).2.symm
  have hmembers : ∃ m, selection.foldlM (fun out selected => c.ensureSelected out selected.2) out
      = .ok m ∧ m.type = c.type.fullName :=
    exists_foldlM (fun _ (out : Message) => out.type = c.type.fullName) htype
      fun met selected rest out _ hmet => by
        obtain ⟨out', hout', hsame⟩ := c.exists_ensureSelected out selected.2
        exact ⟨out', hout', hsame.trans hmet⟩
  obtain ⟨m, hm, hlast⟩ := hmembers
  refine ⟨m, ?_, hlast⟩
  rw [Restoring.run, hselected]
  simp only [restoreStep_strict hc.restores.mode, hc.restores.mode, Mode.settle_strict]
  refine bind_eq_ok.mpr ⟨selection, rfl, bind_eq_ok.mpr ⟨out, hout, hm⟩⟩

end Undoes

end Restoring

end PlainSchema
