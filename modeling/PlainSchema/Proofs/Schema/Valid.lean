import Mathlib.Data.List.Flatten
import PlainSchema.Validate

/-!
# What validation rules out

A plan is made only for a schema without errors.  `SourceField.Valid` says what that means for one
field: which options exclude each other, and which kinds of fields an option can stand on.
-/

namespace PlainSchema

open Proto

/-! ## Findings -/

theorem mem_eraseReps_loop {α : Type} [BEq α] [LawfulBEq α] {x a : α} {rest found : List α}
    (h : x ∈ a :: rest ∨ x ∈ found) : x ∈ List.eraseRepsBy.loop (· == ·) a rest found := by
  induction rest generalizing a found with
  | nil =>
    rw [List.eraseRepsBy.loop, List.mem_reverse, List.mem_cons]
    exact h.imp_left List.mem_singleton.mp
  | cons next rest ih =>
    rw [List.eraseRepsBy.loop]
    split
    · next heq =>
      obtain rfl := eq_of_beq heq
      exact ih (h.imp_left fun hx => by simpa using hx)
    · refine ih ?_
      rcases h with hx | hx
      · rcases List.mem_cons.mp hx with rfl | hx
        · exact Or.inr List.mem_cons_self
        · exact Or.inl hx
      · exact Or.inr (List.mem_cons_of_mem _ hx)

theorem mem_eraseReps {α : Type} [BEq α] [LawfulBEq α] {x : α} {xs : List α} (h : x ∈ xs) :
    x ∈ xs.eraseReps := by
  cases xs with
  | nil => exact absurd h List.not_mem_nil
  | cons a rest => exact mem_eraseReps_loop (Or.inl h)

theorem of_mem_eraseReps_loop {α : Type} [BEq α] {x a : α} {rest found : List α}
    (h : x ∈ List.eraseRepsBy.loop (· == ·) a rest found) : x ∈ a :: rest ∨ x ∈ found := by
  induction rest generalizing a found with
  | nil =>
    rw [List.eraseRepsBy.loop, List.mem_reverse, List.mem_cons] at h
    exact h.imp_left List.mem_singleton.mpr
  | cons next rest ih =>
    rw [List.eraseRepsBy.loop] at h
    split at h
    · rcases ih h with hx | hx
      · rcases List.mem_cons.mp hx with rfl | hx
        · exact Or.inl List.mem_cons_self
        · exact Or.inl (List.mem_cons_of_mem _ (List.mem_cons_of_mem _ hx))
      · exact Or.inr hx
    · rcases ih h with hx | hx
      · exact Or.inl (List.mem_cons_of_mem _ hx)
      · rcases List.mem_cons.mp hx with rfl | hx
        · exact Or.inl List.mem_cons_self
        · exact Or.inr hx

theorem of_mem_eraseReps {α : Type} [BEq α] {x : α} {xs : List α} (h : x ∈ xs.eraseReps) :
    x ∈ xs := by
  cases xs with
  | nil => exact absurd h List.not_mem_nil
  | cons a rest => exact (of_mem_eraseReps_loop h).resolve_right List.not_mem_nil

/-- What is wrong with a message of a schema is wrong with the schema. -/
theorem Schema.mem_findings {schema : Schema} {m : SourceMessage} (hm : m ∈ schema.messages)
    {finding : Diagnostic} (h : finding ∈ m.findings schema) : finding ∈ schema.findings := by
  refine mem_eraseReps (mem_sortBy.mpr ?_)
  exact List.mem_append_left _ (List.mem_append_right _ (List.mem_flatMap.mpr ⟨m, hm, h⟩))

theorem not_of_errorIf {condition : Bool} {subject message : String}
    (h : ∀ finding ∈ Diagnostic.errorIf condition subject message, ¬ finding.isError) :
    condition = false := by
  cases condition with
  | false => rfl
  | true => exact absurd rfl (h (.error subject message) List.mem_cons_self)

/-- What is wrong with a field of a message of a schema is wrong with the schema. -/
theorem Schema.mem_findings_of_field {schema : Schema} {m : SourceMessage} (hm : m ∈ schema.messages)
    {field : SourceField} (hfield : field ∈ m.fields) {finding : Diagnostic}
    (h : finding ∈ m.fieldFindings schema field) : finding ∈ schema.findings := by
  refine Schema.mem_findings hm ?_
  rw [SourceMessage.findings]
  exact List.mem_append_left _ (List.mem_append_right _ (List.mem_flatMap.mpr ⟨field, hfield, h⟩))

/-! ## Messages -/

theorem Schema.message?_mem {schema : Schema} {name : String} {m : SourceMessage}
    (h : schema.message? name = some m) : m ∈ schema.messages :=
  List.mem_reverse.mp (List.mem_of_find?_eq_some h)

/-! ## Fields -/

/-- The options of a field of a message fit the field. -/
structure SourceField.Valid (schema : Schema) (m : SourceMessage) (field : SourceField) : Prop where
  exclusive : ¬ (field.options.serialize ∧ field.options.embeds)
  embedded : field.options.embeds → field.kind = .message ∧ field.isRepeated = false ∧
    ∃ target, field.typeRef.bind schema.message? = some target
  direct : field.options.embeds → m.options.generate → m.keepsOneofOf field = false
  serialized : field.options.serialize → field.kind = .message

/-- The fields of a schema without errors are valid. -/
theorem Schema.valid_field {schema : Schema} (hfindings : ∀ finding ∈ schema.findings, ¬ finding.isError)
    {m : SourceMessage} (hm : m ∈ schema.messages) {field : SourceField} (hfield : field ∈ m.fields) :
    field.Valid schema m := by
  have hnone : ∀ finding ∈ m.fieldFindings schema field, ¬ finding.isError :=
    fun finding h => hfindings finding (Schema.mem_findings_of_field hm hfield h)
  rw [SourceMessage.fieldFindings] at hnone
  simp only [List.mem_append, or_imp, forall_and] at hnone
  obtain ⟨⟨⟨⟨⟨⟨⟨hexclusive, hembed⟩, hserialize⟩, -⟩, -⟩, -⟩, -⟩, -⟩ := hnone
  have hembed : field.options.embeds → _ := fun hembeds => by
    rw [SourceMessage.embedFindings, if_neg (by simpa using hembeds)] at hembed
    exact hembed
  refine ⟨?_, fun hembeds => ?_, fun hembeds hgenerate => ?_, fun hserialized => ?_⟩
  · simpa using not_of_errorIf hexclusive
  · have hfirst := fun finding h => hembed hembeds finding (List.mem_append_left _ h)
    split at hfirst
    · exact absurd rfl (hfirst _ (List.mem_singleton_self _))
    · next hkind =>
      split at hfirst
      · exact absurd rfl (hfirst _ (List.mem_singleton_self _))
      · next hsingular =>
        have hfound := not_of_errorIf hfirst
        cases href : field.typeRef with
        | none => simp [href] at hfound
        | some type =>
          rw [href, Option.all_some, Option.isNone_eq_false_iff] at hfound
          obtain ⟨target, htarget⟩ := Option.isSome_iff_exists.mp hfound
          exact ⟨by simpa using hkind, by simpa using hsingular, target, htarget⟩
  · have hdirect := not_of_errorIf fun finding h => hembed hembeds finding (List.mem_append_right _ h)
    simpa [hgenerate] using hdirect
  · simpa [hserialized] using not_of_errorIf hserialize

/-! ## Aliases -/

/-- The shape of an alias: one scalar field with the name that the options give. -/
structure SourceMessage.WrapsScalar (m : SourceMessage) (wrapper : Alias) (field : SourceField) :
    Prop where
  plain : m.isMapEntry = false
  fields : m.fields = [field]
  single : field.isRepeated = false
  scalar : field.kind.isScalar
  wrapper : wrapper = { message := m.fullName, field := field.name, kind := field.kind }

theorem SourceMessage.exists_wrapsScalar {m : SourceMessage} {wrapper : Alias}
    (h : m.alias? = some wrapper) : ∃ field, m.WrapsScalar wrapper field := by
  rw [SourceMessage.alias?] at h
  split at h
  · rw [SourceMessage.aliasShape] at h
    split at h
    · exact absurd h nofun
    · next hplain =>
      split at h
      · next field hfields =>
        split at h
        · exact absurd h nofun
        · split at h
          · exact absurd h nofun
          · next hsingle =>
            split at h
            · exact absurd h nofun
            · next hscalar =>
              exact ⟨field, by simpa using hplain, hfields, by simpa using hsingle,
                by simpa using hscalar, (Option.some.inj h).symm⟩
      · exact absurd h nofun
  · exact absurd h nofun

/-- An alias of a schema is the shape of one of its messages. -/
theorem Schema.exists_wrapsScalar {schema : Schema} {name : String} {wrapper : Alias}
    (h : schema.alias? name = some wrapper) : ∃ m ∈ schema.messages, m.fullName = name ∧
      ∃ field, m.WrapsScalar wrapper field := by
  rw [Schema.alias?] at h
  obtain ⟨m, hm, halias⟩ := List.mem_filterMap.mp (List.mem_reverse.mp (List.mem_of_find?_eq_some h))
  obtain ⟨field, hwraps⟩ := SourceMessage.exists_wrapsScalar halias
  have hname : wrapper.message = name := by simpa using List.find?_some h
  rw [hwraps.wrapper] at hname
  exact ⟨m, hm, hname, field, hwraps⟩

end PlainSchema
