import PlainSchema.Proofs.Schema.EmbedCycles

/-!
# Findings about cycles

The findings of a schema tell an embed cycle by their text, `IsCycleText`.  The text of every other
finding starts otherwise, `Schema.startOtherwise_checks`, so validation reports a cycle exactly if
the schema has one, `Schema.reportsCycle_iff`.
-/

namespace PlainSchema

open Proto Diagnostic

/-- What the text of a finding about a cycle starts with. -/
def cycleLabel : String :=
  "embed cycle: "

/-- The text of a finding about a cycle. -/
def IsCycleText (text : String) : Prop :=
  cycleLabel.toList <+: text.toList

instance (text : String) : Decidable (IsCycleText text) :=
  inferInstanceAs (Decidable (_ <+: _))

/-- A text that differs from the label of a cycle before one of the two ends. -/
def StartsOtherwise (text : String) : Prop :=
  ¬ cycleLabel.toList <+: text.toList ∧ ¬ text.toList <+: cycleLabel.toList

instance (text : String) : Decidable (StartsOtherwise text) :=
  inferInstanceAs (Decidable (_ ∧ _))

/-- All findings of a list start otherwise. -/
def StartOtherwise (findings : List Diagnostic) : Prop :=
  ∀ finding ∈ findings, StartsOtherwise finding.message

theorem EmbedCycle.isCycleText (cycle : EmbedCycle) : IsCycleText cycle.finding.message := by
  rw [IsCycleText, EmbedCycle.finding, Diagnostic.error, String.toList_append]
  exact List.prefix_append _ _

/-! ## Texts -/

theorem StartsOtherwise.append {text : String} (h : StartsOtherwise text) (rest : String) :
    StartsOtherwise (text ++ rest) := by
  have htext : text.toList <+: (text ++ rest).toList := by
    rw [String.toList_append]
    exact List.prefix_append _ _
  constructor
  · intro hlabel
    exact (List.prefix_or_prefix_of_prefix hlabel htext).elim h.1 h.2
  · exact fun hlabel => h.2 (htext.trans hlabel)

namespace StartOtherwise

variable {findings more : List Diagnostic} {condition : Bool} {subject text : String}

theorem nil : StartOtherwise [] :=
  fun _ h => absurd h List.not_mem_nil

theorem singleton {level : Level} (h : StartsOtherwise text) :
    StartOtherwise [⟨level, subject, text⟩] :=
  fun finding hfinding => by rw [List.mem_singleton.mp hfinding]; exact h

theorem append (h : StartOtherwise findings) (hmore : StartOtherwise more) :
    StartOtherwise (findings ++ more) :=
  fun finding hfinding => (List.mem_append.mp hfinding).elim (h finding) (hmore finding)

theorem flatMap {α : Type} {xs : List α} {f : α → List Diagnostic}
    (h : ∀ x ∈ xs, StartOtherwise (f x)) : StartOtherwise (xs.flatMap f) := by
  intro finding hfinding
  obtain ⟨x, hx, hfinding⟩ := List.mem_flatMap.mp hfinding
  exact h x hx finding hfinding

theorem flatten_mapIdx {α : Type} {xs : List α} {f : Nat → α → List Diagnostic}
    (h : ∀ i x, StartOtherwise (f i x)) : StartOtherwise (xs.mapIdx f).flatten := by
  intro finding hfinding
  obtain ⟨found, hfound, hfinding⟩ := List.mem_flatten.mp hfinding
  obtain ⟨i, hi, rfl⟩ := List.mem_mapIdx.mp hfound
  exact h i _ finding hfinding

theorem errorIf (h : StartsOtherwise text) :
    StartOtherwise (Diagnostic.errorIf condition subject text) := by
  rw [Diagnostic.errorIf]
  split
  · exact .singleton h
  · exact .nil

theorem warnIf (h : StartsOtherwise text) :
    StartOtherwise (Diagnostic.warnIf condition subject text) := by
  rw [Diagnostic.warnIf]
  split
  · exact .singleton h
  · exact .nil

end StartOtherwise

/-! ## The other findings -/

theorem startOtherwise_selectorFindings (subject : String) (selector : Option Selector) :
    StartOtherwise (selectorFindings subject selector) := by
  cases selector with
  | none => exact .singleton (by decide)
  | some selector =>
    exact .append (.append (.errorIf (by decide))
      (.errorIf (.append (by decide) _))) (.errorIf (.append (by decide) _))

theorem SourceFile.startOtherwise_findings (file : SourceFile) : StartOtherwise file.findings :=
  .flatten_mapIdx fun _ _ =>
    .append (startOtherwise_selectorFindings _ _) (.errorIf (by decide))

theorem startOtherwise_virtualKindFindings (schema : Schema) (m : SourceMessage) (subject : String)
    (field : VirtualField) : StartOtherwise (virtualKindFindings schema m subject field) := by
  have hunresolved : StartOtherwise
      [error subject ("type_ref " ++ Text.quoted field.typeRef ++ " does not resolve")] :=
    .singleton (.append (.append (by decide) _) _)
  rw [virtualKindFindings]
  split
  · exact .singleton (by decide)
  · split
    · exact .singleton (.append (by decide) _)
    · exact .singleton (by decide)
    · exact .nil
    · split
      · exact .singleton (by decide)
      · split
        · exact .nil
        · exact hunresolved
    · split
      · exact .singleton (by decide)
      · split
        · exact .nil
        · exact hunresolved

theorem startOtherwise_virtualFieldFindings (schema : Schema) (m : SourceMessage) (subject : String)
    (field : VirtualField) : StartOtherwise (virtualFieldFindings schema m subject field) :=
  .append (.append (.errorIf (by decide)) (.errorIf (by decide)))
    (startOtherwise_virtualKindFindings schema m subject field)

namespace SourceMessage

theorem startOtherwise_virtualFieldsFindings (schema : Schema) (m : SourceMessage) :
    StartOtherwise (m.virtualFieldsFindings schema) :=
  have hnumber : ∀ number : String, StartsOtherwise ("number " ++ number) :=
    fun number => .append (by decide) number
  .flatten_mapIdx fun _ _ =>
    .append (.append (.append (startOtherwise_virtualFieldFindings schema m _ _)
      (.errorIf ((hnumber _).append _))) (.errorIf ((hnumber _).append _)))
      (.errorIf (.append (by decide) _))

theorem startOtherwise_virtualTypesFindings (schema : Schema) (m : SourceMessage) :
    StartOtherwise (m.virtualTypesFindings schema) := by
  have hfields : ∀ subject fields, StartOtherwise (m.virtualTypeFindings schema subject fields) :=
    fun _ _ => .flatten_mapIdx fun _ _ => .append
      (startOtherwise_virtualFieldFindings schema m _ _)
      (.errorIf (.append (.append (by decide) _) _))
  exact .flatten_mapIdx fun _ _ => .append (.append (.errorIf (by decide))
    (.errorIf (.append (by decide) _))) (hfields _ _)

theorem startOtherwise_embedFindings (schema : Schema) (m : SourceMessage) (subject : String)
    (field : SourceField) : StartOtherwise (m.embedFindings schema subject field) := by
  rw [embedFindings]
  split
  · exact .nil
  · refine .append ?_ (.errorIf (by decide))
    split
    · exact .singleton (by decide)
    · split
      · exact .singleton (by decide)
      · exact .errorIf (by decide)

theorem startOtherwise_fieldFindings (schema : Schema) (m : SourceMessage) (field : SourceField) :
    StartOtherwise (m.fieldFindings schema field) := by
  refine .append (.append (.append (.append (.append (.append (.append ?_ ?_) ?_) ?_) ?_) ?_) ?_)
    (.flatMap fun _ _ => .warnIf (.append (.append (by decide) _) _))
  · exact .errorIf (by decide)
  · exact startOtherwise_embedFindings schema m _ field
  · exact .errorIf (by decide)
  · exact .errorIf (by decide)
  · exact .errorIf (by decide)
  · exact .errorIf (by decide)
  · exact .warnIf (by decide)

theorem startOtherwise_oneofFindings (m : SourceMessage) (index : Nat) (oneof : SourceOneof) :
    StartOtherwise (m.oneofFindings index oneof) := by
  rw [oneofFindings]
  split
  · exact .warnIf (by decide)
  · split
    · exact .append (.errorIf (.append (by decide) _))
        (.flatten_mapIdx fun _ _ => .errorIf (.append (.append (by decide) _) _))
    · exact .nil

theorem startsOtherwise_aliasError (reason : AliasError) : StartsOtherwise reason.message := by
  cases reason with
  | mapEntry => decide
  | fieldCount count => exact .append (by decide) _
  | fieldName expected found =>
    exact .append (.append (.append (by decide) _) _) _
  | repeatedField => decide
  | notScalar kind => exact .append (by decide) _

theorem startOtherwise_findings (schema : Schema) (m : SourceMessage) :
    StartOtherwise (m.findings schema) := by
  refine .append (.append (.append ?_ ?_) (.flatMap fun field _ =>
    startOtherwise_fieldFindings schema m field)) (.flatten_mapIdx (startOtherwise_oneofFindings m))
  · split
    · exact .errorIf (startsOtherwise_aliasError _)
    · exact .nil
  · split
    · exact .append (startOtherwise_virtualTypesFindings schema m)
        (startOtherwise_virtualFieldsFindings schema m)
    · split
      · exact .nil
      · exact .singleton (by decide)

end SourceMessage

/-! ## Reported cycles -/

theorem EmbedCycle.mem_of_mem_firsts {cycle : EmbedCycle} {cycles : List EmbedCycle}
    (h : cycle ∈ firsts cycles) : cycle ∈ cycles := by
  induction cycles with
  | nil => exact h
  | cons first cycles ih =>
    rw [firsts] at h
    rcases List.mem_cons.mp h with rfl | h
    · exact List.mem_cons_self
    · exact List.mem_cons_of_mem _ (ih (List.mem_filter.mp h).1)

namespace Schema

variable {schema : Schema}

/-- A finding of the schema with the text of a cycle is about a cycle of the schema. -/
theorem exists_cycle_of_isCycleText {finding : Diagnostic} (h : finding ∈ schema.findings)
    (htext : IsCycleText finding.message) :
    ∃ cycle ∈ schema.embedCycles, finding = cycle.finding := by
  rw [Schema.findings, Diagnostic.sorted] at h
  rcases List.mem_append.mp (mem_sortBy.mp (of_mem_eraseReps h)) with h | h
  · exfalso
    have hothers : StartOtherwise
        (schema.files.flatMap (·.findings) ++ schema.messages.flatMap (·.findings schema)) :=
      .append (.flatMap fun file _ => file.startOtherwise_findings)
        (.flatMap fun m _ => m.startOtherwise_findings schema)
    exact (hothers finding h).1 htext
  · obtain ⟨cycle, hcycle, rfl⟩ := List.mem_map.mp h
    exact ⟨cycle, EmbedCycle.mem_of_mem_firsts hcycle, rfl⟩

/-- If a cycle is met, one is reported. -/
theorem exists_finding_of_embedCycles (h : schema.embedCycles ≠ []) :
    ∃ cycle : EmbedCycle, cycle.finding ∈ schema.findings := by
  cases hcycles : schema.embedCycles with
  | nil => exact absurd hcycles h
  | cons first cycles =>
    refine ⟨first, mem_eraseReps (mem_sortBy.mpr (List.mem_append_right _ ?_))⟩
    rw [hcycles, EmbedCycle.firsts]
    exact List.mem_cons_self

/-- Validation reports a cycle exactly if the schema has one. -/
theorem reportsCycle_iff (hdots : schema.HasDottedRefs) :
    (∃ finding ∈ schema.findings, finding.isError ∧ IsCycleText finding.message) ↔
      schema.HasEmbedCycle := by
  constructor
  · rintro ⟨finding, hfinding, -, htext⟩
    obtain ⟨cycle, hcycle, -⟩ := exists_cycle_of_isCycleText hfinding htext
    obtain ⟨root, hroot, hgenerate, hcycle⟩ := isCycle_of_mem_embedCycles hdots hcycle
    exact hcycle.hasEmbedCycle hroot hgenerate
  · intro h
    obtain ⟨cycle, hcycle⟩ := exists_finding_of_embedCycles (embedCycles_ne_nil hdots h)
    exact ⟨cycle.finding, hcycle, rfl, cycle.isCycleText⟩

end Schema

end PlainSchema
