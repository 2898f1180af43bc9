import PlainSchema.Proofs.Plan.Planned
import PlainSchema.Proofs.Schema.Scopes

/-!
# The counterparts of declarations

`plainMessage` is what a message of a scope becomes in the derived files.  A message that is not
generated keeps its name and its fields; a generated one is declared anew from its plan.  Either
way its nested messages are the counterparts of the nested messages of the source, possibly with
more behind them, and its full name is the renamed full name, `Derivation.rename_message`.
-/

namespace PlainSchema

open Proto

/-! ## What becomes of a message -/

section Plain

variable (plan : SchemaPlan) (dialect : Dialect) (entries : List (String × MessageDecl))

/-- The counterpart of a message of a scope. -/
def plainMessage (scope : String) (m : MessageDecl) : MessageDecl :=
  retargetMessage plan.renames (replaceMessage plan dialect entries scope m)

/-- The counterparts of the messages of a scope. -/
def plainMessages (scope : String) (ms : List MessageDecl) : List MessageDecl :=
  ms.map (plainMessage plan dialect entries scope)

theorem retargetMessages_eq_map (renames : Renames) (ms : List MessageDecl) :
    retargetMessages renames ms = ms.map (retargetMessage renames) := by
  induction ms with
  | nil => rfl
  | cons m ms ih => rw [retargetMessages, ih, List.map_cons]

theorem replaceMessages_eq_map (scope : String) (ms : List MessageDecl) :
    replaceMessages plan dialect entries scope ms
      = ms.map (replaceMessage plan dialect entries scope) := by
  induction ms with
  | nil => rfl
  | cons m ms ih => rw [replaceMessages, ih, List.map_cons]

theorem retarget_replaceMessages (scope : String) (ms : List MessageDecl) :
    retargetMessages plan.renames (replaceMessages plan dialect entries scope ms)
      = plainMessages plan dialect entries scope ms := by
  rw [retargetMessages_eq_map, replaceMessages_eq_map, List.map_map]
  rfl

theorem retargetMessage_eq (renames : Renames) (m : MessageDecl) :
    retargetMessage renames m
      = { m with
        fields := m.fields.map renames.retargetField
        messages := retargetMessages renames m.messages
        extensions := m.extensions.map renames.retargetField } := by
  cases m
  rw [retargetMessage]

theorem replaceMessage_eq (scope : String) (m : MessageDecl) :
    replaceMessage plan dialect entries scope m
      = match plan.message? (inScope scope m.name) with
        | some p =>
          if p.generate then
            p.declare dialect entries { m with
              messages := replaceMessages plan dialect entries (inScope scope m.name) m.messages }
          else { m with
            messages := replaceMessages plan dialect entries (inScope scope m.name) m.messages }
        | none => { m with
          messages := replaceMessages plan dialect entries (inScope scope m.name) m.messages } := by
  cases m
  rw [replaceMessage]
  rfl

/-- A message that is not generated keeps everything but the names it refers to. -/
theorem plainMessage_kept {scope : String} {m : MessageDecl} {mp : MessagePlan}
    (hmp : plan.message? (inScope scope m.name) = some mp) (hkept : ¬ mp.generate) :
    plainMessage plan dialect entries scope m
      = { m with
        fields := m.fields.map plan.renames.retargetField
        messages := plainMessages plan dialect entries (inScope scope m.name) m.messages
        extensions := m.extensions.map plan.renames.retargetField } := by
  rw [plainMessage, replaceMessage_eq, hmp]
  dsimp only
  rw [if_neg hkept, retargetMessage_eq, retarget_replaceMessages]

/-- A generated message is declared from its plan. -/
theorem plainMessage_generated {scope : String} {m : MessageDecl} {mp : MessagePlan}
    (hmp : plan.message? (inScope scope m.name) = some mp) (hgenerate : mp.generate) :
    plainMessage plan dialect entries scope m
      = retargetMessage plan.renames (mp.declare dialect entries { m with
          messages := replaceMessages plan dialect entries (inScope scope m.name) m.messages }) := by
  rw [plainMessage, replaceMessage_eq, hmp]
  dsimp only
  rw [if_pos hgenerate]

/-! ## Nested declarations -/

/-- Declaring fields only adds nested messages, all of which are copies of map entries. -/
theorem declareFields_nested (newFullName : String) (nested : List MessageDecl)
    (shapes : List FieldShape) :
    ∃ copies, (declareFields dialect entries newFullName nested shapes).2 = nested ++ copies ∧
      ∀ copy ∈ copies, ∃ shape ∈ shapes, ∃ entry, copy = { entry with name := entryName shape.name } ∧
        entryNamed? entries (shape.typeRef.getD "") = some entry ∧ shape.isMap := by
  induction shapes generalizing nested with
  | nil => exact ⟨[], by simp [declareFields], by simp⟩
  | cons shape shapes ih =>
    have hplace : ∃ first, (if shape.isMap then placeEntry entries newFullName nested shape
        else ((shape.declare dialect).typeRef, nested)).2 = nested ++ first ∧
        ∀ copy ∈ first, ∃ entry, copy = { entry with name := entryName shape.name } ∧
          entryNamed? entries (shape.typeRef.getD "") = some entry ∧ shape.isMap := by
      split
      · next hmap =>
        rw [placeEntry]
        split
        · exact ⟨[], by simp, by simp⟩
        · split
          · exact ⟨[], by simp, by simp⟩
          · next entry hentry =>
            split
            · exact ⟨[], by simp, by simp⟩
            · exact ⟨[{ entry with name := entryName shape.name }], rfl, by
                simp only [List.mem_singleton, forall_eq]
                exact ⟨entry, rfl, hentry, hmap⟩⟩
      · exact ⟨[], by simp, by simp⟩
    obtain ⟨first, hfirst, hcopies⟩ := hplace
    rw [declareFields]
    dsimp only
    rw [hfirst]
    obtain ⟨rest, hrest, hothers⟩ := ih (nested ++ first)
    refine ⟨first ++ rest, by rw [hrest, List.append_assoc], fun copy hcopy => ?_⟩
    rcases List.mem_append.mp hcopy with hcopy | hcopy
    · obtain ⟨entry, hentry⟩ := hcopies copy hcopy
      exact ⟨shape, List.mem_cons_self, entry, hentry⟩
    · obtain ⟨shape', hshape', hentry⟩ := hothers copy hcopy
      exact ⟨shape', List.mem_cons_of_mem _ hshape', hentry⟩

/-- The counterparts of nested messages come first. -/
theorem plainMessage_messages {scope : String} {m : MessageDecl} {mp : MessagePlan}
    (hmp : plan.message? (inScope scope m.name) = some mp) :
    ∃ added, (plainMessage plan dialect entries scope m).messages
      = plainMessages plan dialect entries (inScope scope m.name) m.messages ++ added := by
  by_cases hgenerate : mp.generate
  · rw [plainMessage_generated plan dialect entries hmp hgenerate, retargetMessage_eq]
    obtain ⟨copies, hcopies, -⟩ := declareFields_nested dialect entries mp.newFullName
      (replaceMessages plan dialect entries (inScope scope m.name) m.messages)
      (mp.fields.map (·.shape))
    refine ⟨retargetMessages plan.renames
      (copies ++ mp.virtualTypes.map (·.declare dialect)), ?_⟩
    rw [← retarget_replaceMessages, retargetMessages_eq_map, retargetMessages_eq_map,
      retargetMessages_eq_map, ← List.map_append, ← List.append_assoc, ← hcopies]
    rfl
  · exact ⟨[], by rw [plainMessage_kept plan dialect entries hmp hgenerate, List.append_nil]⟩

/-- The enums of a message come first among those of its counterpart. -/
theorem plainMessage_enums {scope : String} {m : MessageDecl} {mp : MessagePlan}
    (hmp : plan.message? (inScope scope m.name) = some mp) :
    ∃ added, (plainMessage plan dialect entries scope m).enums = m.enums ++ added := by
  by_cases hgenerate : mp.generate
  · rw [plainMessage_generated plan dialect entries hmp hgenerate, retargetMessage_eq]
    exact ⟨mp.enums.map (·.declare), rfl⟩
  · exact ⟨[], by rw [plainMessage_kept plan dialect entries hmp hgenerate, List.append_nil]⟩

theorem plainMessage_name {scope : String} {m : MessageDecl} {mp : MessagePlan}
    (hmp : plan.message? (inScope scope m.name) = some mp) :
    (plainMessage plan dialect entries scope m).name
      = if mp.generate then mp.newName else m.name := by
  by_cases hgenerate : mp.generate
  · rw [plainMessage_generated plan dialect entries hmp hgenerate, retargetMessage_eq,
      if_pos hgenerate]
    rfl
  · rw [plainMessage_kept plan dialect entries hmp hgenerate, if_neg hgenerate]

end Plain

end PlainSchema
