import PlainSchema.Proofs.Derive.Counterparts

/-!
# The fields of a Plain message

The fields of a generated message are declared one for each field of its plan, in order.  A field
has the shape that is planned, except that a map field refers to the entry that is declared in the
Plain message, and that an optional field gets a oneof of its own; then its references are renamed.
-/

namespace PlainSchema

open Proto

/-- The reference that a shape of a Plain message is declared with: a map field whose entry is
declared elsewhere refers to the copy in the Plain message. -/
def FieldShape.declaredRef (entries : List (String × MessageDecl)) (newFullName : String)
    (shape : FieldShape) : Option String :=
  if shape.isMap then (placeEntry entries newFullName [] shape).1 else shape.typeRef

/-- The nested messages do not matter for the reference of a map field. -/
theorem placeEntry_fst (entries : List (String × MessageDecl)) (newFullName : String)
    (nested : List MessageDecl) (shape : FieldShape) :
    (placeEntry entries newFullName nested shape).1
      = (placeEntry entries newFullName [] shape).1 := by
  rw [placeEntry, placeEntry]
  split
  · rfl
  · split <;> rfl

theorem declareFields_fst (dialect : Dialect) (entries : List (String × MessageDecl))
    (newFullName : String) (nested : List MessageDecl) (shapes : List FieldShape) :
    (declareFields dialect entries newFullName nested shapes).1
      = shapes.map fun shape =>
        { shape.declare dialect with typeRef := shape.declaredRef entries newFullName } := by
  induction shapes generalizing nested with
  | nil => rfl
  | cons shape shapes ih =>
    rw [declareFields, List.map_cons, FieldShape.declaredRef]
    dsimp only
    rw [ih]
    by_cases hmap : shape.isMap
    · rw [if_pos hmap, if_pos hmap, placeEntry_fst]
    · rw [if_neg hmap, if_neg hmap]
      rfl

/-- Placing the optional fields changes nothing but their oneofs. -/
theorem forall₂_placeOptionals (oneofs : List String) (fields : List FieldDecl) :
    List.Forall₂ (fun field field' => field' = { field with oneofIndex := field'.oneofIndex } ∧
        (¬ field.proto3Optional → field' = field))
      fields (placeOptionals oneofs fields).1 := by
  induction fields generalizing oneofs with
  | nil => exact .nil
  | cons field fields ih =>
    rw [placeOptionals]
    split
    · next hoptional => exact .cons ⟨rfl, fun hnot => absurd hoptional hnot⟩ (ih _)
    · exact .cons ⟨rfl, fun _ => rfl⟩ (ih _)

/-- The declaration of a planned field in the derived files. -/
def DeclaredAs (renames : Renames) (dialect : Dialect) (entries : List (String × MessageDecl))
    (newFullName : String) (plan : FieldPlan) (field : FieldDecl) : Prop :=
  field = { plan.shape.declare dialect with
    typeRef := (plan.shape.declaredRef entries newFullName).map renames.rename
    oneofIndex := field.oneofIndex } ∧
  (¬ (plan.shape.declare dialect).proto3Optional →
    field.oneofIndex = plan.shape.oneofIndex.map Int.ofNat)

/-- The fields of a generated message are those of its plan, in order. -/
theorem fields_plainMessage (plan : SchemaPlan) (dialect : Dialect)
    (entries : List (String × MessageDecl)) {scope : String} {m : MessageDecl} {mp : MessagePlan}
    (hmp : plan.message? (inScope scope m.name) = some mp) (hgenerate : mp.generate) :
    List.Forall₂ (DeclaredAs plan.renames dialect entries mp.newFullName) mp.fields
      (plainMessage plan dialect entries scope m).fields := by
  rw [plainMessage_generated plan dialect entries hmp hgenerate, retargetMessage_eq]
  change List.Forall₂ _ _ (List.map _ (placeOptionals (keptOneofs mp) (declareFields dialect entries
    mp.newFullName _ (mp.fields.map (·.shape))).1).1)
  rw [declareFields_fst, List.map_map]
  refine List.forall₂_map_right_iff.mpr ?_
  have hplaced := forall₂_placeOptionals (keptOneofs mp)
    (mp.fields.map ((fun shape : FieldShape => { shape.declare dialect with
      typeRef := shape.declaredRef entries mp.newFullName }) ∘ fun plan => plan.shape))
  refine (List.forall₂_map_left_iff.mp hplaced).imp fun fp field hfield => ⟨?_, fun hoptional => ?_⟩
  · rw [hfield.1]
    rfl
  · rw [Renames.retargetField, hfield.2 hoptional]
    rfl

/-- What a generated message has beyond its source message are copies of map entries and virtual
types. -/
theorem added_plainMessage (plan : SchemaPlan) (dialect : Dialect)
    (entries : List (String × MessageDecl)) {scope : String} {m : MessageDecl} {mp : MessagePlan}
    (hmp : plan.message? (inScope scope m.name) = some mp) (hgenerate : mp.generate) :
    ∀ added ∈ (plainMessage plan dialect entries scope m).messages.drop m.messages.length,
      added.isMapEntry → ∃ fp ∈ mp.fields, ∃ entry, fp.shape.isMap ∧
        entryNamed? entries (fp.shape.typeRef.getD "") = some entry ∧
        added = retargetMessage plan.renames { entry with name := entryName fp.shape.name } := by
  intro added hadded hentry
  rw [plainMessage_generated plan dialect entries hmp hgenerate, retargetMessage_eq] at hadded
  obtain ⟨copies, hcopies, hall⟩ := declareFields_nested dialect entries mp.newFullName
    (replaceMessages plan dialect entries (inScope scope m.name) m.messages)
    (mp.fields.map (·.shape))
  change added ∈ (retargetMessages plan.renames ((declareFields dialect entries mp.newFullName
    (replaceMessages plan dialect entries (inScope scope m.name) m.messages)
    (mp.fields.map (·.shape))).2 ++ mp.virtualTypes.map (·.declare dialect))).drop
      m.messages.length at hadded
  have hlength : m.messages.length
      = ((replaceMessages plan dialect entries (inScope scope m.name) m.messages).map
          (retargetMessage plan.renames)).length := by
    rw [List.length_map, replaceMessages_eq_map, List.length_map]
  rw [hcopies, retargetMessages_eq_map, List.append_assoc, List.map_append, hlength,
    List.drop_left, List.mem_map] at hadded
  obtain ⟨copy, hcopy, rfl⟩ := hadded
  rcases List.mem_append.mp hcopy with hcopy | hvirtual
  · obtain ⟨shape, hshape, entry, rfl, hfound, hmap⟩ := hall copy hcopy
    obtain ⟨fp, hfp, rfl⟩ := List.mem_map.mp hshape
    exact ⟨fp, hfp, entry, hmap, hfound, rfl⟩
  · obtain ⟨type, -, rfl⟩ := List.mem_map.mp hvirtual
    rw [retargetMessage_eq] at hentry
    simp [VirtualTypePlan.declare] at hentry

end PlainSchema
