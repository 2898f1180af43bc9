import PlainSchema.Proofs.Contract.LeadingNames

/-!
# Names that casters capture

In the signatures of a message a type parameter hides the type of its name.  A type parameter begins
with a capital letter and is no name that every signature uses; so numbers and modules are safe, and
what a field exposes is `String`, `Vec` or a message outside of every package, `mem_wireNames_iff`.
Nothing keeps the type parameters from these names, nor from the types that are cast to:
`captures_nothing_iff`, `money_captured`.
-/

namespace PlainSchema.Contract

open Text Proto

/-! ## Type parameters -/

/-- Whether a name begins with a capital letter. -/
def IsCapital (name : String) : Prop :=
  name.toList.head?.any Char.isUpper

instance (name : String) : Decidable (IsCapital name) :=
  inferInstanceAs (Decidable (name.toList.head?.any Char.isUpper = true))

theorem isCapital_genericName {param : String} (h : HasNameChars param) :
    IsCapital (genericName param) := by
  rw [genericName]
  split
  · next hidentifier =>
    have hhead := (isWord_iff.mp (isIdentifier_iff.mp hidentifier).1).1
    rw [IsCapital]
    rw [h.head?_upperCamel] at hhead ⊢
    cases hfind : param.toList.find? isAlphanumeric with
    | none =>
      rw [hfind] at hhead
      exact absurd hhead (by decide)
    | some c =>
      have halphanum := h.isAlphanum_of_find? hfind
      rw [hfind] at hhead
      exact (isUpper_toUpper halphanum).mpr ((isLetter_toUpper halphanum).mp hhead)
  · rw [IsCapital, String.toList_append]
    rfl

theorem not_isCapital_moduleName {part : String} (h : HasNameChars part) :
    ¬ IsCapital (moduleName part) := by
  rw [moduleName]
  split
  · rw [IsCapital, h.head?_snake]
    cases hfind : part.toList.find? isAlphanumeric with
    | none => simp
    | some c => exact not_isUpper_toLower (h.isAlphanum_of_find? hfind)
  · next hlower => exact hlower

/-! ## Exposed names -/

/-- The names of the type of a single value that a type parameter can have. -/
def exposedValueNames (kind : Kind) (typeRef : Option String) : List String :=
  match kind with
  | .scalar .string => ["String"]
  | .scalar .bytes => ["Vec"]
  | .message | .group =>
    if (pathNames (typeRef.getD "")).length = 1 then pathNames (typeRef.getD "") else []
  | _ => []

/-- The names of the type of a Plain field that a type parameter can have: the type of texts, the
type of lists and messages outside of every package. -/
def exposedNames (shape : FieldShape) : List String :=
  (if shape.cardinality = .repeated then ["Vec"] else []) ++ exposedValueNames shape.kind shape.typeRef

variable {name : String}

/-- A path of several names begins with a module. -/
theorem exists_take_pathNames {fullName : String} (h : (pathNames fullName).length ≠ 1) :
    ∃ part ∈ split (trimFront fullName '.') '.', (pathNames fullName).take 1 = [moduleName part] := by
  rw [pathNames] at h ⊢
  cases hmodules : (split (trimFront fullName '.') '.').dropLast with
  | nil =>
    rw [hmodules] at h
    exact absurd rfl h
  | cons part parts => exact ⟨part, List.dropLast_subset _ (hmodules ▸ List.mem_cons_self), rfl⟩

theorem mem_valueNames_iff {kind : Kind} {typeRef : Option String}
    (href : kind = .message ∨ kind = .group → IsTypeName (typeRef.getD "")) (hname : IsCapital name) :
    name ∈ valueNames kind typeRef ↔ name ∈ exposedValueNames kind typeRef := by
  have hmessage : IsTypeName (typeRef.getD "") →
      (name ∈ (pathNames (typeRef.getD "")).take 1 ↔
        name ∈ if (pathNames (typeRef.getD "")).length = 1 then pathNames (typeRef.getD "") else []) := by
    intro htype
    split
    · next hsingle => rw [List.take_of_length_le (Nat.le_of_eq hsingle)]
    · next hlong =>
      obtain ⟨part, hpart, hmodule⟩ := exists_take_pathNames hlong
      rw [hmodule, List.mem_singleton]
      refine iff_of_false ?_ List.not_mem_nil
      rintro rfl
      exact not_isCapital_moduleName (htype.parts part hpart).chars hname
  have hlower : ∀ lower, ¬ IsCapital lower → (name ∈ [lower] ↔ name ∈ ([] : List String)) := by
    intro lower hlower
    refine iff_of_false (fun hmem => ?_) List.not_mem_nil
    exact hlower (List.mem_singleton.mp hmem ▸ hname)
  cases kind with
  | message => exact hmessage (href (Or.inl rfl))
  | group => exact hmessage (href (Or.inr rfl))
  | enum => exact hlower "i32" (by decide)
  | scalar type =>
    cases type with
    | string => exact Iff.rfl
    | bytes =>
      have hitem : name ≠ "u8" := by
        rintro rfl
        exact absurd hname (by decide)
      simp [valueNames, exposedValueNames, hitem]
    | _ => exact hlower _ (by decide)

/-- Of the names of a type, a type parameter can only have the exposed ones. -/
theorem mem_wireNames_iff {shape : FieldShape} (h : RefersByName shape) (hname : IsCapital name)
    (htaken : name ∉ takenGenerics) : name ∈ wireNames shape ↔ name ∈ exposedNames shape := by
  have hvalue := mem_valueNames_iff h hname
  have hoption : name ≠ "Option" := by
    rintro rfl
    exact htaken (by decide)
  rw [wireNames, exposedNames, List.mem_append, ← hvalue]
  cases shape.cardinality with
  | «repeated» => simp
  | optional => simp [hoption]
  | singular =>
    dsimp only
    split
    · simp [hoption]
    · simp
  | required =>
    dsimp only
    split
    · simp [hoption]
    · simp

/-! ## Contracts of plans -/

/-- The names that a message plan needs for its casters: those of fields and of messages. -/
structure NamesCasters (m : MessagePlan) : Prop where
  fields : ∀ plan ∈ m.fields, plan.needsCaster → IsFieldName plan.shape.name
  types : ∀ plan ∈ m.fields, plan.needsCaster → RefersByName plan.shape

instance (m : MessagePlan) : Decidable (NamesCasters m) :=
  decidable_of_iff ((∀ plan ∈ m.fields, plan.needsCaster → IsFieldName plan.shape.name) ∧
      ∀ plan ∈ m.fields, plan.needsCaster → RefersByName plan.shape)
    ⟨fun h => ⟨h.1, h.2⟩, fun h => ⟨h.fields, h.types⟩⟩

theorem caster?_eq_some {plan : FieldPlan} {caster : Caster} :
    caster? plan = some caster ↔ plan.needsCaster ∧ ∃ target, plan.override? = some target ∧
      caster = { param := snake plan.shape.name, generic := upperCamel plan.shape.name
                 wireType := wireType plan.shape, targetType := targetType target } := by
  rw [caster?]
  cases htarget : plan.override? with
  | none => simp
  | some target =>
    by_cases hneeds : plan.needsCaster
    · simp [hneeds, eq_comm]
    · simp [hneeds]

/-- A field with a caster has an override. -/
theorem exists_override {plan : FieldPlan} (h : plan.needsCaster) :
    ∃ target, plan.override? = some target := by
  rw [FieldPlan.needsCaster, Option.any_eq_true] at h
  obtain ⟨target, htarget, -⟩ := h
  exact ⟨target, htarget⟩

/-- The casters of a contract are those of the fields of the plan, with other names. -/
theorem casters_ofPlan (m : MessagePlan) (style : JsonStyle) :
    List.Forall₂ Caster.BecomesNamed (m.fields.filterMap caster?)
      (MessageContract.ofPlan m style).casters := by
  have hcasters : castersOf (m.fields.map (FieldContract.ofPlan m)) = m.fields.filterMap caster? := by
    rw [castersOf, List.filterMap_map]
    rfl
  rw [← hcasters]
  exact (namedInTurn_nameCasters takenParams takenGenerics _).casters

variable {m : MessagePlan} {style : JsonStyle}

/-- A caster of a contract has the types of a field of the plan. -/
theorem exists_plan_of_caster {caster : Caster}
    (hcaster : caster ∈ (MessageContract.ofPlan m style).casters) :
    ∃ plan ∈ m.fields, plan.needsCaster ∧ ∃ source, caster? plan = some source ∧
      source.BecomesNamed caster := by
  obtain ⟨source, hsource, hbecomes⟩ := exists_left_of_forall₂ (casters_ofPlan m style) hcaster
  obtain ⟨plan, hplan, hsome⟩ := List.mem_filterMap.mp hsource
  exact ⟨plan, hplan, (caster?_eq_some.mp hsome).1, source, hsome, hbecomes⟩

/-- A field with a caster has one in the contract, with the types of the field. -/
theorem exists_caster_of_plan {plan : FieldPlan} {target : Override} (hplan : plan ∈ m.fields)
    (hneeds : plan.needsCaster) (htarget : plan.override? = some target) :
    ∃ caster ∈ (MessageContract.ofPlan m style).casters,
      caster.wireType = wireType plan.shape ∧ caster.targetType = targetType target := by
  have hcaster := caster?_eq_some.mpr ⟨hneeds, target, htarget, rfl⟩
  have hsource := List.mem_filterMap.mpr ⟨plan, hplan, hcaster⟩
  obtain ⟨caster, hcaster, hbecomes⟩ := exists_right_of_forall₂ (casters_ofPlan m style) hsource
  refine ⟨caster, hcaster, ?_, ?_⟩
  · rw [hbecomes.wireType]
  · rw [hbecomes.targetType]

/-- A type parameter begins with a capital letter and was not taken at first. -/
theorem NamesCasters.generic (h : NamesCasters m) {caster : Caster}
    (hcaster : caster ∈ (MessageContract.ofPlan m style).casters) :
    IsCapital caster.generic ∧ caster.generic ∉ takenGenerics := by
  have hturn := namedInTurn_nameCasters takenParams takenGenerics (m.fields.map (FieldContract.ofPlan m))
  refine ⟨?_, (hturn.fresh.2.2 caster hcaster).2⟩
  obtain ⟨plan, hplan, hneeds, source, hsource, hbecomes⟩ := exists_plan_of_caster hcaster
  obtain ⟨-, target, -, hsource⟩ := caster?_eq_some.mp hsource
  obtain ⟨i, hparam⟩ := hbecomes.param
  have hchars := hasNameChars_baseName (h.fields plan hplan hneeds).chars.snake
  rw [hbecomes.generic, hparam, hsource]
  exact isCapital_genericName (hchars.append (hasNameChars_ending i))

/-- No type parameter of a contract has the name of a type in the signatures. -/
def MessageContract.CapturesNothing (contract : MessageContract) : Prop :=
  ∀ caster ∈ contract.casters, ∀ other ∈ contract.casters,
    caster.generic ∉ leadingNames other.wireType ∧ caster.generic ∉ leadingNames other.targetType

instance (contract : MessageContract) : Decidable contract.CapturesNothing :=
  inferInstanceAs (Decidable (∀ caster ∈ contract.casters, ∀ other ∈ contract.casters, _ ∧ _))

/-- **What casters capture.**  For every message plan whose casters have the names of fields and refer to
messages by their names:

* every type parameter begins with a capital letter, and is none of the names that all signatures use;
* the contract captures no name of a type exactly if no type parameter is an exposed name of the type
  of a Plain field with a caster, or a leading name of the type that it is cast to. -/
theorem captures_nothing_iff (h : NamesCasters m) (style : JsonStyle) :
    (∀ caster ∈ (MessageContract.ofPlan m style).casters, IsCapital caster.generic ∧
      caster.generic ∉ ["Self", "Sized", "Option", "Result", "Fn"]) ∧
    ((MessageContract.ofPlan m style).CapturesNothing ↔
      ∀ caster ∈ (MessageContract.ofPlan m style).casters, ∀ plan ∈ m.fields, plan.needsCaster →
        caster.generic ∉ exposedNames plan.shape ∧
        ∀ target ∈ plan.override?, caster.generic ∉ leadingNames (targetType target)) := by
  refine ⟨fun caster hcaster => h.generic hcaster, fun hnothing caster hcaster plan hplan hneeds => ?_,
    fun hexposed caster hcaster other hother => ?_⟩
  · obtain ⟨hcapital, htaken⟩ := h.generic hcaster
    have hcaptures : ∀ target, plan.override? = some target →
        caster.generic ∉ leadingNames (wireType plan.shape) ∧
          caster.generic ∉ leadingNames (targetType target) := by
      intro target htarget
      obtain ⟨other, hother, hwire, htype⟩ := exists_caster_of_plan hplan hneeds htarget
      rw [← hwire, ← htype]
      exact hnothing caster hcaster other hother
    obtain ⟨target, htarget⟩ := exists_override hneeds
    have href := h.types plan hplan hneeds
    rw [← mem_wireNames_iff href hcapital htaken, ← leadingNames_wireType href]
    exact ⟨(hcaptures target htarget).1, fun target htarget => (hcaptures target htarget).2⟩
  · obtain ⟨hcapital, htaken⟩ := h.generic hcaster
    obtain ⟨plan, hplan, hneeds, source, hsource, hbecomes⟩ := exists_plan_of_caster hother
    obtain ⟨-, target, htarget, hsource⟩ := caster?_eq_some.mp hsource
    obtain ⟨hwire, htype⟩ := hexposed caster hcaster plan hplan hneeds
    have href := h.types plan hplan hneeds
    have hnames := mem_wireNames_iff href hcapital htaken
    rw [hbecomes.wireType, hbecomes.targetType, hsource]
    dsimp only
    rw [leadingNames_wireType href, hnames]
    exact ⟨hwire, htype target htarget⟩

/-! ## Amounts of a bill -/

/-- A bill with texts of the given names that are cast to amounts of money. -/
def billFile (names : List String) : FileDecl :=
  { name := "bill.proto", package := "p"
    messages :=
      [{ name := "Bill", options := { generate := true }
         fields := names.zipIdx.map fun (name, i) =>
          { name, number := i + 1, kind := .scalar .string
            options := { overrideType := some { name := "Money" } } } }] }

def billFiles (names : List String) : List FileDecl :=
  [{ messageOptionsFile with
      extensions := messageOptionsFile.extensions ++
        [{ name := "field", number := 2, kind := .scalar .string
           extendee := some ".plain.Options" }] },
    billFile names]

def billPool (names : List String) : Pool :=
  (Pool.load (billFiles names)).toOption.getD {}

def billSchemaPlan (names : List String) : SchemaPlan :=
  ((Schema.ofPool (billPool names) ["bill.proto"]).plan {}).toOption.getD default

/-- The plan of a bill. -/
def billPlan (names : List String) : MessagePlan :=
  ((billSchemaPlan names).messages.find? (·.generate)).getD default

def billContract (names : List String) : MessageContract :=
  .ofPlan (billPlan names) .protojson

theorem bill_checks :
    (billPlan ["amount", "createdAt"]).generate ∧ NamesCasters (billPlan ["amount", "createdAt"]) ∧
      (billContract ["amount", "createdAt"]).casters.map (·.generic) = ["Amount", "CreatedAt"] ∧
      ∀ plan ∈ (billPlan ["amount", "createdAt"]).fields, plan.needsCaster →
        exposedNames plan.shape = ["String"] ∧
        ∀ target ∈ plan.override?, targetType target = "::".intercalate ["Money"] := by
  decide +kernel

/-- The type parameters `Amount` and `CreatedAt` hide neither `String` nor `Money`. -/
theorem amounts_capture_nothing :
    (billContract ["amount", "createdAt"]).casters.map (·.generic) = ["Amount", "CreatedAt"] ∧
      (billContract ["amount", "createdAt"]).CapturesNothing := by
  obtain ⟨-, hnames, hgenerics, hexposed⟩ := bill_checks
  refine ⟨hgenerics, (captures_nothing_iff hnames .protojson).2.mpr ?_⟩
  intro caster hcaster plan hplan hneeds
  have hgeneric : caster.generic ∈ ["Amount", "CreatedAt"] :=
    hgenerics ▸ List.mem_map_of_mem hcaster
  have hapart : ∀ generic ∈ ["Amount", "CreatedAt"],
      generic ∉ ["String"] ∧ generic ∉ ["Money"] := by
    decide
  obtain ⟨hstring, hmoney⟩ := hapart caster.generic hgeneric
  obtain ⟨hwire, htype⟩ := hexposed plan hplan hneeds
  refine ⟨hwire ▸ hstring, fun target htarget => ?_⟩
  have hword : IsPlainWord "Money" := by decide
  rw [leadingNames_targetType hword (by simp) (htype target htarget)]
  exact hmoney

/-- The type parameters of `money` and `string` hide the types of both casters. -/
theorem money_captured :
    (Pool.load (billFiles ["money", "string"])).isOk ∧
      ((Schema.ofPool (billPool ["money", "string"]) ["bill.proto"]).plan {}).isOk ∧
      billPlan ["money", "string"] ∈ (billSchemaPlan ["money", "string"]).messages ∧
      (billPlan ["money", "string"]).generate ∧
      (billContract ["money", "string"]).casters =
        [{ param := "money", generic := "Money", wireType := "String", targetType := "Money" },
          { param := "string", generic := "String", wireType := "String", targetType := "Money" }] ∧
      leadingNames "String" = ["String"] ∧ leadingNames "Money" = ["Money"] ∧
      ¬ (billContract ["money", "string"]).CapturesNothing := by
  decide +kernel

end PlainSchema.Contract
