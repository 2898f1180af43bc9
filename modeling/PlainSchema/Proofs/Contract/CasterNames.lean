import PlainSchema.Contract.Render
import PlainSchema.Proofs.Data.Except
import PlainSchema.Proofs.Data.Lists
import PlainSchema.Proofs.Text.Words

/-!
# The names of casters

The casters of a message get their names in turn, `NamedInTurn`.  Each of them has a base, and takes the
first of its candidates that is free:

```text
candidate base 0  =  base      and the type parameter of base
candidate base 1  =  base_2    and the type parameter of base_2
candidate base 2  =  base_3    and the type parameter of base_3
```

No two candidates of a base share a parameter or a type parameter, `generic_candidate_injective`, so a
name that is taken rules out one candidate at most and some candidate is free, whatever the base is.
Hence the names of a message are distinct, `NamedInTurn.fresh`.

Whether they can stand in generated code depends on the field.  The type parameter of a field is an
identifier always, and so is the parameter unless the name of the field leads with a digit, as in `_1`:
the base of such a name is `1_`, `caster_names_usable_iff`.
-/

namespace PlainSchema.Contract

open Text

/-! ## Identifiers -/

variable {s t param base : String}

theorem isWord_iff : isWord s ↔ s.toList.head?.any isLetter ∧ ∀ c ∈ s.toList, isLetterOrMark c := by
  rw [isWord]
  cases s.toList with
  | nil => simp
  | cons c cs =>
    rw [Bool.and_eq_true, List.all_eq_true, List.forall_mem_cons, List.head?_cons, Option.any_some]
    exact and_congr_right fun hc => (and_iff_right (isLetterOrMark_of_isLetter hc)).symm

/-- Letters, digits and marks behind a text do not change whether it is a word. -/
theorem isWord_append (hs : s ≠ "") (ht : ∀ c ∈ t.toList, isLetterOrMark c) :
    isWord (s ++ t) ↔ isWord s := by
  have hne : s.toList ≠ [] := fun hnil => hs (String.toList_eq_nil_iff.mp hnil)
  rw [isWord_iff, isWord_iff, String.toList_append, List.head?_append_of_ne_nil _ hne,
    List.forall_mem_append]
  exact and_congr_right fun _ => and_iff_left ht

theorem isIdentifier_iff : isIdentifier s ↔ isWord s ∧ s ≠ "_" ∧ s ∉ keywords := by
  rw [isIdentifier, isName, Bool.and_eq_true, Bool.and_eq_true, bne_iff_ne, Bool.not_eq_true',
    List.contains_eq_mem, decide_eq_false_iff_not]

/-- Whether a text can name a parameter. -/
def NamesParam (s : String) : Prop :=
  isIdentifier s ∨ s = "_"

theorem namesParam_iff : NamesParam s ↔ isWord s ∧ s ∉ keywords := by
  rw [NamesParam, isIdentifier_iff]
  constructor
  · rintro (⟨hword, -, hkeyword⟩ | rfl)
    · exact ⟨hword, hkeyword⟩
    · exact ⟨by decide, by decide⟩
  · rintro ⟨hword, hkeyword⟩
    by_cases hline : s = "_"
    · exact Or.inr hline
    · exact Or.inl ⟨hword, hline, hkeyword⟩

/-- No keyword ends with an underscore or a digit. -/
theorem notMem_keywords_of_getLast? {c : Char} (hlast : s.toList.getLast? = some c)
    (hc : c.isDigit ∨ c = '_') : s ∉ keywords := by
  have hkeywords : ∀ keyword ∈ keywords,
      ¬ keyword.toList.getLast?.any fun c => c.isDigit || c == '_' := by
    decide +kernel
  intro hs
  refine hkeywords s hs ?_
  rw [hlast, Option.any_some]
  simpa using hc

/-- No keyword begins with a capital C. -/
theorem isIdentifier_of_head? (hhead : s.toList.head? = some 'C')
    (hrest : ∀ c ∈ s.toList, isLetterOrMark c) : isIdentifier s := by
  have hkeywords : ∀ keyword ∈ keywords, keyword.toList.head? ≠ some 'C' := by decide +kernel
  refine isIdentifier_iff.mpr ⟨isWord_iff.mpr ⟨?_, hrest⟩, ?_, fun hs => hkeywords s hs hhead⟩
  · rw [hhead]
    decide
  · rintro rfl
    exact absurd hhead (by decide)

/-! ## Candidates -/

/-- What the names of a caster begin with. -/
def baseName (param : String) : String :=
  if isIdentifier param then param else param ++ "_"

/-- What stands behind the base in a parameter. -/
def ending (i : Nat) : String :=
  if i = 0 then "" else "_" ++ toString (i + 1)

/-- What stands behind the camel form of the base in a type parameter. -/
def number (i : Nat) : String :=
  if i = 0 then "" else toString (i + 1)

/-- The names to choose from for a caster. -/
def candidate (base : String) (i : Nat) : String × String :=
  (base ++ ending i, genericName (base ++ ending i))

theorem nameCandidates_eq (base : String) (count : Nat) :
    nameCandidates base count = (List.range count).map (candidate base) := by
  refine List.map_congr_left fun i _ => ?_
  rw [candidate, ending]
  split
  · rw [String.append_empty]
  · rw [String.append_assoc]

theorem isDigit_of_mem_number {i : Nat} {c : Char} (h : c ∈ (number i).toList) : c.isDigit := by
  rw [number] at h
  split at h
  · exact absurd h List.not_mem_nil
  · exact isDigit_of_mem_toString h

theorem number_injective : Function.Injective number := by
  have hne : ∀ i, toString (i + 1) ≠ "" := fun i hnil =>
    toList_toString_ne_nil (i + 1) (String.toList_eq_nil_iff.mpr hnil)
  intro i j heq
  rw [number, number] at heq
  split at heq <;> split at heq
  · omega
  · exact absurd heq.symm (hne j)
  · exact absurd heq (hne i)
  · exact Nat.succ.inj (toString_injective heq)

theorem ending_injective : Function.Injective ending := by
  intro i j heq
  rw [ending, ending] at heq
  split at heq <;> split at heq
  · omega
  · exact absurd (congrArg (·.toList.head?) heq) (by simp)
  · exact absurd (congrArg (·.toList.head?) heq) (by simp)
  · exact Nat.succ.inj (toString_injective ((String.append_right_inj "_").mp heq))

theorem param_candidate_injective (base : String) : Function.Injective fun i => (candidate base i).1 :=
  fun _ _ heq => ending_injective ((String.append_right_inj base).mp heq)

theorem upperCamel_ending (base : String) (i : Nat) :
    upperCamel (base ++ ending i) = upperCamel base ++ number i := by
  rw [ending, number]
  split
  · rw [String.append_empty, String.append_empty]
  · rw [← String.append_assoc, upperCamel_append_number]

/-- The word that makes an identifier of a camel form is in front of one of two forms only if both
are identifiers or none. -/
theorem cast_ne {camel : String} {i j : Nat} (hi : isIdentifier (camel ++ number i))
    (hj : ¬ isIdentifier (camel ++ number j)) : camel ++ number i ≠ "Cast" ++ (camel ++ number j) := by
  intro heq
  have hhead := congrArg (·.toList.head?) heq
  simp only [String.toList_append] at hhead
  cases hcamel : camel.toList with
  | nil =>
    -- Then a number begins with a letter.
    rw [hcamel, List.nil_append] at hhead
    have hdigit : 'C'.isDigit := isDigit_of_mem_number (List.mem_of_mem_head? hhead)
    exact absurd hdigit (by decide)
  | cons c cs =>
    rw [hcamel] at hhead
    obtain rfl : c = 'C' := Option.some.inj hhead
    -- Then the other form begins with a capital C as well.
    have hword := (isWord_iff.mp (isIdentifier_iff.mp hi).1).2
    rw [String.toList_append, List.forall_mem_append] at hword
    refine hj (isIdentifier_of_head? ?_ ?_)
    · rw [String.toList_append, hcamel]
      rfl
    · rw [String.toList_append, List.forall_mem_append]
      refine ⟨hword.1, fun d hd => ?_⟩
      exact isLetterOrMark_of_isAlphanum (isAlphanum_of_isDigit (isDigit_of_mem_number hd))

/-- **No two candidates share a type parameter**, although the case of the base is lost in it. -/
theorem generic_candidate_injective (base : String) :
    Function.Injective fun i => (candidate base i).2 := by
  intro i j heq
  simp only [candidate, genericName, upperCamel_ending] at heq
  split at heq <;> split at heq
  · exact number_injective ((String.append_right_inj _).mp heq)
  · next hi hj => exact absurd heq (cast_ne hi hj)
  · next hi hj => exact absurd heq.symm (cast_ne hj hi)
  · exact number_injective ((String.append_right_inj _).mp ((String.append_right_inj _).mp heq))

/-! ## The names of one caster -/

/-- Names neither of which is taken. -/
def Free (params generics : List String) (names : String × String) : Prop :=
  names.1 ∉ params ∧ names.2 ∉ generics

/-- Names that are the first free ones of the candidates of a base. -/
def FirstFree (params generics : List String) (base : String) (names : String × String) : Prop :=
  ∃ i, names = candidate base i ∧ Free params generics names ∧
    ∀ j < i, ¬ Free params generics (candidate base j)

/-- Whether names are free, as the search for them asks. -/
def isFree (params generics : List String) (names : String × String) : Bool :=
  !params.contains names.1 && !generics.contains names.2

theorem isFree_iff {params generics : List String} {names : String × String} :
    isFree params generics names ↔ Free params generics names := by
  simp [isFree, Free]

theorem chooseNames_eq (params generics : List String) (param : String) :
    chooseNames params generics param
      = ((nameCandidates (baseName param) (params.length + generics.length + 1)).find?
          (isFree params generics)).getD (baseName param, genericName (baseName param)) := by
  unfold chooseNames baseName isFree
  rfl

/-- Whatever is taken, some candidate is free, and the first of them is chosen. -/
theorem firstFree_chooseNames (params generics : List String) (param : String) :
    FirstFree params generics (baseName param) (chooseNames params generics param) := by
  obtain ⟨i, hi, hunused⟩ := exists_notMem_both (param_candidate_injective (baseName param))
    (generic_candidate_injective (baseName param)) params generics
  have hsome : ((List.range (params.length + generics.length + 1)).find?
      (isFree params generics ∘ candidate (baseName param))).isSome :=
    List.find?_isSome.mpr ⟨i, List.mem_range.mpr hi, isFree_iff.mpr hunused⟩
  obtain ⟨k, hk⟩ := Option.isSome_iff_exists.mp hsome
  obtain ⟨hfree, -, hbefore⟩ := List.find?_range_eq_some.mp hk
  refine ⟨k, ?_, ?_, fun j hj hjfree => ?_⟩
  · rw [chooseNames_eq, nameCandidates_eq, List.find?_map, hk]
    rfl
  · rw [chooseNames_eq, nameCandidates_eq, List.find?_map, hk]
    exact isFree_iff.mp hfree
  · have htaken := hbefore j hj
    rw [Function.comp_apply, isFree_iff.mpr hjfree] at htaken
    exact absurd htaken (by decide)

/-! ## The names of a message -/

/-- The casters of fields, in the order of the fields. -/
def castersOf (fields : List FieldContract) : List Caster :=
  fields.filterMap (·.caster)

theorem castersOf_cons_of_none {field : FieldContract} {fields : List FieldContract}
    (h : field.caster = none) : castersOf (field :: fields) = castersOf fields :=
  List.filterMap_cons_none h

theorem castersOf_cons_of_some {field : FieldContract} {fields : List FieldContract} {caster : Caster}
    (h : field.caster = some caster) : castersOf (field :: fields) = caster :: castersOf fields :=
  List.filterMap_cons_some h

/-- Fields whose casters take names in turn: each one the first free ones beside those that are taken
at first and those of the fields in front of it. -/
inductive NamedInTurn :
    List String → List String → List FieldContract → List FieldContract → Prop where
  | nil {params generics} : NamedInTurn params generics [] []
  | skip {params generics field fields named} (hcaster : field.caster = none)
      (hrest : NamedInTurn params generics fields named) :
      NamedInTurn params generics (field :: fields) (field :: named)
  | take {params generics field fields named} {caster : Caster} {param generic : String}
      (hcaster : field.caster = some caster)
      (hnames : FirstFree params generics (baseName caster.param) (param, generic))
      (hrest : NamedInTurn (param :: params) (generic :: generics) fields named) :
      NamedInTurn params generics (field :: fields)
        ({ field with caster := some { caster with param, generic } } :: named)

/-- What is done to a caster: it gets the names of a candidate and keeps its types. -/
structure Caster.BecomesNamed (caster named : Caster) : Prop where
  param : ∃ i, named.param = baseName caster.param ++ ending i
  generic : named.generic = genericName named.param
  wireType : named.wireType = caster.wireType
  targetType : named.targetType = caster.targetType

variable {params generics : List String} {fields named : List FieldContract}

theorem namedInTurn_nameCasters (params generics : List String) (fields : List FieldContract) :
    NamedInTurn params generics fields (nameCasters params generics fields) := by
  induction fields generalizing params generics with
  | nil => exact .nil
  | cons field fields ih =>
    rw [nameCasters]
    cases hcaster : field.caster with
    | none => exact .skip hcaster (ih params generics)
    | some caster => exact .take hcaster (firstFree_chooseNames params generics caster.param) (ih _ _)

namespace NamedInTurn

theorem casters (h : NamedInTurn params generics fields named) :
    List.Forall₂ Caster.BecomesNamed (castersOf fields) (castersOf named) := by
  induction h with
  | nil => exact .nil
  | skip hcaster _ ih =>
    rw [castersOf_cons_of_none hcaster, castersOf_cons_of_none hcaster]
    exact ih
  | take hcaster hnames _ ih =>
    obtain ⟨i, hi, -⟩ := hnames
    rw [candidate, Prod.mk.injEq] at hi
    obtain ⟨hparam, hgeneric⟩ := hi
    rw [castersOf_cons_of_some hcaster, castersOf_cons_of_some rfl]
    exact .cons ⟨⟨i, hparam⟩, by rw [hgeneric, hparam], rfl, rfl⟩ ih

/-- The names are distinct, and none of them was taken at first. -/
theorem fresh (h : NamedInTurn params generics fields named) :
    ((castersOf named).map (·.param)).Nodup ∧ ((castersOf named).map (·.generic)).Nodup ∧
      ∀ caster ∈ castersOf named, Free params generics (caster.param, caster.generic) := by
  induction h with
  | nil => exact ⟨List.nodup_nil, List.nodup_nil, fun _ hcaster => absurd hcaster List.not_mem_nil⟩
  | skip hcaster _ ih =>
    rw [castersOf_cons_of_none hcaster]
    exact ih
  | take hcaster hnames _ ih =>
    obtain ⟨hparams, hgenerics, hfree⟩ := ih
    obtain ⟨-, -, hown, -⟩ := hnames
    rw [castersOf_cons_of_some rfl, List.map_cons, List.map_cons, List.nodup_cons,
      List.nodup_cons, List.forall_mem_cons]
    refine ⟨⟨?_, hparams⟩, ⟨?_, hgenerics⟩, hown, fun other hother => ?_⟩
    · intro hmem
      obtain ⟨other, hother, heq⟩ := List.mem_map.mp hmem
      exact (hfree other hother).1 (heq ▸ List.mem_cons_self)
    · intro hmem
      obtain ⟨other, hother, heq⟩ := List.mem_map.mp hmem
      exact (hfree other hother).2 (heq ▸ List.mem_cons_self)
    · obtain ⟨hparam, hgeneric⟩ := hfree other hother
      exact ⟨fun hmem => hparam (List.mem_cons_of_mem _ hmem),
        fun hmem => hgeneric (List.mem_cons_of_mem _ hmem)⟩

end NamedInTurn

/-! ## Names of fields -/

/-- The names that a field can have: ASCII letters, digits and underscores, no digit first. -/
structure IsFieldName (name : String) : Prop where
  chars : HasNameChars name
  nonempty : name ≠ ""
  noDigit : ¬ name.toList.head?.any Char.isDigit

theorem isFieldName_iff {name : String} :
    IsFieldName name ↔ HasNameChars name ∧ name ≠ "" ∧ ¬ name.toList.head?.any Char.isDigit :=
  ⟨fun h => ⟨h.chars, h.nonempty, h.noDigit⟩, fun ⟨hchars, hne, hdigit⟩ => ⟨hchars, hne, hdigit⟩⟩

instance (name : String) : Decidable (IsFieldName name) :=
  decidable_of_iff _ isFieldName_iff.symm

/-- Whether a digit is the first of the letters and digits of a name. -/
def LeadsWithDigit (name : String) : Prop :=
  ∃ c, name.toList.find? isAlphanumeric = some c ∧ c.isDigit

instance (name : String) : Decidable (LeadsWithDigit name) :=
  decidable_of_iff ((name.toList.find? isAlphanumeric).any Char.isDigit) (Option.any_eq_true _ _)

/-- A caster with the names that a field of the given name gives it. -/
structure Caster.NamedAfter (caster : Caster) (name : String) : Prop where
  isFieldName : IsFieldName name
  param : caster.param = snake name
  generic : caster.generic = upperCamel name

/-! ### Type parameters -/

theorem hasNameChars_baseName (h : HasNameChars param) : HasNameChars (baseName param) := by
  rw [baseName]
  split
  · exact h
  · exact h.append (by decide)

theorem hasNameChars_ending (i : Nat) : HasNameChars (ending i) := by
  rw [ending]
  split
  · decide
  · have hnumber : HasNameChars (toString (i + 1)) := fun c hc =>
      Or.inl (isAlphanum_of_isDigit (isDigit_of_mem_toString hc))
    exact HasNameChars.append (by decide) hnumber

/-- The type parameter of a name is an identifier. -/
theorem isIdentifier_genericName (h : HasNameChars param) : isIdentifier (genericName param) := by
  rw [genericName]
  split
  · next hidentifier => exact hidentifier
  · refine isIdentifier_of_head? (by simp [String.toList_append]) fun c hc => ?_
    rw [String.toList_append, List.mem_append] at hc
    rcases hc with hc | hc
    · have hcast : HasNameChars "Cast" := by decide
      exact hcast.isLetterOrMark_of_mem hc
    · exact isLetterOrMark_of_isAlphanum (h.alphanum_upperCamel c hc)

/-! ### Parameters -/

/-- A parameter with its ending is no keyword, as its base is none. -/
theorem notMem_keywords_ending (param : String) (i : Nat) :
    baseName param ++ ending i ∉ keywords := by
  rw [ending]
  split
  · rw [String.append_empty, baseName]
    split
    · next hidentifier => exact (isIdentifier_iff.mp hidentifier).2.2
    · exact notMem_keywords_of_getLast? (by simp [String.toList_append]) (Or.inr rfl)
  · have hne := toList_toString_ne_nil (i + 1)
    refine notMem_keywords_of_getLast? ?_ (Or.inl (isDigit_of_mem_toString (List.getLast_mem hne)))
    rw [String.toList_append, String.toList_append, ← List.append_assoc,
      List.getLast?_append_of_ne_nil _ hne, List.getLast?_eq_some_getLast]

theorem baseName_ne_empty (param : String) : baseName param ≠ "" := by
  rw [baseName]
  split
  · next hidentifier =>
    rintro rfl
    exact absurd hidentifier (by decide)
  · simp

/-- A parameter is a word exactly if its base is. -/
theorem namesParam_ending (param : String) (i : Nat) :
    NamesParam (baseName param ++ ending i) ↔ isWord (baseName param) := by
  rw [namesParam_iff, and_iff_left (notMem_keywords_ending param i)]
  exact isWord_append (baseName_ne_empty param) fun c => (hasNameChars_ending i).isLetterOrMark_of_mem

/-- The base of a name is a word exactly if the name does not lead with a digit. -/
theorem isWord_baseName {name : String} (h : HasNameChars name) :
    isWord (baseName (snake name)) ↔ ¬ LeadsWithDigit name := by
  have hchars := hasNameChars_baseName h.snake
  have hfirst := h.head?_snake
  rw [isWord_iff, and_iff_left fun c => hchars.isLetterOrMark_of_mem, LeadsWithDigit]
  cases hfind : name.toList.find? isAlphanumeric with
  | none =>
    -- There is no word in the name, and the base is an underscore.
    have hempty : snake name = "" := by
      rw [hfind] at hfirst
      exact String.toList_eq_nil_iff.mp (List.head?_eq_none_iff.mp hfirst)
    rw [hempty]
    refine iff_of_true (by decide) ?_
    rintro ⟨c, hc, -⟩
    exact absurd hc nofun
  | some c =>
    have hc := h.isAlphanum_of_find? hfind
    have hbase : (baseName (snake name)).toList.head? = some c.toLower := by
      rw [hfind, Option.map_some] at hfirst
      rw [baseName]
      split
      · exact hfirst
      · rw [String.toList_append, List.head?_append, hfirst]
        rfl
    rw [hbase, Option.any_some, isLetter_toLower hc]
    simp

theorem Caster.BecomesNamed.namesParam_iff {caster named : Caster} {name : String}
    (h : caster.BecomesNamed named) (hname : caster.NamedAfter name) :
    NamesParam named.param ↔ ¬ LeadsWithDigit name := by
  obtain ⟨i, hi⟩ := h.param
  rw [hi, namesParam_ending, hname.param, isWord_baseName hname.isFieldName.chars]

theorem Caster.BecomesNamed.isIdentifier_generic {caster named : Caster} {name : String}
    (h : caster.BecomesNamed named) (hname : caster.NamedAfter name) : isIdentifier named.generic := by
  obtain ⟨i, hi⟩ := h.param
  have hchars := (hasNameChars_baseName hname.isFieldName.chars.snake).append (hasNameChars_ending i)
  rw [h.generic, hi, hname.param]
  exact isIdentifier_genericName hchars

/-! ## Rendering -/

theorem checkName_eq_error {name : String} {e : RenderError} (h : checkName name = .error e) :
    e = .invalidName name ∧ ¬ isWord name := by
  rw [checkName] at h
  split at h
  · exact absurd h nofun
  · next hword => exact ⟨(Except.error.inj h).symm, hword⟩

theorem readTypeText_ne_invalidName (type name : String) :
    readTypeText type ≠ .error (.invalidName name) := by
  rw [readTypeText]
  split
  · exact nofun
  · exact nofun

/-- Reading a caster stops at a name only if it is the type parameter or the parameter and no word. -/
theorem Caster.typed_invalidName {caster : Caster} {name : String}
    (h : caster.typed = .error (.invalidName name)) :
    (name = caster.generic ∨ name = caster.param) ∧ ¬ isWord name := by
  rw [typed] at h
  rcases bind_eq_error.mp h with h | ⟨-, -, h⟩
  · obtain ⟨heq, hword⟩ := checkName_eq_error h
    obtain rfl := RenderError.invalidName.inj heq
    exact ⟨Or.inl rfl, hword⟩
  rcases bind_eq_error.mp h with h | ⟨-, -, h⟩
  · obtain ⟨heq, hword⟩ := checkName_eq_error h
    obtain rfl := RenderError.invalidName.inj heq
    exact ⟨Or.inr rfl, hword⟩
  rcases bind_eq_error.mp h with h | ⟨wire, -, h⟩
  · exact absurd h (readTypeText_ne_invalidName _ _)
  rcases bind_eq_error.mp h with h | ⟨target, -, h⟩
  · exact absurd h (readTypeText_ne_invalidName _ _)
  · exact absurd h nofun

/-- Rendering stops at a name only if it is the name of a trait or of a caster and no word. -/
theorem MessageContract.typedCasters_invalidName {contract : MessageContract} {name : String}
    (h : contract.typedCasters = .error (.invalidName name)) :
    (name = contract.plainTraitName ∨ name = contract.sourceTraitName ∨
      ∃ caster ∈ contract.casters, name = caster.generic ∨ name = caster.param) ∧ ¬ isWord name := by
  rw [typedCasters] at h
  rcases bind_eq_error.mp h with h | ⟨-, -, h⟩
  · obtain ⟨heq, hword⟩ := checkName_eq_error h
    obtain rfl := RenderError.invalidName.inj heq
    exact ⟨Or.inl rfl, hword⟩
  rcases bind_eq_error.mp h with h | ⟨-, -, h⟩
  · obtain ⟨heq, hword⟩ := checkName_eq_error h
    obtain rfl := RenderError.invalidName.inj heq
    exact ⟨Or.inr (Or.inl rfl), hword⟩
  · obtain ⟨caster, hcaster, h⟩ := mapM_eq_error h
    obtain ⟨hname, hword⟩ := caster.typed_invalidName h
    exact ⟨Or.inr (Or.inr ⟨caster, hcaster, hname⟩), hword⟩

/-- **The names of casters are distinct, and usable unless a field name leads with a digit.**  For all
fields whose casters have the names that field names give them:

* every caster takes the first free one of its candidates, so the search for it ends;
* the parameters are distinct, and so are the type parameters; none of them is a name that signatures
  use;
* every type parameter is an identifier, and every parameter is one, or an underscore, exactly if no
  field name of a caster leads with a digit;
* rendering stops at a name only if it is the name of a trait or a parameter that is no word. -/
theorem caster_names_usable_iff {names : List String}
    (hfields : List.Forall₂ Caster.NamedAfter (castersOf fields) names)
    (hnamed : nameCasters takenParams takenGenerics fields = named) :
    NamedInTurn takenParams takenGenerics fields named ∧
      (((castersOf named).map (·.param)).Nodup ∧ ((castersOf named).map (·.generic)).Nodup) ∧
      (∀ caster ∈ castersOf named, caster.param ≠ "this" ∧
        caster.generic ∉ ["Self", "Sized", "Option", "Result", "Fn"] ∧ isIdentifier caster.generic) ∧
      ((∀ caster ∈ castersOf named, isIdentifier caster.param ∨ caster.param = "_") ↔
        ∀ name ∈ names, ¬ LeadsWithDigit name) ∧
      ∀ contract : MessageContract, contract.fields = named → ∀ name,
        contract.typedCasters = .error (.invalidName name) →
        name = contract.plainTraitName ∨ name = contract.sourceTraitName ∨
          ∃ caster ∈ castersOf named, name = caster.param ∧ ¬ isWord name := by
  have hturn : NamedInTurn takenParams takenGenerics fields named :=
    hnamed ▸ namedInTurn_nameCasters takenParams takenGenerics fields
  obtain ⟨hparams, hgenerics, hfree⟩ := hturn.fresh
  have hidentifier : ∀ caster ∈ castersOf named, isIdentifier caster.generic := by
    intro caster hcaster
    obtain ⟨source, hsource, hbecomes⟩ := exists_left_of_forall₂ hturn.casters hcaster
    obtain ⟨name, -, hname⟩ := exists_right_of_forall₂ hfields hsource
    exact hbecomes.isIdentifier_generic hname
  refine ⟨hturn, ⟨hparams, hgenerics⟩, fun caster hcaster => ?_,
    ⟨fun husable => ?_, fun hdigits => ?_⟩, ?_⟩
  · obtain ⟨hparam, hgeneric⟩ := hfree caster hcaster
    exact ⟨fun heq => hparam (List.mem_singleton.mpr heq), hgeneric, hidentifier caster hcaster⟩
  · intro name hname
    obtain ⟨source, hsource, hname⟩ := exists_left_of_forall₂ hfields hname
    obtain ⟨caster, hcaster, hbecomes⟩ := exists_right_of_forall₂ hturn.casters hsource
    exact (hbecomes.namesParam_iff hname).mp (husable caster hcaster)
  · intro caster hcaster
    obtain ⟨source, hsource, hbecomes⟩ := exists_left_of_forall₂ hturn.casters hcaster
    obtain ⟨name, hmem, hname⟩ := exists_right_of_forall₂ hfields hsource
    exact (hbecomes.namesParam_iff hname).mpr (hdigits name hmem)
  · intro contract hcontract name herror
    obtain ⟨hname, hword⟩ := MessageContract.typedCasters_invalidName herror
    rw [MessageContract.casters, hcontract] at hname
    rcases hname with hname | hname | ⟨caster, hcaster, rfl | hname⟩
    · exact Or.inl hname
    · exact Or.inr (Or.inl hname)
    · exact absurd (isIdentifier_iff.mp (hidentifier caster hcaster)).1 hword
    · exact Or.inr (Or.inr ⟨caster, hcaster, hname, hword⟩)

/-! ## Prices of an item -/

/-- A caster from a text to an amount of money, for a field of the given name. -/
def priceCaster (name : String) : Caster where
  param := snake name
  generic := upperCamel name
  wireType := "String"
  targetType := "Money"

/-- A field with such a caster. -/
def priceField (name : String) : FieldContract where
  name := name
  path := [name]
  conversion := .copy
  caster := some (priceCaster name)

/-- The contract of an item with prices of the given names. -/
def priceContract (names : List String) : MessageContract where
  source := ".p.Item"
  plain := ".p.ItemPlain"
  fields := nameCasters takenParams takenGenerics (names.map priceField)
  style := .protojson

theorem namedAfter_priceField {names : List String} (h : ∀ name ∈ names, IsFieldName name) :
    List.Forall₂ Caster.NamedAfter (castersOf (names.map priceField)) names := by
  have hcasters : castersOf (names.map priceField) = names.map priceCaster := by
    rw [castersOf, List.filterMap_map]
    exact congrFun List.filterMap_eq_map' names
  rw [hcasters, List.forall₂_map_left_iff, List.forall₂_same]
  exact fun name hname => ⟨h name hname, rfl, rfl⟩

/-- Names that clash, keywords and names that are taken. -/
def priceNames : List String :=
  ["createdAt", "created_at", "type", "this", "result", "self", "_", "cast_1"]

theorem priceNames_checks :
    (∀ name ∈ priceNames, IsFieldName name) ∧ (∀ name ∈ priceNames, ¬ LeadsWithDigit name) ∧
      (castersOf (nameCasters takenParams takenGenerics (priceNames.map priceField))).map
          (fun caster => (caster.param, caster.generic))
        = [("created_at", "CreatedAt"), ("created_at_2", "CreatedAt2"), ("type_", "Type"),
          ("this_2", "This2"), ("result_2", "Result2"), ("self_", "CastSelf"), ("_", "Cast"),
          ("cast_1", "Cast1")] := by
  decide +kernel

theorem priceNames_usable :
    (castersOf (nameCasters takenParams takenGenerics (priceNames.map priceField))).map
          (fun caster => (caster.param, caster.generic))
        = [("created_at", "CreatedAt"), ("created_at_2", "CreatedAt2"), ("type_", "Type"),
          ("this_2", "This2"), ("result_2", "Result2"), ("self_", "CastSelf"), ("_", "Cast"),
          ("cast_1", "Cast1")] ∧
      ∀ caster ∈ castersOf (nameCasters takenParams takenGenerics (priceNames.map priceField)),
        isIdentifier caster.param ∨ caster.param = "_" := by
  obtain ⟨hnames, hdigits, hchosen⟩ := priceNames_checks
  obtain ⟨-, -, -, husable, -⟩ := caster_names_usable_iff (namedAfter_priceField hnames) rfl
  exact ⟨hchosen, husable.mpr hdigits⟩

/-- The parameter of a price by the name `_1` begins with a digit, and rendering stops at it. -/
theorem digit_param_unusable :
    List.Forall₂ Caster.NamedAfter (castersOf (["_1"].map priceField)) ["_1"] ∧
      (castersOf (nameCasters takenParams takenGenerics (["_1"].map priceField))).map
        (fun caster => (caster.param, caster.generic)) = [("1_", "Cast1")] ∧
      ¬ (isIdentifier "1_" ∨ "1_" = "_") ∧
      (priceContract ["_1"]).typedCasters = .error (.invalidName "1_") :=
  ⟨namedAfter_priceField (by decide +kernel), by decide +kernel, by decide +kernel,
    eq_error_of_errorOf? (by decide +kernel)⟩

end PlainSchema.Contract
