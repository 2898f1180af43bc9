import PlainSchema.Proofs.Convert.Flattened
import PlainSchema.Proofs.Convert.Tags

/-!
# Strict and lenient conversions agree

A lenient conversion differs from a strict one in its casters and in what becomes of a field that
fails.  Where no field fails only the casters are left, and lenient casters that return what the
fallible ones return make the same message, `Converter.matches_convert`.

The agreement is carried from the casters to the values, from there to the fields and to the runs,
and by the number of levels to the messages inside of messages.
-/

namespace PlainSchema

open Proto

variable {fallible : Casters (Value → Except String Value)} {casters : Casters (Value → Value)}
  {strict lenient : ConvertNested}

/-! ## Casters and values -/

/-- Lenient casters for the fields of fallible ones, which return what these return. -/
structure Casters.AgreesWith (casters : Casters (Value → Value))
    (fallible : Casters (Value → Except String Value)) : Prop where
  keys : ∀ message field,
    (casters.get? message field).isSome ↔ (fallible.get? message field).isSome
  values : ∀ message field f g, fallible.get? message field = some f →
    casters.get? message field = some g → ∀ value found, f value = .ok found → g value = found

theorem Casters.AgreesWith.matches_cast (h : casters.AgreesWith fallible) (message field : String)
    (value : Value) :
    Matches ((Mode.strict fallible).cast message field value)
      ((Mode.lenient casters).cast message field value) := by
  intro found hfound
  rw [Mode.cast] at hfound
  split at hfound
  · next f hf =>
    obtain ⟨g, hg⟩ := Option.isSome_iff_exists.mp ((h.keys message field).mpr (by rw [hf]; rfl))
    split at hfound
    · next v hv =>
      obtain rfl := Except.ok.inj hfound
      rw [Mode.cast, hg]
      exact congrArg Except.ok (h.values message field f g hf hg value v hv)
    · cases hfound
  · cases hfound

section Values

variable (hnested : ∀ type m, Matches (strict type m) (lenient type m))

include hnested

theorem matches_convertSingle (target : FieldType) (value : Value) :
    Matches (convertSingle strict target value) (convertSingle lenient target value) := by
  cases value with
  | message m =>
    cases target with
    | message name group => exact (hnested name m).bind fun _ => .refl _
    | _ => exact .refl _
  | _ => exact .refl _

theorem matches_convertValue (pool : Pool) (target : FieldType) (value : Value) :
    Matches (convertValue pool strict target value) (convertValue pool lenient target value) := by
  cases value with
  | list items =>
    exact (Matches.mapM (matches_convertSingle hnested target) items).bind fun _ => .refl _
  | map entries =>
    rw [convertValue, convertValue]
    split
    · next field _ =>
      exact (Matches.mapM (fun entry => (matches_convertSingle hnested field.type entry.2).bind
        fun _ => .refl _) entries).bind fun _ => .refl _
    · exact .refl _
  | message m => exact matches_convertSingle hnested target _
  | _ => exact .refl _

theorem matches_carry (plan : FieldPlan) (pool plain : Pool) (leaf : Field) (target : FieldType)
    (value : Value) :
    Matches (plan.carry pool plain strict leaf target value)
      (plan.carry pool plain lenient leaf target value) := by
  rw [FieldPlan.carry, FieldPlan.carry]
  by_cases hserialized : plan.origin.isSerialized
  · rw [if_pos hserialized, if_pos hserialized]
    exact .refl _
  rw [if_neg hserialized, if_neg hserialized]
  by_cases halias : plan.origin.aliasType.isSome
  · rw [if_pos halias, if_pos halias]
    exact .refl _
  rw [if_neg halias, if_neg halias]
  cases plan.origin.enumFormat with
  | none => exact matches_convertValue hnested plain target value
  | some format => cases format <;> exact .refl _

theorem matches_uncarry (plan : FieldPlan) (source : Pool) (leaf : Field) (value : Value) :
    Matches (plan.uncarry source strict leaf value) (plan.uncarry source lenient leaf value) := by
  rw [FieldPlan.uncarry, FieldPlan.uncarry]
  by_cases hserialized : plan.origin.isSerialized
  · rw [if_pos hserialized, if_pos hserialized]
    exact .refl _
  rw [if_neg hserialized, if_neg hserialized]
  by_cases halias : plan.origin.aliasType.isSome
  · rw [if_pos halias, if_pos halias]
    exact .refl _
  rw [if_neg halias, if_neg halias]
  cases plan.origin.enumFormat with
  | none => exact matches_convertValue hnested source leaf.type value
  | some format => cases format <;> exact .refl _

end Values

/-! ## Runs -/

theorem Mode.matches_settle {α : Type} {x y : Except ConvertError α} (h : Matches x y)
    (left left' : α) (mode : Mode) : Matches ((Mode.strict fallible).settle left x) (mode.settle left' y) := by
  intro a ha
  rw [settle_strict] at ha
  rw [h a ha, settle_ok]

namespace Flattening

/-- The same conversion in some mode and with some conversion of the messages inside. -/
def inMode (c : Flattening) (mode : Mode) (nested : ConvertNested) : Flattening :=
  { c with mode, nested }

variable {c : Flattening} (hcasters : casters.AgreesWith fallible)
  (hnested : ∀ type m, Matches (strict type m) (lenient type m))

include hcasters hnested

theorem matches_adapted (plan : FieldPlan) (target leaf : Field) (value : Value) :
    Matches ((c.inMode (.strict fallible) strict).adapted plan target leaf value)
      ((c.inMode (.lenient casters) lenient).adapted plan target leaf value) := by
  refine (matches_carry hnested plan c.pool c.plain leaf target.type value).bind fun carried => ?_
  by_cases hneeds : plan.needsCaster
  · rw [if_pos hneeds, if_pos hneeds]
    exact hcasters.matches_cast _ _ _
  · rw [if_neg hneeds, if_neg hneeds]
    exact .refl _

theorem matches_fillValue (plan : FieldPlan) (target : Field) (out : Message) :
    Matches ((c.inMode (.strict fallible) strict).fillValue plan target out)
      ((c.inMode (.lenient casters) lenient).fillValue plan target out) := by
  rw [fillValue, fillValue]
  dsimp only [inMode]
  cases firstPopulated? c.pool c.source (c.plan.sourcePaths plan) with
  | none => exact .refl _
  | some found =>
    exact ((matches_adapted hcasters hnested plan target found.2.1 found.2.2).bind fun _ =>
      .refl _).bind fun _ => .refl _

theorem matches_fillField (out : Message) (plan : FieldPlan) :
    Matches ((c.inMode (.strict fallible) strict).fillField out plan)
      ((c.inMode (.lenient casters) lenient).fillField out plan) := by
  refine (Matches.refl (requireField c.type plan.shape.name)).bind fun target => ?_
  cases plan.origin.role with
  | some role => cases role <;> exact .refl _
  | none =>
    dsimp only
    by_cases hvirtual : plan.origin.isVirtual
    · rw [if_pos hvirtual, if_pos hvirtual]
      exact .refl _
    · rw [if_neg hvirtual, if_neg hvirtual]
      exact matches_fillValue hcasters hnested plan target out

/-- What a strict conversion makes of a message, a lenient one makes of it too. -/
theorem matches_run :
    Matches (c.inMode (.strict fallible) strict).run (c.inMode (.lenient casters) lenient).run :=
  Matches.foldlM (fun out plan => Mode.matches_settle (matches_fillField hcasters hnested out plan) _ _ _)
    _ _

end Flattening

namespace Restoring

variable {c : Restoring} (hcasters : casters.AgreesWith fallible)
  (hnested : ∀ type m, Matches (strict type m) (lenient type m))

include hcasters hnested

theorem matches_adapted (selection : Selection) (plan : FieldPlan) :
    Matches ((c.inMode (.strict fallible) strict).adapted selection plan)
      ((c.inMode (.lenient casters) lenient).adapted selection plan) := by
  have hpath : ∀ mode nested selected,
      (c.inMode mode nested).writePath plan selected = c.writePath plan selected := fun _ _ _ => rfl
  rw [adapted, adapted]
  simp only [hpath]
  refine (Matches.refl _).bind fun type => (Matches.refl _).bind fun field => ?_
  dsimp only [inMode]
  cases c.plain.get? c.pool field with
  | none => exact .refl _
  | some value =>
    refine (Matches.refl _).bind fun _ => ?_
    cases c.source.resolvePath c.type
        (c.writePath plan (plan.origin.oneofGroup.bind fun oneof => List.lookup oneof selection)) with
    | none => exact .error _ _
    | some leaf =>
      have huncarry (cast : Value) := (matches_uncarry hnested plan c.source leaf cast).bind
        fun value => .refl (.ok (some (Write.mk (c.writePath plan (selectedFor selection plan)) value)))
      dsimp only
      by_cases hneeds : plan.needsCaster
      · rw [if_pos hneeds, if_pos hneeds]
        exact (hcasters.matches_cast _ _ _).bind huncarry
      · rw [if_neg hneeds, if_neg hneeds]
        exact huncarry value

theorem matches_restoreField (selection : Selection) (out : Message) (plan : FieldPlan) :
    Matches ((c.inMode (.strict fallible) strict).restoreField selection out plan)
      ((c.inMode (.lenient casters) lenient).restoreField selection out plan) := by
  rw [restoreField, restoreField]
  cases plan.origin.role with
  | some role => cases role <;> exact .refl _
  | none =>
    dsimp only
    by_cases hvirtual : plan.origin.isVirtual
    · rw [if_pos hvirtual, if_pos hvirtual]
      exact .refl _
    · rw [if_neg hvirtual, if_neg hvirtual]
      refine (matches_adapted hcasters hnested selection plan).bind fun write => ?_
      cases write <;> exact .refl _

/-- What a strict conversion back makes of a Plain message, a lenient one makes of it too. -/
theorem matches_run :
    Matches (c.inMode (.strict fallible) strict).run (c.inMode (.lenient casters) lenient).run := by
  refine Matches.bind (Matches.foldlM (fun _ _ => Mode.matches_settle (.refl _) _ _ _) _ _)
    fun selection => ?_
  refine Matches.bind (Matches.foldlM (fun out plan => Mode.matches_settle
    (matches_restoreField hcasters hnested selection out plan) _ _ _) _ _) fun out => ?_
  exact Matches.foldlM (fun _ _ => Mode.matches_settle (.refl _) _ _ _) _ _

end Restoring

/-! ## Messages inside messages -/

namespace Converter

variable (c : Converter) (hcasters : casters.AgreesWith fallible) (direction : Direction) (pool : Pool)

theorem matches_transcode (target : Pool)
    (hnested : ∀ type m, Matches (strict type m) (lenient type m)) (type : String) (m : Message) :
    Matches (transcode pool target strict type m) (transcode pool target lenient type m) := by
  rw [transcode, transcode]
  refine (Matches.refl _).bind fun before => (Matches.refl _).bind fun after => ?_
  refine Matches.foldlM (fun out entry => ?_) _ _
  dsimp only
  split
  · exact .refl _
  · next field _ =>
    exact (matches_convertValue hnested target field.type entry.2).bind fun _ => .refl _

include hcasters

theorem matches_byPlan (hnested : ∀ type m, Matches (strict type m) (lenient type m))
    (m : Message) (mp : MessagePlan) :
    Matches (c.byPlan (.strict fallible) strict pool m mp direction)
      (c.byPlan (.lenient casters) lenient pool m mp direction) := by
  cases direction with
  | toPlain =>
    refine (Matches.refl (requireType c.plain mp.newFullName)).bind fun type => ?_
    exact Flattening.matches_run (c := Flattening.mk pool c.plain (.strict fallible) strict mp type m)
      hcasters hnested
  | toSource =>
    refine (Matches.refl (requireType c.source mp.fullName)).bind fun type => ?_
    exact Restoring.matches_run (c := Restoring.mk pool c.source (.strict fallible) strict mp type m)
      hcasters hnested

theorem matches_convertMessage (hnested : ∀ type m, Matches (strict type m) (lenient type m))
    (type : String) (m : Message) :
    Matches (c.convertMessage (.strict fallible) direction pool strict type m)
      (c.convertMessage (.lenient casters) direction pool lenient type m) := by
  unfold convertMessage
  split
  · next mp _ => exact c.matches_byPlan hcasters direction pool hnested m mp
  · exact matches_transcode pool (c.target direction) hnested type m

theorem matches_convertWithin (hbeyond : ∀ type m, Matches (strict type m) (lenient type m))
    (levels : Nat) (type : String) (m : Message) :
    Matches (c.convertWithin (.strict fallible) direction pool strict levels type m)
      (c.convertWithin (.lenient casters) direction pool lenient levels type m) := by
  induction levels generalizing type m with
  | zero => exact hbeyond type m
  | succ levels ih =>
    rw [convertWithin, convertWithin]
    split
    · exact hbeyond type m
    · exact c.matches_convertMessage hcasters direction pool ih type m

theorem matches_convertNested (deeper : Nat) (type : String) (m : Message) :
    Matches (c.convertNested (.strict fallible) direction pool deeper type m)
      (c.convertNested (.lenient casters) direction pool deeper type m) := by
  induction deeper generalizing type m with
  | zero => exact .error _ _
  | succ deeper ih => exact c.matches_convertWithin hcasters direction pool ih m.depth type m

/-- **A lenient conversion makes what a strict one makes**, if its casters return what the fallible ones
return. -/
theorem matches_convert (m : Message) :
    Matches (c.convert (.strict fallible) direction pool m)
      (c.convert (.lenient casters) direction pool m) := by
  rw [convert, convert]
  split
  · next mp _ =>
    exact c.matches_byPlan hcasters direction pool
      (c.matches_convertNested hcasters direction pool (levels m)) m mp
  · exact .error _ _

end Converter

end PlainSchema
