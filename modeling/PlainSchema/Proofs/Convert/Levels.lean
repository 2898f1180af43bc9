import PlainSchema.Convert.Converter
import PlainSchema.Proofs.Convert.Transcoded

/-!
# Levels make no difference on the way to Plain

A conversion to Plain converts nothing but messages that are nested in the message it was given, each
of them less deep than the one around it.  So no conversion runs out of levels, and a message inside
a value is converted as it would be by itself: `Converter.convertNested_toPlain` leaves the number of
levels open, and `Converter.toPlain_of_convertNested` starts over with all of them.

```text
convertSingle, convertValue, carry    the messages in the value
Flattening.run, transcode             the messages that the message stores
```
-/

namespace PlainSchema

open Proto

variable {pool plain : Pool} {nested nested' : ConvertNested} {target : FieldType} {value : Value}
  {leaf : Field} {m child : Message} {path : List String}

/-! ## Values -/

theorem convertSingle_congr (h : ∀ m, value = .message m → ∀ name, nested name m = nested' name m) :
    convertSingle nested target value = convertSingle nested' target value := by
  cases value with
  | message m =>
    cases target with
    | message name group =>
      rw [convertSingle, convertSingle, h m rfl name]
    | _ => rfl
  | _ => rfl

/-- Only the messages in a value are converted. -/
theorem convertValue_congr (h : ∀ m, value.Holds m → ∀ name, nested name m = nested' name m) :
    convertValue pool nested target value = convertValue pool nested' target value := by
  cases value with
  | list items =>
    have hitems : items.mapM (convertSingle nested target)
        = items.mapM (convertSingle nested' target) :=
      mapM_congr fun item hitem =>
        convertSingle_congr fun m hm => h m (.item (hm ▸ hitem))
    rw [convertValue, convertValue, hitems]
  | map entries =>
    have hentries : ∀ type : FieldType,
        convertEntries nested type entries = convertEntries nested' type entries := by
      intro type
      refine mapM_congr ?_
      rintro ⟨key, value⟩ hentry
      dsimp only
      rw [convertSingle_congr fun m hm => h m (.entry (hm ▸ hentry))]
    rw [convertValue, convertValue]
    simp only [hentries]
  | message m =>
    refine convertSingle_congr ?_
    rintro _ ⟨⟩
    exact h m .message
  | _ => rfl

theorem FieldPlan.carry_congr (plan : FieldPlan)
    (h : ∀ m, value.Holds m → ∀ name, nested name m = nested' name m) :
    plan.carry pool plain nested leaf target value = plan.carry pool plain nested' leaf target value := by
  rw [carry, carry, convertValue_congr h]

/-! ## Messages -/

/-- What is read in a message is less deep than the message. -/
theorem Message.depth_lt_of_read? (h : m.read? pool path = some (leaf, value))
    (hholds : value.Holds child) : child.depth < m.depth := by
  induction path generalizing m with
  | nil => cases h
  | cons name rest ih =>
    by_cases hrest : rest = []
    · subst hrest
      obtain ⟨_, -, -, hget⟩ := read?_singleton.mp h
      exact depth_lt_of_holds (value?_of_get? hget).2 hholds
    · obtain ⟨_, _, inner, -, -, hget, h⟩ := read?_hop hrest h
      have hinner : inner.depth < m.depth := depth_lt_of_holds (value?_of_get? hget).2 .message
      have hchild := ih h
      omega

namespace Flattening

variable {c : Flattening}
  (h : ∀ m : Message, m.depth < c.source.depth → ∀ name, c.nested name m = nested' name m)

include h

/-- A value that is read is adapted in the same way by conversions that agree on the messages in it. -/
theorem fillTarget_congr (plan : FieldPlan) (target leaf : Field) (out : Message)
    (hread : c.source.read? c.pool path = some (leaf, value)) :
    c.fillTarget plan target leaf value out
      = Flattening.fillTarget { c with nested := nested' } plan target leaf value out := by
  have hcarry : plan.carry c.pool c.plain c.nested leaf target.type value
      = plan.carry c.pool c.plain nested' leaf target.type value :=
    plan.carry_congr fun m hholds => h m (Message.depth_lt_of_read? hread hholds)
  simp only [fillTarget, adapted, hcarry]
  rfl

theorem fillStep_congr (out : Message) (plan : FieldPlan) :
    c.fillStep out plan = Flattening.fillStep { c with nested := nested' } out plan := by
  have hfirst : ∀ path leaf value,
      firstPopulated? c.pool c.source (c.plan.sourcePaths plan) = some (path, leaf, value) →
        c.source.read? c.pool path.names = some (leaf, value) := by
    intro path leaf value hfirst
    exact (firstPopulated?_eq_some hfirst).2
  have hvalue : ∀ target, c.fillValue plan target out
      = Flattening.fillValue { c with nested := nested' } plan target out := by
    intro target
    simp only [fillValue]
    split
    · rfl
    · next path leaf value hpopulated =>
      rw [fillTarget_congr h plan target leaf out (hfirst path leaf value hpopulated)]
      rfl
  have hleft : c.leftBehind out plan
      = Flattening.leftBehind { c with nested := nested' } out plan := by
    simp only [leftBehind]
    split
    · next hpopulated =>
      rw [fillTarget_congr h plan _ _ out (hfirst _ _ _ hpopulated)]
    · rfl
  rw [fillStep, fillStep, hleft]
  simp only [fillField, hvalue]
  rfl

/-- A message is converted in the same way by conversions that agree on less deep messages. -/
theorem run_congr : c.run = Flattening.run { c with nested := nested' } :=
  foldlM_congr (fun out plan _ => fillStep_congr h out plan) _

end Flattening

namespace Converter

variable {c : Converter} {mode : Mode} {name : String}

theorem transcode_congr (h : ∀ child : Message, child.depth < m.depth →
      ∀ name, nested name child = nested' name child) :
    transcode pool plain nested name m = transcode pool plain nested' name m := by
  rw [transcode, transcode]
  refine congrArg _ (funext fun before => congrArg _ (funext fun after => ?_))
  refine foldlM_congr ?_ _
  rintro out ⟨field, value⟩ hmem
  have hstored := (Message.value?_of_get? (mem_setFields.mp hmem).2).2
  have hconvert : ∀ type, convertValue plain nested type value = convertValue plain nested' type value :=
    fun type => convertValue_congr fun child hholds =>
      h child (Message.depth_lt_of_holds hstored hholds)
  simp only [hconvert]

theorem convertMessage_congr (h : ∀ child : Message, child.depth < m.depth →
      ∀ name, nested name child = nested' name child) :
    c.convertMessage mode .toPlain pool nested name m
      = c.convertMessage mode .toPlain pool nested' name m := by
  rw [convertMessage, convertMessage]
  split
  · next mp _ =>
    rw [byPlan, byPlan]
    exact congrArg _ (funext fun type => Flattening.run_congr h)
  · exact transcode_congr h

/-- With enough levels for the message, neither their number nor what lies beyond them matters. -/
theorem convertWithin_toPlain {beyond beyond' : ConvertNested} {levels levels' : Nat}
    (hlevels : m.depth ≤ levels) (hlevels' : m.depth ≤ levels') :
    c.convertWithin mode .toPlain pool beyond levels name m
      = c.convertWithin mode .toPlain pool beyond' levels' name m := by
  have hpositive : 0 < m.depth := by
    cases m
    exact Nat.succ_pos _
  induction levels generalizing levels' name m with
  | zero => omega
  | succ levels ih =>
    cases levels' with
    | zero => omega
    | succ levels' =>
      rw [convertWithin, convertWithin, if_neg (by omega), if_neg (by omega)]
      refine convertMessage_congr fun child hchild name => ?_
      refine ih (by omega) (by omega) ?_
      cases child
      exact Nat.succ_pos _

/-- **A message inside a value is converted to Plain like the message itself**, whatever the number of
levels that are left. -/
theorem convertNested_toPlain (deeper deeper' : Nat) :
    c.convertNested mode .toPlain pool (deeper + 1) name m
      = c.convertMessage mode .toPlain pool
          (c.convertNested mode .toPlain pool (deeper' + 1)) name m := by
  obtain ⟨levels, hlevels⟩ : ∃ levels, m.depth = levels + 1 := by
    cases m
    exact ⟨_, rfl⟩
  rw [convertNested, hlevels, convertWithin, if_neg (by omega)]
  refine convertMessage_congr fun child hchild name => ?_
  rw [convertNested]
  exact convertWithin_toPlain (by omega) (Nat.le_refl _)

theorem convertNested_toPlain_eq (deeper deeper' : Nat) :
    c.convertNested mode .toPlain pool (deeper + 1) name m
      = c.convertNested mode .toPlain pool (deeper' + 1) name m := by
  rw [convertNested_toPlain deeper 0, convertNested_toPlain deeper' 0]

/-- A message with a plan is converted inside a value as it is by itself. -/
theorem toPlain_of_convertNested {fillers : Casters (Value → Except String Value)} {mp : MessagePlan}
    (hmp : c.planFor? m.type .toPlain = some mp) (deeper : Nat) :
    c.convertNested (.strict fillers) .toPlain pool (deeper + 1) name m
      = c.toPlain fillers pool m := by
  rw [convertNested_toPlain deeper 99, convertMessage, hmp, toPlain, convert, hmp]
  rfl

end Converter

end PlainSchema
