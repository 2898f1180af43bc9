import PlainSchema.Convert.ToPlain
import PlainSchema.Proofs.Convert.Restored

/-!
# The writes of a conversion to a Plain message

Every plan writes a list of fields that depends on the source message alone, `Flattening.writes`, and
filling the fields of a Plain message is all these writes in order, `Flattening.exists_writes`.  A plan
writes its own field, and the companion of its field if that is merged, `Flattening.name_of_writes`.
-/

namespace PlainSchema

open Proto

/-! ## Writes one after another -/

namespace Message

variable {type : MessageType} {target : Field} {value : Value} {out : Message}

/-- A message with fields written one after another. -/
def setAll (out : Message) (type : MessageType) (written : List (Field × Value)) : Message :=
  written.foldl (fun out w => out.set type w.1 w.2) out

theorem setAll_append (out : Message) (type : MessageType) (first second : List (Field × Value)) :
    out.setAll type (first ++ second) = (out.setAll type first).setAll type second :=
  List.foldl_append

theorem type_setAll (out : Message) (type : MessageType) (written : List (Field × Value)) :
    (out.setAll type written).type = out.type := by
  induction written generalizing out with
  | nil => rfl
  | cons w written ih =>
    rw [setAll, List.foldl_cons]
    exact (ih _).trans (type_set out type w.1 w.2)

/-- Writes of other fields leave a field alone, unless one of them excludes it. -/
theorem value?_setAll_of_not_excludes (hlinked : type.Linked) (htarget : target ∈ type.fields)
    {written : List (Field × Value)} (hothers : ∀ w ∈ written, w.1.number ≠ target.number)
    (hfree : ∀ w ∈ written, ¬ w.1.Excludes target) :
    (out.setAll type written).value? target.number = out.value? target.number := by
  induction written generalizing out with
  | nil => rfl
  | cons w written ih =>
    rw [setAll, List.foldl_cons]
    change (Message.setAll (out.set type w.1 w.2) type written).value? target.number = _
    rw [ih (fun other hother => hothers other (List.mem_cons_of_mem _ hother))
      fun other hother => hfree other (List.mem_cons_of_mem _ hother)]
    exact value?_set_of_not_excludes hlinked htarget (hothers w List.mem_cons_self)
      (hfree w List.mem_cons_self)

/-- A field that a write excludes is not set, unless it is written again. -/
theorem value?_setAll_of_excludes (hlinked : type.Linked) (htarget : target ∈ type.fields)
    {written : List (Field × Value)} (hothers : ∀ w ∈ written, w.1.number ≠ target.number)
    (hexcludes : ∃ w ∈ written, w.1.Excludes target) :
    (out.setAll type written).value? target.number = none := by
  obtain ⟨w, hw, hexcludes⟩ := hexcludes
  obtain ⟨before, after, rfl⟩ := List.append_of_mem hw
  rw [setAll_append, setAll, List.foldl_cons]
  change (Message.setAll _ type after).value? target.number = none
  have hcleared : ((out.setAll type before).set type w.1 w.2).value? target.number = none :=
    value?_set_excluded htarget hexcludes
  generalize (out.setAll type before).set type w.1 w.2 = cleared at hcleared
  -- Whatever is written behind, it is not this field.
  have hlater : ∀ other ∈ after, other.1.number ≠ target.number :=
    fun other hother => hothers other (by simp [hother])
  clear hw hothers
  induction after generalizing cleared with
  | nil => exact hcleared
  | cons other after ih =>
    rw [setAll, List.foldl_cons]
    refine ih _ ?_ fun third hthird => hlater third (List.mem_cons_of_mem _ hthird)
    by_cases hother : other.1.Excludes target
    · exact value?_set_excluded htarget hother
    · rw [value?_set_of_not_excludes hlinked htarget (hlater other List.mem_cons_self) hother]
      exact hcleared

end Message

namespace Flattening

variable {c : Flattening} {casters : Casters (Value → Except String Value)} {plan : FieldPlan}
  {target : Field} {out out' p : Message}

/-! ## The writes of a plan -/

/-- The fields that a plan with a way back writes: the Plain field, and its companion if it is
merged. -/
def valueWrites (c : Flattening) (plan : FieldPlan) (target : Field) :
    Except ConvertError (List (Field × Value)) :=
  match firstPopulated? c.pool c.source (c.plan.sourcePaths plan) with
  | none => .ok []
  | some (path, leaf, value) => do
    let found ← c.adapted plan target leaf value
    match path.record with
    | none => return [(target, found)]
    | some (companion, text) =>
      return [(target, found), (← requireField c.type companion, .string text)]

/-- The field that a plan with a role for a oneof writes. -/
def roleWrites (c : Flattening) (role : Role) (target : Field) :
    Except ConvertError (List (Field × Value)) :=
  match role, c.populated? role.target with
  | .dispatchTag _, some (index, _) => .ok [(target, .enum (Int32.ofNat (index + 1)))]
  | .discriminator _, some (_, member) =>
    match discriminatorOf? member with
    | some tag => .ok [(target, .string tag)]
    | none => .ok []
  | .payload _, some (_, member) =>
    match c.source.type? c.pool with
    | none => .error (.invalidValue target.name)
    | some type =>
      match type.field? member.name with
      | none => .error (.invalidValue target.name)
      | some field => .ok [(target, .bytes (c.payloadOf field type))]
  | _, _ => .ok []

/-- The fields that a plan writes, in order. -/
def writes (c : Flattening) (plan : FieldPlan) : Except ConvertError (List (Field × Value)) := do
  let target ← requireField c.type plan.shape.name
  match plan.origin.role with
  | some (.crfPath _) => return []
  | some role => c.roleWrites role target
  | none => if plan.origin.isVirtual then return [] else c.valueWrites plan target

/-- Fields that take the values were written one after another. -/
structure Wrote (c : Flattening) (out : Message) (written : List (Field × Value)) (out' : Message) :
    Prop where
  eq : out' = out.setAll c.type written
  accepts : ∀ w ∈ written, c.plain.accepts w.1 w.2

namespace Wrote

variable {written more : List (Field × Value)} {field : Field} {value : Value} {next : Message}

theorem nil : c.Wrote out [] out :=
  ⟨rfl, fun _ hw => absurd hw List.not_mem_nil⟩

theorem append (h : c.Wrote out written out') (h' : c.Wrote out' more next) :
    c.Wrote out (written ++ more) next := by
  refine ⟨?_, ?_⟩
  · rw [Message.setAll_append, ← h.eq]
    exact h'.eq
  · intro w hw
    rcases List.mem_append.mp hw with hw | hw
    · exact h.accepts w hw
    · exact h'.accepts w hw

theorem one (h : c.set out field value = .ok out') : c.Wrote out [(field, value)] out' := by
  obtain ⟨haccepts, hset⟩ := Restoring.setField_eq_ok h
  refine ⟨hset, fun w hw => ?_⟩
  rw [List.mem_singleton.mp hw]
  exact haccepts

end Wrote

theorem fillValue_eq_ok (h : c.fillValue plan target out = .ok out') :
    ∃ written, c.valueWrites plan target = .ok written ∧ c.Wrote out written out' := by
  rw [fillValue] at h
  rw [valueWrites]
  cases hfirst : firstPopulated? c.pool c.source (c.plan.sourcePaths plan) with
  | none =>
    simp only [hfirst] at h
    obtain rfl := Except.ok.inj h
    exact ⟨[], rfl, .nil⟩
  | some first =>
    obtain ⟨path, leaf, value⟩ := first
    simp only [hfirst] at h
    obtain ⟨second, hsecond, h⟩ := bind_eq_ok.mp h
    rw [fillTarget] at hsecond
    obtain ⟨found, hfound, hsecond⟩ := bind_eq_ok.mp hsecond
    rw [fillCompanion] at h
    cases hrecord : path.record with
    | none =>
      simp only [hrecord] at h ⊢
      obtain rfl := Except.ok.inj h
      exact ⟨[(target, found)], by rw [hfound]; rfl, .one hsecond⟩
    | some record =>
      obtain ⟨companion, text⟩ := record
      simp only [hrecord] at h ⊢
      obtain ⟨field, hfield, h⟩ := bind_eq_ok.mp h
      exact ⟨[(target, found)] ++ [(field, .string text)], by rw [hfound, hfield]; rfl,
        (Wrote.one hsecond).append (.one h)⟩

theorem fillRole_eq_ok {role : Role} (h : c.fillRole role target out = .ok out') :
    ∃ written, c.roleWrites role target = .ok written ∧ c.Wrote out written out' := by
  have hnone : (.ok out : Except ConvertError Message) = .ok out' → c.Wrote out [] out' := by
    rintro ⟨⟩
    exact .nil
  unfold fillRole at h
  unfold roleWrites
  cases hpopulated : c.populated? role.target with
  | none =>
    rw [hpopulated] at h
    cases role <;> exact ⟨[], rfl, hnone h⟩
  | some populated =>
    obtain ⟨index, member⟩ := populated
    rw [hpopulated] at h
    cases role with
    | dispatchTag oneof => exact ⟨_, rfl, .one h⟩
    | crfPath field => exact ⟨[], rfl, hnone h⟩
    | discriminator oneof =>
      dsimp only at h ⊢
      cases htag : discriminatorOf? member with
      | none =>
        rw [htag] at h
        exact ⟨[], rfl, hnone h⟩
      | some tag =>
        rw [htag] at h
        exact ⟨_, rfl, .one h⟩
    | payload oneof =>
      dsimp only at h ⊢
      rw [fillPayload] at h
      cases htype : c.source.type? c.pool with
      | none =>
        rw [htype] at h
        exact absurd h (by simp)
      | some type =>
        rw [htype] at h
        dsimp only at h ⊢
        cases hfield : type.field? member.name with
        | none =>
          rw [hfield] at h
          exact absurd h (by simp)
        | some field =>
          rw [hfield] at h
          exact ⟨_, rfl, .one h⟩

/-- Filling a field is its writes in order. -/
theorem fillField_eq_ok (h : c.fillField out plan = .ok out') :
    ∃ written, c.writes plan = .ok written ∧ c.Wrote out written out' := by
  rw [fillField] at h
  obtain ⟨target, htarget, h⟩ := bind_eq_ok.mp h
  rw [writes, htarget]
  dsimp only [bind, Except.bind]
  have hnone : (.ok out : Except ConvertError Message) = .ok out' → c.Wrote out [] out' := by
    rintro ⟨⟩
    exact .nil
  cases hrole : plan.origin.role with
  | none =>
    simp only [hrole] at h ⊢
    by_cases hvirtual : plan.origin.isVirtual
    · rw [if_pos hvirtual] at h ⊢
      exact ⟨[], rfl, hnone h⟩
    · rw [if_neg hvirtual] at h ⊢
      exact fillValue_eq_ok h
  | some role =>
    simp only [hrole] at h ⊢
    cases role with
    | crfPath field => exact ⟨[], rfl, hnone h⟩
    | _ => exact fillRole_eq_ok h

theorem fillStep_strict (hmode : c.mode = .strict casters) : c.fillStep = c.fillField := by
  funext out plan
  rw [fillStep, hmode, Mode.settle_strict]

/-- Filling fields in a row is all their writes in order. -/
theorem exists_writes {plans : List FieldPlan} (h : plans.foldlM c.fillField out = .ok out') :
    ∃ lists, List.Forall₂ (fun plan written => c.writes plan = .ok written) plans lists ∧
      c.Wrote out lists.flatten out' := by
  induction plans generalizing out with
  | nil =>
    obtain rfl := Except.ok.inj h
    exact ⟨[], .nil, .nil⟩
  | cons plan plans ih =>
    obtain ⟨second, hsecond, hrest⟩ := foldlM_cons_eq_ok.mp h
    obtain ⟨written, hwritten, hwrote⟩ := fillField_eq_ok hsecond
    obtain ⟨lists, hlists, hmore⟩ := ih hrest
    exact ⟨written :: lists, .cons hwritten hlists, hwrote.append hmore⟩

theorem requireField_eq_ok {type : MessageType} {name : String} {field : Field}
    (h : requireField type name = .ok field) : type.field? name = some field := by
  rw [requireField] at h
  split at h
  · next found hfound => rw [hfound, Except.ok.inj h]
  · exact absurd h (by simp)

/-- What is written with a value that was read from a path: the text that records the path. -/
inductive Records (c : Flattening) (plan : FieldPlan) (path : SourcePath) : List (Field × Value) → Prop
  | nothing (hrecord : path.record = none) : Records c plan path []
  | companion {entry : CrfEntry} {text : String} {field : Field}
      (hentry : c.plan.mergedField? plan.shape.name = some entry)
      (hrecord : path.record = some (entry.crfField, text)) (htext : text ∈ entry.sources)
      (hfield : c.type.field? entry.crfField = some field) :
      Records c plan path [(field, .string text)]

/-- The first populated path of a plan is one of its paths. -/
theorem firstPopulated?_eq_some {pool : Pool} {m : Message} {paths : List SourcePath}
    {path : SourcePath} {leaf : Field} {value : Value}
    (h : firstPopulated? pool m paths = some (path, leaf, value)) :
    path ∈ paths ∧ m.read? pool path.names = some (leaf, value) := by
  obtain ⟨found, hmem, hfound⟩ := List.exists_of_findSome?_eq_some h
  obtain ⟨pair, hread, heq⟩ := Option.map_eq_some_iff.mp hfound
  obtain ⟨rfl, rfl⟩ := Prod.mk.inj heq
  exact ⟨hmem, hread⟩

/-- A plan with a way back writes nothing, or the value of the first populated origin and its
record. -/
theorem valueWrites_eq_ok {written : List (Field × Value)}
    (h : c.valueWrites plan target = .ok written) :
    (firstPopulated? c.pool c.source (c.plan.sourcePaths plan) = none ∧ written = []) ∨
      ∃ path leaf value found record,
        firstPopulated? c.pool c.source (c.plan.sourcePaths plan) = some (path, leaf, value) ∧
        c.adapted plan target leaf value = .ok found ∧ c.Records plan path record ∧
        written = (target, found) :: record := by
  rw [valueWrites] at h
  cases hfirst : firstPopulated? c.pool c.source (c.plan.sourcePaths plan) with
  | none =>
    rw [hfirst] at h
    exact Or.inl ⟨rfl, (Except.ok.inj h).symm⟩
  | some first =>
    obtain ⟨path, leaf, value⟩ := first
    rw [hfirst] at h
    obtain ⟨found, hfound, h⟩ := bind_eq_ok.mp h
    refine Or.inr ⟨path, leaf, value, found, ?_⟩
    have hmem := (firstPopulated?_eq_some hfirst).1
    rw [MessagePlan.sourcePaths] at hmem
    cases hentry : c.plan.mergedField? plan.shape.name with
    | none =>
      rw [hentry] at hmem
      have hrecord : path.record = none := by rw [List.mem_singleton.mp hmem]
      simp only [hrecord] at h
      exact ⟨[], rfl, hfound, .nothing hrecord, (Except.ok.inj h).symm⟩
    | some entry =>
      rw [hentry] at hmem
      obtain ⟨source, hsource, heq⟩ := List.mem_map.mp hmem
      have hrecord : path.record = some (entry.crfField, source) := by rw [← heq]
      simp only [hrecord] at h
      obtain ⟨field, hfield, h⟩ := bind_eq_ok.mp h
      exact ⟨[(field, .string source)], rfl, hfound,
        .companion hentry hrecord hsource (requireField_eq_ok hfield), (Except.ok.inj h).symm⟩

theorem mem_roleWrites {role : Role} {written : List (Field × Value)}
    (h : c.roleWrites role target = .ok written) {w : Field × Value} (hw : w ∈ written) :
    w.1 = target := by
  unfold roleWrites at h
  have hone : ∀ {value : Value}, (.ok [(target, value)] : Except ConvertError _) = .ok written →
      w.1 = target := by
    intro value heq
    rw [← Except.ok.inj heq, List.mem_singleton] at hw
    rw [hw]
  have hnone : (.ok [] : Except ConvertError _) = .ok written → w.1 = target := by
    intro heq
    rw [← Except.ok.inj heq] at hw
    exact absurd hw List.not_mem_nil
  repeat' split at h
  all_goals first | exact hone h | exact hnone h | exact absurd h (by simp)

/-- A plan writes its own field, and one of its origins to the companion of its field if that is
merged. -/
theorem name_of_writes {written : List (Field × Value)} (h : c.writes plan = .ok written)
    {w : Field × Value} (hw : w ∈ written) :
    w.1 ∈ c.type.fields ∧ (w.1.name = plan.shape.name ∨
      ∃ entry, c.plan.mergedField? plan.shape.name = some entry ∧ w.1.name = entry.crfField ∧
        ∃ text ∈ entry.sources, w.2 = .string text) := by
  rw [writes] at h
  obtain ⟨target, htarget, h⟩ := bind_eq_ok.mp h
  have hown := MessageType.field?_mem (requireField_eq_ok htarget)
  have hnone : (pure [] : Except ConvertError _) = .ok written → w.1 = target := by
    intro heq
    rw [← Except.ok.inj heq] at hw
    exact absurd hw List.not_mem_nil
  split at h
  · rw [hnone h]
    exact hown.imp_right Or.inl
  · rw [mem_roleWrites h hw]
    exact hown.imp_right Or.inl
  · split at h
    · rw [hnone h]
      exact hown.imp_right Or.inl
    · rcases valueWrites_eq_ok h with ⟨-, rfl⟩ | ⟨path, leaf, value, found, record, -, -, hrecord,
        rfl⟩
      · exact absurd hw List.not_mem_nil
      · rcases List.mem_cons.mp hw with rfl | hw
        · exact hown.imp_right Or.inl
        · cases hrecord with
          | nothing => exact absurd hw List.not_mem_nil
          | companion hentry _ htext hfield =>
            rw [List.mem_singleton.mp hw]
            obtain ⟨hmem, hname⟩ := MessageType.field?_mem hfield
            exact ⟨hmem, Or.inr ⟨_, hentry, hname, _, htext, rfl⟩⟩

/-! ## Steps in both modes -/

/-- A step writes its own field and companions, whether it fails or not. -/
theorem fillStep_eq_ok (h : c.fillStep out plan = .ok out') :
    ∃ written, out' = out.setAll c.type written ∧ ∀ w ∈ written, w.1 ∈ c.type.fields ∧
      (w.1.name = plan.shape.name ∨ ∃ entry ∈ c.plan.crf, w.1.name = entry.crfField) := by
  have hkept : ∃ written, out = out.setAll c.type written ∧ ∀ w ∈ written, w.1 ∈ c.type.fields ∧
      (w.1.name = plan.shape.name ∨ ∃ entry ∈ c.plan.crf, w.1.name = entry.crfField) :=
    ⟨[], rfl, fun _ hw => absurd hw List.not_mem_nil⟩
  rcases Mode.settle_eq_ok h with rfl | h
  · -- What a failing step leaves is the field without its companion.
    rw [leftBehind]
    split
    · next target _ leaf value htarget _ =>
      split
      · cases hfill : c.fillTarget plan target leaf value out with
        | error e => exact hkept
        | ok next =>
          obtain ⟨value, -, hset⟩ := bind_eq_ok.mp hfill
          obtain ⟨-, rfl⟩ := Restoring.setField_eq_ok hset
          refine ⟨[(target, value)], rfl, fun w hw => ?_⟩
          rw [List.mem_singleton.mp hw]
          exact (MessageType.field?_mem (requireField_eq_ok htarget)).imp_right Or.inl
      · exact hkept
    · exact hkept
  · obtain ⟨written, hwrites, hwrote⟩ := fillField_eq_ok h
    refine ⟨written, hwrote.eq, fun w hw => ?_⟩
    obtain ⟨hmem, hname⟩ := name_of_writes hwrites hw
    refine ⟨hmem, hname.imp_right ?_⟩
    rintro ⟨entry, hentry, hcompanion, -⟩
    exact ⟨entry, List.mem_of_find?_eq_some hentry, hcompanion⟩

/-- The type of a Plain message is the one that was asked for. -/
theorem type_run (h : c.run = .ok p) : p.type = c.type.fullName := by
  refine foldlM_invariant (fun out : Message => out.type = c.type.fullName) rfl ?_ h
  intro out plan next _ hbefore hstep
  obtain ⟨written, rfl, -⟩ := fillStep_eq_ok hstep
  rw [Message.type_setAll, hbefore]

end Flattening

end PlainSchema
