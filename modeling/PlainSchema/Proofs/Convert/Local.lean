import PlainSchema.Proofs.Convert.Kept
import PlainSchema.Proofs.Value.InPlace

/-!
# Steps on one field

A step of a conversion back looks at one field of the source message and writes that field or
nothing, `Restoring.actsOnOne_restoreStep` and `Restoring.actsOnOne_ensureSelected`.  What a failing
write leaves behind stands in that field, too.  So messages that agree outside a set of fields still
agree outside it after the same step, as long as the set holds the members of a oneof all or none,
`ActsOnOne.agreeOutside`.
-/

namespace PlainSchema

open Proto

variable {pool : Pool} {type : MessageType} {field : Field} {touched : Field → Prop}
  {step : Message → Except ConvertError Message} {out out' next next' : Message}

/-! ## Messages that agree outside some fields -/

/-- Two messages of one type hold the same in every field that is not touched. -/
structure AgreeOutside (pool : Pool) (type : MessageType) (touched : Field → Prop)
    (out out' : Message) : Prop where
  left : out.type? pool = some type
  right : out'.type? pool = some type
  agree : ∀ field ∈ type.fields, ¬ touched field →
    out.value? field.number = out'.value? field.number

/-- With a field, the other members of its oneof are touched too. -/
def MessageType.ClosedUnderOneofs (type : MessageType) (touched : Field → Prop) : Prop :=
  ∀ field, ∀ other ∈ type.fields, touched field → field.Excludes other → touched other

namespace AgreeOutside

theorem refl (htype : out.type? pool = some type) : AgreeOutside pool type touched out out :=
  ⟨htype, htype, fun _ _ _ => rfl⟩

theorem symm (h : AgreeOutside pool type touched out out') : AgreeOutside pool type touched out' out :=
  ⟨h.right, h.left, fun field hmem hfree => (h.agree field hmem hfree).symm⟩

theorem trans {third : Message} (h : AgreeOutside pool type touched out out')
    (h' : AgreeOutside pool type touched out' third) : AgreeOutside pool type touched out third :=
  ⟨h.left, h'.right, fun field hmem hfree =>
    (h.agree field hmem hfree).trans (h'.agree field hmem hfree)⟩

/-- Writing a touched field changes nothing outside. -/
theorem set_touched (hlinked : type.Linked) (hclosed : type.ClosedUnderOneofs touched)
    (htype : out.type? pool = some type) (hfield : field ∈ type.fields) (htouched : touched field)
    (value : Value) : AgreeOutside pool type touched out (out.set type field value) := by
  refine ⟨htype, Message.type?_set htype field value, fun other hother hfree => ?_⟩
  refine (Message.value?_set_of_not_excludes hlinked hother ?_ ?_).symm
  · intro heq
    exact hfree (hlinked.eq_of_number hfield hother heq ▸ htouched)
  · intro hexcludes
    exact hfree (hclosed field other hother htouched hexcludes)

/-- The same write takes messages that agree to messages that agree. -/
theorem set (hlinked : type.Linked) (h : AgreeOutside pool type touched out out') (value : Value) :
    AgreeOutside pool type touched (out.set type field value) (out'.set type field value) := by
  refine ⟨Message.type?_set h.left field value, Message.type?_set h.right field value, ?_⟩
  intro other hother hfree
  by_cases heq : field.number = other.number
  · rw [← heq, Message.value?_set_self, Message.value?_set_self]
  · by_cases hexcludes : field.Excludes other
    · rw [Message.value?_set_excluded hother hexcludes, Message.value?_set_excluded hother hexcludes]
    · rw [Message.value?_set_of_not_excludes hlinked hother heq hexcludes,
        Message.value?_set_of_not_excludes hlinked hother heq hexcludes]
      exact h.agree other hother hfree

end AgreeOutside

/-! ## Steps that act on one field -/

/-- A step does the same to all messages that hold the same value of a field: it fails, or changes
nothing, or writes a value to that field. -/
def ActsOn (pool : Pool) (type : MessageType) (field : Field)
    (step : Message → Except ConvertError Message) : Prop :=
  ∀ out out', out.type? pool = some type → out'.type? pool = some type →
    out.value? field.number = out'.value? field.number →
    (∃ e, step out = .error e ∧ step out' = .error e) ∨
      (step out = .ok out ∧ step out' = .ok out') ∨
      ∃ value, step out = .ok (out.set type field value) ∧
        step out' = .ok (out'.set type field value)

/-- A step writes nothing at all, or acts on one field, which is one of those that it may write. -/
inductive ActsOnOne (pool : Pool) (type : MessageType) (may : Field → Prop)
    (step : Message → Except ConvertError Message) : Prop
  | nothing (h : ∀ out, out.type? pool = some type → step out = .ok out ∨ ∃ e, step out = .error e)
  | field {field : Field} (hmem : field ∈ type.fields) (hmay : may field)
      (h : ActsOn pool type field step)

namespace ActsOnOne

variable {mode : Mode}

theorem settle_nothing (h : step out = .ok out ∨ ∃ e, step out = .error e)
    (hstep : mode.settle out (step out) = .ok next) : next = out := by
  rcases Mode.settle_eq_ok hstep with heq | hok
  · exact heq
  · rcases h with hkept | ⟨e, herror⟩
    · exact Except.ok.inj (hok.symm.trans hkept)
    · rw [herror] at hok
      exact absurd hok (by simp)

/-- A step changes nothing, or writes one of the fields that it may write. -/
theorem eq_or_set {may : Field → Prop} (h : ActsOnOne pool type may step)
    (htype : out.type? pool = some type) (hstep : mode.settle out (step out) = .ok next) :
    next = out ∨ ∃ field ∈ type.fields, may field ∧ ∃ value, next = out.set type field value := by
  cases h with
  | nothing h => exact Or.inl (settle_nothing (h out htype) hstep)
  | @field field hmem hmay h =>
    rcases h out out htype htype rfl with ⟨e, herror, -⟩ | ⟨hok, -⟩ | ⟨value, hset, -⟩
    · exact Or.inl (settle_nothing (Or.inr ⟨e, herror⟩) hstep)
    · exact Or.inl (settle_nothing (Or.inl hok) hstep)
    · rw [hset, Mode.settle_ok] at hstep
      exact Or.inr ⟨field, hmem, hmay, value, (Except.ok.inj hstep).symm⟩

/-- A step on a touched field changes nothing outside. -/
theorem agreeOutside_self (hlinked : type.Linked) (hclosed : type.ClosedUnderOneofs touched)
    (h : ActsOnOne pool type touched step) (htype : out.type? pool = some type)
    (hstep : mode.settle out (step out) = .ok next) : AgreeOutside pool type touched out next := by
  rcases h.eq_or_set htype hstep with rfl | ⟨field, hmem, htouched, value, rfl⟩
  · exact .refl htype
  · exact .set_touched hlinked hclosed htype hmem htouched value

/-- The same step takes messages that agree outside the touched fields to messages that do. -/
theorem agreeOutside (hlinked : type.Linked) (hclosed : type.ClosedUnderOneofs touched)
    (h : ActsOnOne pool type (fun _ => True) step) (hagree : AgreeOutside pool type touched out out')
    (hstep : mode.settle out (step out) = .ok next)
    (hstep' : mode.settle out' (step out') = .ok next') :
    AgreeOutside pool type touched next next' := by
  cases h with
  | nothing h =>
    rw [settle_nothing (h out hagree.left) hstep, settle_nothing (h out' hagree.right) hstep']
    exact hagree
  | @field field hmem _ h =>
    by_cases htouched : touched field
    · have hone : ActsOnOne pool type touched step := .field hmem htouched h
      have hleft := hone.agreeOutside_self hlinked hclosed hagree.left hstep
      have hright := hone.agreeOutside_self hlinked hclosed hagree.right hstep'
      exact hleft.symm.trans (hagree.trans hright)
    -- Where the field is the same in both messages, the step does the same to both.
    · rcases h out out' hagree.left hagree.right (hagree.agree field hmem htouched) with
        ⟨e, herror, herror'⟩ | ⟨hok, hok'⟩ | ⟨value, hset, hset'⟩
      · rw [settle_nothing (Or.inr ⟨e, herror⟩) hstep, settle_nothing (Or.inr ⟨e, herror'⟩) hstep']
        exact hagree
      · rw [settle_nothing (Or.inl hok) hstep, settle_nothing (Or.inl hok') hstep']
        exact hagree
      · rw [hset, Mode.settle_ok] at hstep
        rw [hset', Mode.settle_ok] at hstep'
        rw [← Except.ok.inj hstep, ← Except.ok.inj hstep']
        exact hagree.set hlinked value

theorem mono {may may' : Field → Prop} (h : ActsOnOne pool type may step)
    (hmono : ∀ field ∈ type.fields, may field → may' field) : ActsOnOne pool type may' step := by
  cases h with
  | nothing h => exact .nothing h
  | field hmem hmay h => exact .field hmem (hmono _ hmem hmay) h

end ActsOnOne

/-- What a failing step leaves behind in a field does not show elsewhere. -/
theorem ActsOn.settle {mode : Mode} {left : Message → Message} (h : ActsOn pool type field step)
    (hleft : ∀ out out', out.type? pool = some type → out'.type? pool = some type →
      out.value? field.number = out'.value? field.number →
      (left out = out ∧ left out' = out') ∨
        ∃ value, left out = out.set type field value ∧ left out' = out'.set type field value) :
    ActsOn pool type field fun out => mode.settle (left out) (step out) := by
  intro out out' htype htype' hsame
  dsimp only
  rcases h out out' htype htype' hsame with ⟨e, herror, herror'⟩ | ⟨hok, hok'⟩ | ⟨value, hset, hset'⟩
  · rw [herror, herror']
    cases mode with
    | strict casters => exact Or.inl ⟨e, rfl, rfl⟩
    | lenient casters =>
      right
      rcases hleft out out' htype htype' hsame with ⟨heq, heq'⟩ | ⟨value, hset, hset'⟩
      · exact Or.inl ⟨congrArg Except.ok heq, congrArg Except.ok heq'⟩
      · exact Or.inr ⟨value, congrArg Except.ok hset, congrArg Except.ok hset'⟩
  · rw [hok, hok', Mode.settle_ok, Mode.settle_ok]
    exact Or.inr (Or.inl ⟨rfl, rfl⟩)
  · rw [hset, hset', Mode.settle_ok, Mode.settle_ok]
    exact Or.inr (Or.inr ⟨value, rfl, rfl⟩)

/-- A step that leaves nothing behind acts as it does by itself. -/
theorem ActsOnOne.settle {mode : Mode} {left : Message → Message} {may : Field → Prop}
    (h : ActsOnOne pool type may step)
    (hleft : ∀ out, out.type? pool = some type → left out = out) :
    ActsOnOne pool type may fun out => mode.settle (left out) (step out) := by
  cases h with
  | nothing h =>
    refine .nothing fun out htype => ?_
    rw [hleft out htype]
    rcases h out htype with hok | ⟨e, herror⟩
    · rw [hok, Mode.settle_ok]
      exact Or.inl rfl
    · rw [herror]
      cases mode with
      | strict casters => exact Or.inr ⟨e, rfl⟩
      | lenient casters => exact Or.inl rfl
  | field hmem hmay h =>
    exact .field hmem hmay (h.settle fun out out' htype htype' _ =>
      Or.inl ⟨hleft out htype, hleft out' htype'⟩)

/-- A run of steps takes messages that agree outside the touched fields to messages that do. -/
theorem agreeOutside_foldlM {α : Type} {mode : Mode}
    {step : Message → α → Except ConvertError Message} {xs : List α} (hlinked : type.Linked)
    (hclosed : type.ClosedUnderOneofs touched)
    (hsteps : ∀ x ∈ xs, ActsOnOne pool type (fun _ => True) (step · x))
    (hagree : AgreeOutside pool type touched out out')
    (h : xs.foldlM (fun out x => mode.settle out (step out x)) out = .ok next)
    (h' : xs.foldlM (fun out x => mode.settle out (step out x)) out' = .ok next') :
    AgreeOutside pool type touched next next' := by
  induction xs generalizing out out' with
  | nil => exact Except.ok.inj h ▸ Except.ok.inj h' ▸ hagree
  | cons x xs ih =>
    obtain ⟨second, hsecond, h⟩ := foldlM_cons_eq_ok.mp h
    obtain ⟨second', hsecond', h'⟩ := foldlM_cons_eq_ok.mp h'
    refine ih (fun x hx => hsteps x (List.mem_cons_of_mem _ hx)) ?_ h h'
    exact (hsteps x List.mem_cons_self).agreeOutside hlinked hclosed hagree hsecond hsecond'

/-- A path touches the field that it starts with and the other members of the oneof of that field. -/
def MessageType.Touches (type : MessageType) (path : List String) (field : Field) : Prop :=
  ∃ first ∈ type.fields, path.head? = some first.name ∧ (field = first ∨ first.Excludes field)

theorem closedUnderOneofs_touches (hlinked : type.Linked) (paths : List String → Prop) :
    type.ClosedUnderOneofs fun field => ∃ path, paths path ∧ type.Touches path field := by
  rintro field other hother ⟨path, hpath, first, hfirst, hhead, hfield⟩ hexcludes
  refine ⟨path, hpath, first, hfirst, hhead, ?_⟩
  rcases hfield with rfl | hfield
  · exact Or.inr hexcludes
  · by_cases heq : first.number = other.number
    · exact Or.inl (hlinked.eq_of_number hfirst hother heq).symm
    · obtain ⟨-, i, hi, hi'⟩ := hfield
      obtain ⟨-, j, hj, hj'⟩ := hexcludes
      obtain rfl := Option.some.inj (hi'.symm.trans hj)
      exact Or.inr ⟨heq, i, hi, hj'⟩

/-! ## Writes through a path -/

namespace Message

variable {m m' : Message} {name : String} {rest : List String}

/-- A write through a path writes the field at its start, and looks at no other. -/
theorem writeIn?_congr (htype : m.type? pool = some type) (htype' : m'.type? pool = some type)
    (hfield : type.field? name = some field)
    (h : m.value? field.number = m'.value? field.number) (value : Value) :
    (writeIn? pool value m (name :: rest) = none ∧ writeIn? pool value m' (name :: rest) = none) ∨
      ∃ found, writeIn? pool value m (name :: rest) = some (m.set type field found) ∧
        writeIn? pool value m' (name :: rest) = some (m'.set type field found) := by
  by_cases hrest : rest = []
  · subst hrest
    simp only [writeIn?, htype, htype', hfield, Option.bind_eq_bind, Option.bind_some, set?]
    by_cases haccepts : pool.accepts field value
    · exact Or.inr ⟨value, if_pos haccepts, if_pos haccepts⟩
    · exact Or.inl ⟨if_neg haccepts, if_neg haccepts⟩
  · rw [writeIn?.eq_3 _ _ _ _ _ (by simpa using hrest), writeIn?.eq_3 _ _ _ _ _ (by simpa using hrest)]
    simp only [htype, htype', hfield, Option.bind_eq_bind, Option.bind_some, has_congr h, h]
    -- Both go on in the same message below the field.
    have hbelow : ∀ inner : Message,
        ((writeIn? pool value inner rest).bind (fun below => some (m.set type field (.message below)))
            = none ∧
          (writeIn? pool value inner rest).bind (fun below => some (m'.set type field (.message below)))
            = none) ∨
        ∃ found, (writeIn? pool value inner rest).bind
              (fun below => some (m.set type field (.message below)))
            = some (m.set type field found) ∧
          (writeIn? pool value inner rest).bind
              (fun below => some (m'.set type field (.message below)))
            = some (m'.set type field found) := by
      intro inner
      cases writeIn? pool value inner rest with
      | none => exact Or.inl ⟨rfl, rfl⟩
      | some below => exact Or.inr ⟨.message below, rfl, rfl⟩
    split
    · split
      · split
        · exact hbelow _
        · exact Or.inl ⟨rfl, rfl⟩
      · exact hbelow _
    · exact Or.inl ⟨rfl, rfl⟩

/-- A descent in place ends in the field at the start of its path, too. -/
theorem setIn_congr (htype : m.type? pool = some type) (htype' : m'.type? pool = some type)
    (hfield : type.field? name = some field)
    (h : m.value? field.number = m'.value? field.number) (rest : List String) (value : Value) :
    ∃ done, (setIn pool value m (name :: rest) = (done, m) ∧
        setIn pool value m' (name :: rest) = (done, m')) ∨
      ∃ found, setIn pool value m (name :: rest) = (done, m.set type field found) ∧
        setIn pool value m' (name :: rest) = (done, m'.set type field found) := by
  by_cases hrest : rest = []
  · subst hrest
    simp only [setIn, fieldNamed?_eq htype hfield, fieldNamed?_eq htype' hfield, trySet]
    by_cases haccepts : pool.accepts field value
    · exact ⟨true, Or.inr ⟨value, if_pos haccepts, if_pos haccepts⟩⟩
    · exact ⟨false, Or.inl ⟨if_neg haccepts, if_neg haccepts⟩⟩
  rw [setIn.eq_3 _ _ _ _ _ (by simpa using hrest), setIn.eq_3 _ _ _ _ _ (by simpa using hrest),
    fieldNamed?_eq htype hfield, fieldNamed?_eq htype' hfield]
  dsimp only
  split
  · next child group hmessage =>
    simp only [ensureSet_eq hmessage, has_congr h]
    by_cases hhas : m'.has pool field
    · simp only [hhas, if_true, h]
      cases m'.value? field.number with
      | none => exact ⟨false, Or.inl ⟨rfl, rfl⟩⟩
      | some stored =>
        cases stored with
        | message inner => exact ⟨_, Or.inr ⟨_, rfl, rfl⟩⟩
        | _ => exact ⟨false, Or.inr ⟨_, rfl, rfl⟩⟩
    · -- Both go on in the same new message.
      simp only [hhas, if_false, Bool.false_eq_true, value?_set_self, set_set]
      exact ⟨_, Or.inr ⟨_, rfl, rfl⟩⟩
  · exact ⟨false, Or.inl ⟨rfl, rfl⟩⟩

theorem write?_eq {path : List String} {value : Value} (htype : m.type? pool = some type) :
    m.write? pool path value = (pool.resolvePath type path).bind fun leaf =>
      if pool.accepts leaf value && sameType leaf value then writeIn? pool value m path else none := by
  rw [write?, htype]
  change (pool.resolvePath type path).bind (fun leaf =>
    Option.bind (if pool.accepts leaf value && sameType leaf value then some () else none)
      fun _ => writeIn? pool value m path) = _
  congr 1
  funext leaf
  by_cases hfits : pool.accepts leaf value && sameType leaf value
  · rw [if_pos hfits, if_pos hfits, Option.bind_some]
  · rw [if_neg hfits, if_neg hfits, Option.bind_none]

end Message

namespace Restoring

variable {c : Restoring} {selection : Selection} {plan : FieldPlan}

theorem pathConflict?_congr {name : String} {rest : List String} {m m' : Message}
    (htype : m.type? pool = some type) (htype' : m'.type? pool = some type)
    (hfield : type.field? name = some field)
    (h : m.value? field.number = m'.value? field.number) :
    pathConflict? pool false m (name :: rest) = pathConflict? pool false m' (name :: rest) := by
  rw [pathConflict?, pathConflict?]
  simp only [htype, htype', hfield, Option.bind_eq_bind, Option.bind_some, Message.get?_congr h,
    Bool.false_eq_true, if_false]

/-- A write through a path acts on the field that the path starts with. -/
theorem actsOn_commit {name first : String} {rest : List String} (value : Value)
    (hfield : c.type.field? first = some field) :
    ActsOn c.source c.type field (c.commit name · ⟨first :: rest, value⟩) := by
  intro out out' htype htype' hsame
  dsimp only [commit]
  rw [pathConflict?_congr htype htype' hfield hsame]
  split
  · exact Or.inl ⟨_, rfl, rfl⟩
  · rw [Message.write?_eq htype, Message.write?_eq htype']
    cases c.source.resolvePath c.type (first :: rest) with
    | none => exact Or.inl ⟨_, rfl, rfl⟩
    | some leaf =>
      rw [Option.bind_some, Option.bind_some]
      by_cases hfits : c.source.accepts leaf value && Message.sameType leaf value
      · rw [if_pos hfits, if_pos hfits]
        rcases Message.writeIn?_congr htype htype' hfield hsame value with
          ⟨hnone, hnone'⟩ | ⟨found, hset, hset'⟩
        · rw [hnone, hnone']
          exact Or.inl ⟨_, rfl, rfl⟩
        · rw [hset, hset']
          exact Or.inr (Or.inr ⟨found, rfl, rfl⟩)
      · rw [if_neg hfits, if_neg hfits]
        exact Or.inl ⟨_, rfl, rfl⟩

/-- What a write leaves behind stands in the field that its path starts with. -/
theorem leftByWrite_congr {first : String} {rest : List String} (value : Value)
    (hfield : c.type.field? first = some field) (htype : out.type? c.source = some c.type)
    (htype' : out'.type? c.source = some c.type)
    (hsame : out.value? field.number = out'.value? field.number) :
    (c.leftByWrite out ⟨first :: rest, value⟩ = out ∧
        c.leftByWrite out' ⟨first :: rest, value⟩ = out') ∨
      ∃ found, c.leftByWrite out ⟨first :: rest, value⟩ = out.set c.type field found ∧
        c.leftByWrite out' ⟨first :: rest, value⟩ = out'.set c.type field found := by
  dsimp only [leftByWrite]
  rw [pathConflict?_congr htype htype' hfield hsame]
  split
  · exact Or.inl ⟨rfl, rfl⟩
  rw [Message.setValue, Message.setValue, Message.resolve?, Message.resolve?, htype, htype']
  split
  · split
    · obtain ⟨done, ⟨heq, heq'⟩ | ⟨found, hset, hset'⟩⟩ :=
        Message.setIn_congr htype htype' hfield hsame rest value
      · rw [heq, heq']
        exact Or.inl ⟨rfl, rfl⟩
      · rw [hset, hset']
        exact Or.inr ⟨found, rfl, rfl⟩
    · exact Or.inl ⟨rfl, rfl⟩
  · exact Or.inl ⟨rfl, rfl⟩

/-- A path that leads to no field is refused. -/
theorem refused_of_resolvePath (name : String) (write : Write)
    (hnone : c.source.resolvePath c.type write.path = none)
    (htype : out.type? c.source = some c.type) :
    (∃ e, c.commit name out write = .error e) ∧ c.leftByWrite out write = out := by
  rw [commit, leftByWrite, Message.write?_eq htype, hnone, Message.setValue, Message.resolve?, htype]
  split
  · exact ⟨⟨_, rfl⟩, rfl⟩
  · refine ⟨⟨_, rfl⟩, ?_⟩
    rw [Option.bind_eq_bind, Option.bind_some, hnone]

/-- A write and what it leaves behind stand in the field that its path starts with. -/
theorem actsOnOne_commit {name : String} {write : Write} :
    ActsOnOne c.source c.type (fun field => write.path.head? = some field.name)
      fun out => c.mode.settle (c.leftByWrite out write) (c.commit name out write) := by
  obtain ⟨path, value⟩ := write
  have hrefused : c.source.resolvePath c.type path = none →
      ActsOnOne c.source c.type (fun field => path.head? = some field.name)
        fun out => c.mode.settle (c.leftByWrite out ⟨path, value⟩) (c.commit name out ⟨path, value⟩) :=
    fun hnone =>
      have hnothing : ActsOnOne c.source c.type (fun field => path.head? = some field.name)
          (c.commit name · ⟨path, value⟩) :=
        .nothing fun out htype => Or.inr (refused_of_resolvePath name ⟨path, value⟩ hnone htype).1
      hnothing.settle fun out htype => (refused_of_resolvePath name ⟨path, value⟩ hnone htype).2
  cases path with
  | nil => exact hrefused rfl
  | cons first rest =>
    cases hfield : c.type.field? first with
    | none =>
      refine hrefused ?_
      cases rest with
      | nil => exact hfield
      | cons next rest =>
        change (c.type.field? first).bind _ = none
        rw [hfield, Option.bind_none]
    | some field =>
      obtain ⟨hmem, hname⟩ := MessageType.field?_mem hfield
      exact .field hmem (by simp [hname]) ((actsOn_commit value hfield).settle
        fun out out' htype htype' hsame => leftByWrite_congr value hfield htype htype' hsame)

theorem actsOn_setField (value : Value) :
    ActsOn c.source c.type field (setField c.source · c.type field value) := by
  intro out out' _ _ _
  simp only [setField, Message.set?]
  by_cases haccepts : c.source.accepts field value
  · rw [if_pos haccepts, if_pos haccepts]
    exact Or.inr (Or.inr ⟨value, rfl, rfl⟩)
  · rw [if_neg haccepts, if_neg haccepts]
    exact Or.inl ⟨_, rfl, rfl⟩

/-! ## The steps of a conversion back -/

theorem settle_restoreStep (c : Restoring) (selection : Selection) :
    c.restoreStep selection
      = fun out plan => c.mode.settle out (c.restoreStep selection out plan) := by
  funext out plan
  rw [restoreStep, Mode.settle_settle]

/-- Restoring the value of a field acts on the field that its path starts with. -/
theorem actsOnOne_restoreValue (hreversible : plan.isReversible) :
    ActsOnOne c.source c.type
      (fun field => ∃ write, c.adapted selection plan = .ok (some write) ∧
        write.path.head? = some field.name)
      (c.restoreStep selection · plan) := by
  have hstep : (c.restoreStep selection · plan) = fun out =>
      c.mode.settle (c.leftBehind selection out plan) (c.restoreValue selection plan out) := by
    funext out
    rw [restoreStep, restoreField_eq_restoreValue hreversible]
  rw [hstep]
  -- Only a value that was adapted leaves anything behind.
  have hnothing : (∀ write, c.adapted selection plan ≠ .ok (some write)) →
      (∀ out, c.restoreValue selection plan out = .ok out ∨
        ∃ e, c.restoreValue selection plan out = .error e) →
      ActsOnOne c.source c.type (fun field => ∃ write, c.adapted selection plan = .ok (some write) ∧
        write.path.head? = some field.name)
        fun out => c.mode.settle (c.leftBehind selection out plan) (c.restoreValue selection plan out) :=
    fun hnone hout =>
      ActsOnOne.settle (.nothing fun out _ => hout out) fun out _ => by
        rw [leftBehind, if_pos hreversible]
        split
        · next write hwrite => exact absurd hwrite (hnone write)
        · rfl
  cases hadapted : c.adapted selection plan with
  | error e =>
    rw [hadapted] at hnothing
    refine hnothing (fun write => by simp) fun out => Or.inr ⟨e, ?_⟩
    rw [restoreValue, hadapted]
    rfl
  | ok found =>
    rw [hadapted] at hnothing
    cases found with
    | none =>
      refine hnothing (fun write => by simp) fun out => Or.inl ?_
      rw [restoreValue, hadapted]
      rfl
    | some write =>
      have hcommit : (fun out => c.mode.settle (c.leftBehind selection out plan)
          (c.restoreValue selection plan out)) = fun out =>
            c.mode.settle (c.leftByWrite out write) (c.commit plan.shape.name out write) := by
        funext out
        rw [leftBehind, if_pos hreversible, restoreValue, hadapted]
        rfl
      rw [hcommit]
      exact actsOnOne_commit.mono fun field _ hhead => ⟨write, rfl, hhead⟩

/-- A field is that of a member of a oneof. -/
def IsMemberOf (c : Restoring) (name : String) (field : Field) : Prop :=
  ∃ oneof, c.plan.oneof? name = some oneof ∧ ∃ member ∈ oneof.members,
    c.type.field? member.name = some field

/-- Restoring a payload acts on the field of a member of its oneof. -/
theorem actsOnOne_restorePayload {name : String} :
    ActsOnOne c.source c.type (c.IsMemberOf name) (c.restorePayload plan name) := by
  unfold restorePayload
  dsimp only
  split
  · split
    · exact .nothing fun _ _ => Or.inr ⟨_, rfl⟩
    · next payload _ =>
      split
      · exact .nothing fun _ _ => Or.inl rfl
      · next oneof member hpopulated =>
        obtain ⟨found, hfound, hpopulated⟩ := Option.bind_eq_some_iff.mp hpopulated
        obtain ⟨index, -, hpopulated⟩ := Option.bind_eq_some_iff.mp hpopulated
        obtain ⟨picked, hpicked, hpair⟩ := Option.bind_eq_some_iff.mp hpopulated
        obtain ⟨rfl, rfl⟩ := Prod.mk.inj (Option.some.inj hpair)
        cases hfield : c.type.field? picked.name with
        | none =>
          refine .nothing fun _ _ => Or.inr ?_
          dsimp only
          split
          · next tag _ =>
            cases checkDiscriminator found tag picked with
            | error e => exact ⟨e, rfl⟩
            | ok _ => exact ⟨_, rfl⟩
          · exact ⟨_, rfl⟩
        | some field =>
          have hset : ActsOnOne c.source c.type (c.IsMemberOf name)
              (setField c.source · c.type field (payload.get c.source field)) :=
            .field (MessageType.field?_mem hfield).1
              ⟨found, hfound, picked, List.mem_of_getElem? hpicked, hfield⟩ (actsOn_setField _)
          split
          · next tag _ =>
            cases checkDiscriminator found tag picked with
            | error e => exact .nothing fun _ _ => Or.inr ⟨e, rfl⟩
            | ok _ => exact hset
          · exact hset
  · exact .nothing fun _ _ => Or.inl rfl

theorem leftBehind_of_not_isReversible (hreversible : ¬ plan.isReversible) (out : Message) :
    c.leftBehind selection out plan = out := by
  rw [leftBehind, if_neg hreversible]

theorem actsOnOne_restoreStep :
    ActsOnOne c.source c.type (fun _ => True) (c.restoreStep selection · plan) := by
  by_cases hreversible : plan.isReversible
  · exact (actsOnOne_restoreValue hreversible).mono fun _ _ _ => trivial
  have hfield : ActsOnOne c.source c.type (fun _ => True) (c.restoreField selection · plan) := by
    unfold restoreField
    split
    · exact actsOnOne_restorePayload.mono fun _ _ _ => trivial
    · exact .nothing fun _ _ => Or.inl rfl
    · next hrole =>
      have hvirtual : plan.origin.isVirtual := by
        simpa [FieldPlan.isReversible, hrole] using hreversible
      simp only [hvirtual, if_true]
      exact .nothing fun _ _ => Or.inl rfl
  exact hfield.settle fun out _ => leftBehind_of_not_isReversible hreversible out

theorem type?_foldlM_restoreStep {plans : List FieldPlan}
    (htype : out.type? c.source = some c.type)
    (h : plans.foldlM (c.restoreStep selection) out = .ok out') :
    out'.type? c.source = some c.type := by
  rw [settle_restoreStep] at h
  refine foldlM_invariant (fun out : Message => out.type? c.source = some c.type) htype ?_ h
  intro before plan after _ hbefore hstep
  rcases actsOnOne_restoreStep.eq_or_set hbefore hstep with rfl | ⟨field, -, -, value, rfl⟩
  · exact hbefore
  · exact Message.type?_set hbefore field value

theorem actsOnOne_ensureSelected {member : OneofMember} :
    ActsOnOne c.source c.type (fun field => c.type.field? member.name = some field)
      (c.ensureSelected · member) := by
  unfold ensureSelected
  cases hfield : c.type.field? member.name with
  | none => exact .nothing fun _ _ => Or.inl rfl
  | some field =>
    refine .field (MessageType.field?_mem hfield).1 rfl fun out out' htype htype' hsame => ?_
    dsimp only
    rw [Message.has_congr hsame]
    split
    · exact Or.inr (Or.inl ⟨rfl, rfl⟩)
    · exact actsOn_setField _ out out' htype htype' hsame

end Restoring

end PlainSchema
