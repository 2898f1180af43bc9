import PlainSchema.Convert.ToSource
import PlainSchema.Proofs.Value.Paths

/-!
# Writes that are refused

A write that goes on below a message meets no conflict only if, in every message on its way below the
first one, no other member of the oneof of its field is set, `siblingConflict?_of_pathConflict?`.  So
a value that stands there already is left alone: what a write that meets no conflict takes away, it
takes away at the top level or within a synthetic oneof, `at?_write?_of_noConflict`.
-/

namespace PlainSchema

variable {pool : Pool} {m m' : Message} {type : MessageType} {field other : Field} {value : Value}

/-! ## Conflicts -/

theorem siblingConflict?_eq_none (hlinked : type.Linked) (hfield : field ∈ type.fields)
    (hother : other ∈ type.fields) (hexcludes : field.Excludes other)
    (hreal : ∀ i, field.oneof = some i → type.isSynthetic i = false)
    (h : siblingConflict? pool m type field = none) : m.has pool other = false := by
  obtain ⟨hne, i, hi, hi'⟩ := hexcludes
  have hlength := hlinked.oneofs field hfield i hi
  cases hhas : m.has pool other with
  | false => rfl
  | true =>
    have hmem : other ∈ type.oneofFields i := List.mem_filter.mpr ⟨hother, by simp [hi']⟩
    have hpred : (other.number != field.number && m.has pool other) = true := by
      simp [hhas, Ne.symm hne]
    have hfound : ((type.oneofFields i).find? fun other =>
        other.number != field.number && m.has pool other).isSome :=
      List.find?_isSome.mpr ⟨other, hmem, hpred⟩
    obtain ⟨found, hfound⟩ := Option.isSome_iff_exists.mp hfound
    rw [siblingConflict?] at h
    unfold guard at h
    simp [hi, hreal i hi, hfound, hlength] at h

theorem pathConflict?_cons {inside : Bool} {name : String} {rest : List String}
    (htype : m.type? pool = some type) (hfield : type.field? name = some field)
    (h : pathConflict? pool inside m (name :: rest) = none) :
    (inside → siblingConflict? pool m type field = none) ∧
      ∀ child, m.get? pool field = some (.message child) →
        pathConflict? pool true child rest = none := by
  rw [pathConflict?] at h
  simp only [htype, hfield, Option.bind_eq_bind, Option.bind_some] at h
  cases inside with
  | false => exact ⟨by simp, fun child hchild => by simpa [hchild] using h⟩
  | true =>
    simp only [if_true, Option.orElse_eq_orElse, Option.orElse_eq_or, Option.or_eq_none_iff] at h
    exact ⟨fun _ => h.1, fun child hchild => by simpa [hchild] using h.2⟩

/-- A write that meets no conflict meets none in a message below the first one. -/
theorem siblingConflict?_of_pathConflict? {inside : Bool} {front path : List String}
    {right : String} {inner : Message} (h : pathConflict? pool inside m path = none)
    (hpath : front ++ [right] <+: path) (hbelow : front ≠ [] ∨ inside)
    (hat : m.at? pool front = some (.message inner)) (htype : inner.type? pool = some type)
    (hfield : type.field? right = some field) : siblingConflict? pool inner type field = none := by
  induction front generalizing m inside path with
  | nil =>
    obtain ⟨rest, rfl⟩ := hpath
    rw [Message.at?] at hat
    cases hat
    exact (pathConflict?_cons htype hfield h).1 (hbelow.resolve_left fun hne => hne rfl)
  | cons name front ih =>
    obtain ⟨rest, rfl⟩ := hpath
    obtain ⟨child, hstored, hat⟩ := Message.exists_child hat
    obtain ⟨parent, hop, hparent, hhop, hvalue⟩ := Message.exists_of_stored? hstored
    have hget : m.get? pool hop = some (.message child) := by
      rw [Message.get?_of_has (Message.has_of_message hvalue), hvalue]
    have hchild := (pathConflict?_cons hparent hhop h).2 child hget
    exact ih hchild (List.prefix_append _ _) (Or.inr rfl) hat

/-! ## Writes that go through -/

namespace Message

/-- A write refuses a path or a value that does not fit. -/
theorem write?_eq_some {path : List String} (h : m.write? pool path value = some m') :
    ∃ type field, m.type? pool = some type ∧ pool.resolvePath type path = some field ∧
      pool.accepts field value ∧ sameType field value ∧ writeIn? pool value m path = some m' := by
  obtain ⟨type, htype, h⟩ := Option.bind_eq_some_iff.mp h
  obtain ⟨field, hfield, h⟩ := Option.bind_eq_some_iff.mp h
  obtain ⟨_, hguard, hwrite⟩ := Option.bind_eq_some_iff.mp h
  have hfits : pool.accepts field value ∧ sameType field value := by
    unfold guard at hguard
    split at hguard
    · next hfits => exact Bool.and_eq_true_iff.mp hfits
    · exact absurd hguard (by simp)
  exact ⟨type, field, htype, hfield, hfits.1, hfits.2, hwrite⟩

end Message

/-- Two paths part between fields that exclude each other in a message type. -/
def MessageType.Separates (type : MessageType) (left right : String) : Prop :=
  ∃ found field, type.field? left = some found ∧ type.field? right = some field ∧
    field.Excludes found

/-- Two paths part at the top level between members of one oneof, or below it between members of a
oneof that holds nothing but optional fields. -/
def Displaces (pool : Pool) (type : MessageType) (written kept : List String) : Prop :=
  ∃ front left right, PartAt front left right kept written ∧
    ((front = [] ∧ type.Separates left right) ∨
      (front ≠ [] ∧ ∃ inner ∈ pool.messages, inner.Separates left right ∧
        ∃ field i, inner.field? right = some field ∧ field.oneof = some i ∧ inner.isSynthetic i))

/-- A write that meets no conflict leaves the value at the end of a path alone that is apart from its
own, unless it displaces it. -/
theorem at?_writeIn?_of_noConflict {p q : List String} {kept : Value} (hpool : pool.Linked)
    (htype : m.type? pool = some type) (hapart : Apart p q) (hat : m.at? pool p = some kept)
    (hconflict : pathConflict? pool false m q = none)
    (hwrite : Message.writeIn? pool value m q = some m') (hfree : ¬ Displaces pool type q p) :
    m'.at? pool p = some kept := by
  obtain ⟨front, left, right, hparts⟩ := apart_iff.mp hapart
  refine Message.at?_writeIn?_of_partAt hpool hparts hat hwrite ?_
  intro inner innerType found field hinner hinnerType hfound hfield hexcludes
  have hmem := (Pool.message?_mem hinnerType).1
  have hlinked := hpool innerType hmem
  have hseparates : innerType.Separates left right := ⟨found, field, hfound, hfield, hexcludes⟩
  by_cases hfront : front = []
  · subst hfront
    rw [Message.at?] at hinner
    cases hinner
    obtain rfl := Option.some.inj (hinnerType.symm.trans htype)
    exact hfree ⟨[], left, right, hparts, Or.inl ⟨rfl, hseparates⟩⟩
  · by_cases hsynthetic : ∃ i, field.oneof = some i ∧ innerType.isSynthetic i
    · obtain ⟨i, hi, hsynthetic⟩ := hsynthetic
      exact hfree ⟨front, left, right, hparts, Or.inr
        ⟨hfront, innerType, hmem, hseparates, field, i, hfield, hi, hsynthetic⟩⟩
    · have hnone := siblingConflict?_of_pathConflict? hconflict hparts.right_prefix (Or.inl hfront)
        hinner hinnerType hfield
      have hnot := siblingConflict?_eq_none hlinked (MessageType.field?_mem hfield).1
        (MessageType.field?_mem hfound).1 hexcludes (fun i hi => ?_) hnone
      · obtain ⟨rest, rfl⟩ := hparts.left_prefix
        have hvalue : (inner.value? found.number).isSome := by
          rw [List.append_assoc, Message.at?_append hinner] at hat
          obtain ⟨value, hstored⟩ := Message.exists_stored hat
          rw [Message.stored?_eq hinnerType hfound] at hstored
          simp [hstored]
        have hpresence := hlinked.presence found (MessageType.field?_mem hfound).1 (by
          obtain ⟨-, i, -, hi⟩ := hexcludes
          simp [hi])
        rw [Message.has_of_tracksPresence hpresence, hvalue] at hnot
        exact absurd hnot (by simp)
      · exact Bool.eq_false_iff.mpr fun h => hsynthetic ⟨i, hi, h⟩

/-- A write of a field of the message itself leaves the value at the end of a path alone that is
apart from the field, unless it displaces it. -/
theorem at?_set_of_apart {p : List String} {name : String} {kept : Value} (hpool : pool.Linked)
    (htype : m.type? pool = some type) (hfield : type.field? name = some field)
    (hapart : Apart p [name]) (hat : m.at? pool p = some kept)
    (hfree : ¬ Displaces pool type [name] p) (value : Value) :
    (m.set type field value).at? pool p = some kept := by
  cases p with
  | nil => exact absurd List.nil_prefix hapart.1
  | cons first rest =>
    have hne : first ≠ name := fun heq => hapart.2 (by simp [heq])
    rw [Message.at?_congr (Message.stored?_set_of_ne hpool htype hfield hne ?_ value)]
    · exact hat
    · intro found hfound hexcludes
      refine hfree ⟨[], first, name, ⟨?_, ?_, hne⟩, Or.inl ⟨rfl, found, field, hfound, hfield,
        hexcludes⟩⟩ <;> simp

end PlainSchema
