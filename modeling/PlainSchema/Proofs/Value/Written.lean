import PlainSchema.Proofs.Value.Conflicts
import PlainSchema.Proofs.Value.Hops

/-!
# Writes that succeed

A write goes through when its path leads to a field that takes the value and nothing but messages of
the right types stand along the path, `Message.exists_writeIn?`.  It meets no conflict when no message
below the first one holds another member of the oneof of a field on the path,
`pathConflict?_eq_none`.
-/

namespace PlainSchema

variable {pool : Pool} {m : Message} {type : MessageType} {field leaf : Field} {value : Value}
  {name : String} {rest path : List String}

/-! ## Paths that lead to a field -/

/-- A path with more than one name leads on from the message of a singular field. -/
theorem Pool.resolvePath_hop (hrest : rest ≠ [])
    (h : pool.resolvePath type (name :: rest) = some leaf) :
    ∃ field next, type.field? name = some field ∧ field.isSingular ∧
      pool.messageTypeOf? field = some next ∧ pool.resolvePath next rest = some leaf := by
  rw [Pool.resolvePath_cons hrest] at h
  obtain ⟨field, hfield, h⟩ := Option.bind_eq_some_iff.mp h
  split at h
  · next hsingular =>
    obtain ⟨next, hnext, h⟩ := Option.bind_eq_some_iff.mp h
    exact ⟨field, next, hfield, hsingular, hnext, h⟩
  · exact absurd h nofun

/-- Every name on a path is that of a field of the type that the names before it lead to. -/
theorem Pool.exists_typeAt? {front : List String} {right : String}
    (h : pool.resolvePath type path = some leaf) (hpath : front ++ [right] <+: path) :
    ∃ next field, pool.typeAt? type front = some next ∧ next.field? right = some field := by
  induction front generalizing type path with
  | nil =>
    obtain ⟨rest, rfl⟩ := hpath
    by_cases hrest : rest = []
    · subst hrest
      exact ⟨type, leaf, rfl, h⟩
    · obtain ⟨field, -, hfield, -⟩ := Pool.resolvePath_hop hrest h
      exact ⟨type, field, rfl, hfield⟩
  | cons name front ih =>
    obtain ⟨rest, rfl⟩ := hpath
    obtain ⟨hop, inner, hhop, -, hinner, h⟩ := Pool.resolvePath_hop (by simp) h
    obtain ⟨next, field, hnext, hfield⟩ := ih h (List.prefix_append _ _)
    refine ⟨next, field, ?_, hfield⟩
    rw [Pool.typeAt?, hhop, Option.bind_eq_bind, Option.bind_some, hinner]
    exact hnext

namespace Message

/-- What stands on the way to a value is there. -/
theorem isSome_at?_of_prefix {p q : List String} (hfront : p <+: q)
    (h : (m.at? pool q).isSome) : (m.at? pool p).isSome := by
  obtain ⟨rest, rfl⟩ := hfront
  by_cases hrest : rest = []
  · rw [hrest, List.append_nil] at h
    exact h
  · obtain ⟨value, hvalue⟩ := Option.isSome_iff_exists.mp h
    obtain ⟨child, hchild, -⟩ := exists_at?_of_append hrest hvalue
    rw [hchild]
    rfl

/-- A write of a field puts nothing in a place that is apart from the field. -/
theorem at?_of_set {p : List String} {found : Value} (hpool : pool.Linked)
    (htype : m.type? pool = some type) (hfield : type.field? name = some field)
    (hapart : Apart p [name]) (hat : (m.set type field value).at? pool p = some found) :
    m.at? pool p = some found := by
  cases p with
  | nil => exact absurd List.nil_prefix hapart.1
  | cons other rest =>
    have hne : other ≠ name := by
      rintro rfl
      exact hapart.2 (List.cons_prefix_cons.mpr ⟨rfl, List.nil_prefix⟩)
    obtain ⟨stored, hstored⟩ := exists_stored hat
    have hbefore := TypedAlong.stored?_of_set hpool htype hfield hne hstored
    rw [← hat]
    exact at?_congr (hbefore.trans hstored.symm)

/-- A write goes through along a path on which nothing but messages stand. -/
theorem exists_writeIn? (htyped : TypedAlong pool type m path)
    (hresolve : pool.resolvePath type path = some leaf) (haccepts : pool.accepts leaf value)
    (hmessages : ∀ front found, front ≠ [] → front <+: path → front ≠ path →
      m.at? pool front = some found → ∃ inner, found = .message inner) :
    ∃ m', writeIn? pool value m path = some m' := by
  induction path generalizing m type with
  | nil => cases hresolve
  | cons name rest ih =>
    have htype := htyped.type?
    by_cases hrest : rest = []
    · subst hrest
      refine ⟨m.set type leaf value, ?_⟩
      change (m.type? pool).bind (fun type => (type.field? name).bind fun field =>
        m.set? pool type field value) = _
      rw [htype, Option.bind_some, show type.field? name = some leaf from hresolve, Option.bind_some,
        set?, if_pos haccepts]
    obtain ⟨field, next, hfield, -, hnext, hresolve⟩ := Pool.resolvePath_hop hrest hresolve
    obtain ⟨child, group, hmessage⟩ : ∃ child group, field.type = .message child group := by
      rw [Pool.messageTypeOf?] at hnext
      split at hnext
      · next child group hmessage => exact ⟨child, group, hmessage⟩
      · cases hnext
    have hinner : ∃ inner, TypedAlong pool next inner rest ∧
        (∀ front found, front ≠ [] → front <+: rest → front ≠ rest →
          inner.at? pool front = some found → ∃ inner, found = .message inner) ∧
        ((m.has pool field ∧ m.value? field.number = some (.message inner)) ∨
          (¬ m.has pool field ∧ inner = { type := child })) := by
      by_cases hhas : m.has pool field
      · obtain ⟨found, hfound⟩ : ∃ found, m.value? field.number = some found := by
          rw [has] at hhas
          split at hhas
          · exact absurd hhas Bool.false_ne_true
          · next found hfound => exact ⟨found, hfound⟩
        have hstored : m.stored? pool name = some found := (stored?_eq htype hfield).trans hfound
        obtain ⟨inner, rfl⟩ := hmessages [name] found (by simp)
          (List.cons_prefix_cons.mpr ⟨rfl, List.nil_prefix⟩) (by simpa using Ne.symm hrest)
          (by rw [at?_singleton, hstored])
        refine ⟨inner, htyped.2 inner field next hstored hfield hnext, ?_, ?_⟩
        · intro front found hne hprefix hproper hat
          refine hmessages (name :: front) found (by simp)
            (List.cons_prefix_cons.mpr ⟨rfl, hprefix⟩) (by simpa using hproper) ?_
          rw [at?_hop hstored]
          exact hat
        · exact Or.inl ⟨hhas, hfound⟩
      · refine ⟨{ type := child }, ?_, ?_, Or.inr ⟨hhas, rfl⟩⟩
        · rw [Pool.messageTypeOf?, hmessage] at hnext
          exact TypedAlong.new hnext rest
        · intro front found hne _ _ hat
          rw [at?_new hne] at hat
          cases hat
    obtain ⟨inner, htyped, hmessages, hinner⟩ := hinner
    obtain ⟨inner', hwrite⟩ := ih htyped hresolve hmessages
    refine ⟨m.set type field (.message inner'), ?_⟩
    rw [writeIn?.eq_3 _ _ _ _ _ (by simpa using hrest)]
    simp only [htype, hfield, hmessage, Option.bind_eq_bind, Option.bind_some]
    rcases hinner with ⟨hhas, hvalue⟩ | ⟨hhas, rfl⟩
    · simp only [hhas, if_true, hvalue, hwrite]
      rfl
    · simp only [hhas, if_false, Bool.false_eq_true, hwrite]
      rfl

end Message

/-! ## Writes that meet no conflict -/

theorem siblingConflict?_of_not_has (h : ∀ other ∈ type.fields, field.Excludes other →
    m.has pool other = false) : siblingConflict? pool m type field = none := by
  by_contra hsome
  obtain ⟨conflict, hconflict⟩ := Option.ne_none_iff_exists'.mp hsome
  obtain ⟨index, hindex, hconflict⟩ := Option.bind_eq_some_iff.mp hconflict
  obtain ⟨_, -, hconflict⟩ := Option.bind_eq_some_iff.mp hconflict
  obtain ⟨other, hother, -⟩ := Option.bind_eq_some_iff.mp hconflict
  have hmem := List.mem_of_find?_eq_some hother
  have hfound := List.find?_some hother
  rw [Bool.and_eq_true, bne_iff_ne] at hfound
  obtain ⟨hmem, honeof⟩ := List.mem_filter.mp hmem
  have hnot := h other hmem ⟨Ne.symm hfound.1, index, hindex, by simpa using honeof⟩
  rw [hfound.2] at hnot
  exact absurd hnot nofun

/-- A write meets no conflict if no message below the first one holds another member of a oneof on its
path. -/
theorem pathConflict?_eq_none {inside : Bool}
    (h : ∀ front right inner type field, front ++ [right] <+: path → (front ≠ [] ∨ inside) →
      m.at? pool front = some (.message inner) → inner.type? pool = some type →
      type.field? right = some field → siblingConflict? pool inner type field = none) :
    pathConflict? pool inside m path = none := by
  induction path generalizing m inside with
  | nil => rfl
  | cons name rest ih =>
    rw [pathConflict?]
    cases htype : m.type? pool with
    | none => rfl
    | some type =>
      rw [Option.bind_eq_bind, Option.bind_some]
      cases hfield : type.field? name with
      | none => rfl
      | some field =>
        rw [Option.bind_eq_bind, Option.bind_some]
        have hdeeper : ∀ child, m.get? pool field = some (.message child) →
            pathConflict? pool true child rest = none := by
          intro child hchild
          have hstored : m.stored? pool name = some (.message child) :=
            (Message.stored?_eq htype hfield).trans (Message.value?_of_get? hchild).2
          refine ih fun front right inner type field hpath _ hat => ?_
          refine h (name :: front) right inner type field
            (List.cons_prefix_cons.mpr ⟨rfl, hpath⟩) (Or.inl (by simp)) ?_
          rw [Message.at?_hop hstored]
          exact hat
        have hnone : ∀ deeper : Option ConvertError, deeper = none →
            (if inside then siblingConflict? pool m type field <|> deeper else deeper) = none := by
          rintro _ rfl
          split
          · next hinside =>
            rw [h [] name m type field (List.cons_prefix_cons.mpr ⟨rfl, List.nil_prefix⟩)
              (Or.inr hinside) rfl htype hfield]
            rfl
          · rfl
        refine hnone _ ?_
        cases hget : m.get? pool field with
        | none => rfl
        | some value =>
          cases value with
          | message child => exact hdeeper child hget
          | _ => rfl

end PlainSchema
