import Mathlib.Data.List.Infix

/-!
# Field paths that part

A field path is a list of names.  Two paths are apart when neither goes on from the other; then they
have some names in common and go on with different ones, `apart_iff`.
-/

namespace PlainSchema

/-- Two paths have the names of a front in common and then go on with different ones. -/
structure PartAt (front : List String) (left right : String) (p q : List String) : Prop where
  left_prefix : front ++ [left] <+: p
  right_prefix : front ++ [right] <+: q
  ne : left ≠ right

/-- Neither of two paths goes on from the other. -/
def Apart (p q : List String) : Prop :=
  ¬ p <+: q ∧ ¬ q <+: p

/-- Of two paths, one goes on from the other, or they part. -/
theorem isPrefix_or_partAt (p q : List String) :
    p <+: q ∨ q <+: p ∨ ∃ front left right, PartAt front left right p q := by
  induction p generalizing q with
  | nil => exact Or.inl List.nil_prefix
  | cons a p ih =>
    cases q with
    | nil => exact Or.inr (Or.inl List.nil_prefix)
    | cons b q =>
      by_cases hab : a = b
      · subst hab
        rcases ih q with hp | hq | ⟨front, left, right, hleft, hright, hne⟩
        · exact Or.inl (List.cons_prefix_cons.mpr ⟨rfl, hp⟩)
        · exact Or.inr (Or.inl (List.cons_prefix_cons.mpr ⟨rfl, hq⟩))
        · refine Or.inr (Or.inr ⟨a :: front, left, right, ?_, ?_, hne⟩)
          · exact List.cons_prefix_cons.mpr ⟨rfl, hleft⟩
          · exact List.cons_prefix_cons.mpr ⟨rfl, hright⟩
      · exact Or.inr (Or.inr ⟨[], a, b, by simp, by simp, hab⟩)

namespace PartAt

variable {front : List String} {left right : String} {p q : List String}

theorem symm (h : PartAt front left right p q) : PartAt front right left q p :=
  ⟨h.right_prefix, h.left_prefix, h.ne.symm⟩

theorem not_prefix (h : PartAt front left right p q) : ¬ p <+: q := by
  intro hpq
  have hleft : front ++ [left] <+: q := h.left_prefix.trans hpq
  have heq : front ++ [left] = front ++ [right] :=
    (List.prefix_of_prefix_length_le hleft h.right_prefix (by simp)).eq_of_length (by simp)
  exact h.ne (by simpa using heq)

theorem apart (h : PartAt front left right p q) : Apart p q :=
  ⟨h.not_prefix, h.symm.not_prefix⟩

end PartAt

theorem apart_iff {p q : List String} :
    Apart p q ↔ ∃ front left right, PartAt front left right p q := by
  constructor
  · rintro ⟨hpq, hqp⟩
    rcases isPrefix_or_partAt p q with h | h | h
    · exact absurd h hpq
    · exact absurd h hqp
    · exact h
  · rintro ⟨front, left, right, h⟩
    exact h.apart

theorem Apart.symm {p q : List String} (h : Apart p q) : Apart q p :=
  ⟨h.2, h.1⟩

/-- Paths that go on from a front with different names are apart. -/
theorem apart_of_prefix (front : List String) {left right : String} {p q : List String}
    (hp : front ++ [left] <+: p) (hq : front ++ [right] <+: q) (hne : left ≠ right) : Apart p q :=
  PartAt.apart ⟨hp, hq, hne⟩

end PlainSchema
