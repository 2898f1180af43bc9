import Mathlib.Data.List.Basic
import PlainSchema.Plan.Build

/-!
# Names and dots

A full name is a scope, a dot and a simple name, and a simple name has no dot.  So the last dot
of a full name tells where its scope ends: `inScope_injective` takes the two parts back, and
`dotCuts_append` and `splitLast?_inScope` say that the functions which look for dots find
this one.
-/

namespace PlainSchema

/-- A name without dots that is not empty, as the names of all declarations are. -/
def IsSimple (name : String) : Prop :=
  name ≠ "" ∧ '.' ∉ name.toList

instance (name : String) : Decidable (IsSimple name) :=
  inferInstanceAs (Decidable (_ ∧ _))

/-- The full name of a simple name in a scope. -/
def inScope (scope name : String) : String :=
  scope ++ "." ++ name

theorem toList_inScope (scope name : String) :
    (inScope scope name).toList = scope.toList ++ '.' :: name.toList := by
  simp [inScope]

theorem inScope_ne_empty (scope name : String) : inScope scope name ≠ "" := by
  intro h
  have := congrArg String.toList h
  simp [toList_inScope] at this

theorem inScope_assoc (scope middle name : String) :
    inScope (inScope scope middle) name = inScope scope (inScope middle name) := by
  simp [inScope, String.append_assoc]

/-! ## The last dot -/

theorem exists_last_dot {s : List Char} (h : '.' ∈ s) :
    ∃ front last, s = front ++ '.' :: last ∧ '.' ∉ last := by
  induction s with
  | nil => simp at h
  | cons c cs ih =>
    by_cases hcs : '.' ∈ cs
    · obtain ⟨front, last, rfl, hlast⟩ := ih hcs
      exact ⟨c :: front, last, rfl, hlast⟩
    · rcases List.mem_cons.mp h with rfl | hmem
      · exact ⟨[], cs, rfl, hcs⟩
      · exact absurd hmem hcs

theorem append_dot_injective {a b x y : List Char} (hx : '.' ∉ x) (hy : '.' ∉ y)
    (h : a ++ '.' :: x = b ++ '.' :: y) : a = b ∧ x = y := by
  induction a generalizing b with
  | nil =>
    cases b with
    | nil => exact ⟨rfl, by simpa using h⟩
    | cons c b =>
      obtain ⟨-, rfl⟩ := List.cons.inj h
      exact absurd (by simp) hx
  | cons c a ih =>
    cases b with
    | nil =>
      obtain ⟨-, rfl⟩ := List.cons.inj h
      exact absurd (by simp) hy
    | cons d b =>
      obtain ⟨rfl, htail⟩ := List.cons.inj h
      obtain ⟨rfl, rfl⟩ := ih htail
      exact ⟨rfl, rfl⟩

/-- A full name has one scope and one simple name. -/
theorem inScope_injective {scope scope' name name' : String} (hname : '.' ∉ name.toList)
    (hname' : '.' ∉ name'.toList) (h : inScope scope name = inScope scope' name') :
    scope = scope' ∧ name = name' := by
  have hlist := congrArg String.toList h
  rw [toList_inScope, toList_inScope] at hlist
  obtain ⟨hs, hn⟩ := append_dot_injective hname hname' hlist
  exact ⟨String.toList_inj.mp hs, String.toList_inj.mp hn⟩

theorem inScope_left_injective (name : String) {scope scope' : String}
    (h : inScope scope name = inScope scope' name) : scope = scope' := by
  have hlist := congrArg String.toList h
  rw [toList_inScope, toList_inScope] at hlist
  exact String.toList_inj.mp (List.append_cancel_right hlist)

/-! ## Looking for dots -/

theorem dotCuts_eq_nil {s : List Char} (h : '.' ∉ s) : dotCuts s = [] := by
  induction s with
  | nil => rfl
  | cons c cs ih =>
    rw [List.mem_cons, not_or] at h
    rw [dotCuts, ih h.2, if_neg (Ne.symm h.1)]
    rfl

/-- The longest front of a full name is its scope, and the other ones are those of the scope. -/
theorem dotCuts_append (s : List Char) {n : List Char} (hn : '.' ∉ n) :
    dotCuts (s ++ '.' :: n)
      = (s, '.' :: n) :: (dotCuts s).map fun cut => (cut.1, cut.2 ++ '.' :: n) := by
  induction s with
  | nil => simp [dotCuts, dotCuts_eq_nil hn]
  | cons c cs ih =>
    rw [List.cons_append, dotCuts, ih, dotCuts]
    split <;> simp

/-- A front and what it was cut from make the text again. -/
theorem append_of_mem_dotCuts {s front rest : List Char} (h : (front, rest) ∈ dotCuts s) :
    front ++ rest = s ∧ rest.head? = some '.' := by
  induction s generalizing front with
  | nil => simp [dotCuts] at h
  | cons c cs ih =>
    rw [dotCuts, List.mem_append, List.mem_map] at h
    rcases h with ⟨⟨f, r⟩, hmem, heq⟩ | h
    · obtain ⟨rfl, rfl⟩ := Prod.mk.inj heq
      obtain ⟨happ, hdot⟩ := ih hmem
      exact ⟨by rw [List.cons_append, happ], hdot⟩
    · split at h
      · next hc =>
        obtain ⟨rfl, rfl⟩ := Prod.mk.inj (List.mem_singleton.mp h)
        exact ⟨rfl, by simp [hc]⟩
      · simp at h

theorem cutLast?_eq_none {s : List Char} (h : '.' ∉ s) : Text.cutLast? '.' s = none := by
  induction s with
  | nil => rfl
  | cons c cs ih =>
    rw [List.mem_cons, not_or] at h
    rw [Text.cutLast?, ih h.2, if_neg (Ne.symm h.1)]

theorem cutLast?_append (s : List Char) {n : List Char} (hn : '.' ∉ n) :
    Text.cutLast? '.' (s ++ '.' :: n) = some (s, n) := by
  induction s with
  | nil => simp [Text.cutLast?, cutLast?_eq_none hn]
  | cons c cs ih => rw [List.cons_append, Text.cutLast?, ih]

theorem splitLast?_inScope (scope : String) {name : String} (hname : '.' ∉ name.toList) :
    Text.splitLast? (inScope scope name) '.' = some (scope, name) := by
  rw [Text.splitLast?, toList_inScope, cutLast?_append scope.toList hname]
  simp

/-- The last part of a full name is its simple name. -/
theorem lastName_inScope (scope : String) {name : String} (hname : '.' ∉ name.toList) :
    lastName (inScope scope name) = name := by
  rw [lastName, splitLast?_inScope scope hname]
  rfl

end PlainSchema
