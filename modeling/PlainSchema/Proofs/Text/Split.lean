import Mathlib.Data.List.DropRight
import PlainSchema.Text.Split

/-!
# Cutting joined texts

Pieces without the separator come back when the text that joins them is cut, `splitAll_intercalate`,
and a text joined from the pieces of a cut is the text that was cut, `intercalate_split`.
-/

namespace PlainSchema

theorem splitAll_append_sep (sep : Char) (a b : List Char) :
    Text.splitAll sep (a ++ sep :: b) = Text.splitAll sep a ++ Text.splitAll sep b := by
  induction a with
  | nil => simp [Text.splitAll]
  | cons c cs ih =>
    rw [List.cons_append, Text.splitAll, Text.splitAll]
    split
    · rw [ih, List.cons_append]
    · rw [ih]
      cases hp : Text.splitAll sep cs with
      | nil => exact absurd hp (Text.splitAll_ne_nil sep cs)
      | cons piece pieces => rfl

theorem splitAll_of_notMem {sep : Char} {s : List Char} (h : sep ∉ s) : Text.splitAll sep s = [s] := by
  induction s with
  | nil => rfl
  | cons c cs ih =>
    rw [List.mem_cons, not_or] at h
    rw [Text.splitAll, if_neg fun heq => h.1 heq.symm, ih h.2]

/-- A cut drops the separators and nothing else. -/
theorem flatten_splitAll (sep : Char) (s : List Char) :
    (Text.splitAll sep s).flatten = s.filter (· ≠ sep) := by
  induction s with
  | nil => rfl
  | cons c cs ih =>
    rw [Text.splitAll]
    split
    · next heq => rw [List.flatten_cons, ih, List.nil_append, List.filter_cons_of_neg (by simpa using heq)]
    · next hne =>
      rw [List.filter_cons_of_pos (by simpa using hne), ← ih]
      cases Text.splitAll sep cs with
      | nil => rfl
      | cons piece pieces => rfl

theorem mem_intercalate {α : Type} {sep : List α} {xss : List (List α)} {x : α}
    (h : x ∈ List.intercalate sep xss) : x ∈ sep ∨ ∃ xs ∈ xss, x ∈ xs := by
  induction xss with
  | nil => exact absurd h List.not_mem_nil
  | cons xs xss ih =>
    cases xss with
    | nil =>
      rw [List.intercalate_singleton] at h
      exact Or.inr ⟨xs, List.mem_cons_self, h⟩
    | cons ys yss =>
      rw [List.intercalate_cons_cons, List.mem_append, List.mem_append] at h
      rcases h with (h | h) | h
      · exact Or.inr ⟨xs, List.mem_cons_self, h⟩
      · exact Or.inl h
      · rcases ih h with h | ⟨zs, hzs, h⟩
        · exact Or.inl h
        · exact Or.inr ⟨zs, List.mem_cons_of_mem _ hzs, h⟩

theorem head?_intercalate {α : Type} {sep xs : List α} {xss : List (List α)} (hne : xs ≠ []) :
    (List.intercalate sep (xs :: xss)).head? = xs.head? := by
  cases xss with
  | nil => rw [List.intercalate_singleton]
  | cons ys yss => rw [List.intercalate_cons_cons, List.append_assoc, List.head?_append_of_ne_nil _ hne]

/-- Cutting undoes joining. -/
theorem splitAll_intercalate {sep : Char} {pieces : List (List Char)} (hne : pieces ≠ [])
    (h : ∀ piece ∈ pieces, sep ∉ piece) :
    Text.splitAll sep (List.intercalate [sep] pieces) = pieces := by
  induction pieces with
  | nil => exact absurd rfl hne
  | cons piece pieces ih =>
    rw [List.forall_mem_cons] at h
    cases pieces with
    | nil => rw [List.intercalate_singleton, splitAll_of_notMem h.1]
    | cons next rest =>
      rw [List.intercalate_cons_cons, List.append_assoc, List.singleton_append,
        splitAll_append_sep, splitAll_of_notMem h.1, ih (by simp) h.2, List.singleton_append]

theorem cutFirst?_of_notMem {sep : Char} {s : List Char} (h : sep ∉ s) :
    Text.cutFirst? sep s = none := by
  induction s with
  | nil => rfl
  | cons c cs ih =>
    rw [List.mem_cons, not_or] at h
    rw [Text.cutFirst?, if_neg fun heq => h.1 heq.symm, ih h.2, Option.map_none]

theorem cutFirst?_append {sep : Char} {s : List Char} (h : sep ∉ s) (rest : List Char) :
    Text.cutFirst? sep (s ++ sep :: rest) = some (s, rest) := by
  induction s with
  | nil => simp [Text.cutFirst?]
  | cons c cs ih =>
    rw [List.mem_cons, not_or] at h
    rw [List.cons_append, Text.cutFirst?, if_neg fun heq => h.1 heq.symm, ih h.2, Option.map_some]

theorem intercalate_split (name : String) : ".".intercalate (Text.split name '.') = name := by
  refine String.toList_inj.mp ?_
  rw [String.toList_intercalate, Text.split, List.map_map]
  have hid : String.toList ∘ String.ofList = id := by
    funext s
    exact String.toList_ofList
  rw [hid, List.map_id]
  exact Text.intercalate_splitAll '.' name.toList

/-- There is nothing to trim in a trimmed text. -/
theorem trimFront_trimFront (s : String) (c : Char) :
    Text.trimFront (Text.trimFront s c) c = Text.trimFront s c := by
  rw [Text.trimFront, Text.trimFront, String.toList_ofList, List.dropWhile_idempotent]

end PlainSchema
