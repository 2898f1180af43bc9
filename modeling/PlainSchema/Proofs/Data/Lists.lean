import Mathlib.Data.List.Flatten
import Mathlib.Data.List.Forall2
import Mathlib.Data.List.Nodup
import Mathlib.Data.List.Perm.Subperm
import PlainSchema.Plan.Renames
import PlainSchema.Value.Message

/-!
# Searching lists

Renames and the fields of messages are association lists in ascending order of their keys.
Looking a key up after an insertion finds the new value under the inserted key and what was
there before under the other keys, whether or not the list is in order.  Declarations are
found by names that no two of them share, `find?_eq_some_of_nodup`.
-/

namespace PlainSchema

theorem lookup_cons_eq_ite {α β : Type} [BEq α] [LawfulBEq α] [DecidableEq α] (k key : α) (value : β)
    (entries : List (α × β)) :
    ((key, value) :: entries).lookup k = if k = key then some value else entries.lookup k := by
  rw [List.lookup_cons]
  by_cases h : k = key
  · simp [h]
  · rw [if_neg h, beq_eq_false_iff_ne.mpr h]

theorem lookup_concat {α β : Type} [BEq α] [LawfulBEq α] [DecidableEq α] (k key : α) (value : β)
    (entries : List (α × β)) : (entries ++ [(key, value)]).lookup k
      = (entries.lookup k).or (if k = key then some value else none) := by
  rw [List.lookup_append, lookup_cons_eq_ite, List.lookup_nil]

theorem isSome_lookup_concat {α β : Type} [BEq α] [LawfulBEq α] [DecidableEq α] {k key : α} {value : β}
    {entries : List (α × β)} : ((entries ++ [(key, value)]).lookup k).isSome ↔
      (entries.lookup k).isSome ∨ k = key := by
  rw [lookup_concat, Option.isSome_or, Bool.or_eq_true]
  refine or_congr_right ?_
  split <;> simp_all

/-- What is found under a key is listed with the key. -/
theorem mem_of_lookup {α β : Type} [BEq α] [LawfulBEq α] {k : α} {value : β} {entries : List (α × β)}
    (h : entries.lookup k = some value) : (k, value) ∈ entries := by
  obtain ⟨before, after, rfl, -⟩ := List.lookup_eq_some_iff.mp h
  exact List.mem_append_cons_self

theorem lookup_eq_some_of_nodup {α β : Type} [BEq α] [LawfulBEq α] [DecidableEq α]
    {entries : List (α × β)} (hnodup : (entries.map (·.1)).Nodup) {pair : α × β}
    (hpair : pair ∈ entries) : entries.lookup pair.1 = some pair.2 := by
  induction entries with
  | nil => simp at hpair
  | cons first rest ih =>
    rw [List.map_cons, List.nodup_cons] at hnodup
    obtain ⟨key, value⟩ := first
    rw [lookup_cons_eq_ite]
    rcases List.mem_cons.mp hpair with rfl | hpair
    · rw [if_pos rfl]
    · have hne : pair.1 ≠ key := fun heq => hnodup.1 (List.mem_map.mpr ⟨pair, hpair, heq⟩)
      rw [if_neg hne, ih hnodup.2 hpair]

theorem lookup_insertName (key value k : String) (entries : List (String × String)) :
    (insertName key value entries).lookup k
      = if k = key then some value else entries.lookup k := by
  induction entries with
  | nil => rw [insertName, lookup_cons_eq_ite]
  | cons entry rest ih =>
    obtain ⟨k', v⟩ := entry
    rw [insertName]
    split
    · next hkey =>
      rw [lookup_cons_eq_ite, lookup_cons_eq_ite, hkey]
      split <;> rfl
    · next hkey =>
      split
      · rw [lookup_cons_eq_ite]
      · rw [lookup_cons_eq_ite, lookup_cons_eq_ite, ih]
        by_cases h : k = k'
        · rw [if_pos h, if_pos h, if_neg fun heq => hkey (h.symm.trans heq)]
        · rw [if_neg h, if_neg h]

theorem lookup_insertNumber {α : Type} (number : Nat) (value : α) (k : Nat)
    (entries : List (Nat × α)) :
    (insertNumber number value entries).lookup k
      = if k = number then some value else entries.lookup k := by
  induction entries with
  | nil => rw [insertNumber, lookup_cons_eq_ite]
  | cons entry rest ih =>
    obtain ⟨n, v⟩ := entry
    rw [insertNumber]
    by_cases hn : n = number
    · rw [if_pos hn, lookup_cons_eq_ite, lookup_cons_eq_ite, hn]
      split <;> rfl
    · rw [if_neg hn]
      by_cases hlt : number < n
      · rw [if_pos hlt, lookup_cons_eq_ite]
      · rw [if_neg hlt, lookup_cons_eq_ite, lookup_cons_eq_ite, ih]
        by_cases h : k = n
        · rw [if_pos h, if_pos h, if_neg fun heq => hn (h.symm.trans heq)]
        · rw [if_neg h, if_neg h]

theorem lookup_filter {α β : Type} [BEq α] [LawfulBEq α] [DecidableEq α] (p : α → Bool) (k : α)
    (entries : List (α × β)) :
    (entries.filter fun entry => p entry.1).lookup k
      = if p k then entries.lookup k else none := by
  induction entries with
  | nil => simp
  | cons entry rest ih =>
    obtain ⟨n, v⟩ := entry
    rw [lookup_cons_eq_ite, List.filter_cons]
    by_cases hn : k = n
    · subst hn
      by_cases hp : p k <;> simp [hp, ih]
    · by_cases hp : p n <;> simp [hp, ih, hn, lookup_cons_eq_ite]

/-! ## First hits -/

theorem findSome?_congr {α β : Type} {f g : α → Option β} {xs : List α}
    (h : ∀ x ∈ xs, f x = g x) : xs.findSome? f = xs.findSome? g := by
  induction xs with
  | nil => rfl
  | cons x xs ih =>
    rw [List.findSome?_cons, List.findSome?_cons, h x List.mem_cons_self,
      ih fun y hy => h y (List.mem_cons_of_mem x hy)]

/-- An element is found by its key when no other one has that key. -/
theorem find?_eq_some_of_nodup {α β : Type} [BEq β] [LawfulBEq β] {f : α → β} {xs : List α}
    (hnodup : (xs.map f).Nodup) {x : α} (hx : x ∈ xs) :
    xs.find? (f · == f x) = some x := by
  induction xs with
  | nil => simp at hx
  | cons y xs ih =>
    rw [List.map_cons, List.nodup_cons] at hnodup
    rcases List.mem_cons.mp hx with rfl | hx
    · simp
    · have hne : f y ≠ f x := fun heq => hnodup.1 (heq ▸ List.mem_map_of_mem hx)
      rw [List.find?_cons, beq_eq_false_iff_ne.mpr hne]
      exact ih hnodup.2 hx

/-- Of two sequences without repetitions, some place is listed in neither of two lists, as each
listed element rules out one place at most. -/
theorem exists_notMem_both {α β : Type} [DecidableEq α] {f : Nat → α} {g : Nat → β}
    (hf : Function.Injective f) (hg : Function.Injective g) (xs : List α) (ys : List β) :
    ∃ i < xs.length + ys.length + 1, f i ∉ xs ∧ g i ∉ ys := by
  by_contra hnone
  -- Every place is charged to the element that rules it out.
  let charge (i : Nat) : α ⊕ β := if f i ∈ xs then .inl (f i) else .inr (g i)
  have hinjective : Function.Injective charge := by
    intro i j heq
    simp only [charge] at heq
    split at heq <;> split at heq
    · exact hf (Sum.inl.inj heq)
    · exact absurd heq nofun
    · exact absurd heq nofun
    · exact hg (Sum.inr.inj heq)
  have hsubset : (List.range (xs.length + ys.length + 1)).map charge ⊆ xs.map .inl ++ ys.map .inr := by
    intro x hx
    obtain ⟨i, hi, rfl⟩ := List.mem_map.mp hx
    simp only [charge]
    split
    · next hmem => exact List.mem_append_left _ (List.mem_map_of_mem hmem)
    · next hfree =>
      refine List.mem_append_right _ (List.mem_map_of_mem ?_)
      by_contra hnotMem
      exact hnone ⟨i, List.mem_range.mp hi, hfree, hnotMem⟩
  have hnodup := (List.nodup_map_iff hinjective).mpr (@List.nodup_range (xs.length + ys.length + 1))
  have hlength := (List.subperm_of_subset hnodup hsubset).length_le
  rw [List.length_map, List.length_range, List.length_append, List.length_map,
    List.length_map] at hlength
  omega

/-! ## Lists in step -/

theorem map_eq_map_of_forall₂ {α β γ : Type} {r : α → β → Prop} {f : α → γ} {g : β → γ}
    {xs : List α} {ys : List β} (h : List.Forall₂ r xs ys) (hfg : ∀ x y, r x y → f x = g y) :
    xs.map f = ys.map g := by
  induction h with
  | nil => rfl
  | cons hxy _ ih => rw [List.map_cons, List.map_cons, hfg _ _ hxy, ih]

theorem map_filter_eq_of_forall₂ {α β γ : Type} {r : α → β → Prop} {p : α → Bool} {q : β → Bool}
    {f : α → γ} {g : β → γ} {xs : List α} {ys : List β} (h : List.Forall₂ r xs ys)
    (hpq : ∀ x y, r x y → p x = q y ∧ f x = g y) : (xs.filter p).map f = (ys.filter q).map g := by
  induction h with
  | nil => rfl
  | @cons x y _ _ hxy _ ih =>
    obtain ⟨hkept, heq⟩ := hpq x y hxy
    rw [List.filter_cons, List.filter_cons, hkept]
    split
    · rw [List.map_cons, List.map_cons, heq, ih]
    · exact ih

theorem flatMap_eq_flatMap_of_forall₂ {α β γ : Type} {r : α → β → Prop} {f : α → List γ}
    {g : β → List γ} {xs : List α} {ys : List β} (h : List.Forall₂ r xs ys)
    (hfg : ∀ x y, r x y → f x = g y) : xs.flatMap f = ys.flatMap g := by
  rw [List.flatMap_def, List.flatMap_def, map_eq_map_of_forall₂ h hfg]

theorem mapM_eq_some {α β : Type} {f : α → Option β} {xs : List α} {ys : List β} :
    xs.mapM f = some ys ↔ List.Forall₂ (fun x y => f x = some y) xs ys := by
  induction xs generalizing ys with
  | nil =>
    rw [List.mapM_nil, List.forall₂_nil_left_iff]
    exact ⟨fun h => (Option.some.inj h).symm, fun h => h ▸ rfl⟩
  | cons x xs ih =>
    rw [List.mapM_cons, Option.bind_eq_bind, Option.bind_eq_some_iff, List.forall₂_cons_left_iff]
    constructor
    · rintro ⟨y, hy, hrest⟩
      obtain ⟨ys, hys, heq⟩ := Option.bind_eq_some_iff.mp hrest
      exact ⟨y, ys, hy, ih.mp hys, (Option.some.inj heq).symm⟩
    · rintro ⟨y, ys, hy, hys, rfl⟩
      exact ⟨y, hy, Option.bind_eq_some_iff.mpr ⟨ys, ih.mpr hys, rfl⟩⟩

theorem forall₂_comp {α β γ : Type} {r : α → β → Prop} {s : β → γ → Prop} {t : α → γ → Prop}
    {xs : List α} {ys : List β} {zs : List γ} (hr : List.Forall₂ r xs ys)
    (hs : List.Forall₂ s ys zs) (h : ∀ x y z, r x y → s y z → t x z) : List.Forall₂ t xs zs := by
  induction hr generalizing zs with
  | nil =>
    cases hs
    exact .nil
  | cons hxy _ ih =>
    cases hs with
    | cons hyz hs => exact .cons (h _ _ _ hxy hyz) (ih hs)

theorem exists_right_of_forall₂ {α β : Type} {r : α → β → Prop} {xs : List α} {ys : List β}
    (h : List.Forall₂ r xs ys) {x : α} (hx : x ∈ xs) : ∃ y ∈ ys, r x y := by
  induction h with
  | nil => simp at hx
  | cons hxy _ ih =>
    rcases List.mem_cons.mp hx with rfl | hx
    · exact ⟨_, List.mem_cons_self, hxy⟩
    · obtain ⟨y, hy, hr⟩ := ih hx
      exact ⟨y, List.mem_cons_of_mem _ hy, hr⟩

theorem exists_getElem?_of_forall₂ {α β : Type} {r : α → β → Prop} {xs : List α} {ys : List β}
    (h : List.Forall₂ r xs ys) {i : Nat} {x : α} (hx : xs[i]? = some x) :
    ∃ y, ys[i]? = some y ∧ r x y := by
  induction h generalizing i with
  | nil => simp at hx
  | cons hxy _ ih =>
    cases i with
    | zero => exact ⟨_, rfl, Option.some.inj hx ▸ hxy⟩
    | succ i => exact ih hx

theorem forall₂_mem {α β : Type} {r : α → β → Prop} {xs : List α} {ys : List β}
    (h : List.Forall₂ r xs ys) : List.Forall₂ (fun x y => x ∈ xs ∧ r x y) xs ys := by
  induction h with
  | nil => exact .nil
  | cons hxy _ ih =>
    exact .cons ⟨List.mem_cons_self, hxy⟩ (ih.imp fun _ _ h => ⟨List.mem_cons_of_mem _ h.1, h.2⟩)

/-- The pairs of two lists in step go along with the first of them. -/
theorem forall₂_zip {α β : Type} {r : α → β → Prop} {xs : List α} {ys : List β}
    (h : List.Forall₂ r xs ys) :
    List.Forall₂ (fun pair x => pair.1 = x ∧ pair.2 ∈ ys ∧ r x pair.2) (xs.zip ys) xs := by
  induction h with
  | nil => exact .nil
  | cons hxy _ ih =>
    exact .cons ⟨rfl, List.mem_cons_self, hxy⟩
      (ih.imp fun _ _ h => ⟨h.1, List.mem_cons_of_mem _ h.2.1, h.2.2⟩)

theorem flatMap_sublist_of_forall₂ {α β γ : Type} {r : α → β → Prop} {f : α → List γ}
    {g : β → List γ} {xs : List α} {ys : List β} (h : List.Forall₂ r xs ys)
    (hfg : ∀ x y, r x y → (f x).Sublist (g y)) : (xs.flatMap f).Sublist (ys.flatMap g) := by
  induction h with
  | nil => exact List.Sublist.refl _
  | cons hxy _ ih =>
    rw [List.flatMap_cons, List.flatMap_cons]
    exact (hfg _ _ hxy).append ih

/-- Of distinct elements, those that a part of the list has in order are the part itself. -/
theorem sublist_eq_filter {α : Type} {xs ys : List α} (h : xs.Sublist ys) (hnodup : ys.Nodup)
    {p : α → Bool} (hp : ∀ y ∈ ys, p y ↔ y ∈ xs) : xs = ys.filter p := by
  induction h with
  | slnil => rfl
  | @cons xs ys y hsub ih =>
    rw [List.nodup_cons] at hnodup
    rw [List.forall_mem_cons] at hp
    rw [List.filter_cons_of_neg fun hy => hnodup.1 (hsub.subset (hp.1.mp hy)), ← ih hnodup.2 hp.2]
  | @cons_cons xs ys y hsub ih =>
    rw [List.nodup_cons] at hnodup
    rw [List.forall_mem_cons] at hp
    rw [List.filter_cons_of_pos (hp.1.mpr List.mem_cons_self), ← ih hnodup.2 fun z hz => ?_]
    rw [hp.2 z hz, List.mem_cons]
    exact or_iff_right fun heq => hnodup.1 (heq ▸ hz)

theorem exists_left_of_forall₂ {α β : Type} {r : α → β → Prop} {xs : List α} {ys : List β}
    (h : List.Forall₂ r xs ys) {y : β} (hy : y ∈ ys) : ∃ x ∈ xs, r x y :=
  exists_right_of_forall₂ h.flip hy

end PlainSchema
