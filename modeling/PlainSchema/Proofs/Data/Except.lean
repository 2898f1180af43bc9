import Mathlib.Data.List.Forall2

/-!
# Computations that can fail

A sequence of steps in `Except` succeeds exactly if every step does.  The lemmas here take a
successful run apart into its steps: `bind_eq_ok` for two steps, `mapM_eq_ok` and `forM_eq_ok` for
the steps over a list, and `foldlM_invariant` and `foldlM_prefix` for what
every step of a fold preserves.

Two ways to run the same steps are compared by `Matches`, which says that one succeeds with the
outcome of the other wherever that one succeeds.  `skipFailures` runs the steps that succeed and skips
the others.
-/

namespace PlainSchema

variable {ε α β γ : Type}

theorem bind_eq_ok {x : Except ε α} {f : α → Except ε β} {b : β} :
    x >>= f = .ok b ↔ ∃ a, x = .ok a ∧ f a = .ok b := by
  cases x with
  | error e => exact ⟨fun h => (nomatch h), fun ⟨_, h, _⟩ => (nomatch h)⟩
  | ok a => exact ⟨fun h => ⟨a, rfl, h⟩, fun ⟨_, h, hf⟩ => Except.ok.inj h ▸ hf⟩

theorem bind_eq_error {x : Except ε α} {f : α → Except ε β} {e : ε} :
    x >>= f = .error e ↔ x = .error e ∨ ∃ a, x = .ok a ∧ f a = .error e := by
  cases x with
  | error e' => exact ⟨fun h => Or.inl (congrArg Except.error (Except.error.inj h)), fun h =>
      h.elim (fun h => congrArg Except.error (Except.error.inj h)) fun ⟨_, h, _⟩ => (nomatch h)⟩
  | ok a => exact ⟨fun h => Or.inr ⟨a, rfl, h⟩, fun h => h.elim (fun h => (nomatch h))
      fun ⟨_, h, hf⟩ => Except.ok.inj h ▸ hf⟩

theorem map_eq_ok {x : Except ε α} {f : α → β} {b : β} :
    f <$> x = .ok b ↔ ∃ a, x = .ok a ∧ f a = b := by
  cases x with
  | error e => exact ⟨fun h => (nomatch h), fun ⟨_, h, _⟩ => (nomatch h)⟩
  | ok a => exact ⟨fun h => ⟨a, rfl, Except.ok.inj h⟩, fun ⟨_, h, hf⟩ => by
      rw [← hf, ← Except.ok.inj h]; rfl⟩

theorem mapM_eq_ok {f : α → Except ε β} {xs : List α} {ys : List β} :
    xs.mapM f = .ok ys ↔ List.Forall₂ (fun x y => f x = .ok y) xs ys := by
  induction xs generalizing ys with
  | nil =>
    rw [List.mapM_nil, List.forall₂_nil_left_iff]
    exact ⟨fun h => (Except.ok.inj h).symm, fun h => h ▸ rfl⟩
  | cons x xs ih =>
    rw [List.mapM_cons, bind_eq_ok, List.forall₂_cons_left_iff]
    constructor
    · rintro ⟨y, hy, hrest⟩
      obtain ⟨ys, hys, heq⟩ := bind_eq_ok.mp hrest
      exact ⟨y, ys, hy, ih.mp hys, (Except.ok.inj heq).symm⟩
    · rintro ⟨y, ys, hy, hys, rfl⟩
      exact ⟨y, hy, bind_eq_ok.mpr ⟨ys, ih.mpr hys, rfl⟩⟩

theorem mapM_congr {f g : α → Except ε β} {xs : List α}
    (h : ∀ x ∈ xs, f x = g x) : xs.mapM f = xs.mapM g := by
  induction xs with
  | nil => rfl
  | cons x xs ih =>
    rw [List.mapM_cons, List.mapM_cons, h x List.mem_cons_self,
      ih fun y hy => h y (List.mem_cons_of_mem _ hy)]

theorem isEmpty_eq_of_mapM {f : α → Except ε β} {xs : List α} {ys : List β}
    (h : xs.mapM f = .ok ys) : ys.isEmpty = xs.isEmpty := by
  cases mapM_eq_ok.mp h <;> rfl

/-- Steps that fail together fail at one of them. -/
theorem mapM_eq_error {f : α → Except ε β} {xs : List α} {e : ε} (h : xs.mapM f = .error e) :
    ∃ x ∈ xs, f x = .error e := by
  induction xs with
  | nil => exact absurd h nofun
  | cons x xs ih =>
    rw [List.mapM_cons, bind_eq_error] at h
    rcases h with h | ⟨y, -, h⟩
    · exact ⟨x, List.mem_cons_self, h⟩
    · rcases bind_eq_error.mp h with h | ⟨ys, -, h⟩
      · obtain ⟨x', hx', h⟩ := ih h
        exact ⟨x', List.mem_cons_of_mem _ hx', h⟩
      · exact absurd h nofun

/-- If every step succeeds, so do the steps over a list. -/
theorem exists_mapM {f : α → Except ε β} {p : β → Prop} {xs : List α}
    (h : ∀ x ∈ xs, ∃ y, f x = .ok y ∧ p y) : ∃ ys, xs.mapM f = .ok ys ∧ ∀ y ∈ ys, p y := by
  induction xs with
  | nil => exact ⟨[], rfl, by simp⟩
  | cons x xs ih =>
    obtain ⟨y, hy, hp⟩ := h x List.mem_cons_self
    obtain ⟨ys, hys, hall⟩ := ih fun x hx => h x (List.mem_cons_of_mem _ hx)
    refine ⟨y :: ys, ?_, List.forall_mem_cons.mpr ⟨hp, hall⟩⟩
    rw [mapM_eq_ok] at hys ⊢
    exact .cons hy hys

/-- If the outcome of every step can be taken further, so can the list of the outcomes. -/
theorem exists_mapM_of_mapM {f : α → Except ε β} {g : β → Except ε γ} {p : γ → Prop} {xs : List α}
    {ys : List β} (h : xs.mapM f = .ok ys)
    (hg : ∀ x ∈ xs, ∀ y ∈ ys, f x = .ok y → ∃ z, g y = .ok z ∧ p z) :
    ∃ zs, ys.mapM g = .ok zs ∧ ∀ z ∈ zs, p z := by
  rw [mapM_eq_ok] at h
  induction h with
  | nil => exact ⟨[], rfl, by simp⟩
  | cons hxy _ ih =>
    obtain ⟨z, hz, hp⟩ := hg _ List.mem_cons_self _ List.mem_cons_self hxy
    obtain ⟨zs, hzs, hall⟩ := ih fun x hx y hy =>
      hg x (List.mem_cons_of_mem _ hx) y (List.mem_cons_of_mem _ hy)
    refine ⟨z :: zs, ?_, List.forall_mem_cons.mpr ⟨hp, hall⟩⟩
    rw [mapM_eq_ok] at hzs ⊢
    exact .cons hz hzs

theorem forM_eq_ok {f : α → Except ε Unit} {xs : List α} :
    xs.forM f = .ok () ↔ ∀ x ∈ xs, f x = .ok () := by
  induction xs with
  | nil => exact ⟨fun _ x hx => absurd hx List.not_mem_nil, fun _ => rfl⟩
  | cons x xs ih =>
    rw [List.forM_eq_forM] at ih ⊢
    rw [List.forM_cons, bind_eq_ok, List.forall_mem_cons]
    exact ⟨fun ⟨_, hx, hxs⟩ => ⟨hx, ih.mp hxs⟩, fun ⟨hx, hxs⟩ => ⟨(), hx, ih.mpr hxs⟩⟩

theorem foldlM_append_eq_ok {f : β → α → Except ε β} {xs ys : List α} {b c : β} :
    (xs ++ ys).foldlM f b = .ok c ↔ ∃ a, xs.foldlM f b = .ok a ∧ ys.foldlM f a = .ok c := by
  rw [List.foldlM_append, bind_eq_ok]

theorem foldlM_cons_eq_ok {f : β → α → Except ε β} {x : α} {xs : List α} {b c : β} :
    (x :: xs).foldlM f b = .ok c ↔ ∃ a, f b x = .ok a ∧ xs.foldlM f a = .ok c := by
  rw [List.foldlM_cons, bind_eq_ok]

theorem foldlM_congr {f g : β → α → Except ε β} {xs : List α}
    (h : ∀ b, ∀ x ∈ xs, f b x = g b x) (b : β) : xs.foldlM f b = xs.foldlM g b := by
  induction xs generalizing b with
  | nil => rfl
  | cons x xs ih =>
    rw [List.foldlM_cons, List.foldlM_cons, h b x List.mem_cons_self]
    exact congrArg _ (funext (ih fun b y hy => h b y (List.mem_cons_of_mem _ hy)))

/-- What holds at first and survives every step holds at the end. -/
theorem foldlM_invariant {f : β → α → Except ε β} (motive : β → Prop) {xs : List α} {b c : β}
    (hinit : motive b) (hstep : ∀ b x c, x ∈ xs → motive b → f b x = .ok c → motive c)
    (h : xs.foldlM f b = .ok c) : motive c := by
  induction xs generalizing b with
  | nil => exact Except.ok.inj h ▸ hinit
  | cons x xs ih =>
    rw [List.foldlM_cons, bind_eq_ok] at h
    obtain ⟨b', hb', hrest⟩ := h
    exact ih (hstep b x b' List.mem_cons_self hinit hb')
      (fun b x c hx => hstep b x c (List.mem_cons_of_mem _ hx)) hrest

/-- What holds of the elements met so far and the result so far holds of all elements at the end. -/
theorem foldlM_prefix {f : β → α → Except ε β} (motive : List α → β → Prop) {xs : List α} {b c : β}
    (hinit : motive [] b)
    (hstep : ∀ met x b c, motive met b → f b x = .ok c → motive (met ++ [x]) c)
    (h : xs.foldlM f b = .ok c) : motive xs c := by
  suffices hgeneral : ∀ xs met b, motive met b → xs.foldlM f b = .ok c → motive (met ++ xs) c from
    hgeneral xs [] b hinit h
  intro xs
  induction xs with
  | nil =>
    intro met b hmet h
    rw [List.append_nil, ← Except.ok.inj h]
    exact hmet
  | cons x xs ih =>
    intro met b hmet h
    rw [List.foldlM_cons, bind_eq_ok] at h
    obtain ⟨b', hb', hrest⟩ := h
    rw [List.append_cons]
    exact ih (met ++ [x]) b' (hstep met x b b' hmet hb') hrest

/-- Steps that fail together fail at one of them, after all before it were taken. -/
theorem foldlM_eq_error {f : β → α → Except ε β} {xs : List α} {b : β} {e : ε}
    (h : xs.foldlM f b = .error e) :
    ∃ met x rest c, xs = met ++ x :: rest ∧ met.foldlM f b = .ok c ∧ f c x = .error e := by
  induction xs generalizing b with
  | nil => exact absurd h nofun
  | cons x xs ih =>
    rw [List.foldlM_cons, bind_eq_error] at h
    rcases h with h | ⟨b', hb', h⟩
    · exact ⟨[], x, xs, b, rfl, rfl, h⟩
    · obtain ⟨met, y, rest, c, rfl, hc, hy⟩ := ih h
      exact ⟨x :: met, y, rest, c, rfl, foldlM_cons_eq_ok.mpr ⟨b', hb', hc⟩, hy⟩

/-- If every step goes on from what holds after the steps before it, all steps can be taken. -/
theorem exists_foldlM {f : β → α → Except ε β} (motive : List α → β → Prop) {xs : List α} {b : β}
    (hinit : motive [] b)
    (hstep : ∀ met x rest b, xs = met ++ x :: rest → motive met b →
      ∃ c, f b x = .ok c ∧ motive (met ++ [x]) c) : ∃ c, xs.foldlM f b = .ok c ∧ motive xs c := by
  suffices h : ∀ rest met b, xs = met ++ rest → motive met b →
      ∃ c, rest.foldlM f b = .ok c ∧ motive xs c from h xs [] b rfl hinit
  intro rest
  induction rest with
  | nil =>
    intro met b heq hmet
    rw [List.append_nil] at heq
    exact ⟨b, rfl, heq ▸ hmet⟩
  | cons x rest ih =>
    intro met b heq hmet
    obtain ⟨c, hc, hnext⟩ := hstep met x rest b heq hmet
    obtain ⟨d, hd, hlast⟩ := ih (met ++ [x]) c (by simp [heq]) hnext
    exact ⟨d, foldlM_cons_eq_ok.mpr ⟨c, hc, hd⟩, hlast⟩

/-- If every step can be taken, so can all of them. -/
theorem exists_foldlM_of_total {f : β → α → Except ε β} (htotal : ∀ b x, ∃ c, f b x = .ok c)
    (xs : List α) (b : β) : ∃ c, xs.foldlM f b = .ok c := by
  obtain ⟨c, hc, -⟩ := exists_foldlM (fun _ _ => True) trivial
    (fun _ x _ b _ _ => (htotal b x).imp fun _ h => ⟨h, trivial⟩)
  exact ⟨c, hc⟩

/-- If one of the steps fails whatever came before, so do the steps together, with the error of one of
them. -/
theorem exists_error_foldlM {f : β → α → Except ε β} {xs : List α} {x : α} (hx : x ∈ xs)
    (herror : ∀ b, ∃ e, f b x = .error e) (b : β) :
    ∃ y ∈ xs, ∃ b' e, f b' y = .error e ∧ xs.foldlM f b = .error e := by
  induction xs generalizing b with
  | nil => exact absurd hx List.not_mem_nil
  | cons y ys ih =>
    cases hstep : f b y with
    | error e =>
      refine ⟨y, List.mem_cons_self, b, e, hstep, ?_⟩
      rw [List.foldlM_cons, hstep]
      rfl
    | ok c =>
      rcases List.mem_cons.mp hx with rfl | hx
      · obtain ⟨e, he⟩ := herror b
        exact absurd (hstep.symm.trans he) nofun
      · obtain ⟨z, hz, b', e, he, hrest⟩ := ih hx c
        refine ⟨z, List.mem_cons_of_mem _ hz, b', e, he, ?_⟩
        rw [List.foldlM_cons, hstep]
        exact hrest

theorem eq_ok_of_toOption {x : Except ε α} {a : α} (h : x.toOption = some a) : x = .ok a := by
  cases x with
  | error e => exact absurd h (by simp [Except.toOption])
  | ok b => exact congrArg Except.ok (Option.some.inj h)

theorem eq_ok_of_isOk {ε α : Type} {x : Except ε α} (h : x.isOk) (d : α) :
    x = .ok (x.toOption.getD d) := by
  cases x with
  | error e => simp [Except.isOk, Except.toBool] at h
  | ok a => rfl

/-- The error of a computation that failed. -/
def errorOf? : Except ε α → Option ε
  | .error e => some e
  | .ok _ => none

theorem eq_error_of_errorOf? {x : Except ε α} {e : ε} (h : errorOf? x = some e) : x = .error e := by
  cases x with
  | error e' => exact congrArg Except.error (Option.some.inj h)
  | ok a => exact absurd h nofun

/-! ## Two ways to run the same steps -/

/-- The second computation succeeds with the outcome of the first wherever the first one succeeds. -/
def Matches (x y : Except ε α) : Prop :=
  ∀ a, x = .ok a → y = .ok a

namespace Matches

variable {x y : Except ε α}

theorem refl (x : Except ε α) : Matches x x :=
  fun _ h => h

theorem error (e : ε) (y : Except ε α) : Matches (.error e) y :=
  fun _ h => by cases h

theorem bind {f g : α → Except ε β} (hx : Matches x y) (hf : ∀ a, Matches (f a) (g a)) :
    Matches (x >>= f) (y >>= g) := by
  intro b h
  obtain ⟨a, ha, hb⟩ := bind_eq_ok.mp h
  exact bind_eq_ok.mpr ⟨a, hx a ha, hf a b hb⟩

theorem mapM {f g : α → Except ε β} (h : ∀ x, Matches (f x) (g x)) (xs : List α) :
    Matches (xs.mapM f) (xs.mapM g) := by
  intro ys hys
  rw [mapM_eq_ok] at hys ⊢
  exact hys.imp fun x y => h x y

theorem foldlM {f g : β → α → Except ε β} (h : ∀ b x, Matches (f b x) (g b x)) (xs : List α) (b : β) :
    Matches (xs.foldlM f b) (xs.foldlM g b) := by
  induction xs generalizing b with
  | nil => exact refl _
  | cons x xs ih =>
    rw [List.foldlM_cons, List.foldlM_cons]
    exact (h b x).bind ih

end Matches

/-- The outcome of steps of which those that fail are skipped. -/
def skipFailures (f : β → α → Except ε β) (xs : List α) (b : β) : β :=
  xs.foldl (fun b x => (f b x).toOption.getD b) b

/-- If every step that is reached does what the given step does, or nothing where that one fails, all of
them together skip the failures. -/
theorem foldlM_eq_skipFailures {f g : β → α → Except ε β} {xs : List α} {b : β}
    (h : ∀ met x rest c, xs = met ++ x :: rest → met.foldlM g b = .ok c →
      g c x = .ok ((f c x).toOption.getD c)) : xs.foldlM g b = .ok (skipFailures f xs b) := by
  induction xs generalizing b with
  | nil => rfl
  | cons x xs ih =>
    have hx := h [] x xs b rfl rfl
    refine foldlM_cons_eq_ok.mpr ⟨_, hx, ih fun met y rest c hsplit hmet => ?_⟩
    exact h (x :: met) y rest c (by rw [hsplit]; rfl) (foldlM_cons_eq_ok.mpr ⟨_, hx, hmet⟩)

end PlainSchema
