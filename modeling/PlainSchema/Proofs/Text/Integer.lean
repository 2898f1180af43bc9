import PlainSchema.Text.Integer

/-!
# Reading printed integers

A printed number is a text of digits that no other number has, `toString_injective`.  A printed integer
between two bounds is read back, `integer?_toString`.
-/

namespace PlainSchema.Text

theorem natural?_toDigits (n : Nat) : natural? (Nat.toDigits 10 n) = some n := by
  have hdigits : (Nat.toDigits 10 n).all Char.isDigit := by
    rw [List.all_eq_true]
    intro c hc
    exact Nat.isDigit_of_mem_toDigits (by decide) (by decide) hc
  have hne : (Nat.toDigits 10 n).isEmpty = false := by
    rw [List.isEmpty_eq_false_iff]
    exact Nat.toDigits_ne_nil
  have hvalue : (Nat.toDigits 10 n).foldl (fun n c => 10 * n + (c.toNat - '0'.toNat)) 0 = n := by
    rw [← Nat.ofDigitChars_eq_foldl]
    exact Nat.ofDigitChars_ten_toDigits
  rw [natural?, hdigits, hne, hvalue]
  rfl

theorem isDigit_of_mem_toString {n : Nat} {c : Char} (h : c ∈ (toString n).toList) : c.isDigit := by
  rw [Nat.toString_eq_repr, Nat.toList_repr] at h
  exact Nat.isDigit_of_mem_toDigits (by decide) (by decide) h

theorem toList_toString_ne_nil (n : Nat) : (toString n).toList ≠ [] := by
  rw [Nat.toString_eq_repr, Nat.toList_repr]
  exact Nat.toDigits_ne_nil

theorem toString_injective {m n : Nat} (h : toString m = toString n) : m = n := by
  have hdigits := congrArg (fun s => natural? (String.toList s)) h
  simp only [Nat.toString_eq_repr, Nat.toList_repr, natural?_toDigits] at hdigits
  exact Option.some.inj hdigits

/-- A printed number begins with no sign. -/
theorem toDigits_eq_cons (n : Nat) : ∃ c cs, Nat.toDigits 10 n = c :: cs ∧ c ≠ '-' ∧ c ≠ '+' := by
  obtain ⟨c, cs, hcons⟩ := List.exists_cons_of_ne_nil (Nat.toDigits_ne_nil (n := n) (b := 10))
  have hdigit : c.isDigit :=
    Nat.isDigit_of_mem_toDigits (by decide) (by decide) (hcons ▸ List.mem_cons_self)
  refine ⟨c, cs, hcons, ?_, ?_⟩
  · rintro rfl
    exact absurd hdigit (by decide)
  · rintro rfl
    exact absurd hdigit (by decide)

theorem integer?_toString {low high n : Int} (hlow : low < 0) (hn : low ≤ n) (hhigh : n ≤ high) :
    integer? low high (toString n) = some n := by
  suffices hread : ∀ k : Int, k = n →
      (do let k ← some k; guard (low ≤ k && k ≤ high); return k : Option Int) = some n by
    rw [integer?, Int.toString_eq_repr, Int.repr_eq_if]
    by_cases hsign : 0 ≤ n
    · rw [if_pos hsign, Nat.toList_repr]
      obtain ⟨c, cs, hcons, hminus, hplus⟩ := toDigits_eq_cons n.toNat
      have hnumber : natural? (c :: cs) = some n.toNat := by
        rw [← hcons]
        exact natural?_toDigits n.toNat
      rw [hcons]
      split
      · next heq => exact absurd (List.cons.inj heq).1 hminus
      · next heq => exact absurd (List.cons.inj heq).1 hplus
      · rw [hnumber]
        exact hread _ (Int.toNat_of_nonneg hsign)
    · have htext : ("-" ++ (-n).toNat.repr).toList = '-' :: Nat.toDigits 10 (-n).toNat := by
        simp [Nat.toList_repr]
      rw [if_neg hsign, htext]
      split
      · next digits heq =>
        obtain rfl := (List.cons.inj heq).2
        rw [if_pos hlow, natural?_toDigits]
        exact hread (-((-n).toNat : Int)) (by omega)
      · next heq => exact absurd (List.cons.inj heq).1 (by decide)
      · next hminus _ => exact absurd rfl (hminus _)
  rintro k rfl
  unfold guard
  simp [hn, hhigh]

end PlainSchema.Text
