import Mathlib.Data.List.Basic
import PlainSchema.Text.Utf8

/-!
# Reading UTF-8 back

The machine that reads UTF-8 emits exactly the characters whose bytes it is given, so a text
survives encoding, strictly and lossily: `items_encode`, `decodeLossy_encode`.  A character has one
to four bytes, and the first byte fixes which values the second one may have.  Only no bytes at all are
read as the empty text, `decodeLossy_eq_empty_iff`.
-/

namespace PlainSchema.Utf8

variable {low high bits : Nat} {bytes : List UInt8}

theorem toNat_ofNat {n : Nat} (h : n < 256) : (UInt8.ofNat n).toNat = n := by
  simp [Nat.mod_eq_of_lt h]

/-! ## Single bytes -/

theorem items_ascii {b : Nat} (h : b < 0x80) :
    items .start (UInt8.ofNat b :: bytes) = some (Char.ofNat b) :: items .start bytes := by
  rw [items, State.step, toNat_ofNat (by omega), State.first, if_pos h]
  rfl

theorem items_opening {b : Nat} {state : State} (hlow : 0x80 ≤ b) (hhigh : b < 256)
    (hopening : State.opening? b = some state) :
    items .start (UInt8.ofNat b :: bytes) = items state bytes := by
  rw [items, State.step, toNat_ofNat hhigh, State.first, if_neg (by omega), hopening]
  rfl

/-- The last byte of a character. -/
theorem items_last {k : Nat} (hk : k < 64) (hlow : low ≤ k + 0x80) (hhigh : k + 0x80 ≤ high) :
    items (.owing 1 low high bits) (UInt8.ofNat (k + 0x80) :: bytes)
      = some (Char.ofNat (bits * 64 + k)) :: items .start bytes := by
  rw [items, State.step, toNat_ofNat (by omega), if_pos ⟨hlow, hhigh⟩, Nat.add_sub_cancel]
  rfl

/-- A byte inside a character that more bytes follow. -/
theorem items_inner {count k : Nat} (hk : k < 64) (hlow : low ≤ k + 0x80)
    (hhigh : k + 0x80 ≤ high) :
    items (.owing (count + 2) low high bits) (UInt8.ofNat (k + 0x80) :: bytes)
      = items (.owing (count + 1) 0x80 0xBF (bits * 64 + k)) bytes := by
  rw [items, State.step, toNat_ofNat (by omega), if_pos ⟨hlow, hhigh⟩, Nat.add_sub_cancel]
  rfl

/-! ## Characters -/

theorem items_two {v : Nat} (hlow : 0x80 ≤ v) (hhigh : v ≤ 0x7ff) :
    items .start (UInt8.ofNat (v / 64 % 0x20 + 0xc0) :: UInt8.ofNat (v % 0x40 + 0x80) :: bytes)
      = some (Char.ofNat v) :: items .start bytes := by
  have hfirst : v / 64 % 0x20 = v / 64 := Nat.mod_eq_of_lt (by omega)
  have hopening : State.opening? (v / 64 + 0xc0) = some (.owing 1 0x80 0xBF (v / 64)) := by
    rw [State.opening?, if_pos (by omega), Nat.add_sub_cancel]
  rw [hfirst, items_opening (by omega) (by omega) hopening,
    items_last (by omega) (by omega) (by omega), Nat.div_add_mod']

theorem items_three {v : Nat} (hlow : 0x800 ≤ v) (hhigh : v ≤ 0xffff)
    (hvalid : v < 0xd800 ∨ 0xdfff < v) :
    items .start (UInt8.ofNat (v / 4096 % 0x10 + 0xe0) :: UInt8.ofNat (v / 64 % 0x40 + 0x80)
        :: UInt8.ofNat (v % 0x40 + 0x80) :: bytes)
      = some (Char.ofNat v) :: items .start bytes := by
  have hfirst : v / 4096 % 0x10 = v / 4096 := Nat.mod_eq_of_lt (by omega)
  obtain ⟨low, high, hopening, hsecond⟩ : ∃ low high,
      State.opening? (v / 4096 + 0xe0) = some (.owing 2 low high (v / 4096)) ∧
        low ≤ v / 64 % 0x40 + 0x80 ∧ v / 64 % 0x40 + 0x80 ≤ high := by
    rw [State.opening?, if_neg (by omega), Nat.add_sub_cancel]
    by_cases h0 : v / 4096 + 0xe0 = 0xE0
    · exact ⟨_, _, if_pos h0, by omega, by omega⟩
    rw [if_neg h0]
    by_cases h1 : 0xE1 ≤ v / 4096 + 0xe0 ∧ v / 4096 + 0xe0 ≤ 0xEC
    · exact ⟨_, _, if_pos h1, by omega, by omega⟩
    rw [if_neg h1]
    by_cases h2 : v / 4096 + 0xe0 = 0xED
    · exact ⟨_, _, if_pos h2, by omega, by omega⟩
    rw [if_neg h2, if_pos (by omega)]
    exact ⟨_, _, rfl, by omega, by omega⟩
  rw [hfirst, items_opening (by omega) (by omega) hopening,
    items_inner (by omega) hsecond.1 hsecond.2, items_last (by omega) (by omega) (by omega)]
  have hsum : (v / 4096 * 64 + v / 64 % 0x40) * 64 + v % 0x40 = v := by omega
  rw [hsum]

theorem items_four {v : Nat} (hlow : 0x10000 ≤ v) (hhigh : v < 0x110000) :
    items .start (UInt8.ofNat (v / 262144 % 0x08 + 0xf0) :: UInt8.ofNat (v / 4096 % 0x40 + 0x80)
        :: UInt8.ofNat (v / 64 % 0x40 + 0x80) :: UInt8.ofNat (v % 0x40 + 0x80) :: bytes)
      = some (Char.ofNat v) :: items .start bytes := by
  have hfirst : v / 262144 % 0x08 = v / 262144 := Nat.mod_eq_of_lt (by omega)
  obtain ⟨low, high, hopening, hsecond⟩ : ∃ low high,
      State.opening? (v / 262144 + 0xf0) = some (.owing 3 low high (v / 262144)) ∧
        low ≤ v / 4096 % 0x40 + 0x80 ∧ v / 4096 % 0x40 + 0x80 ≤ high := by
    rw [State.opening?, if_neg (by omega), if_neg (by omega), if_neg (by omega), if_neg (by omega),
      if_neg (by omega), Nat.add_sub_cancel]
    by_cases h0 : v / 262144 + 0xf0 = 0xF0
    · exact ⟨_, _, if_pos h0, by omega, by omega⟩
    rw [if_neg h0]
    by_cases h1 : 0xF1 ≤ v / 262144 + 0xf0 ∧ v / 262144 + 0xf0 ≤ 0xF3
    · exact ⟨_, _, if_pos h1, by omega, by omega⟩
    rw [if_neg h1, if_pos (by omega)]
    exact ⟨_, _, rfl, by omega, by omega⟩
  rw [hfirst, items_opening (by omega) (by omega) hopening,
    items_inner (by omega) hsecond.1 hsecond.2, items_inner (by omega) (by omega) (by omega),
    items_last (by omega) (by omega) (by omega)]
  have hsum : ((v / 262144 * 64 + v / 4096 % 0x40) * 64 + v / 64 % 0x40) * 64 + v % 0x40 = v := by
    omega
  rw [hsum]

/-- The bytes of a character read as the character. -/
theorem items_utf8EncodeChar (c : Char) (bytes : List UInt8) :
    items .start (String.utf8EncodeChar c ++ bytes) = some c :: items .start bytes := by
  have hchar : Char.ofNat c.val.toNat = c := Char.ofNat_toNat c
  have hvalid : c.val.toNat < 0xd800 ∨ 0xdfff < c.val.toNat ∧ c.val.toNat < 0x110000 := c.valid
  rw [String.utf8EncodeChar]
  generalize c.val.toNat = v at hchar hvalid
  by_cases h1 : v ≤ 0x7f
  · rw [if_pos h1, List.singleton_append, items_ascii (by omega), hchar]
  by_cases h2 : v ≤ 0x7ff
  · rw [if_neg h1, if_pos h2]
    exact hchar ▸ items_two (by omega) h2
  by_cases h3 : v ≤ 0xffff
  · rw [if_neg h1, if_neg h2, if_pos h3]
    exact hchar ▸ items_three (by omega) h3 (by omega)
  · rw [if_neg h1, if_neg h2, if_neg h3]
    exact hchar ▸ items_four (by omega) (by omega)

/-! ## Texts -/

theorem items_encode (s : String) : items .start (encode s) = s.toList.map some := by
  rw [encode]
  induction s.toList with
  | nil => rfl
  | cons c cs ih => rw [List.flatMap_cons, items_utf8EncodeChar, ih, List.map_cons]

/-- Lossy reading loses nothing of a text. -/
theorem decodeLossy_encode (s : String) : decodeLossy (encode s) = s := by
  rw [decodeLossy, items_encode, List.map_map]
  simp [Function.comp_def]

/-! ## Bytes that are there emit something -/

theorem State.first_emits_or_owes (b : Nat) : (State.first b).1 ≠ [] ∨ (State.first b).2 ≠ .start := by
  unfold State.first
  split
  · exact Or.inl (by simp)
  · split
    · next opened hopening =>
      refine Or.inr ?_
      rintro rfl
      unfold State.opening? at hopening
      repeat' split at hopening
      all_goals cases hopening
    · exact Or.inl (by simp)

/-- A byte emits an item or leaves the machine inside a character. -/
theorem State.step_emits_or_owes (state : State) (b : Nat) :
    (state.step b).1 ≠ [] ∨ (state.step b).2 ≠ .start := by
  cases state with
  | start => exact first_emits_or_owes b
  | owing count low high bits =>
    unfold State.step
    by_cases hfits : low ≤ b ∧ b ≤ high
    · by_cases hlast : count ≤ 1
      · simp [hfits, hlast]
      · simp [hfits, hlast]
    · simp [hfits]

theorem items_cons (state : State) (b : UInt8) (bytes : List UInt8) :
    items state (b :: bytes)
      = (state.step b.toNat).1 ++ items (state.step b.toNat).2 bytes := by
  cases state <;> rw [items]

/-- Bytes that are owed, or that are there, emit an item. -/
theorem items_ne_nil {state : State} {bytes : List UInt8} (h : state ≠ .start ∨ bytes ≠ []) :
    items state bytes ≠ [] := by
  induction bytes generalizing state with
  | nil =>
    cases state with
    | start => simp at h
    | owing => simp [items]
  | cons b bytes ih =>
    rw [items_cons]
    rcases state.step_emits_or_owes b.toNat with hout | hnext
    · exact List.append_ne_nil_of_left_ne_nil hout _
    · exact List.append_ne_nil_of_right_ne_nil _ (ih (Or.inl hnext))

theorem decodeLossy_eq_empty_iff {bytes : List UInt8} : decodeLossy bytes = "" ↔ bytes = [] := by
  constructor
  · intro hempty
    by_contra hne
    have hitems := congrArg String.toList hempty
    rw [decodeLossy, String.toList_ofList] at hitems
    exact items_ne_nil (Or.inr hne) (List.map_eq_nil_iff.mp hitems)
  · rintro rfl
    rfl

end PlainSchema.Utf8
