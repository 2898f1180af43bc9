import PlainSchema.Proofs.Text.Integer
import PlainSchema.Proofs.Text.Split
import PlainSchema.Text.Letters
import PlainSchema.Text.Words

/-!
# Words and letter cases of identifiers

The words of a text hold its letters and digits in order, `flatten_words`, and none of them is empty,
so the forms of a text are made of the same characters in other cases.  A number behind an underscore
is a word without a case, and the camel form ends with it, `upperCamel_append_number`.

Names of fields are ASCII.  There the letters, digits and cases are those of `Char`, and the forms of
a name are made of the characters of names again, `HasNameChars.snake` and
`HasNameChars.alphanum_upperCamel`.
-/

namespace PlainSchema.Text

/-! ## ASCII characters -/

/-- What holds of the 128 code points of ASCII holds of every character among them. -/
theorem forall_ascii (p : Char → Prop) (h : ∀ n < 0x80, p (Char.ofNat n)) {c : Char}
    (hc : c.toNat < 0x80) : p c := by
  rw [← Char.ofNat_toNat c]
  exact h c.toNat hc

theorem isAlphanum_eq (c : Char) : c.isAlphanum = (c.isUpper || c.isLower || c.isDigit) :=
  rfl

theorem isAlphanum_of_isUpper {c : Char} (h : c.isUpper) : c.isAlphanum := by
  rw [isAlphanum_eq, h, Bool.true_or, Bool.true_or]

theorem isAlphanum_of_isAlpha {c : Char} (h : c.isAlpha) : c.isAlphanum :=
  Bool.or_eq_true _ _ |>.mpr (Or.inl h)

theorem isAlphanum_of_isDigit {c : Char} (h : c.isDigit) : c.isAlphanum := by
  rw [isAlphanum_eq, h, Bool.or_true]

theorem toNat_lt_of_isAlphanum {c : Char} (h : c.isAlphanum) : c.toNat < 0x80 := by
  delta Char.isAlphanum Char.isAlpha Char.isUpper Char.isLower Char.isDigit at h
  simp only [Bool.or_eq_true, Bool.and_eq_true, decide_eq_true_eq, ge_iff_le,
    UInt32.le_iff_toNat_le] at h
  rcases h with (⟨-, h⟩ | ⟨-, h⟩) | ⟨-, h⟩ <;> exact Nat.lt_of_le_of_lt h (by decide)

theorem toNat_lt_of_isDigit {c : Char} (h : c.isDigit) : c.toNat < 0x80 :=
  toNat_lt_of_isAlphanum (isAlphanum_of_isDigit h)

theorem isAlphanumeric_of_ascii {c : Char} (h : c.toNat < 0x80) : isAlphanumeric c = c.isAlphanum :=
  if_pos h

theorem isAlphanumeric_of_isAlphanum {c : Char} (h : c.isAlphanum) : isAlphanumeric c := by
  rw [isAlphanumeric_of_ascii (toNat_lt_of_isAlphanum h), h]

theorem isLetter_of_ascii {c : Char} (h : c.toNat < 0x80) : isLetter c = (c.isAlpha || c == '_') :=
  if_pos h

theorem isLetterOrMark_of_ascii {c : Char} (h : c.toNat < 0x80) :
    isLetterOrMark c = (c.isAlphanum || c == '_') :=
  if_pos h

/-- A letter may stand inside of an identifier. -/
theorem isLetterOrMark_of_isLetter {c : Char} (h : isLetter c) : isLetterOrMark c := by
  by_cases hascii : c.toNat < 0x80
  · rw [isLetter_of_ascii hascii, Bool.or_eq_true] at h
    rw [isLetterOrMark_of_ascii hascii, Bool.or_eq_true]
    exact h.imp_left isAlphanum_of_isAlpha
  · rw [isLetter, if_neg hascii] at h
    rw [isLetterOrMark, if_neg hascii, h, Bool.true_or]

theorem isLetterOrMark_of_isAlphanum {c : Char} (h : c.isAlphanum) : isLetterOrMark c := by
  rw [isLetterOrMark_of_ascii (toNat_lt_of_isAlphanum h), h, Bool.true_or]

theorem lowerCase_of_isAlphanum {c : Char} (h : c.isAlphanum) : lowerCase c = [c.toLower] :=
  if_pos (toNat_lt_of_isAlphanum h)

theorem upperCase_of_isAlphanum {c : Char} (h : c.isAlphanum) : upperCase c = [c.toUpper] :=
  if_pos (toNat_lt_of_isAlphanum h)

theorem isAlphanum_toLower {c : Char} (h : c.isAlphanum) : c.toLower.isAlphanum :=
  forall_ascii (fun c => c.isAlphanum → c.toLower.isAlphanum) (by decide +kernel)
    (toNat_lt_of_isAlphanum h) h

theorem isAlphanum_toUpper {c : Char} (h : c.isAlphanum) : c.toUpper.isAlphanum :=
  forall_ascii (fun c => c.isAlphanum → c.toUpper.isAlphanum) (by decide +kernel)
    (toNat_lt_of_isAlphanum h) h

theorem isUpper_toUpper {c : Char} (h : c.isAlphanum) : c.toUpper.isUpper ↔ ¬ c.isDigit :=
  forall_ascii (fun c => c.isAlphanum → (c.toUpper.isUpper ↔ ¬ c.isDigit)) (by decide +kernel)
    (toNat_lt_of_isAlphanum h) h

theorem not_isUpper_toLower {c : Char} (h : c.isAlphanum) : ¬ c.toLower.isUpper :=
  forall_ascii (fun c => ¬ c.toLower.isUpper) (by decide +kernel) (toNat_lt_of_isAlphanum h)

theorem isLetter_toLower {c : Char} (h : c.isAlphanum) : isLetter c.toLower ↔ ¬ c.isDigit :=
  forall_ascii (fun c => c.isAlphanum → (isLetter c.toLower ↔ ¬ c.isDigit)) (by decide +kernel)
    (toNat_lt_of_isAlphanum h) h

theorem isLetter_toUpper {c : Char} (h : c.isAlphanum) : isLetter c.toUpper ↔ ¬ c.isDigit :=
  forall_ascii (fun c => c.isAlphanum → (isLetter c.toUpper ↔ ¬ c.isDigit)) (by decide +kernel)
    (toNat_lt_of_isAlphanum h) h

/-- A digit has no case. -/
structure Caseless (c : Char) : Prop where
  notLower : isLowerCase c = false
  notUpper : isUpperCase c = false
  lower : lowerCase c = [c]
  upper : upperCase c = [c]

theorem caseless_of_isDigit {c : Char} (h : c.isDigit) : Caseless c := by
  obtain ⟨hnotLower, hnotUpper, hlower, hupper⟩ := forall_ascii
    (fun c => c.isDigit → isLowerCase c = false ∧ isUpperCase c = false ∧ lowerCase c = [c] ∧
      upperCase c = [c]) (by decide +kernel) (toNat_lt_of_isDigit h) h
  exact ⟨hnotLower, hnotUpper, hlower, hupper⟩

/-! ## Words -/

/-- The words of a piece are the piece.  A run of upper-case letters is only cut where a word has begun. -/
theorem flatten_wordsFrom (case : LetterCase) (word : List Char) {s : List Char} (hs : s ≠ []) :
    (wordsFrom case word s).flatten = word.reverse ++ s := by
  fun_induction wordsFrom case word s with
  | case1 => exact absurd rfl hs
  | case2 => simp
  | case3 case word c d rest _ ih => rw [List.flatten_cons, ih (by simp)]; simp
  | case4 case word c d rest _ _ ih => rw [List.flatten_cons, ih (by simp)]; simp
  | case5 case word c d rest _ _ ih => rw [ih (by simp)]; simp

theorem ne_nil_of_mem_wordsFrom {case : LetterCase} {word s w : List Char}
    (hword : case = .upper → word ≠ []) (hw : w ∈ wordsFrom case word s) : w ≠ [] := by
  fun_induction wordsFrom case word s with
  | case1 => exact absurd hw List.not_mem_nil
  | case2 case word c => simp [List.mem_singleton.mp hw]
  | case3 case word c d rest _ ih =>
    rcases List.mem_cons.mp hw with rfl | hw
    · simp
    · exact ih nofun hw
  | case4 case word c d rest _ hcut ih =>
    rcases List.mem_cons.mp hw with rfl | hw
    · simpa using hword hcut.1
    · exact ih nofun hw
  | case5 case word c d rest _ _ ih => exact ih (fun _ => List.cons_ne_nil c word) hw

/-- Digits are one word. -/
theorem wordsFrom_digits {s : List Char} (hs : s ≠ []) (hdigits : ∀ c ∈ s, c.isDigit)
    (word : List Char) : wordsFrom .unknown word s = [word.reverse ++ s] := by
  induction s generalizing word with
  | nil => exact absurd rfl hs
  | cons c cs ih =>
    rw [List.forall_mem_cons] at hdigits
    have hc := caseless_of_isDigit hdigits.1
    cases cs with
    | nil => simp [wordsFrom]
    | cons d rest =>
      have hnext : LetterCase.unknown.next c = .unknown := by
        rw [LetterCase.next, hc.notLower, hc.notUpper]
        rfl
      rw [wordsFrom, hnext, if_neg nofun, if_neg nofun, ih (by simp) hdigits.2]
      simp

theorem flatten_alphanumericPieces (s : List Char) :
    (alphanumericPieces s).flatten = s.filter isAlphanumeric := by
  rw [alphanumericPieces, List.flatten_filter_not_isEmpty, flatten_splitAll]
  induction s with
  | nil => rfl
  | cons c cs ih =>
    rw [List.map_cons]
    by_cases hc : isAlphanumeric c
    · have hne : c ≠ '_' := by
        rintro rfl
        exact absurd hc (by decide)
      rw [if_pos hc, List.filter_cons_of_pos (by simpa using hne), List.filter_cons_of_pos hc, ih]
    · rw [if_neg hc, List.filter_cons_of_neg (by simp), List.filter_cons_of_neg hc, ih]

theorem ne_nil_of_mem_alphanumericPieces {s piece : List Char} (h : piece ∈ alphanumericPieces s) :
    piece ≠ [] := by
  have hkept := (List.mem_filter.mp h).2
  simpa using hkept

/-- The words of a text are its letters and digits in order. -/
theorem flatten_words (s : String) : (words s).flatten = s.toList.filter isAlphanumeric := by
  have hpieces : ∀ pieces : List (List Char), (∀ piece ∈ pieces, piece ≠ []) →
      (pieces.flatMap (wordsFrom .unknown [])).flatten = pieces.flatten := by
    intro pieces hne
    induction pieces with
    | nil => rfl
    | cons piece pieces ih =>
      rw [List.forall_mem_cons] at hne
      rw [List.flatMap_cons, List.flatten_append, List.flatten_cons, ih hne.2,
        flatten_wordsFrom _ _ hne.1]
      rfl
  rw [words, hpieces _ fun _ => ne_nil_of_mem_alphanumericPieces, flatten_alphanumericPieces]

theorem ne_nil_of_mem_words {s : String} {w : List Char} (h : w ∈ words s) : w ≠ [] := by
  obtain ⟨piece, -, hw⟩ := List.mem_flatMap.mp h
  refine ne_nil_of_mem_wordsFrom (fun hcase => ?_) hw
  exact absurd hcase nofun

theorem alphanumericPieces_append_sep (base rest : List Char) :
    alphanumericPieces (base ++ '_' :: rest) = alphanumericPieces base ++ alphanumericPieces rest := by
  rw [alphanumericPieces, List.map_append, List.map_cons, if_neg (by decide), splitAll_append_sep,
    List.filter_append]
  rfl

theorem alphanumericPieces_of_all {s : List Char} (hs : s ≠ []) (hall : ∀ c ∈ s, isAlphanumeric c) :
    alphanumericPieces s = [s] := by
  have hmap : (s.map fun c => if isAlphanumeric c then c else '_') = s := by
    conv_rhs => rw [← List.map_id s]
    exact List.map_congr_left fun c hc => if_pos (hall c hc)
  have hsep : '_' ∉ s := fun h => absurd (hall _ h) (by decide)
  rw [alphanumericPieces, hmap, splitAll_of_notMem hsep]
  simpa using hs

/-- A number behind an underscore is a word of its own. -/
theorem words_append_number (base : String) {number : String} (hne : number.toList ≠ [])
    (hdigits : ∀ c ∈ number.toList, c.isDigit) :
    words (base ++ "_" ++ number) = words base ++ [number.toList] := by
  have hall : ∀ c ∈ number.toList, isAlphanumeric c := fun c hc =>
    isAlphanumeric_of_isAlphanum (isAlphanum_of_isDigit (hdigits c hc))
  have htext : (base ++ "_" ++ number).toList = base.toList ++ '_' :: number.toList := by simp
  rw [words, htext, alphanumericPieces_append_sep, alphanumericPieces_of_all hne hall,
    List.flatMap_append, List.flatMap_singleton, wordsFrom_digits hne hdigits]
  rfl

/-! ## Letter cases -/

theorem lowered_digits {s : List Char} (hdigits : ∀ c ∈ s, c.isDigit) : lowered s = s := by
  induction s with
  | nil => rfl
  | cons c cs ih =>
    rw [List.forall_mem_cons] at hdigits
    have hsigma : ¬ (c = '\u03A3' ∧ cs.isEmpty) := by
      rintro ⟨rfl, -⟩
      exact absurd hdigits.1 (by decide)
    rw [lowered, if_neg hsigma, (caseless_of_isDigit hdigits.1).lower, ih hdigits.2]
    rfl

theorem capitalize_digits {s : List Char} (hdigits : ∀ c ∈ s, c.isDigit) : capitalize s = s := by
  cases s with
  | nil => rfl
  | cons c cs =>
    rw [List.forall_mem_cons] at hdigits
    rw [capitalize, (caseless_of_isDigit hdigits.1).upper, lowered_digits hdigits.2]
    rfl

/-- The camel form of a text ends with the number that is put behind it. -/
theorem upperCamel_append_number (base : String) (n : Nat) :
    upperCamel (base ++ "_" ++ toString n) = upperCamel base ++ toString n := by
  have hdigits : ∀ c ∈ (toString n).toList, c.isDigit := fun _ => isDigit_of_mem_toString
  rw [upperCamel, words_append_number base (toList_toString_ne_nil n) hdigits, List.flatMap_append,
    List.flatMap_singleton, capitalize_digits hdigits, String.ofList_append, String.ofList_toList]
  rfl

/-! ## Forms of names -/

/-- A text of ASCII letters, digits and underscores. -/
def HasNameChars (s : String) : Prop :=
  ∀ c ∈ s.toList, c.isAlphanum ∨ c = '_'

instance (s : String) : Decidable (HasNameChars s) :=
  decidable_of_iff (s.toList.all fun c => c.isAlphanum || c == '_') (by simp [HasNameChars])

variable {name : String}

theorem toNat_lt_of_isNameChar {c : Char} (h : c.isAlphanum ∨ c = '_') : c.toNat < 0x80 := by
  rcases h with h | rfl
  · exact toNat_lt_of_isAlphanum h
  · decide

theorem isLetter_of_isNameChar {c : Char} (h : c.isAlphanum ∨ c = '_') : isLetter c ↔ ¬ c.isDigit :=
  forall_ascii (fun c => c.isAlphanum ∨ c = '_' → (isLetter c ↔ ¬ c.isDigit)) (by decide +kernel)
    (toNat_lt_of_isNameChar h) h

/-- The first letter or digit of a name is ASCII. -/
theorem HasNameChars.isAlphanum_of_find? (h : HasNameChars name) {c : Char}
    (hc : name.toList.find? isAlphanumeric = some c) : c.isAlphanum := by
  rcases h c (List.mem_of_find?_eq_some hc) with halphanum | rfl
  · exact halphanum
  · exact absurd (List.find?_some hc) (by decide)

theorem HasNameChars.append {s t : String} (hs : HasNameChars s) (ht : HasNameChars t) :
    HasNameChars (s ++ t) := by
  intro c hc
  rw [String.toList_append] at hc
  rcases List.mem_append.mp hc with hc | hc
  · exact hs c hc
  · exact ht c hc

theorem HasNameChars.isLetterOrMark_of_mem (h : HasNameChars name) {c : Char}
    (hc : c ∈ name.toList) : isLetterOrMark c := by
  rcases h c hc with hc | rfl
  · exact isLetterOrMark_of_isAlphanum hc
  · decide

theorem HasNameChars.isAlphanum_of_mem_words (h : HasNameChars name) {w : List Char}
    (hw : w ∈ words name) : ∀ c ∈ w, c.isAlphanum := by
  intro c hc
  have hmem : c ∈ (words name).flatten := List.mem_flatten.mpr ⟨w, hw, hc⟩
  rw [flatten_words, List.mem_filter] at hmem
  rcases h c hmem.1 with hc | rfl
  · exact hc
  · exact absurd hmem.2 (by decide)

theorem lowered_of_alphanum {s : List Char} (h : ∀ c ∈ s, c.isAlphanum) :
    lowered s = s.map Char.toLower := by
  induction s with
  | nil => rfl
  | cons c cs ih =>
    rw [List.forall_mem_cons] at h
    have hsigma : ¬ (c = '\u03A3' ∧ cs.isEmpty) := by
      rintro ⟨rfl, -⟩
      exact absurd h.1 (by decide)
    rw [lowered, if_neg hsigma, lowerCase_of_isAlphanum h.1, ih h.2]
    rfl

theorem isAlphanum_of_mem_capitalize {s : List Char} (h : ∀ c ∈ s, c.isAlphanum) :
    ∀ c ∈ capitalize s, c.isAlphanum := by
  cases s with
  | nil => exact fun _ hc => absurd hc List.not_mem_nil
  | cons c cs =>
    rw [List.forall_mem_cons] at h
    rw [capitalize, upperCase_of_isAlphanum h.1, lowered_of_alphanum h.2]
    refine List.forall_mem_cons.mpr ⟨isAlphanum_toUpper h.1, fun c hc => ?_⟩
    obtain ⟨d, hd, rfl⟩ := List.mem_map.mp hc
    exact isAlphanum_toLower (h.2 d hd)

/-- The camel form of a name has no underscores. -/
theorem HasNameChars.alphanum_upperCamel (h : HasNameChars name) :
    ∀ c ∈ (upperCamel name).toList, c.isAlphanum := by
  intro c hc
  rw [upperCamel, String.toList_ofList] at hc
  obtain ⟨w, hw, hc⟩ := List.mem_flatMap.mp hc
  exact isAlphanum_of_mem_capitalize (h.isAlphanum_of_mem_words hw) c hc

/-- The snake form of a name is made of the characters of names. -/
theorem HasNameChars.snake (h : HasNameChars name) : HasNameChars (snake name) := by
  intro c hc
  rw [Text.snake, String.toList_ofList] at hc
  rcases mem_intercalate hc with hc | ⟨lower, hlower, hc⟩
  · exact Or.inr (List.mem_singleton.mp hc)
  · obtain ⟨w, hw, rfl⟩ := List.mem_map.mp hlower
    have halphanum := h.isAlphanum_of_mem_words hw
    rw [lowered_of_alphanum halphanum] at hc
    obtain ⟨d, hd, rfl⟩ := List.mem_map.mp hc
    exact Or.inl (isAlphanum_toLower (halphanum d hd))

/-- The snake form of a name begins with its first letter or digit. -/
theorem HasNameChars.head?_snake (h : HasNameChars name) :
    (Text.snake name).toList.head? = (name.toList.find? isAlphanumeric).map Char.toLower := by
  rw [Text.snake, String.toList_ofList, ← List.head?_filter, ← flatten_words]
  cases hwords : words name with
  | nil => rfl
  | cons w ws =>
    have hw : w ∈ words name := hwords ▸ List.mem_cons_self
    obtain ⟨c, cs, rfl⟩ := List.exists_cons_of_ne_nil (ne_nil_of_mem_words hw)
    have hlower := lowered_of_alphanum (h.isAlphanum_of_mem_words hw)
    rw [List.map_cons, hlower, head?_intercalate (by simp)]
    rfl

/-- The camel form of a name begins with its first letter or digit. -/
theorem HasNameChars.head?_upperCamel (h : HasNameChars name) :
    (upperCamel name).toList.head? = (name.toList.find? isAlphanumeric).map Char.toUpper := by
  rw [upperCamel, String.toList_ofList, ← List.head?_filter, ← flatten_words]
  cases hwords : words name with
  | nil => rfl
  | cons w ws =>
    have hw : w ∈ words name := hwords ▸ List.mem_cons_self
    obtain ⟨c, cs, rfl⟩ := List.exists_cons_of_ne_nil (ne_nil_of_mem_words hw)
    have hc : c.isAlphanum := h.isAlphanum_of_mem_words hw c List.mem_cons_self
    rw [List.flatMap_cons, capitalize, upperCase_of_isAlphanum hc]
    rfl

end PlainSchema.Text
