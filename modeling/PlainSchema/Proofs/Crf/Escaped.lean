import PlainSchema.Crf.Path
import PlainSchema.Proofs.Text.Split
import PlainSchema.Proofs.Text.Utf8

/-!
# Reading recorded paths back

An escaped component holds none of the characters that structure a path, and unescaping gives the
component back, `unescape_escape`.  So the field names of a path can be read from its text, whatever
markers its segments carry, `fieldNamesOf_render`.
-/

namespace PlainSchema.Crf

/-! ## Escapes -/

theorem percentDecode_cons_of_ne {b : UInt8} (h : b ≠ 0x25) (bytes : List UInt8) :
    percentDecode (b :: bytes) = b :: percentDecode bytes := by
  match bytes with
  | [] => rfl
  | [_] => rfl
  | _ :: _ :: _ => rw [percentDecode, if_neg h]

theorem percentDecode_append_of_forall {front : List UInt8} (h : ∀ b ∈ front, b ≠ 0x25)
    (bytes : List UInt8) : percentDecode (front ++ bytes) = front ++ percentDecode bytes := by
  induction front with
  | nil => rfl
  | cons b front ih =>
    rw [List.forall_mem_cons] at h
    rw [List.cons_append, percentDecode_cons_of_ne h.1, ih h.2, List.cons_append]

/-- Among the bytes of characters, only a percent sign has the byte of one. -/
theorem ne_percent_of_mem_utf8EncodeChar {c : Char} (hc : c ≠ '%') {b : UInt8}
    (hb : b ∈ String.utf8EncodeChar c) : b ≠ 0x25 := by
  have hval : c.val.toNat ≠ 0x25 := fun heq => hc (Char.ext (UInt32.toNat_inj.mp heq))
  have hne : ∀ n : Nat, n < 256 → n ≠ 0x25 → UInt8.ofNat n ≠ 0x25 := by
    intro n hn hneq heq
    have := congrArg UInt8.toNat heq
    rw [Utf8.toNat_ofNat hn] at this
    exact hneq this
  rw [String.utf8EncodeChar] at hb
  have hvalid : c.val.toNat < 0xd800 ∨ 0xdfff < c.val.toNat ∧ c.val.toNat < 0x110000 := c.valid
  split at hb
  · rw [List.mem_singleton.mp hb]
    exact hne _ (by omega) hval
  split at hb
  · simp only [List.mem_cons, List.not_mem_nil, or_false] at hb
    rcases hb with rfl | rfl <;> exact hne _ (by omega) (by omega)
  split at hb
  · simp only [List.mem_cons, List.not_mem_nil, or_false] at hb
    rcases hb with rfl | rfl | rfl <;> exact hne _ (by omega) (by omega)
  · simp only [List.mem_cons, List.not_mem_nil, or_false] at hb
    rcases hb with rfl | rfl | rfl | rfl <;> exact hne _ (by omega) (by omega)

/-- The escape of a character decodes to the bytes of the character. -/
theorem percentDecode_escapeChar (c : Char) (bytes : List UInt8) :
    percentDecode ((escapeChar c).flatMap String.utf8EncodeChar ++ bytes)
      = String.utf8EncodeChar c ++ percentDecode bytes := by
  rw [escapeChar]
  split
  · next hstructural =>
    simp only [isStructural, Bool.or_eq_true, beq_iff_eq] at hstructural
    rcases hstructural with (((rfl | rfl) | rfl) | rfl) | rfl <;> rfl
  · next hplain =>
    have hne : c ≠ '%' := fun heq => hplain (by rw [heq]; rfl)
    rw [List.flatMap_singleton]
    exact percentDecode_append_of_forall (fun b hb => ne_percent_of_mem_utf8EncodeChar hne hb) bytes

/-- Unescaping undoes escaping. -/
theorem unescape_escape (component : String) : unescape (escape component) = component := by
  have hdecode : ∀ cs : List Char,
      percentDecode ((cs.flatMap escapeChar).flatMap String.utf8EncodeChar)
        = cs.flatMap String.utf8EncodeChar := by
    intro cs
    induction cs with
    | nil => rfl
    | cons c cs ih =>
      rw [List.flatMap_cons, List.flatMap_append, percentDecode_escapeChar, ih, List.flatMap_cons]
  rw [unescape, escape, Utf8.encode, String.toList_ofList, hdecode]
  exact Utf8.decodeLossy_encode component

theorem percentDecode_eq_nil_iff {bytes : List UInt8} : percentDecode bytes = [] ↔ bytes = [] := by
  constructor
  · intro hnil
    unfold percentDecode at hnil
    split at hnil
    · split at hnil
      · split at hnil <;> cases hnil
      · cases hnil
    · exact hnil
  · rintro rfl
    rfl

/-- Only the empty component decodes to the empty text. -/
theorem unescape_eq_empty_iff {component : String} : unescape component = "" ↔ component = "" := by
  rw [unescape, Utf8.decodeLossy_eq_empty_iff, percentDecode_eq_nil_iff, Utf8.encode,
    List.flatMap_eq_nil_iff]
  constructor
  · intro hnone
    refine String.toList_inj.mp (List.eq_nil_iff_forall_not_mem.mpr fun c hc => ?_)
    have hlength := congrArg List.length (hnone c hc)
    rw [String.length_utf8EncodeChar] at hlength
    have hsize := c.utf8Size_pos
    simp only [List.length_nil] at hlength
    omega
  · rintro rfl
    simp

/-- The only structural character in an escaped component is the percent sign. -/
theorem eq_percent_of_mem_escape {component : String} {c : Char}
    (hc : c ∈ (escape component).toList) (hstructural : isStructural c) : c = '%' := by
  rw [escape, String.toList_ofList, List.mem_flatMap] at hc
  obtain ⟨d, -, hc⟩ := hc
  rw [escapeChar] at hc
  split at hc
  · next hd =>
    simp only [isStructural, Bool.or_eq_true, beq_iff_eq] at hd
    rcases hd with (((rfl | rfl) | rfl) | rfl) | rfl <;>
    · simp only [List.mem_cons, List.not_mem_nil, or_false] at hc
      rcases hc with rfl | rfl | rfl
      · rfl
      · exact absurd hstructural (by decide)
      · exact absurd hstructural (by decide)
  · next hd =>
    rw [List.mem_singleton.mp hc] at hstructural
    exact absurd hstructural hd

theorem notMem_escape {component : String} {c : Char} (hstructural : isStructural c)
    (hne : c ≠ '%') : c ∉ (escape component).toList :=
  fun hmem => hne (eq_percent_of_mem_escape hmem hstructural)

theorem escape_ne_nil {component : String} (h : component ≠ "") : (escape component).toList ≠ [] := by
  intro hnil
  have hempty : escape component = "" := String.toList_inj.mp hnil
  have := unescape_escape component
  rw [hempty] at this
  exact h this.symm

/-! ## Paths -/

/-- A segment is written as its escaped name, with its markers behind a question mark. -/
theorem toList_render (segment : Segment) :
    '/' ∉ segment.render.toList ∧ (segment.render.toList = (escape segment.name).toList ∨
      ∃ markers, segment.render.toList = (escape segment.name).toList ++ '?' :: markers) := by
  have hslash : ∀ component, '/' ∉ (escape component).toList :=
    fun component => notMem_escape rfl (by decide)
  have hmarker : ∀ marker : String × String, '/' ∉ (Segment.renderMarker marker).toList := by
    intro marker
    simp [Segment.renderMarker, hslash]
  rw [Segment.render]
  split
  · exact ⟨hslash _, Or.inl rfl⟩
  · next first rest _ =>
    generalize hjoin : String.join (rest.map fun m => ";" ++ Segment.renderMarker m) = joined
    have hjoined : '/' ∉ joined.toList := by
      rw [← hjoin, String.toList_join]
      simp [hmarker]
    refine ⟨by simp [hslash, hmarker, hjoined], Or.inr ⟨?_, ?_⟩⟩
    · exact (Segment.renderMarker first ++ joined).toList
    · simp

/-- The names in the text of a path are those of its segments. -/
theorem fieldNamesOf_render {path : Path} (h : ∀ segment ∈ path.segments, segment.name ≠ "") :
    fieldNamesOf path.render = path.fieldNames := by
  have hname : ∀ segment : Segment,
      ((Text.cutFirst? '?' segment.render.toList).map (·.1)).getD segment.render.toList
        = (escape segment.name).toList := by
    intro segment
    have hmark : '?' ∉ (escape segment.name).toList := notMem_escape rfl (by decide)
    rcases (toList_render segment).2 with hrender | ⟨markers, hrender⟩
    · rw [hrender, cutFirst?_of_notMem hmark]
      rfl
    · rw [hrender, cutFirst?_append hmark]
      rfl
  by_cases hne : path.segments = []
  · rw [Path.render, Path.fieldNames, hne]
    rfl
  · rw [fieldNamesOf, Path.render, String.toList_intercalate, List.map_map]
    rw [show "/".toList = ['/'] from rfl, splitAll_intercalate (by simpa using hne) ?_]
    · rw [Path.fieldNames, List.filterMap_map, ← List.filterMap_eq_map]
      refine List.filterMap_congr fun segment hsegment => ?_
      have hfull := escape_ne_nil (h segment hsegment)
      simp only [Function.comp_apply, hname, List.isEmpty_iff, if_neg hfull, String.ofList_toList,
        unescape_escape]
    · intro piece hpiece
      obtain ⟨segment, -, rfl⟩ := List.mem_map.mp hpiece
      exact (toList_render segment).1

end PlainSchema.Crf
