import Mathlib.Data.List.TakeDrop
import Mathlib.Data.Option.Basic
import PlainSchema.Proofs.Contract.CasterNames
import PlainSchema.Proofs.Schema.Scopes

/-!
# The names that types mention

The names that a type can lose to a type parameter are those that its paths begin with,
`leadingNames`:

```text
Vec<p::Item>    Vec and p
Option<Item>    Option and Item
chrono::Date    chrono
```

The types of Plain fields are made of words, separators and angles, `Mentions`, and are read word by
word.  So the names of such a type follow from the shape of the field, `leadingNames_wireType`.
-/

namespace PlainSchema.Contract

open Text Proto

/-! ## Leading names -/

/-- The words that begin a path. -/
def leadingWords : List Token → List String
  | .mark ':' true :: .mark ':' _ :: .word _ :: rest => leadingWords rest
  | .word name :: rest => name :: leadingWords rest
  | _ :: rest => leadingWords rest
  | [] => []

/-- The names that the paths of a type begin with. -/
def leadingNames (type : String) : List String :=
  leadingWords ((tokens? type).getD [])

/-! ## Texts of types -/

/-- What may stand behind a word of a type. -/
def Stops (cs : List Char) : Prop :=
  ∀ c ∈ cs.head?, c ∈ [':', '<', '>']

theorem stops_nil : Stops [] :=
  fun _ hc => absurd hc nofun

theorem stops_cons {c : Char} (hc : c ∈ [':', '<', '>']) (cs : List Char) : Stops (c :: cs) :=
  fun _ hd => Option.some.inj hd ▸ hc

/-- A word of ASCII characters. -/
structure IsPlainWord (w : String) : Prop where
  chars : HasNameChars w
  head : w.toList.head?.any isLetter

instance (w : String) : Decidable (IsPlainWord w) :=
  decidable_of_iff (HasNameChars w ∧ w.toList.head?.any isLetter)
    ⟨fun h => ⟨h.1, h.2⟩, fun h => ⟨h.chars, h.head⟩⟩

/-- The texts made of words, separators and angles, with the words that begin a path.  A word is read
with what stands behind it, so that it is read whole. -/
inductive Mentions : List Char → List String → Prop where
  | nil : Mentions [] []
  | name {w rest names} (hw : IsPlainWord w) (hstops : Stops rest) (hrest : Mentions rest names) :
      Mentions (w.toList ++ rest) (w :: names)
  | member {w rest names} (hw : IsPlainWord w) (hstops : Stops rest) (hrest : Mentions rest names) :
      Mentions (':' :: ':' :: w.toList ++ rest) names
  | angle {c rest names} (hc : c = '<' ∨ c = '>') (hrest : Mentions rest names) :
      Mentions (c :: rest) names

/-- A text that begins with neither a blank nor a slash begins with a token. -/
theorem tokensFrom_succ {c : Char} (hspacing : isSpacing c = false) (hslash : c ≠ '/') (steps : Nat)
    (cs : List Char) : tokensFrom (steps + 1) (c :: cs) = (do
      let (token, rest) ← readToken (c :: cs)
      let tokens ← tokensFrom steps rest
      some (token :: tokens)) := by
  rw [tokensFrom, List.dropWhile_cons_of_neg (by simp [hspacing])]
  split
  · next heq => exact absurd heq nofun
  · next heq => exact absurd (List.cons.inj heq).1 hslash
  · next heq => exact absurd (List.cons.inj heq).1 hslash
  · rfl

/-- A letter begins no blank, comment, number or quote. -/
structure BeginsWord (c : Char) : Prop where
  notSpacing : isSpacing c = false
  notDigit : c.isDigit = false
  notMark : c ∉ ['/', '"', '\'']

theorem beginsWord_of_isLetter {c : Char} (hascii : c.toNat < 0x80) (hc : isLetter c) :
    BeginsWord c := by
  obtain ⟨hspacing, hdigit, hmark⟩ := forall_ascii (fun c => isLetter c → isSpacing c = false ∧
    c.isDigit = false ∧ c ∉ ['/', '"', '\'']) (by decide +kernel) hascii hc
  exact ⟨hspacing, hdigit, hmark⟩

namespace IsPlainWord

variable {w : String}

/-- A word has a first character, and that begins a word. -/
theorem exists_cons (hw : IsPlainWord w) :
    ∃ c cs, w.toList = c :: cs ∧ isLetter c ∧ BeginsWord c := by
  obtain ⟨c, hc, hletter⟩ := (Option.any_eq_true _ _).mp hw.head
  have hascii := toNat_lt_of_isNameChar (hw.chars c (List.mem_of_mem_head? hc))
  exact ⟨c, _, (List.cons_head?_tail hc).symm, hletter, beginsWord_of_isLetter hascii hletter⟩

theorem length_pos (hw : IsPlainWord w) : 0 < w.toList.length := by
  obtain ⟨c, cs, hcs, -⟩ := hw.exists_cons
  rw [hcs]
  exact Nat.succ_pos _

end IsPlainWord

/-- A word is read up to what stops it. -/
theorem readWord_append {w : String} {rest : List Char} (hw : IsPlainWord w) (hstops : Stops rest) :
    readWord (w.toList ++ rest) = some (w.toList, rest) := by
  have hchars : ∀ c ∈ w.toList, isLetterOrMark c := fun c => hw.chars.isLetterOrMark_of_mem
  have hrest : rest.takeWhile isLetterOrMark = [] ∧ rest.dropWhile isLetterOrMark = rest := by
    cases rest with
    | nil => exact ⟨rfl, rfl⟩
    | cons c cs =>
      have hc : ¬ isLetterOrMark c := by
        have hmark := hstops c rfl
        simp only [List.mem_cons, List.not_mem_nil, or_false] at hmark
        rcases hmark with rfl | rfl | rfl <;> decide
      exact ⟨List.takeWhile_cons_of_neg hc, List.dropWhile_cons_of_neg hc⟩
  have hhead : (w.toList ++ rest).head?.any isLetter := by
    obtain ⟨c, hc, hletter⟩ := (Option.any_eq_true _ _).mp hw.head
    rw [List.head?_append, hc]
    exact hletter
  rw [readWord, if_pos hhead, List.span_eq_takeWhile_dropWhile,
    List.takeWhile_append_of_pos hchars, List.dropWhile_append_of_pos hchars, hrest.1, hrest.2,
    List.append_nil]

/-- A word that may begin like a raw identifier is read as the word it is. -/
theorem readIdentifier_append {w : String} {rest : List Char} (hw : IsPlainWord w)
    (hstops : Stops rest) : readIdentifier (w.toList ++ rest) = some (w.toList, rest) := by
  rw [← readWord_append hw hstops]
  unfold readIdentifier
  split
  · next tail heq =>
    -- A number sign is in no word, and does not stop one.
    have hsign : '#' ∈ w.toList ∨ rest.head? = some '#' := by
      cases hchars : w.toList with
      | nil =>
        have hhead := hw.head
        rw [hchars] at hhead
        exact absurd hhead (by decide)
      | cons c cs =>
        rw [hchars] at heq
        have hsecond := (List.cons.inj heq).2
        cases cs with
        | nil => exact Or.inr (congrArg List.head? hsecond)
        | cons d ds => simp [(List.cons.inj hsecond).1]
    rcases hsign with hsign | hsign
    · exact absurd (hw.chars _ hsign) (by decide)
    · exact absurd (hstops _ hsign) (by decide)
  · rfl

theorem readToken_append {w : String} {rest : List Char} (hw : IsPlainWord w) (hstops : Stops rest) :
    readToken (w.toList ++ rest) = some (.word w, rest) := by
  have hidentifier := readIdentifier_append hw hstops
  obtain ⟨c, cs, hcs, hletter, hbegins⟩ := hw.exists_cons
  rw [hcs, List.cons_append] at hidentifier ⊢
  unfold readToken
  split
  · next heq => exact absurd (by simp [(List.cons.inj heq).1]) hbegins.notMark
  · next heq => exact absurd (by simp [(List.cons.inj heq).1]) hbegins.notMark
  · next heq =>
    obtain ⟨rfl, rfl⟩ := List.cons.inj heq
    rw [if_neg (by simp [hbegins.notDigit]), if_pos hletter, hidentifier, ← hcs]
    simp
  · next heq => exact absurd heq nofun

theorem tokensFrom_word {w : String} {rest : List Char} {tokens : List Token} {steps : Nat}
    (hw : IsPlainWord w) (hstops : Stops rest) (hrest : tokensFrom steps rest = some tokens) :
    tokensFrom (steps + 1) (w.toList ++ rest) = some (.word w :: tokens) := by
  have htoken := readToken_append hw hstops
  obtain ⟨c, cs, hcs, -, hbegins⟩ := hw.exists_cons
  rw [hcs, List.cons_append] at htoken ⊢
  rw [tokensFrom_succ hbegins.notSpacing (fun heq => hbegins.notMark (by simp [heq])), htoken]
  simp [hrest]

/-- A separator or an angle is a token of its own. -/
theorem tokensFrom_mark {c : Char} {rest : List Char} {tokens : List Token} {steps : Nat}
    (hc : c ∈ [':', '<', '>']) (hrest : tokensFrom steps rest = some tokens) :
    tokensFrom (steps + 1) (c :: rest) = some (.mark c (startsWithMark rest) :: tokens) := by
  have hmark : isSpacing c = false ∧ c ≠ '/' ∧
      readToken (c :: rest) = some (.mark c (startsWithMark rest), rest) := by
    simp only [List.mem_cons, List.not_mem_nil, or_false] at hc
    rcases hc with rfl | rfl | rfl <;>
      exact ⟨by decide, by decide, by simp [readToken, readMark, isMark, isLetter]⟩
  obtain ⟨hspacing, hslash, htoken⟩ := hmark
  rw [tokensFrom_succ hspacing hslash, htoken]
  simp [hrest]

namespace Mentions

variable {cs : List Char} {names : List String}

/-- The tokens of a text of words, for every number of steps that is enough. -/
theorem exists_tokens (h : Mentions cs names) : ∃ tokens, leadingWords tokens = names ∧
    ∀ steps, cs.length < steps → tokensFrom steps cs = some tokens := by
  induction h with
  | nil =>
    refine ⟨[], rfl, fun steps hsteps => ?_⟩
    obtain ⟨steps, rfl⟩ := Nat.exists_eq_succ_of_ne_zero (Nat.ne_of_gt hsteps)
    rfl
  | @name w rest names hw hstops _ ih =>
    obtain ⟨tokens, hnames, htokens⟩ := ih
    refine ⟨.word w :: tokens, congrArg (w :: ·) hnames, fun steps hsteps => ?_⟩
    have hpos := hw.length_pos
    rw [List.length_append] at hsteps
    obtain ⟨left, rfl⟩ : ∃ left, steps = left + 1 := ⟨steps - 1, by omega⟩
    exact tokensFrom_word hw hstops (htokens left (by omega))
  | @member w rest names hw hstops _ ih =>
    obtain ⟨tokens, hnames, htokens⟩ := ih
    refine ⟨.mark ':' true :: .mark ':' (startsWithMark (w.toList ++ rest)) :: .word w :: tokens,
      hnames, fun steps hsteps => ?_⟩
    have hpos := hw.length_pos
    rw [List.cons_append, List.cons_append, List.length_cons, List.length_cons,
      List.length_append] at hsteps
    obtain ⟨left, rfl⟩ : ∃ left, steps = left + 3 := ⟨steps - 3, by omega⟩
    have hword := tokensFrom_word hw hstops (htokens left (by omega))
    have hjoint : startsWithMark (':' :: (w.toList ++ rest)) = true := by
      simp [startsWithMark, isMark]
    rw [← hjoint]
    exact tokensFrom_mark (by decide) (tokensFrom_mark (by decide) hword)
  | @angle c rest names hc _ ih =>
    obtain ⟨tokens, hnames, htokens⟩ := ih
    refine ⟨.mark c (startsWithMark rest) :: tokens, ?_, fun steps hsteps => ?_⟩
    · rw [← hnames]
      rcases hc with rfl | rfl <;> rfl
    · rw [List.length_cons] at hsteps
      obtain ⟨left, rfl⟩ : ∃ left, steps = left + 1 := ⟨steps - 1, by omega⟩
      exact tokensFrom_mark (by rcases hc with rfl | rfl <;> decide) (htokens left (by omega))

theorem head?_ne_byteOrderMark (h : Mentions cs names) : cs.head? ≠ some '\ufeff' := by
  cases h with
  | nil => exact nofun
  | @name w rest names hw _ _ =>
    intro heq
    obtain ⟨c, cs, hcs, hletter, -⟩ := hw.exists_cons
    rw [hcs] at heq
    rw [Option.some.inj heq] at hletter
    exact absurd hletter (by decide +kernel)
  | member => exact fun heq => absurd (Option.some.inj heq) (by decide)
  | angle hc => rcases hc with rfl | rfl <;> exact fun heq => absurd (Option.some.inj heq) (by decide)

theorem leadingNames_eq {type : String} (h : Mentions type.toList names) : leadingNames type = names := by
  obtain ⟨tokens, hnames, htokens⟩ := h.exists_tokens
  rw [leadingNames, tokens?, if_neg h.head?_ne_byteOrderMark, htokens _ (Nat.lt_succ_self _)]
  exact hnames

/-- Members of a path mention nothing. -/
theorem members {ws : List String} {rest : List Char} (hws : ∀ w ∈ ws, IsPlainWord w)
    (hstops : Stops rest) (hrest : Mentions rest names) :
    Stops ((ws.flatMap fun w => ':' :: ':' :: w.toList) ++ rest) ∧
      Mentions ((ws.flatMap fun w => ':' :: ':' :: w.toList) ++ rest) names := by
  induction ws with
  | nil => exact ⟨hstops, hrest⟩
  | cons w ws ih =>
    rw [List.forall_mem_cons] at hws
    obtain ⟨hbehind, hmentions⟩ := ih hws.2
    rw [List.flatMap_cons, List.append_assoc]
    exact ⟨stops_cons (by decide) _, .member hws.1 hbehind hmentions⟩

/-- A path mentions its first name. -/
theorem path {w : String} {ws : List String} {rest : List Char} (hw : IsPlainWord w)
    (hws : ∀ v ∈ ws, IsPlainWord v) (hstops : Stops rest) (hrest : Mentions rest names) :
    Mentions (("::".intercalate (w :: ws)).toList ++ rest) (w :: names) := by
  have htext : ∀ w : String, ("::".intercalate (w :: ws)).toList
      = w.toList ++ ws.flatMap fun w => ':' :: ':' :: w.toList := by
    intro w
    rw [String.toList_intercalate]
    clear hws
    induction ws generalizing w with
    | nil => simp
    | cons v ws ih =>
      rw [List.map_cons, List.map_cons, List.intercalate_cons_cons, ← List.map_cons, ih v]
      simp
  obtain ⟨hbehind, hmentions⟩ := members hws hstops hrest
  rw [htext, List.append_assoc]
  exact .name hw hbehind hmentions

end Mentions

/-! ## Types of Plain fields -/

/-- A part of the name of a message as the name of a module. -/
def moduleName (s : String) : String :=
  if s.toList.head?.any Char.isUpper then snake s else s

/-- The names on the path of the type of a message. -/
def pathNames (fullName : String) : List String :=
  let segments := split (trimFront fullName '.') '.'
  segments.dropLast.map moduleName ++ [upperCamel (segments.getLast?.getD "")]

theorem messagePath_eq (fullName : String) :
    messagePath fullName = "::".intercalate (pathNames fullName) :=
  rfl

/-- The leading names of the type of a single value. -/
def valueNames (kind : Kind) (typeRef : Option String) : List String :=
  match kind with
  | .scalar .bytes => ["Vec", "u8"]
  | .message | .group => (pathNames (typeRef.getD "")).take 1
  | kind => [valueType kind none]

/-- The leading names of the type of a Plain field. -/
def wireNames (shape : FieldShape) : List String :=
  let names := valueNames shape.kind shape.typeRef
  match shape.cardinality with
  | .repeated => "Vec" :: names
  | .optional => "Option" :: names
  | .singular | .required =>
    if shape.kind = .message || shape.proto3Optional then "Option" :: names else names

/-- The names of messages: parts that are names of fields too, the last of which leads with a letter. -/
structure IsTypeName (fullName : String) : Prop where
  parts : ∀ part ∈ split (trimFront fullName '.') '.', IsFieldName part
  letter : ∀ part ∈ (split (trimFront fullName '.') '.').getLast?,
    (part.toList.find? isAlphanumeric).any (!·.isDigit)

instance (fullName : String) : Decidable (IsTypeName fullName) :=
  decidable_of_iff ((∀ part ∈ split (trimFront fullName '.') '.', IsFieldName part) ∧
      ∀ part ∈ (split (trimFront fullName '.') '.').getLast?,
        (part.toList.find? isAlphanumeric).any (!·.isDigit))
    ⟨fun h => ⟨h.1, h.2⟩, fun h => ⟨h.parts, h.letter⟩⟩

/-- A shape that refers to a message by its name if it refers to one. -/
def RefersByName (shape : FieldShape) : Prop :=
  shape.kind = .message ∨ shape.kind = .group → IsTypeName (shape.typeRef.getD "")

instance (shape : FieldShape) : Decidable (RefersByName shape) :=
  inferInstanceAs (Decidable (_ → _))

theorem isPlainWord_of_isFieldName {name : String} (h : IsFieldName name) : IsPlainWord name := by
  refine ⟨h.chars, ?_⟩
  have hne : name.toList ≠ [] := fun hnil => h.nonempty (String.toList_eq_nil_iff.mp hnil)
  obtain ⟨c, cs, hcs⟩ := List.exists_cons_of_ne_nil hne
  have hdigit := h.noDigit
  rw [hcs, List.head?_cons, Option.any_some] at hdigit ⊢
  exact (isLetter_of_isNameChar (h.chars c (hcs ▸ List.mem_cons_self))).mpr hdigit

theorem isPlainWord_moduleName {part : String} (h : IsFieldName part) :
    IsPlainWord (moduleName part) := by
  rw [moduleName]
  split
  · next hupper =>
    refine ⟨h.chars.snake, ?_⟩
    obtain ⟨c, hc, hcapital⟩ := (Option.any_eq_true _ _).mp hupper
    have halphanum := isAlphanum_of_isUpper hcapital
    have hfind : part.toList.find? isAlphanumeric = some c := by
      rw [← List.cons_head?_tail hc,
        List.find?_cons_of_pos (isAlphanumeric_of_isAlphanum halphanum)]
    have hdigit := h.noDigit
    rw [hc, Option.any_some] at hdigit
    rw [h.chars.head?_snake, hfind, Option.map_some, Option.any_some]
    exact (isLetter_toLower halphanum).mpr hdigit
  · exact isPlainWord_of_isFieldName h

theorem isPlainWord_upperCamel {part : String} (h : HasNameChars part)
    (hletter : ∃ c, part.toList.find? isAlphanumeric = some c ∧ ¬ c.isDigit) :
    IsPlainWord (upperCamel part) := by
  refine ⟨fun c hc => Or.inl (h.alphanum_upperCamel c hc), ?_⟩
  obtain ⟨c, hc, hdigit⟩ := hletter
  rw [h.head?_upperCamel, hc, Option.map_some, Option.any_some]
  exact (isLetter_toUpper (h.isAlphanum_of_find? hc)).mpr hdigit

theorem IsTypeName.isPlainWord {fullName : String} (h : IsTypeName fullName) :
    ∀ name ∈ pathNames fullName, IsPlainWord name := by
  intro name hname
  rw [pathNames] at hname
  rcases List.mem_append.mp hname with hname | hname
  · obtain ⟨part, hpart, rfl⟩ := List.mem_map.mp hname
    exact isPlainWord_moduleName (h.parts part (List.dropLast_subset _ hpart))
  · obtain rfl := List.mem_singleton.mp hname
    cases hlast : (split (trimFront fullName '.') '.').getLast? with
    | none => exact absurd (List.getLast?_eq_none_iff.mp hlast) (by simp [split, splitAll_ne_nil])
    | some part =>
      have hpart := h.parts part (List.mem_of_getLast? hlast)
      obtain ⟨c, hc, hdigit⟩ := (Option.any_eq_true _ _).mp (h.letter part hlast)
      exact isPlainWord_upperCamel hpart.chars ⟨c, hc, by simpa using hdigit⟩

theorem isPlainWord_valueType {type : Scalar} (h : type ≠ .bytes) :
    IsPlainWord (valueType (.scalar type) none) := by
  cases type with
  | bytes => exact absurd rfl h
  | _ => decide

namespace Mentions

variable {names : List String}

/-- A name with types in angles mentions itself and the types. -/
theorem applied {w : String} {text rest : List Char} (hw : IsPlainWord w)
    (h : Mentions (text ++ '>' :: rest) names) :
    Mentions (w.toList ++ '<' :: (text ++ '>' :: rest)) (w :: names) :=
  .name hw (stops_cons (by decide) _) (.angle (Or.inl rfl) h)

/-- The type of a single value. -/
theorem value {kind : Kind} {typeRef : Option String} {rest : List Char}
    (href : kind = .message ∨ kind = .group → IsTypeName (typeRef.getD "")) (hstops : Stops rest)
    (hrest : Mentions rest names) :
    Mentions ((valueType kind typeRef).toList ++ rest) (valueNames kind typeRef ++ names) := by
  have hmessage : IsTypeName (typeRef.getD "") →
      Mentions ((messagePath (typeRef.getD "")).toList ++ rest)
        ((pathNames (typeRef.getD "")).take 1 ++ names) := by
    intro hname
    have hwords := hname.isPlainWord
    rw [messagePath_eq]
    cases hpath : pathNames (typeRef.getD "") with
    | nil => exact absurd hpath (by simp [pathNames])
    | cons w ws =>
      rw [hpath, List.forall_mem_cons] at hwords
      exact .path hwords.1 hwords.2 hstops hrest
  cases kind with
  | message => exact hmessage (href (Or.inl rfl))
  | group => exact hmessage (href (Or.inr rfl))
  | enum => exact .name (by decide : IsPlainWord "i32") hstops hrest
  | scalar type =>
    by_cases hbytes : type = .bytes
    · subst hbytes
      have hitem : Mentions ("u8".toList ++ '>' :: rest) ("u8" :: names) :=
        .name (by decide) (stops_cons (by decide) rest) (.angle (Or.inr rfl) hrest)
      have hlist := Mentions.applied (by decide : IsPlainWord "Vec") hitem
      simpa [valueType, valueNames] using hlist
    · have htext : valueType (.scalar type) typeRef = valueType (.scalar type) none := by
        cases type <;> rfl
      have hnames : valueNames (.scalar type) typeRef = [valueType (.scalar type) none] := by
        cases type with
        | bytes => exact absurd rfl hbytes
        | _ => rfl
      rw [htext, hnames]
      exact .name (isPlainWord_valueType hbytes) hstops hrest

end Mentions

theorem leadingNames_wireType {shape : FieldShape} (h : RefersByName shape) :
    leadingNames (wireType shape) = wireNames shape := by
  have hbare : Mentions (valueType shape.kind shape.typeRef).toList
      (valueNames shape.kind shape.typeRef) := by
    have hvalue := Mentions.value h stops_nil .nil
    rwa [List.append_nil, List.append_nil] at hvalue
  have hwrapped : ∀ w, IsPlainWord w →
      Mentions (w ++ "<" ++ valueType shape.kind shape.typeRef ++ ">").toList
        (w :: valueNames shape.kind shape.typeRef) := by
    intro w hw
    have hvalue : Mentions ((valueType shape.kind shape.typeRef).toList ++ ['>'])
        (valueNames shape.kind shape.typeRef ++ []) :=
      .value h (stops_cons (by decide) []) (.angle (Or.inr rfl) .nil)
    rw [List.append_nil] at hvalue
    have happlied := Mentions.applied hw hvalue
    simpa [String.toList_append] using happlied
  refine Mentions.leadingNames_eq ?_
  rw [wireType, wireNames]
  cases shape.cardinality with
  | «repeated» => exact hwrapped "Vec" (by decide)
  | optional => exact hwrapped "Option" (by decide)
  | singular =>
    dsimp only
    split
    · exact hwrapped "Option" (by decide)
    · exact hbare
  | required =>
    dsimp only
    split
    · exact hwrapped "Option" (by decide)
    · exact hbare

/-- A target that is a path of words mentions the first of them, its own name if there is no import
path. -/
theorem leadingNames_targetType {target : Override} {w : String} {ws : List String}
    (hw : IsPlainWord w) (hws : ∀ v ∈ ws, IsPlainWord v)
    (htarget : targetType target = "::".intercalate (w :: ws)) :
    leadingNames (targetType target) = [w] := by
  have hpath := Mentions.path hw hws stops_nil .nil
  rw [List.append_nil, ← htarget] at hpath
  exact hpath.leadingNames_eq

end PlainSchema.Contract
