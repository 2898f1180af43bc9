import PlainSchema.Discriminator
import PlainSchema.Proofs.Data.Lists
import PlainSchema.Proofs.Schema.Types

/-!
# Enum values by name

An enum value is named by the full name of its enum, a dot and its own name.  The schema looks such a
name up by cutting it at the last dot and putting a leading dot in front if there is none,
`Schema.hasEnumValue`; a discriminator drops all leading dots first and then cuts the rest,
`Discriminator.resolve`.  Both are read here as the values that a text names: with at most one leading
dot for the schema, `Schema.hasEnumValue_iff`, and with any number of them for a discriminator,
`Discriminator.resolve_eq_ok_iff`.  They part exactly where a text with two leading dots names a value.
-/

namespace PlainSchema

open Proto

/-! ## Dots at the front and in the middle -/

theorem splitLast?_eq_some {s front last : String} :
    Text.splitLast? s '.' = some (front, last) ↔ s = inScope front last ∧ '.' ∉ last.toList := by
  constructor
  · intro h
    by_cases hdot : '.' ∈ s.toList
    · obtain ⟨before, after, hs, hafter⟩ := exists_last_dot hdot
      rw [Text.splitLast?, hs, cutLast?_append before hafter] at h
      obtain ⟨rfl, rfl⟩ := Prod.mk.inj (Option.some.inj h)
      refine ⟨String.toList_inj.mp ?_, by simpa using hafter⟩
      rw [hs, toList_inScope, String.toList_ofList, String.toList_ofList]
    · rw [Text.splitLast?, cutLast?_eq_none hdot] at h
      exact absurd h (by simp)
  · rintro ⟨rfl, hlast⟩
    exact splitLast?_inScope front hlast

/-- A text without two leading dots is trimmed of one dot at most. -/
theorem eq_or_dot_of_trimFront {s : String} (h : ¬ ['.', '.'] <+: s.toList) :
    s = Text.trimFront s '.' ∨ s = "." ++ Text.trimFront s '.' := by
  rw [Text.trimFront]
  cases hs : s.toList with
  | nil =>
    left
    rw [List.dropWhile_nil, ← hs, String.ofList_toList]
  | cons c cs =>
    by_cases hc : c = '.'
    · right
      subst hc
      have hrest : cs.dropWhile (· == '.') = cs := by
        cases cs with
        | nil => rfl
        | cons d ds =>
          refine List.dropWhile_cons_of_neg fun hd => h ?_
          rw [hs, beq_iff_eq.mp hd]
          exact List.prefix_append ['.', '.'] ds
      rw [List.dropWhile_cons_of_pos (by simp), hrest, ← String.toList_inj, hs]
      simp
    · left
      rw [List.dropWhile_cons_of_neg (by simpa using hc), ← hs, String.ofList_toList]

/-- There is nothing to trim from a text without a leading dot. -/
theorem trimFront_of_bare {s : String} (h : s.toList.head? ≠ some '.') : Text.trimFront s '.' = s := by
  rw [Text.trimFront]
  cases hs : s.toList with
  | nil => rw [List.dropWhile_nil, ← hs, String.ofList_toList]
  | cons c cs =>
    rw [hs] at h
    rw [List.dropWhile_cons_of_neg (by simpa using h), ← hs, String.ofList_toList]

/-- One dot in front of a text without a leading dot makes no two of them. -/
theorem not_twoDots {s : String} (h : s.toList.head? ≠ some '.') :
    ¬ ['.', '.'] <+: s.toList ∧ ¬ ['.', '.'] <+: ("." ++ s).toList := by
  have hnone : ∀ rest, ¬ '.' :: rest <+: s.toList := by
    rintro rest ⟨tail, htail⟩
    exact h (by rw [← htail]; rfl)
  refine ⟨hnone _, fun hdots => hnone [] ?_⟩
  have hlist : ("." ++ s).toList = '.' :: s.toList := by simp
  rw [hlist, List.cons_prefix_cons] at hdots
  exact hdots.2

/-- The name of a value in the scope of a name without a leading dot has none itself. -/
theorem head?_inScope {scope name : String} (hne : scope ≠ "") (hdot : scope.toList.head? ≠ some '.') :
    (inScope scope name).toList.head? ≠ some '.' := by
  have hlist : scope.toList ≠ [] := fun hnil => hne (String.toList_eq_nil_iff.mp hnil)
  obtain ⟨c, cs, hcs⟩ := List.exists_cons_of_ne_nil hlist
  rw [hcs] at hdot
  simpa [toList_inScope, hcs] using hdot

theorem dot_inScope (scope name : String) : "." ++ inScope scope name = inScope ("." ++ scope) name := by
  simp [inScope, String.append_assoc]

/-! ## Values in ascending order -/

/-- Putting the values of an enum in order keeps them. -/
theorem insertEnumValue_perm (value : String × Int) (values : List (String × Int)) :
    (insertEnumValue value values).Perm (value :: values) := by
  induction values with
  | nil => exact List.Perm.refl _
  | cons v vs ih =>
    rw [insertEnumValue]
    split
    · exact List.Perm.refl _
    · exact (ih.cons v).trans (List.Perm.swap value v vs)

theorem foldl_insertEnumValue_perm (values acc : List (String × Int)) :
    (values.foldl (fun values value => insertEnumValue value values) acc).Perm (values ++ acc) := by
  induction values generalizing acc with
  | nil => exact List.Perm.refl _
  | cons value values ih =>
    rw [List.foldl_cons, List.cons_append]
    exact (ih _).trans (((insertEnumValue_perm value acc).append_left values).trans List.perm_middle)

theorem mem_values_ofType {type : EnumType} {value : String × Int} :
    value ∈ (SourceEnum.ofType type).values ↔ value ∈ type.values := by
  rw [SourceEnum.ofType, (foldl_insertEnumValue_perm type.values []).mem_iff, List.append_nil]

/-! ## Names of enums and values -/

/-- The values of all enums have simple names, as identifiers are. -/
def Pool.SimpleValueNames (pool : Pool) : Prop :=
  ∀ type ∈ pool.enums, ∀ value ∈ type.values, IsSimple value.1

instance (pool : Pool) : Decidable pool.SimpleValueNames :=
  inferInstanceAs (Decidable (∀ _ ∈ _, _))

/-- Enums have names of their own, which begin with no dot, and so have the values of an enum. -/
structure Pool.NamesEnumValues (pool : Pool) : Prop where
  enums : (pool.enums.map (·.fullName)).Nodup
  nonempty : ∀ type ∈ pool.enums, type.fullName ≠ ""
  bare : ∀ type ∈ pool.enums, type.fullName.toList.head? ≠ some '.'
  values : ∀ type ∈ pool.enums, (type.values.map (·.1)).Nodup
  simple : pool.SimpleValueNames

theorem valueNames_nodup {scope : String} {e : EnumDecl} (h : (enumSymbols scope e).Nodup) :
    (e.values.map (·.1)).Nodup := by
  rw [enumSymbols, List.nodup_cons] at h
  refine List.Nodup.of_map (qualify scope) ?_
  rw [List.map_map]
  exact h.2

/-- An enum stands in a message or at the top of a file, with symbols of its own. -/
theorem exists_enumDecl {files : List FileDecl} {type : EnumType}
    (htype : type ∈ (Pool.link files).enums) :
    ∃ scope e, type.fullName = qualify scope e.name ∧ type.values = e.values ∧
      (enumSymbols scope e).Sublist (files.flatMap (·.symbols)) ∧ ∃ file ∈ files,
        (scope = file.package ∧ e ∈ file.enums) ∨
          ∃ d ∈ file.declared, scope = d.fullName ∧ e ∈ d.decl.enums := by
  obtain ⟨file, hfile, htype⟩ := List.mem_flatMap.mp htype
  obtain ⟨entry, hentry, rfl⟩ := List.mem_map.mp htype
  have hfileSymbols := sublist_flatMap_of_mem (fun file : FileDecl => file.symbols) hfile
  rw [FileDecl.enumDecls, List.mem_append, List.mem_flatMap] at hentry
  rcases hentry with ⟨d, hd, hentry⟩ | hentry
  · obtain ⟨e, he, rfl⟩ := List.mem_map.mp hentry
    have hsymbols : (enumSymbols d.fullName e).Sublist file.symbols := by
      rw [FileDecl.symbols, List.append_assoc, List.append_assoc]
      refine (List.Sublist.trans ?_ (sublist_flatMap_of_mem _ hd)).trans (List.sublist_append_left _ _)
      exact ((sublist_flatMap_of_mem _ he).trans (List.sublist_append_right _ _)).trans
        (List.sublist_append_left _ _)
    exact ⟨d.fullName, e, rfl, rfl, hsymbols.trans hfileSymbols, file, hfile, .inr ⟨d, hd, rfl, he⟩⟩
  · obtain ⟨e, he, rfl⟩ := List.mem_map.mp hentry
    have hsymbols : (enumSymbols file.package e).Sublist file.symbols := by
      rw [FileDecl.symbols, List.append_assoc]
      exact ((sublist_flatMap_of_mem _ he).trans (List.sublist_append_right _ _)).trans
        (List.sublist_append_left _ _)
    exact ⟨file.package, e, rfl, rfl, hsymbols.trans hfileSymbols, file, hfile, .inl ⟨rfl, he⟩⟩

/-- The values of a linked enum have names of their own. -/
theorem FilesLinked.valueNames_nodup {files : List FileDecl} (h : FilesLinked files) {type : EnumType}
    (htype : type ∈ (Pool.link files).enums) : (type.values.map (·.1)).Nodup := by
  obtain ⟨scope, e, -, hsame, hsymbols, -⟩ := exists_enumDecl htype
  rw [hsame]
  exact PlainSchema.valueNames_nodup (hsymbols.nodup h.symbols)

/-- The enums of linked files have names as they should be. -/
theorem FilesLinked.namesEnumValues {files : List FileDecl} (h : FilesLinked files)
    (hnames : ProperNames files) (hvalues : (Pool.link files).SimpleValueNames) :
    (Pool.link files).NamesEnumValues := by
  -- Both a message and a file are scopes that begin with no dot.
  have hscoped : ∀ type ∈ (Pool.link files).enums, ∃ (scope : String) (e : EnumDecl),
      type.fullName = qualify scope e.name ∧ IsSimple e.name ∧ scope.toList.head? ≠ some '.' := by
    intro type htype
    obtain ⟨scope, e, hname, -, -, file, hfile, ⟨rfl, he⟩ | ⟨d, hd, rfl, he⟩⟩ := exists_enumDecl htype
    · exact ⟨file.package, e, hname, hnames.simple.enums file hfile e he, hnames.packages file hfile⟩
    · exact ⟨d.fullName, e, hname, hnames.simple.nestedEnums file hfile d hd e he,
        head?_declaredMessages (hnames.packages file hfile) file.messages
          (hnames.simple.messages file hfile) d hd⟩
  refine ⟨?_, fun type htype => ?_, fun type htype => ?_, fun type htype => h.valueNames_nodup htype,
    hvalues⟩
  · have hsame : (Pool.link files).enums.map (·.fullName) = enumNames files := by
      simp [Pool.link, enumNames, List.map_flatMap, Function.comp_def]
    rw [hsame]
    exact (List.nodup_append.mp (types_nodup h.symbols)).2.1
  all_goals obtain ⟨scope, e, hname, hsimple, hscope⟩ := hscoped type htype
  · rw [hname]
    exact qualify_ne_empty scope hsimple.1
  · rw [hname]
    exact head?_qualify hscope hsimple

/-! ## The two lookups -/

section Lookups

variable {pool : Pool} {type : EnumType} {value : String} {number : Int} {s : String}

/-- What a discriminator resolves to is what its text names. -/
theorem Discriminator.eq_ofValue_of_resolve {d : Discriminator}
    (h : d.resolve pool = .ok (type, value, number)) :
    type ∈ pool.enums ∧ (value, number) ∈ type.values ∧ d = ofValue type value := by
  obtain ⟨⟨enumName, found⟩, hparts, h⟩ := bind_eq_ok.mp h
  have htext : d.text = inScope enumName found := by
    rw [parts] at hparts
    split at hparts
    · next before after hsplit =>
      split at hparts
      · exact absurd hparts (by simp)
      · obtain ⟨rfl, rfl⟩ := Prod.mk.inj (Except.ok.inj hparts)
        exact (splitLast?_eq_some.mp hsplit).1
    · exact absurd hparts (by simp)
  dsimp only at h
  split at h
  · exact absurd h (by simp)
  · next enum henum =>
    split at h
    · exact absurd h (by simp)
    · next n hnumber =>
      obtain ⟨rfl, hrest⟩ := Prod.mk.inj (Except.ok.inj h)
      obtain ⟨rfl, rfl⟩ := Prod.mk.inj hrest
      have hname : enum.fullName = enumName := by simpa using List.find?_some henum
      refine ⟨List.mem_of_find?_eq_some henum, mem_of_lookup hnumber, ?_⟩
      rw [ofValue, hname]
      exact congrArg Discriminator.mk htext

variable (h : pool.NamesEnumValues)

include h

/-- **Every enum value is what its own name resolves to**, nested or not, with a package or without
one, and whatever number it shares. -/
theorem Discriminator.resolve_ofValue (htype : type ∈ pool.enums)
    (hvalue : (value, number) ∈ type.values) :
    (ofValue type value).resolve pool = .ok (type, value, number) := by
  obtain ⟨hne, hdot⟩ := h.simple type htype (value, number) hvalue
  have hparts : (ofValue type value).parts = .ok (type.fullName, value) := by
    have hsplit : Text.splitLast? (ofValue type value).text '.' = some (type.fullName, value) :=
      splitLast?_inScope type.fullName hdot
    simp [parts, hsplit, h.nonempty type htype, hne]
  have hfind : pool.enum? type.fullName = some type := find?_eq_some_of_nodup h.enums htype
  have hnumber : type.number? value = some number :=
    lookup_eq_some_of_nodup (h.values type htype) hvalue
  simp only [resolve, hparts, bind, Except.bind, hfind, hnumber]

/-- A text resolves to the value that it names behind all its leading dots. -/
theorem Discriminator.resolve_eq_ok_iff :
    (ofName s).resolve pool = .ok (type, value, number) ↔
      type ∈ pool.enums ∧ (value, number) ∈ type.values ∧ ofName s = ofValue type value := by
  constructor
  · exact eq_ofValue_of_resolve
  · rintro ⟨htype, hvalue, heq⟩
    rw [heq]
    exact resolve_ofValue h htype hvalue

/-- The schema knows the values that a text names with one leading dot or without one. -/
theorem Schema.hasEnumValue_iff {generate : List String} :
    (Schema.ofPool pool generate).hasEnumValue s ↔
      ∃ type ∈ pool.enums, ∃ value ∈ type.values,
        s = inScope type.fullName value.1 ∨ s = "." ++ inScope type.fullName value.1 := by
  rw [hasEnumValue]
  constructor
  · intro hhas
    split at hhas
    · exact absurd hhas (by simp)
    · next enumName name hsplit =>
      obtain ⟨rfl, -⟩ := splitLast?_eq_some.mp hsplit
      cases henum : (Schema.ofPool pool generate).enum? enumName with
      | none => simp [henum] at hhas
      | some found =>
        obtain ⟨type, htype, rfl⟩ :=
          List.mem_map.mp (List.mem_reverse.mp (List.mem_of_find?_eq_some henum))
        have hname : "." ++ type.fullName = dotted enumName := by
          simpa [SourceEnum.ofType] using List.find?_some henum
        simp only [henum, Option.map_some, Option.getD_some, List.any_eq_true, beq_iff_eq] at hhas
        obtain ⟨value, hvalue, rfl⟩ := hhas
        refine ⟨type, htype, value, mem_values_ofType.mp hvalue, ?_⟩
        rw [dotted] at hname
        split at hname
        · exact Or.inr (by rw [← hname, dot_inScope])
        · exact Or.inl (by rw [dot_append_injective hname])
  · rintro ⟨type, htype, value, hvalue, hs⟩
    have hdotted : ∃ front, s = inScope front value.1 ∧ dotted front = "." ++ type.fullName := by
      rcases hs with rfl | rfl
      · exact ⟨type.fullName, rfl, by rw [dotted, if_neg (by simpa using h.bare type htype)]⟩
      · exact ⟨"." ++ type.fullName, dot_inScope _ _, by rw [dotted, if_pos (by simp)]⟩
    obtain ⟨front, rfl, hfront⟩ := hdotted
    have henum : (Schema.ofPool pool generate).enum? front = some (SourceEnum.ofType type) := by
      have hnodup : ((Schema.ofPool pool generate).enums.reverse.map (·.fullName)).Nodup := by
        rw [List.map_reverse, List.nodup_reverse]
        have hsame : (Schema.ofPool pool generate).enums.map (·.fullName)
            = (pool.enums.map (·.fullName)).map ("." ++ ·) := by
          simp [Schema.ofPool, SourceEnum.ofType, Function.comp_def]
        rw [hsame]
        exact h.enums.map fun _ _ heq => dot_append_injective heq
      have hmem : SourceEnum.ofType type ∈ (Schema.ofPool pool generate).enums.reverse :=
        List.mem_reverse.mpr (List.mem_map_of_mem htype)
      rw [enum?, hfront]
      exact find?_eq_some_of_nodup hnodup hmem
    rw [splitLast?_inScope front (h.simple type htype value hvalue).2]
    simp only [henum, Option.map_some, Option.getD_some, List.any_eq_true, beq_iff_eq]
    exact ⟨value, mem_values_ofType.mpr hvalue, rfl⟩

/-- The schema knows what a text resolves to, unless the text begins with two dots. -/
theorem Schema.hasEnumValue_iff_resolve {generate : List String} :
    (Schema.ofPool pool generate).hasEnumValue s ↔
      ¬ ['.', '.'] <+: s.toList ∧ ∃ found, (Discriminator.ofName s).resolve pool = .ok found := by
  rw [hasEnumValue_iff h]
  constructor
  · rintro ⟨type, htype, value, hvalue, hs⟩
    have hbare : (inScope type.fullName value.1).toList.head? ≠ some '.' :=
      head?_inScope (h.nonempty type htype) (h.bare type htype)
    have htrim : Text.trimFront s '.' = inScope type.fullName value.1 := by
      rcases hs with rfl | rfl
      · exact trimFront_of_bare hbare
      · exact trimFront_dot hbare
    refine ⟨?_, _, (Discriminator.resolve_eq_ok_iff h).mpr
      ⟨htype, hvalue, congrArg Discriminator.mk htrim⟩⟩
    rcases hs with rfl | rfl
    · exact (not_twoDots hbare).1
    · exact (not_twoDots hbare).2
  · rintro ⟨hdots, ⟨type, value, number⟩, hresolve⟩
    obtain ⟨htype, hvalue, heq⟩ := Discriminator.eq_ofValue_of_resolve hresolve
    have htrim : Text.trimFront s '.' = inScope type.fullName value := congrArg Discriminator.text heq
    refine ⟨type, htype, (value, number), hvalue, ?_⟩
    rw [← htrim]
    exact eq_or_dot_of_trimFront hdots

end Lookups

/-! ## The main result -/

/-- **The two lookups of an enum value agree on a text unless it resolves with two leading dots**, what
a text resolves to is named by the text, and every value is what its own name resolves to. -/
theorem enum_tags_agree_iff {files : List FileDecl} {pool : Pool} {generate : List String}
    (hload : Pool.load files = .ok pool) (hnames : ProperNames pool.files)
    (hvalues : pool.SimpleValueNames) :
    (∀ s, ((Schema.ofPool pool generate).hasEnumValue s ↔
        ∃ found, (Discriminator.ofName s).resolve pool = .ok found) ↔
      ¬ (['.', '.'] <+: s.toList ∧ ∃ found, (Discriminator.ofName s).resolve pool = .ok found)) ∧
      (∀ s type value number, (Discriminator.ofName s).resolve pool = .ok (type, value, number) →
        type ∈ pool.enums ∧ (value, number) ∈ type.values ∧
          Discriminator.ofValue type value = Discriminator.ofName s) ∧
      ∀ type ∈ pool.enums, ∀ value ∈ type.values,
        (Discriminator.ofValue type value.1).resolve pool = .ok (type, value.1, value.2) := by
  have h : pool.NamesEnumValues := by
    obtain ⟨hpool, hlinked⟩ := Pool.load_eq_ok hload
    rw [hpool] at hvalues ⊢
    exact hlinked.namesEnumValues hnames hvalues
  refine ⟨fun s => ?_, fun s type value number hresolve => ?_, fun type htype value hvalue => ?_⟩
  · rw [Schema.hasEnumValue_iff_resolve h]
    constructor
    · rintro hagree ⟨hdots, hfound⟩
      exact (hagree.mpr hfound).1 hdots
    · intro hapart
      exact ⟨And.right, fun hfound => ⟨fun hdots => hapart ⟨hdots, hfound⟩, hfound⟩⟩
  · obtain ⟨htype, hvalue, heq⟩ := Discriminator.eq_ofValue_of_resolve hresolve
    exact ⟨htype, hvalue, heq.symm⟩
  · exact Discriminator.resolve_ofValue h htype hvalue

/-! ## Kinds of accounts -/

/-- An enum of a package with two names for one number, and one inside a message. -/
def accountFile : FileDecl :=
  { name := "account.proto", package := "p"
    enums := [{ name := "Kind", values := [("OPEN", 0), ("FREE", 0), ("PAID", 1)], allowAlias := true }]
    messages := [{ name := "Account", enums := [{ name := "State", values := [("NEW", 0)] }] }] }

/-- An enum without a package. -/
def currencyFile : FileDecl :=
  { name := "currency.proto", enums := [{ name := "Currency", values := [("EUR", 0), ("USD", 1)] }] }

def accountPool : Pool := (Pool.load [accountFile, currencyFile]).toOption.getD {}

/-- What can be read off the enums of accounts. -/
theorem account_checks :
    (Pool.load [accountFile, currencyFile]).isOk ∧ ProperNames accountPool.files ∧
      accountPool.SimpleValueNames ∧
      accountPool.enums.map (·.fullName) = ["p.Account.State", "p.Kind", "Currency"] ∧
      (Schema.ofPool accountPool []).hasEnumValue ".p.Kind.FREE" ∧
      ¬ (Schema.ofPool accountPool []).hasEnumValue "..p.Kind.FREE" ∧
      ((Discriminator.ofName "..p.Kind.FREE").resolve accountPool).isOk := by
  decide +kernel

theorem load_account : Pool.load [accountFile, currencyFile] = .ok accountPool :=
  eq_ok_of_isOk account_checks.1 _

/-- A tag of an account with one leading dot is found by both lookups, and each value by its own
name. -/
theorem account_tags_agree :
    ((Schema.ofPool accountPool []).hasEnumValue ".p.Kind.FREE" ↔
        ∃ found, (Discriminator.ofName ".p.Kind.FREE").resolve accountPool = .ok found) ∧
      (Schema.ofPool accountPool []).hasEnumValue ".p.Kind.FREE" ∧
      ∀ type ∈ accountPool.enums, ∀ value ∈ type.values,
        (Discriminator.ofValue type value.1).resolve accountPool = .ok (type, value.1, value.2) := by
  obtain ⟨-, hnames, hvalues, -, hknown, -⟩ := account_checks
  obtain ⟨hagree, -, hown⟩ := @enum_tags_agree_iff _ _ [] load_account hnames hvalues
  refine ⟨(hagree ".p.Kind.FREE").mpr ?_, hknown, hown⟩
  rintro ⟨hdots, -⟩
  exact absurd hdots (by decide)

/-- A tag with two leading dots is dropped to a value that the schema does not know by that name. -/
theorem dotted_tag_resolves :
    Pool.load [accountFile, currencyFile] = .ok accountPool ∧
      ¬ ((Schema.ofPool accountPool []).hasEnumValue "..p.Kind.FREE" ↔
        ∃ found, (Discriminator.ofName "..p.Kind.FREE").resolve accountPool = .ok found) := by
  obtain ⟨-, -, -, -, -, hunknown, hresolves⟩ := account_checks
  refine ⟨load_account, fun hagree => hunknown (hagree.mpr ?_)⟩
  cases hfound : (Discriminator.ofName "..p.Kind.FREE").resolve accountPool with
  | ok found => exact ⟨found, rfl⟩
  | error e =>
    rw [hfound] at hresolves
    exact absurd hresolves Bool.false_ne_true

end PlainSchema
