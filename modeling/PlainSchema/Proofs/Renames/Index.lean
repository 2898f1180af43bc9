import Mathlib.Data.List.Nodup
import PlainSchema.Derive
import PlainSchema.Proofs.Renames.Lookup

/-!
# The rename index of a schema

`Renames.ofSchema` reads the messages in order and asks the index so far for the new name of
each parent.  In a schema whose messages stand behind their parents and share no name, no later
message covers an earlier one, so what the index says about a message stays true to the end.
The result, `Renames.rename_ofSchema`: the new full name of a message is its new simple name in
the renamed scope.
-/

namespace PlainSchema

/-! ## Schemas with scopes in order -/

/-- Every parent of a list of names with their parents is known before or stands in front. -/
def ParentsFirst : List String → List (String × Option String) → Prop
  | _, [] => True
  | known, (name, parent) :: rest =>
    (∀ p, parent = some p → p ∈ known) ∧ ParentsFirst (name :: known) rest

theorem ParentsFirst.mono {known known' : List String} {entries : List (String × Option String)}
    (h : ParentsFirst known entries) (hsub : known ⊆ known') : ParentsFirst known' entries := by
  induction entries generalizing known known' with
  | nil => trivial
  | cons entry rest ih =>
    exact ⟨fun p hp => hsub (h.1 p hp), ih h.2 (List.cons_subset_cons _ hsub)⟩

theorem ParentsFirst.append {known : List String} {xs ys : List (String × Option String)}
    (hxs : ParentsFirst known xs) (hys : ParentsFirst known ys) : ParentsFirst known (xs ++ ys) := by
  induction xs generalizing known with
  | nil => exact hys
  | cons x xs ih =>
    exact ⟨hxs.1, ih hxs.2 (hys.mono (List.subset_cons_self _ _))⟩

/-- The full name of the scope that declares a message. -/
def Schema.scopeOf (schema : Schema) (m : SourceMessage) : String :=
  m.parent.getD (((schema.file? m.file).map (packageScope ·.package)).getD "")

/-- The messages of a schema have names of their own behind the names of their scopes, stand
behind their parents, and none of them has the name of a package. -/
structure Schema.WellScoped (schema : Schema) : Prop where
  distinct : (schema.messages.map (·.fullName)).Nodup
  simple : ∀ m ∈ schema.messages, IsSimple m.name
  fullName : ∀ m ∈ schema.messages, m.fullName = inScope (schema.scopeOf m) m.name
  ordered : ParentsFirst [] (schema.messages.map fun m => (m.fullName, m.parent))
  packages : ∀ file ∈ schema.files, ∀ m ∈ schema.messages,
    ¬ Covers m.fullName (packageScope file.package)

/-- The simple name of what takes the place of a message. -/
def SourceMessage.newBase (suffix : String) (m : SourceMessage) : String :=
  if m.options.generate then plainName m.name suffix else m.name

theorem SourceMessage.dot_notMem_newBase {suffix : String} (hsuffix : '.' ∉ suffix.toList)
    {m : SourceMessage} (hname : IsSimple m.name) : '.' ∉ (m.newBase suffix).toList := by
  rw [newBase]
  split
  · simpa [plainName] using ⟨hname.2, hsuffix⟩
  · exact hname.2

namespace Renames

variable {schema : Schema} {suffix : String}

/-! ## One message more -/

/-- What is true of the index after some messages of a schema. -/
structure Indexes (renames : Renames) (suffix : String) (schema : Schema)
    (done : List SourceMessage) : Prop extends renames.OfMessages where
  keys : ∀ key, (renames.message? key).isSome → key ∈ done.map (·.fullName)
  names : ∀ m ∈ done,
    renames.rename m.fullName = inScope (renames.rename (schema.scopeOf m)) (m.newBase suffix)
  closed : ∀ m ∈ done, ∀ other ∈ schema.messages,
    Covers other.fullName m.fullName → other.fullName ∈ done.map (·.fullName)

variable {renames : Renames} {done : List SourceMessage}

theorem not_covers_package (hschema : schema.WellScoped) {m other : SourceMessage}
    (hother : other ∈ schema.messages) (hparent : m.parent = none) :
    ¬ Covers other.fullName (schema.scopeOf m) := by
  rw [Schema.scopeOf, hparent, Option.getD_none]
  cases hfile : schema.file? m.file with
  | none =>
    rw [Option.map_none, Option.getD_none]
    apply not_covers_empty
    rw [hschema.fullName other hother]
    exact inScope_ne_empty _ _
  | some file =>
    rw [Option.map_some, Option.getD_some]
    exact hschema.packages file (List.mem_of_find?_eq_some hfile) other hother

/-- A package keeps its name. -/
theorem Indexes.rename_package (h : renames.Indexes suffix schema done)
    (hschema : schema.WellScoped) (hdone : done ⊆ schema.messages) {m : SourceMessage}
    (hparent : m.parent = none) : renames.rename (schema.scopeOf m) = schema.scopeOf m := by
  rw [rename, h.resolve?_eq_none, Option.getD_none]
  intro key hkey
  obtain ⟨other, hother, rfl⟩ := List.mem_map.mp (h.keys key hkey)
  exact not_covers_package hschema (hdone hother) hparent

theorem Indexes.newScope_eq (h : renames.Indexes suffix schema done)
    (hschema : schema.WellScoped) (hdone : done ⊆ schema.messages) (m : SourceMessage) :
    renames.newScope schema m = renames.rename (schema.scopeOf m) := by
  rw [newScope]
  cases hparent : m.parent with
  | some parent => rw [Schema.scopeOf, hparent, Option.getD_some]
  | none =>
    rw [h.rename_package hschema hdone hparent, Schema.scopeOf, hparent, Option.getD_none]
    cases schema.file? m.file <;> rfl

/-- Of a message whose parent is indexed, only indexed messages cover the scope. -/
theorem Indexes.covers_scope (h : renames.Indexes suffix schema done)
    (hschema : schema.WellScoped) {m other : SourceMessage}
    (hparent : ∀ p, m.parent = some p → p ∈ done.map (·.fullName))
    (hother : other ∈ schema.messages)
    (hcovers : Covers other.fullName (schema.scopeOf m)) :
    other.fullName ∈ done.map (·.fullName) := by
  cases hm : m.parent with
  | none => exact absurd hcovers (not_covers_package hschema hother hm)
  | some p =>
    obtain ⟨outer, houter, hp⟩ := List.mem_map.mp (hparent p hm)
    rw [Schema.scopeOf, hm, Option.getD_some, ← hp] at hcovers
    exact h.closed outer houter other hother hcovers

/-- A message that needs no entry moves with its scope. -/
theorem Indexes.rename_unindexed (h : renames.Indexes suffix schema done)
    (hschema : schema.WellScoped) {m : SourceMessage} (hm : m ∈ schema.messages)
    (hnew : m.fullName ∉ done.map (·.fullName)) :
    renames.rename m.fullName = inScope (renames.rename (schema.scopeOf m)) m.name := by
  rw [hschema.fullName m hm]
  refine h.rename_inScope (hschema.simple m hm).2 ?_
  rw [← hschema.fullName m hm]
  by_contra hkey
  exact hnew (h.keys _ (Option.isSome_iff_ne_none.mpr hkey))

theorem Indexes.closed_cons (h : renames.Indexes suffix schema done)
    (hschema : schema.WellScoped) {m : SourceMessage} (hm : m ∈ schema.messages)
    (hparent : ∀ p, m.parent = some p → p ∈ done.map (·.fullName)) :
    ∀ n ∈ m :: done, ∀ other ∈ schema.messages,
      Covers other.fullName n.fullName → other.fullName ∈ (m :: done).map (·.fullName) := by
  intro n hn other hother hcovers
  rw [List.map_cons]
  rcases List.mem_cons.mp hn with rfl | hn
  · rw [hschema.fullName n hm] at hcovers ⊢
    rcases covers_inScope (hschema.simple n hm).2 hcovers with heq | hscope
    · exact heq ▸ List.mem_cons_self
    · exact List.mem_cons_of_mem _ (h.covers_scope hschema hparent hother hscope)
  · exact List.mem_cons_of_mem _ (h.closed n hn other hother hcovers)

/-- A further entry leaves the indexed messages and their scopes alone. -/
theorem Indexes.rename_insert (h : renames.Indexes suffix schema done)
    (hschema : schema.WellScoped) {m : SourceMessage} (hm : m ∈ schema.messages)
    (hnew : m.fullName ∉ done.map (·.fullName)) (new : String) {name : String}
    (hclosed : Covers m.fullName name → m.fullName ∈ done.map (·.fullName)) :
    (renames.insertMessage m.fullName new).rename name = renames.rename name := by
  have hne : m.fullName ≠ "" := by
    rw [hschema.fullName m hm]
    exact inScope_ne_empty _ _
  rw [rename, rename, h.resolve?_insert new hne fun hcovers => hnew (hclosed hcovers)]

/-- One message more keeps what is true of the index. -/
theorem Indexes.add (h : renames.Indexes suffix schema done) (hschema : schema.WellScoped)
    (hsuffix : '.' ∉ suffix.toList) (hdone : done ⊆ schema.messages) {m : SourceMessage}
    (hm : m ∈ schema.messages) (hnew : m.fullName ∉ done.map (·.fullName))
    (hparent : ∀ p, m.parent = some p → p ∈ done.map (·.fullName)) :
    (renames.add suffix schema m).Indexes suffix schema (m :: done) := by
  have hclosed := h.closed_cons hschema hm hparent
  have hadd : renames.add suffix schema m
      = if inScope (renames.rename (schema.scopeOf m)) (m.newBase suffix) = m.fullName then renames
        else renames.insertMessage m.fullName
          (inScope (renames.rename (schema.scopeOf m)) (m.newBase suffix)) := by
    rw [Renames.add, h.newScope_eq hschema hdone]
    rfl
  rw [hadd]
  split
  · next hsame =>
    refine ⟨h.toOfMessages, fun key hkey => List.mem_cons_of_mem _ (h.keys key hkey),
      fun n hn => ?_, hclosed⟩
    rcases List.mem_cons.mp hn with rfl | hn
    · have hunindexed := h.rename_unindexed hschema hm hnew
      have hparts := hsame.trans (hschema.fullName n hm)
      rw [hunindexed, (inScope_injective (n.dot_notMem_newBase hsuffix (hschema.simple n hm))
        (hschema.simple n hm).2 hparts).2]
    · exact h.names n hn
  · have hne : m.fullName ≠ "" := by
      rw [hschema.fullName m hm]
      exact inScope_ne_empty _ _
    refine ⟨h.toOfMessages.insert _ hne, fun key hkey => ?_, fun n hn => ?_, hclosed⟩
    · rw [message?_insertMessage] at hkey
      split at hkey
      · next heq => exact heq ▸ List.mem_cons_self
      · exact List.mem_cons_of_mem _ (h.keys key hkey)
    · rcases List.mem_cons.mp hn with rfl | hn
      · have hentry : ∀ new, (renames.insertMessage n.fullName new).rename n.fullName = new := by
          intro new
          rw [rename, (h.toOfMessages.insert new hne).resolve?_eq, message?_insertMessage,
            if_pos rfl]
          rfl
        rw [hentry, h.rename_insert hschema hm hnew]
        exact h.covers_scope hschema hparent hm
      · have hscope : Covers m.fullName (schema.scopeOf n) → Covers m.fullName n.fullName := by
          intro hcovers
          rw [hschema.fullName n (hdone hn)]
          rcases hcovers with heq | ⟨rest, heq⟩
          · exact Or.inr ⟨n.name, by rw [heq]⟩
          · exact Or.inr ⟨inScope rest n.name, by rw [heq, inScope_assoc]⟩
        rw [h.rename_insert hschema hm hnew _ (h.closed n hn m hm),
          h.rename_insert hschema hm hnew _ fun hcovers => h.closed n hn m hm (hscope hcovers)]
        exact h.names n hn

/-! ## All messages -/

theorem Indexes.foldl {rest : List SourceMessage} (h : renames.Indexes suffix schema done)
    (hschema : schema.WellScoped) (hsuffix : '.' ∉ suffix.toList)
    (hdone : done ⊆ schema.messages) (hrest : rest ⊆ schema.messages)
    (hnodup : (done.map (·.fullName) ++ rest.map (·.fullName)).Nodup)
    (hordered : ParentsFirst (done.map (·.fullName)) (rest.map fun m => (m.fullName, m.parent))) :
    (rest.foldl (Renames.add suffix schema) renames).Indexes suffix schema
      (rest.reverse ++ done) := by
  induction rest generalizing renames done with
  | nil => exact h
  | cons m rest ih =>
    have hm : m ∈ schema.messages := hrest List.mem_cons_self
    rw [List.map_cons, List.nodup_middle, List.nodup_cons, List.mem_append, not_or] at hnodup
    have hstep := h.add hschema hsuffix hdone hm hnodup.1.1 hordered.1
    rw [List.foldl_cons, List.reverse_cons, List.append_assoc]
    refine ih hstep (List.cons_subset.mpr ⟨hm, hdone⟩)
      (fun n hn => hrest (List.mem_cons_of_mem m hn)) ?_ hordered.2
    rw [List.singleton_append, List.map_cons, List.cons_append, List.nodup_cons, List.mem_append,
      not_or]
    exact hnodup

/-- The index of a whole schema. -/
theorem indexes_ofSchema (hschema : schema.WellScoped) (hsuffix : '.' ∉ suffix.toList) :
    (ofSchema schema suffix).Indexes suffix schema schema.messages := by
  have hempty : ({} : Renames).Indexes suffix schema [] :=
    ⟨⟨rfl, rfl⟩, fun key hkey => by simp [message?] at hkey, fun m hm => by simp at hm,
      fun m hm => by simp at hm⟩
  have hall := hempty.foldl hschema hsuffix (List.nil_subset _) (List.Subset.refl schema.messages)
    (by simpa using hschema.distinct) hschema.ordered
  rw [List.append_nil] at hall
  refine ⟨hall.toOfMessages, fun key hkey => ?_, fun m hm => hall.names m (List.mem_reverse.mpr hm),
    fun m _ other hother _ => List.mem_map_of_mem hother⟩
  simpa using hall.keys key hkey

/-- The new full name of a message is its new simple name in the renamed scope. -/
theorem rename_ofSchema (hschema : schema.WellScoped) (hsuffix : '.' ∉ suffix.toList)
    {m : SourceMessage} (hm : m ∈ schema.messages) :
    (ofSchema schema suffix).rename m.fullName
      = inScope ((ofSchema schema suffix).rename (schema.scopeOf m)) (m.newBase suffix) :=
  (indexes_ofSchema hschema hsuffix).names m hm

/-- What is no message moves with its scope. -/
theorem rename_inScope_ofSchema (hschema : schema.WellScoped) (hsuffix : '.' ∉ suffix.toList)
    {scope name : String} (hname : '.' ∉ name.toList)
    (hother : inScope scope name ∉ schema.messages.map (·.fullName)) :
    (ofSchema schema suffix).rename (inScope scope name)
      = inScope ((ofSchema schema suffix).rename scope) name := by
  have h := indexes_ofSchema hschema hsuffix
  refine h.rename_inScope hname ?_
  by_contra hkey
  exact hother (h.keys _ (Option.isSome_iff_ne_none.mpr hkey))

/-- Packages keep their names. -/
theorem rename_packageScope (hschema : schema.WellScoped) (hsuffix : '.' ∉ suffix.toList)
    (file : SourceFile) (hfile : file ∈ schema.files) :
    (ofSchema schema suffix).rename (packageScope file.package) = packageScope file.package := by
  have h := indexes_ofSchema hschema hsuffix
  rw [rename, h.resolve?_eq_none, Option.getD_none]
  intro key hkey
  obtain ⟨other, hother, rfl⟩ := List.mem_map.mp (h.keys key hkey)
  exact hschema.packages file hfile other hother

end Renames

end PlainSchema
