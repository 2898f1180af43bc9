import PlainSchema.Proofs.Data.Lists
import PlainSchema.Proofs.Names.Dots

/-!
# Looking up renamed types

`Renames.resolve?` tries a name and then the fronts of it, the longest one first.  With only
messages in the index this is a recursion along the scopes of a name, `resolve?_inScope`: a name
has an entry of its own or moves with its scope.  So an index says nothing about a name when
none of its keys is the name or a scope of it, and a further key of that sort changes nothing.
-/

namespace PlainSchema

/-- A scope is a name or one of the scopes around it. -/
def Covers (scope name : String) : Prop :=
  name = scope ∨ ∃ rest, name = inScope scope rest

theorem covers_of_mem_dotCuts {name : String} {front rest : List Char}
    (h : (front, rest) ∈ dotCuts name.toList) : Covers (String.ofList front) name := by
  obtain ⟨happ, hdot⟩ := append_of_mem_dotCuts h
  cases rest with
  | nil => simp at hdot
  | cons c rest =>
    obtain rfl : c = '.' := by simpa using hdot
    refine Or.inr ⟨String.ofList rest, String.toList_inj.mp ?_⟩
    rw [toList_inScope, ← happ]
    simp

/-- The name itself or a scope around its scope covers a name in a scope. -/
theorem covers_inScope {key scope name : String} (hname : '.' ∉ name.toList)
    (h : Covers key (inScope scope name)) : key = inScope scope name ∨ Covers key scope := by
  rcases h with h | ⟨rest, h⟩
  · exact Or.inl h.symm
  · right
    by_cases hdot : '.' ∈ rest.toList
    · obtain ⟨front, last, hrest, hlast⟩ := exists_last_dot hdot
      have hsplit : rest = inScope (String.ofList front) (String.ofList last) :=
        String.toList_inj.mp (by simp [toList_inScope, hrest])
      rw [hsplit, ← inScope_assoc] at h
      exact Or.inr ⟨_, (inScope_injective hname (by simpa using hlast) h).1⟩
    · exact Or.inl (inScope_injective hname hdot h).1

theorem not_covers_empty {key : String} (hkey : key ≠ "") : ¬ Covers key "" := by
  rintro (h | ⟨rest, h⟩)
  · exact hkey h.symm
  · exact inScope_ne_empty key rest h.symm

namespace Renames

@[simp] theorem message?_insertMessage (renames : Renames) (old new name : String) :
    (renames.insertMessage old new).message? name
      = if name = old then some new else renames.message? name :=
  lookup_insertName old new name renames.messages

@[simp] theorem enums_insertMessage (renames : Renames) (old new : String) :
    (renames.insertMessage old new).enums = renames.enums := rfl

/-- An index of nothing but messages with names. -/
structure OfMessages (renames : Renames) : Prop where
  enums : renames.enums = []
  unnamed : renames.message? "" = none

variable {renames : Renames}

theorem OfMessages.insert (h : renames.OfMessages) {old : String} (new : String)
    (hold : old ≠ "") : (renames.insertMessage old new).OfMessages where
  enums := h.enums
  unnamed := by rw [message?_insertMessage, if_neg (Ne.symm hold), h.unnamed]

/-- The new name that a front of a text gives to the text. -/
def resolveFront (renames : Renames) (cut : List Char × List Char) : Option String :=
  if cut.1.isEmpty then none
  else (renames.message? (String.ofList cut.1)).map (· ++ String.ofList cut.2)

/-- The new name that the longest renamed front of a text gives to the text. -/
def resolveFronts (renames : Renames) (text : List Char) : Option String :=
  (dotCuts text).findSome? renames.resolveFront

theorem OfMessages.resolve?_eq (h : renames.OfMessages) (name : String) :
    renames.resolve? name
      = (renames.message? name <|> renames.resolveFronts name.toList) := by
  rw [resolve?, h.enums]
  rfl

theorem resolveFront_append (renames : Renames) (front rest tail : List Char) :
    renames.resolveFront (front, rest ++ tail)
      = (renames.resolveFront (front, rest)).map (· ++ String.ofList tail) := by
  rw [resolveFront, resolveFront]
  split
  · rfl
  · cases renames.message? (String.ofList front) <;> simp [String.append_assoc]

theorem resolveFronts_append (s : List Char) {n : List Char} (hn : '.' ∉ n) :
    renames.resolveFronts (s ++ '.' :: n)
      = (renames.resolveFront (s, []) <|> renames.resolveFronts s).map
          (· ++ String.ofList ('.' :: n)) := by
  rw [resolveFronts, dotCuts_append s hn, List.findSome?_cons, List.findSome?_map, resolveFronts]
  have hrest : (renames.resolveFront ∘ fun cut => (cut.1, cut.2 ++ '.' :: n))
      = Option.map (· ++ String.ofList ('.' :: n)) ∘ renames.resolveFront := by
    funext cut
    exact resolveFront_append renames cut.1 cut.2 ('.' :: n)
  have hfirst := resolveFront_append renames s [] ('.' :: n)
  rw [List.nil_append] at hfirst
  rw [hrest, ← List.map_findSome?, hfirst]
  cases renames.resolveFront (s, []) <;> rfl

/-- A name has an entry of its own or moves with its scope. -/
theorem OfMessages.resolve?_inScope (h : renames.OfMessages) (scope : String) {name : String}
    (hname : '.' ∉ name.toList) :
    renames.resolve? (inScope scope name)
      = (renames.message? (inScope scope name)
          <|> (renames.resolve? scope).map (inScope · name)) := by
  rw [h.resolve?_eq, h.resolve?_eq scope, toList_inScope,
    resolveFronts_append scope.toList hname]
  have hfront : renames.resolveFront (scope.toList, []) = renames.message? scope := by
    rw [resolveFront]
    by_cases hs : scope = ""
    · subst hs
      simp [h.unnamed]
    · simp [hs]
  have hdot : (fun new : String => new ++ String.ofList ('.' :: name.toList))
      = (inScope · name) := by
    funext new
    exact String.toList_inj.mp (by simp [toList_inScope])
  rw [hfront, hdot]

/-- A renamed scope takes the names in it along. -/
theorem OfMessages.rename_inScope (h : renames.OfMessages) {scope name : String}
    (hname : '.' ∉ name.toList) (hnone : renames.message? (inScope scope name) = none) :
    renames.rename (inScope scope name) = inScope (renames.rename scope) name := by
  rw [rename, rename, h.resolve?_inScope scope hname, hnone]
  cases renames.resolve? scope <;> rfl

/-- What resolves has a key that is the name or one of its scopes. -/
theorem OfMessages.exists_key (h : renames.OfMessages) {name new : String}
    (hres : renames.resolve? name = some new) :
    ∃ key, (renames.message? key).isSome ∧ Covers key name := by
  rw [h.resolve?_eq] at hres
  cases hkey : renames.message? name with
  | some new' => exact ⟨name, by simp [hkey], Or.inl rfl⟩
  | none =>
    rw [hkey] at hres
    obtain ⟨⟨front, rest⟩, hmem, hcut⟩ := List.exists_of_findSome?_eq_some hres
    refine ⟨String.ofList front, ?_, covers_of_mem_dotCuts hmem⟩
    rw [resolveFront] at hcut
    split at hcut
    · exact absurd hcut (by simp)
    · obtain ⟨new', hnew', -⟩ := Option.map_eq_some_iff.mp hcut
      simp [hnew']

/-- A new key changes nothing about the names that it does not cover. -/
theorem OfMessages.resolve?_insert (h : renames.OfMessages) {old : String} (new : String)
    (hold : old ≠ "") {name : String} (hcovers : ¬ Covers old name) :
    (renames.insertMessage old new).resolve? name = renames.resolve? name := by
  rw [(h.insert new hold).resolve?_eq, h.resolve?_eq, message?_insertMessage,
    if_neg fun heq => hcovers (Or.inl heq)]
  refine congrArg (renames.message? name <|> ·) (findSome?_congr fun ⟨front, rest⟩ hmem => ?_)
  have hne : String.ofList front ≠ old := fun heq => hcovers (heq ▸ covers_of_mem_dotCuts hmem)
  rw [resolveFront, resolveFront, message?_insertMessage, if_neg hne]

theorem OfMessages.resolve?_eq_none (h : renames.OfMessages) {name : String}
    (hkeys : ∀ key, (renames.message? key).isSome → ¬ Covers key name) :
    renames.resolve? name = none := by
  cases hres : renames.resolve? name with
  | none => rfl
  | some new =>
    obtain ⟨key, hkey, hcovers⟩ := h.exists_key hres
    exact absurd hcovers (hkeys key hkey)

end Renames

end PlainSchema
