import PlainSchema.Proofs.Derive.References

/-!
# Generated messages

`DerivesMessage` ties the three sides of a generated message together: its source message, its plan,
and the Plain message that the derived files declare in its place.  Every generated message has all
three, `Derivation.exists_derivesMessage`.
-/

namespace PlainSchema

open Proto

/-- A generated message of some files, its plan, and what the derived files declare in its place. -/
structure DerivesMessage (files : List FileDecl) (generate : List String) (plan : SchemaPlan)
    (m : SourceMessage) (mp : MessagePlan) (decl : MessageDecl) : Prop where
  source : m ∈ (Schema.ofPool (Pool.link files) generate).messages
  planned : plan.message? m.fullName = some mp
  generated : mp.generate
  place : ∃ (i : Nat) (file derived : FileDecl) (positions : List Nat) (scope scope' : String)
      (d : MessageDecl), files[i]? = some file ∧ (plan.derive files)[i]? = some derived ∧
    file.messageAt? positions = some (scope, d) ∧ m.fullName = inScope scope d.name ∧
    derived.messageAt? positions = some (scope', decl)

namespace Derivation

variable {files : List FileDecl} {generate : List String} {settings : Settings}
  {plan : SchemaPlan} {m : SourceMessage} {mp : MessagePlan} {decl : MessageDecl}

theorem isPlanOf_of_derivesMessage (h : Derivation files generate settings plan)
    (hd : DerivesMessage files generate plan m mp decl) :
    m.IsPlanOf (Schema.ofPool (Pool.link files) generate) settings plan.renames mp := by
  obtain ⟨mp', -, hfound, hplan⟩ := h.plans.message? h.wellScoped hd.source
  obtain rfl := Option.some.inj (hd.planned.symm.trans hfound)
  exact hplan

/-- A message that the files declare is derived if its plan asks for it. -/
theorem derivesMessage_of_declares (h : Derivation files generate settings plan) {file : FileDecl}
    (hfile : file ∈ files) {scope : String} {d : MessageDecl} (hd : Declares file scope d)
    (hmp : plan.message? (inScope scope d.name) = some mp) (hgenerate : mp.generate) :
    ∃ m, DerivesMessage files generate plan m mp
      (plainMessage plan file.dialect (fileEntries plan.renames files) scope d) := by
  obtain ⟨m, hm, -, hfull, -⟩ := h.exists_sourceMessage hfile hd
  obtain ⟨i, hi⟩ := List.getElem?_of_mem hfile
  obtain ⟨declared, hdeclared, rfl, hname⟩ := hd
  obtain ⟨positions, s, hat, -, hname'⟩ := exists_messageAt?_declaredMessages rfl file.messages
    (h.simple.messages file hfile) declared hdeclared
  obtain rfl : s = scope := inScope_left_injective declared.decl.name (hname'.symm.trans hname)
  exact ⟨m, hm, hfull ▸ hmp, hgenerate, i, file, _, positions, s, _, declared.decl, hi,
    derive_getElem? hi, hat, hfull, h.messageAt?_deriveFile hfile _ hat⟩

theorem declares_of_derivesMessage (h : Derivation files generate settings plan)
    (hd : DerivesMessage files generate plan m mp decl) :
    ∃ file ∈ files, ∃ scope d, Declares file scope d ∧
      plan.message? (inScope scope d.name) = some mp ∧
      decl = plainMessage plan file.dialect (fileEntries plan.renames files) scope d := by
  obtain ⟨i, file, derived, positions, scope, scope', d, hi, hi', hat, hname, hat'⟩ := hd.place
  have hfile := List.mem_of_getElem? hi
  rw [derive_getElem? hi] at hi'
  obtain rfl := Option.some.inj hi'
  rw [h.messageAt?_deriveFile hfile _ hat] at hat'
  obtain ⟨-, rfl⟩ := Prod.mk.inj (Option.some.inj hat')
  exact ⟨file, hfile, scope, d,
    declares_of_messageAt? (h.simple.messages file hfile) (fun m hm => declares_top hm) hat,
    hname ▸ hd.planned, rfl⟩

/-- Every generated message has a plan, and something is derived in its place. -/
theorem exists_derivesMessage (h : Derivation files generate settings plan)
    (hm : m ∈ (Schema.ofPool (Pool.link files) generate).messages) (hgenerate : m.options.generate) :
    ∃ mp decl, DerivesMessage files generate plan m mp decl := by
  obtain ⟨mp, hmp, hfound, hplan⟩ := h.plans.message? h.wellScoped hm
  obtain ⟨i, file, positions, scope, d, sm, hi, hat, hfound', hsm, hplan'⟩ := h.exists_place_of_plan hmp
  have hname : m.fullName = inScope scope d.name := by
    have hfull : mp.fullName = m.fullName := by simpa using List.find?_some hfound
    have hfull' : mp.fullName = inScope scope d.name := by simpa using List.find?_some hfound'
    exact hfull.symm.trans hfull'
  exact ⟨mp, _, hm, hfound, hplan.outlines.generate ▸ hgenerate, i, file, _, positions, scope, _, d, hi,
    derive_getElem? hi, hat, hname, h.messageAt?_deriveFile (List.mem_of_getElem? hi) _ hat⟩

end Derivation

end PlainSchema
