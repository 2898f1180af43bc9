import PlainSchema.Convert.Converter
import PlainSchema.Proofs.Derive.Names
import PlainSchema.Proofs.Schema.Types

/-!
# Finding plans by the names of both sides

The plan that a message is converted by is found from its Plain message too,
`Derivation.planFor?_toSource`, and a message without a plan is moved to a type without one,
`Derivation.planFor?_toSource_eq_none`.  Both rest on new names being the names of one type each.
-/

namespace PlainSchema

open Proto

/-- What holds of a name as soon as it holds of the name of its parent holds of all names. -/
theorem ParentsFirst.forall_fst {P : String → Prop} {known : List String}
    {entries : List (String × Option String)} (h : ParentsFirst known entries)
    (hknown : ∀ name ∈ known, P name)
    (hstep : ∀ entry ∈ entries, (∀ p, entry.2 = some p → P p) → P entry.1) :
    ∀ entry ∈ entries, P entry.1 := by
  induction entries generalizing known with
  | nil => exact fun entry hentry => absurd hentry List.not_mem_nil
  | cons first rest ih =>
    obtain ⟨name, parent⟩ := first
    have hname : P name := hstep (name, parent) List.mem_cons_self fun p hp => hknown p (h.1 p hp)
    have hrest := ih h.2 (List.forall_mem_cons.mpr ⟨hname, hknown⟩)
      fun entry hentry => hstep entry (List.mem_cons_of_mem _ hentry)
    exact List.forall_mem_cons.mpr ⟨hname, hrest⟩

theorem Converter.fullName_of_requireType {pool : Pool} {name : String} {type : MessageType}
    (h : requireType pool name = .ok type) :
    type.fullName = Text.trimFront name '.' ∧ pool.message? type.fullName = some type := by
  rw [requireType] at h
  split at h
  · next found hfound =>
    obtain rfl := Except.ok.inj h
    obtain ⟨-, hname⟩ := Pool.message?_mem hfound
    exact ⟨hname, hname ▸ hfound⟩
  · cases h

/-- A name that begins with one dot. -/
def BeginsWithDot (name : String) : Prop :=
  ∃ rest, name = "." ++ rest ∧ rest ≠ "" ∧ rest.toList.head? ≠ some '.'

theorem BeginsWithDot.dotted_trimFront {name : String} (h : BeginsWithDot name) :
    dotted (Text.trimFront name '.') = name := by
  obtain ⟨rest, rfl, -, hhead⟩ := h
  rw [trimFront_dot hhead, dotted, if_neg (by simpa using hhead)]

theorem BeginsWithDot.dotted_trimFront_of_dotted {name : String} (h : BeginsWithDot (dotted name)) :
    dotted (Text.trimFront name '.') = dotted name := by
  by_cases hhead : name.toList.head? = some '.'
  · have hname : dotted name = name := by rw [dotted, if_pos (by simpa using hhead)]
    rw [hname] at h ⊢
    exact h.dotted_trimFront
  · rw [← trimFront_dot hhead, trimFront_trimFront]

theorem beginsWithDot_inScope {scope base : String} (hscope : scope = "" ∨ BeginsWithDot scope)
    (hne : base ≠ "") (hdot : '.' ∉ base.toList) : BeginsWithDot (inScope scope base) := by
  rcases hscope with rfl | ⟨rest, rfl, hrest, hhead⟩
  · refine ⟨base, by simp [inScope], hne, fun hhead => hdot ?_⟩
    exact List.mem_of_mem_head? hhead
  · refine ⟨inScope rest base, by simp [inScope, String.append_assoc], inScope_ne_empty _ _, ?_⟩
    rw [toList_inScope, List.head?_append_of_ne_nil _ (by simpa using hrest)]
    exact hhead

theorem beginsWithDot_packageScope {package : String} (h : package.toList.head? ≠ some '.') :
    packageScope package = "" ∨ BeginsWithDot (packageScope package) := by
  by_cases hempty : package = ""
  · exact Or.inl (by rw [packageScope, hempty]; rfl)
  · exact Or.inr ⟨package, packageScope_of_ne hempty, hempty, h⟩

namespace Derivation

variable {files : List FileDecl} {generate : List String} {settings : Settings}
  {plan : SchemaPlan} {m : SourceMessage}

/-- New full names begin with one dot. -/
theorem beginsWithDot_rename (h : Derivation files generate settings plan)
    (hproper : ProperNames files) (hm : m ∈ (Schema.ofPool (Pool.link files) generate).messages) :
    BeginsWithDot (plan.renames.rename m.fullName) := by
  refine h.wellScoped.ordered.forall_fst (P := fun name => BeginsWithDot (plan.renames.rename name))
    (fun name hname => absurd hname List.not_mem_nil) ?_ (m.fullName, m.parent)
    (List.mem_map_of_mem hm)
  intro entry hentry hparent
  obtain ⟨found, hfound, rfl⟩ := List.mem_map.mp hentry
  have hsimple := h.wellScoped.simple found hfound
  have hrename := Renames.rename_ofSchema h.wellScoped h.suffix hfound
  rw [← h.plans.renames] at hrename
  dsimp only at hparent ⊢
  rw [hrename]
  refine beginsWithDot_inScope ?_ ?_ (found.dot_notMem_newBase h.suffix hsimple)
  · obtain ⟨file, hfile, d, hd, rfl⟩ := (mem_schema_messages generate).mp hfound
    rw [scopeOf_ofType generate h.linked hfile d]
    cases hd : d.parent with
    | none =>
      rw [Option.map_none, Option.getD_none, h.rename_package hfile]
      exact beginsWithDot_packageScope (hproper.packages file hfile)
    | some parent =>
      refine Or.inr (hparent ("." ++ parent) ?_)
      change d.parent.map ("." ++ ·) = _
      rw [hd, Option.map_some]
  · rw [SourceMessage.newBase]
    split
    · rw [plainName]
      intro hempty
      have hparts : found.name = "" ∧ settings.suffix = "" := by
        simpa using congrArg String.toList hempty
      exact hsimple.1 hparts.1
    · exact hsimple.1

/-- The message of the schema that a plan is made for. -/
theorem exists_source (h : Derivation files generate settings plan) {mp : MessagePlan}
    (hmp : mp ∈ plan.messages) :
    ∃ m ∈ (Schema.ofPool (Pool.link files) generate).messages, mp.fullName = m.fullName ∧
      mp.newFullName = plan.renames.rename m.fullName ∧
      ∃ full ∈ files.flatMap (·.typeNames), m.fullName = "." ++ full := by
  obtain ⟨m, hm, hplan⟩ := exists_left_of_forall₂ h.plans.messages hmp
  refine ⟨m, hm, hplan.outlines.fullName, hplan.outlines.newFullName, ?_⟩
  obtain ⟨file, hfile, d, hd, rfl⟩ := (mem_schema_messages generate).mp hm
  refine ⟨d.fullName, (typeNames_perm files).mem_iff.mp (List.mem_append_left _ ?_), rfl⟩
  exact mem_messageNames.mpr ⟨file, hfile, d, hd, rfl⟩

theorem fullNames_nodup (h : Derivation files generate settings plan) :
    (plan.messages.map (·.fullName)).Nodup := by
  have hnames := map_eq_map_of_forall₂ h.plans.messages
    (f := SourceMessage.fullName) (g := MessagePlan.fullName)
    fun _ _ hplan => hplan.outlines.fullName.symm
  exact hnames ▸ h.wellScoped.distinct

section Derived

variable (h : Derivation files generate settings plan) {plain : Pool}
  (hplain : Pool.load (plan.derive files) = .ok plain)

include h hplain

/-- Plans with one new name are one plan. -/
theorem eq_of_newFullName {mp other : MessagePlan} (hmp : mp ∈ plan.messages)
    (hother : other ∈ plan.messages) (heq : mp.newFullName = other.newFullName) : mp = other := by
  obtain ⟨m, -, hname, hnew, full, hfull, hm⟩ := h.exists_source hmp
  obtain ⟨m', -, hname', hnew', full', hfull', hm'⟩ := h.exists_source hother
  rw [hnew, hnew', hm, hm'] at heq
  have hsame := h.rename_injective (Pool.symbols_nodup hplain) hfull hfull' heq
  refine List.inj_on_of_nodup_map h.fullNames_nodup hmp hother ?_
  rw [hname, hname', hm, hm', hsame]

/-- The plan that a message was converted by is the one that converts it back. -/
theorem planFor?_toSource {c : Converter} (hc : c.plan = plan) (hproper : ProperNames files)
    {name : String} {mp : MessagePlan} (hmp : c.planFor? name .toPlain = some mp)
    {type : MessageType} (htype : Converter.requireType c.plain mp.newFullName = .ok type) :
    c.planFor? type.fullName .toSource = some mp := by
  subst hc
  obtain ⟨hmem, hgenerate⟩ := Option.filter_eq_some_iff.mp hmp
  have hmem := List.mem_of_find?_eq_some hmem
  obtain ⟨m, hm, -, hnew, -⟩ := h.exists_source hmem
  have hdot := (h.beginsWithDot_rename hproper hm).dotted_trimFront
  rw [Converter.planFor?, SchemaPlan.messageByNewName?,
    (Converter.fullName_of_requireType htype).1, hnew, hdot, ← hnew]
  have hsome : (c.plan.messages.find? fun m => m.generate && m.newFullName == mp.newFullName).isSome :=
    List.find?_isSome.mpr ⟨mp, hmem, by simp [hgenerate]⟩
  obtain ⟨found, hfound⟩ := Option.isSome_iff_exists.mp hsome
  have hcond := List.find?_some hfound
  rw [Bool.and_eq_true, beq_iff_eq] at hcond
  rw [hfound, h.eq_of_newFullName hplain (List.mem_of_find?_eq_some hfound) hmem hcond.2]

/-- A message without a plan is moved to a type without a plan. -/
theorem planFor?_toSource_eq_none {c : Converter} (hc : c.plan = plan) (hproper : ProperNames files)
    {name name' : String} (hname : name ∈ messageNames files)
    (hnone : c.planFor? name .toPlain = none)
    (hmoved : dotted name' = plan.renames.rename (dotted name)) {type : MessageType}
    (htype : Converter.requireType c.plain name' = .ok type) :
    dotted type.fullName = plan.renames.rename (dotted name) ∧
      c.planFor? type.fullName .toSource = none := by
  subst hc
  obtain ⟨file, hfile, d, hd, rfl⟩ := mem_messageNames.mp hname
  have hhead : d.fullName.toList.head? ≠ some '.' :=
    head?_declaredMessages (hproper.packages file hfile) file.messages
      (hproper.simple.messages file hfile) d hd
  have hdotted : dotted d.fullName = "." ++ d.fullName := by
    rw [dotted, if_neg (by simpa using hhead)]
  have hm := (mem_schema_messages generate).mpr ⟨file, hfile, d, hd, rfl⟩
  have hbegins := h.beginsWithDot_rename hproper hm
  rw [hdotted] at hmoved ⊢
  change BeginsWithDot (c.plan.renames.rename ("." ++ d.fullName)) at hbegins
  have hfull : dotted type.fullName = c.plan.renames.rename ("." ++ d.fullName) := by
    rw [(Converter.fullName_of_requireType htype).1, ← hmoved]
    exact (hmoved ▸ hbegins).dotted_trimFront_of_dotted
  refine ⟨hfull, ?_⟩
  by_contra hsome
  obtain ⟨mp, hmp⟩ := Option.ne_none_iff_exists'.mp hsome
  have hmem := List.mem_of_find?_eq_some hmp
  have hcond := List.find?_some hmp
  rw [Bool.and_eq_true, beq_iff_eq] at hcond
  obtain ⟨m, -, hfullName, hnew, full, hfullMem, hm⟩ := h.exists_source hmem
  -- The plan has the new name of the message, so it is the plan of the message.
  have hsame : full = d.fullName := by
    refine h.rename_injective (Pool.symbols_nodup hplain) hfullMem
      ((typeNames_perm files).mem_iff.mp (List.mem_append_left _ hname)) ?_
    rw [← hm, ← hnew, hcond.2, hfull]
  have hfound : c.plan.message? mp.fullName = some mp :=
    find?_eq_some_of_nodup h.fullNames_nodup hmem
  rw [hfullName, hm, hsame, ← hdotted] at hfound
  rw [Converter.planFor?, hfound, Option.filter_some, if_pos hcond.1] at hnone
  cases hnone

end Derived

end Derivation

end PlainSchema
