import PlainSchema.Proofs.Derive.Lookup

/-!
# Converters of files that load

A converter knows the types of both sides by their names, and which message has which plan,
`Converter.IsBuilt`.
-/

namespace PlainSchema

open Proto

namespace Converter

variable {c : Converter}

theorem mem_of_planFor? {name : String} {mp : MessagePlan} (h : c.planFor? name .toPlain = some mp) :
    mp ∈ c.plan.messages ∧ mp.generate ∧ mp.fullName = dotted name := by
  obtain ⟨hfound, hgenerate⟩ := Option.filter_eq_some_iff.mp h
  exact ⟨List.mem_of_find?_eq_some hfound, hgenerate, by simpa using List.find?_some hfound⟩

/-- A converter of files that load, by a plan of their schema. -/
structure IsBuilt (c : Converter) (files : List FileDecl) (generate : List String)
    (settings : Settings) : Prop where
  load : Pool.load files = .ok c.source
  names : ProperNames c.source.files
  suffix : '.' ∉ settings.suffix.toList
  plan : (Schema.ofPool c.source generate).plan settings = .ok c.plan
  converter : Converter.ofPool c.source c.plan = .ok c

/-- A converter has the pool and the plan that it was made of. -/
theorem ofPool_eq_ok {pool : Pool} {plan : SchemaPlan} (h : Converter.ofPool pool plan = .ok c) :
    c.source = pool ∧ c.plan = plan := by
  obtain ⟨plain, -, hc⟩ := bind_eq_ok.mp h
  obtain rfl := Except.ok.inj hc
  exact ⟨rfl, rfl⟩

/-- A converter that is made of files that load, by a plan of their schema. -/
theorem isBuilt_of_ofPool {files : List FileDecl} {pool : Pool} {generate : List String}
    {settings : Settings} {plan : SchemaPlan} (hload : Pool.load files = .ok pool)
    (hnames : ProperNames pool.files) (hsuffix : '.' ∉ settings.suffix.toList)
    (hplan : (Schema.ofPool pool generate).plan settings = .ok plan)
    (hconverter : Converter.ofPool pool plan = .ok c) : c.IsBuilt files generate settings := by
  obtain ⟨plain, -, hc⟩ := bind_eq_ok.mp hconverter
  obtain rfl := Except.ok.inj hc
  exact ⟨hload, hnames, hsuffix, hplan, hconverter⟩

namespace IsBuilt

variable {files : List FileDecl} {generate : List String} {settings : Settings}
  (hc : c.IsBuilt files generate settings)

include hc

theorem source_eq : c.source = Pool.link c.source.files :=
  (Pool.load_eq_ok hc.load).1

theorem derivation : Derivation c.source.files generate settings c.plan :=
  ⟨(Pool.load_eq_ok hc.load).2, hc.names.simple, hc.suffix, hc.source_eq ▸ hc.plan⟩

theorem loadPlain : Pool.load (c.plan.derive c.source.files) = .ok c.plain := by
  obtain ⟨plain, hplain, hconverter⟩ := bind_eq_ok.mp hc.converter
  rw [hplain, ← congrArg Converter.plain (Except.ok.inj hconverter)]

theorem linked : c.source.Linked :=
  Pool.linked_of_load hc.load

theorem linkedPlain : c.plain.Linked :=
  Pool.linked_of_load hc.loadPlain

/-- The name of a source type is the name of a declared message. -/
theorem mem_messageNames {type : MessageType} (htype : type ∈ c.source.messages) :
    type.fullName ∈ messageNames c.source.files := by
  rw [hc.source_eq] at htype
  obtain ⟨file, hfile, htype⟩ := List.mem_flatMap.mp htype
  obtain ⟨d, hd, rfl⟩ := List.mem_map.mp htype
  exact PlainSchema.mem_messageNames.mpr ⟨file, hfile, d, hd, rfl⟩

theorem head?_fullName {type : MessageType} (htype : type ∈ c.source.messages) :
    type.fullName.toList.head? ≠ some '.' := by
  obtain ⟨file, hfile, d, hd, hname⟩ := PlainSchema.mem_messageNames.mp (hc.mem_messageNames htype)
  rw [← hname]
  exact head?_declaredMessages (hc.names.packages file hfile) file.messages
    (hc.names.simple.messages file hfile) d hd

theorem dotted_fullName {type : MessageType} (htype : type ∈ c.source.messages) :
    dotted type.fullName = "." ++ type.fullName := by
  rw [dotted, if_neg (by simpa using hc.head?_fullName htype)]

theorem requireType_fullName {type : MessageType} (htype : type ∈ c.source.messages) :
    requireType c.source type.fullName = .ok type ∧
      requireType c.source (dotted type.fullName) = .ok type := by
  have hhead := hc.head?_fullName htype
  have hfind : c.source.message? type.fullName = some type := by
    rw [hc.source_eq] at htype ⊢
    exact message?_fullName hc.derivation.linked htype
  constructor
  · rw [requireType, ← trimFront_dot hhead, trimFront_trimFront, trimFront_dot hhead, hfind]
  · rw [requireType, hc.dotted_fullName htype, trimFront_dot hhead, hfind]

end IsBuilt

end Converter

end PlainSchema
