import PlainSchema.Proofs.Value.InPlace

/-!
# Which writes keep a message typed

A write looks at the value before it begins, but not at everything.  It lets a single value into a field
of lists or maps, and it does not look at the types of the messages in the entries of a map.  Where it
lets such a value through, the message is no longer typed; every other write, refused or not, keeps it
typed, `setValue_keeps_types_iff`.

The step of the argument is `Message.Typed.set_iff`: a message with a field written is typed exactly if
the field can hold the value.  Along a path the messages that are written back on the way up are always of
the types of their fields, so that the value at the end decides, `Message.Typed.writeIn?_iff`.
-/

namespace PlainSchema

open Proto

variable {pool : Pool} {type : MessageType} {field leaf : Field} {m m' : Message} {value : Value}
  {path : List String}

/-! ## What the look ahead leaves open -/

/-- A value has the cardinality of a field: a list where the field holds lists, a map where it holds
maps, and a single value elsewhere. -/
def Pool.MatchesCardinality (pool : Pool) (field : Field) : Value → Prop
  | .list _ => pool.isList field
  | .map _ => pool.isMap field
  | _ => field.isSingular

/-- The messages in the entries of a map are of the type that the map field declares for its values. -/
def Pool.NamesEntries (pool : Pool) (field : Field) (value : Value) : Prop :=
  ∀ entries key val, value = .map entries → pool.entryFields? field = some (key, val) →
    ∀ entry ∈ entries, ∀ inner, entry.2 = .message inner → val.type.typeName? = some inner.type

namespace Message

/-- A value that can be set is one that the field can hold exactly if it has the cardinality of the field
and the messages in its entries are of the declared type. -/
theorem Settable.fits_iff (h : m.Settable pool path value field) :
    pool.Fits field value ↔ pool.MatchesCardinality field value ∧ pool.NamesEntries field value := by
  have hnotMap : (∀ entries, value ≠ .map entries) → pool.NamesEntries field value :=
    fun hne entries _ _ heq => absurd heq (hne entries)
  constructor
  · intro hfits
    cases hfits with
    | list hlist hitems => exact ⟨hlist, hnotMap (by simp)⟩
    | @map entries key val hentry hentries =>
      obtain ⟨hlabel, type, htype, hisEntry, -⟩ := Pool.entryFields?_eq_some_iff.mp hentry
      refine ⟨Pool.isMap_iff.mpr ⟨hlabel, type, htype, hisEntry⟩, ?_⟩
      rintro _ _ _ ⟨⟩ hfound entry hmem inner hinner
      obtain ⟨rfl, rfl⟩ := Prod.mk.inj (Option.some.inj (hentry.symm.trans hfound))
      exact (hentries entry hmem).2.named inner hinner
    | single hsingular hfits =>
      cases value with
      | list items => exact absurd hfits.accepts (FieldType.not_accepts_list _ _)
      | map entries => exact absurd hfits.accepts (FieldType.not_accepts_map _ _)
      | _ => exact ⟨hsingular, hnotMap (by simp)⟩
  · rintro ⟨hcardinality, hentries⟩
    have haccepts := h.accepts
    cases value with
    | list items =>
      rw [Pool.accepts, Bool.and_eq_true, List.all_eq_true] at haccepts
      refine .list hcardinality fun item hitem => ⟨haccepts.2 item hitem, ?_⟩
      rintro inner rfl
      exact h.types inner (Or.inr ⟨items, rfl, hitem⟩)
    | map entries =>
      rw [Pool.accepts] at haccepts
      split at haccepts
      · next key val hentry =>
        simp only [List.all_eq_true, Bool.and_eq_true] at haccepts
        exact .map hentry fun entry hmem =>
          ⟨(haccepts entry hmem).1, (haccepts entry hmem).2, hentries entries key val rfl hentry entry hmem⟩
      · cases haccepts
    | message inner =>
      refine .single hcardinality ⟨haccepts, ?_⟩
      rintro _ ⟨⟩
      exact h.types inner (Or.inl rfl)
    | _ => exact .single hcardinality ⟨haccepts, by simp⟩

/-! ## Along a path -/

/-- A message that is written into along a path is typed exactly if the field at the end of the path can
hold the value. -/
theorem Typed.writeIn?_iff (hpool : pool.Linked) (hm : m.Typed pool) (htype : m.type? pool = some type)
    (hresolve : pool.resolvePath type path = some leaf)
    (hvalue : ∀ inner, value.Holds inner → inner.Typed pool)
    (hwrite : writeIn? pool value m path = some m') : m'.Typed pool ↔ pool.Fits leaf value := by
  induction path generalizing m m' type with
  | nil => cases hwrite
  | cons name rest ih =>
    have hlinked : type.Linked := hpool type (Pool.message?_mem htype).1
    by_cases hrest : rest = []
    · subst hrest
      obtain ⟨found, field, hfound, hfield, -, rfl⟩ := writeIn?_singleton hwrite
      obtain rfl := Option.some.inj (htype.symm.trans hfound)
      obtain rfl := Option.some.inj (hfield.symm.trans hresolve)
      exact hm.set_iff hlinked htype (MessageType.field?_mem hfield).1 hvalue
    · obtain ⟨field, next, inner, inner', hfield, hresolve, hthrough⟩ :=
        hm.exists_writesThrough htype hrest hresolve hwrite
      rw [← ih hthrough.typed hthrough.type? hresolve hthrough.write, hthrough.after]
      constructor
      · intro h
        exact h.nested (value?_set_self m type field _) .message
      · intro h
        refine (hm.set_iff hlinked htype (MessageType.field?_mem hfield).1 ?_).mpr hthrough.fits
        rintro _ ⟨⟩
        exact h

end Message

/-- **Which writes keep a message typed.**  After a write of a value whose messages are typed, whatever
the write answers, a typed message is typed exactly if the write was refused or the value has the
cardinality of the field and the messages in its entries, if it is a map, are of the type that the field
declares. -/
theorem setValue_keeps_types_iff {files : List FileDecl} (hload : Pool.load files = .ok pool)
    (hm : m.Typed pool) (path : List String) (hvalue : ∀ inner, value.Holds inner → inner.Typed pool) :
    (m.setValue pool path value).2.Typed pool ↔
      ∀ field, m.Settable pool path value field →
        pool.MatchesCardinality field value ∧ pool.NamesEntries field value := by
  have hpool := Pool.linked_of_load hload
  by_cases hsettable : ∃ field, m.Settable pool path value field
  · obtain ⟨leaf, hsettable⟩ := hsettable
    obtain ⟨type, htype, hresolve⟩ := Option.bind_eq_some_iff.mp hsettable.resolves
    obtain ⟨m', hwrite⟩ := hm.exists_writeIn? htype hresolve hsettable.accepts
    rw [(Message.setValue_of_settable hsettable hwrite).1,
      hm.writeIn?_iff hpool htype hresolve hvalue hwrite, hsettable.fits_iff]
    refine ⟨fun hfits field hfield => ?_, fun h => h leaf hsettable⟩
    rwa [Option.some.inj (hfield.resolves.symm.trans hsettable.resolves)]
  · have hnone : ∀ field, ¬ m.Settable pool path value field := fun field h => hsettable ⟨field, h⟩
    rw [Message.setValue_of_not_settable hnone]
    exact ⟨fun _ field h => absurd h (hnone field), fun _ => hm⟩

/-! ## A notebook -/

/-- A notebook with tags, and with pages by their names. -/
def notebookFile : FileDecl :=
  { name := "notebook.proto", package := "p"
    messages :=
      [{ name := "Page", fields := [{ name := "text", number := 1, kind := .scalar .string }] },
        { name := "Cover", fields := [{ name := "text", number := 1, kind := .scalar .string }] },
        { name := "Notebook"
          messages :=
            [{ name := "PagesEntry", isMapEntry := true
               fields :=
                 [{ name := "key", number := 1, kind := .scalar .string },
                   { name := "value", number := 2, kind := .message, typeRef := some ".p.Page" }] }]
          fields :=
            [{ name := "tags", number := 1, kind := .scalar .string, label := .repeated },
              { name := "pages", number := 2, kind := .message, label := .repeated
                typeRef := some ".p.Notebook.PagesEntry" }] }] }

def notebookPool : Pool :=
  (Pool.load [notebookFile]).toOption.getD {}

theorem load_notebook : Pool.load [notebookFile] = .ok notebookPool :=
  eq_ok_of_isOk (by decide +kernel) _

/-- A notebook without tags and pages. -/
def emptyNotebook : Message :=
  { type := "p.Notebook" }

/-- A map from a name to a new message of a type. -/
def singleEntry (type : String) : Value :=
  .map [(.string "first", .message { type })]

theorem typed_emptyNotebook : emptyNotebook.Typed notebookPool := by
  obtain ⟨type, htype⟩ : ∃ type, notebookPool.message? "p.Notebook" = some type :=
    Option.isSome_iff_exists.mp (by decide +kernel)
  exact .new htype

/-- The messages in a map with a new message are typed. -/
theorem typed_singleEntry (type : String) (hfound : (notebookPool.message? type).isSome)
    (inner : Message) (hholds : (singleEntry type).Holds inner) : inner.Typed notebookPool := by
  obtain ⟨found, htype⟩ := Option.isSome_iff_exists.mp hfound
  cases hholds with
  | entry hmem =>
    obtain ⟨-, rfl⟩ : _ ∧ inner = { type } := by simpa using hmem
    exact .new htype

/-- A page goes among the pages, and the notebook stays typed. -/
theorem page_keeps_notebook_typed :
    emptyNotebook.Typed notebookPool ∧
      (∀ inner, (singleEntry "p.Page").Holds inner → inner.Typed notebookPool) ∧
      (emptyNotebook.setValue notebookPool ["pages"] (singleEntry "p.Page")).1 = true ∧
      (emptyNotebook.setValue notebookPool ["pages"] (singleEntry "p.Page")).2.Typed notebookPool := by
  have hvalue := typed_singleEntry "p.Page" (by decide +kernel)
  refine ⟨typed_emptyNotebook, hvalue, by decide +kernel, ?_⟩
  refine (setValue_keeps_types_iff load_notebook typed_emptyNotebook ["pages"] hvalue).mpr ?_
  have hpages : ∀ field ∈ emptyNotebook.resolve? notebookPool ["pages"],
      notebookPool.isMap field = true ∧ ∀ entry ∈ notebookPool.entryFields? field,
        entry.2.type.typeName? = some "p.Page" := by decide +kernel
  intro field hsettable
  obtain ⟨hmap, hentry⟩ := hpages field hsettable.resolves
  refine ⟨hmap, ?_⟩
  rintro _ key val ⟨⟩ hfound entry hmem inner hinner
  obtain rfl := List.mem_singleton.mp hmem
  obtain rfl := Value.message.inj hinner
  exact hentry (key, val) hfound

/-- A single text goes into the list of tags, and a cover among the pages; both answers are that the
write went through, and the notebook is not typed after either. -/
theorem cover_goes_among_pages :
    emptyNotebook.Typed notebookPool ∧
      (∀ inner, (singleEntry "p.Cover").Holds inner → inner.Typed notebookPool) ∧
      (emptyNotebook.setValue notebookPool ["pages"] (singleEntry "p.Cover")).1 = true ∧
      ¬ (emptyNotebook.setValue notebookPool ["pages"] (singleEntry "p.Cover")).2.Typed notebookPool ∧
      (emptyNotebook.setValue notebookPool ["tags"] (.string "x")).1 = true ∧
      ¬ (emptyNotebook.setValue notebookPool ["tags"] (.string "x")).2.Typed notebookPool := by
  have hfits : ∀ m : Message, m.Typed notebookPool → ∀ type ∈ m.type? notebookPool,
      ∀ field ∈ type.fields, ∀ value ∈ m.value? field.number, notebookPool.Fits field value :=
    fun m hm type htype field hfield value hvalue => hm.fits htype hfield hvalue
  refine ⟨typed_emptyNotebook, typed_singleEntry "p.Cover" (by decide +kernel), by decide +kernel, fun hcover => ?_,
    by decide +kernel, fun htag => ?_⟩
  · exact absurd (hfits _ hcover) (by decide +kernel)
  · exact absurd (hfits _ htag) (by decide +kernel)

end PlainSchema
