import PlainSchema.Convert.ToPlain
import PlainSchema.Convert.ToSource
import PlainSchema.Proofs.Data.Except
import PlainSchema.Proofs.Text.Integer
import PlainSchema.Proofs.Value.WellTyped

/-!
# Values there and back

A Plain field carries the value of its source field as the bytes of a message, as the field that an
alias wraps, as the name or the number of an enum value, or as it is.  Whatever fits the source field
and was carried into the Plain field can be turned back into something that fits the source field,
`FieldPlan.exists_uncarry`, as far as encoded messages can be decoded and nested messages can be moved
back.
-/

namespace PlainSchema

open Proto

variable {source plain : Pool} {there back : ConvertNested} {leaf target : Field} {plan : FieldPlan}
  {type type' : FieldType} {u v w : Value}

/-! ## Values that are copied -/

/-- The messages of a value that were moved to those of another one can be moved back to their own
types. -/
def Returns (there back : ConvertNested) (moves : String → String → Prop) (v w : Value) : Prop :=
  ∀ m m', v.Holds m → w.Holds m' → ∀ name, moves m.type name → there name m = .ok m' →
    ∃ m'', back m.type m' = .ok m'' ∧ m''.type = m.type

/-- A message type, and the one that its messages are moved to, correspond.  All other types do. -/
def FieldType.Corresponds (moves : String → String → Prop) : FieldType → FieldType → Prop
  | .message name _, .message name' _ => moves name name'
  | _, _ => True

/-- The messages that two fields hold, or the entries of their maps, are of corresponding types. -/
def KeepsTypes (source plain : Pool) (moves : String → String → Prop) (leaf target : Field) : Prop :=
  match source.entryFields? leaf, plain.entryFields? target with
  | none, _ => leaf.type.Corresponds moves target.type
  | some (_, val), some (_, val') => val.type.Corresponds moves val'.type
  | some _, none => True

instance {moves : String → String → Prop} [∀ a b, Decidable (moves a b)] (type type' : FieldType) :
    Decidable (type.Corresponds moves type') := by
  cases type with
  | message name group =>
    cases type' with
    | message name' group' => exact inferInstanceAs (Decidable (moves name name'))
    | _ => exact isTrue trivial
  | _ => exact isTrue trivial

instance {moves : String → String → Prop} [∀ a b, Decidable (moves a b)] (leaf target : Field) :
    Decidable (KeepsTypes source plain moves leaf target) := by
  unfold KeepsTypes
  split
  · infer_instance
  · infer_instance
  · infer_instance

namespace KeepsTypes

variable {moves : String → String → Prop} {name name' : String} {group group' : Bool}
  (h : KeepsTypes source plain moves leaf target)

include h

theorem single (hentry : source.entryFields? leaf = none) (hleaf : leaf.type = .message name group)
    (htarget : target.type = .message name' group') : moves name name' := by
  rw [KeepsTypes, hentry] at h
  simp only [hleaf, htarget, FieldType.Corresponds] at h
  exact h

theorem entry {key val key' val' : Field} (hentry : source.entryFields? leaf = some (key, val))
    (hentry' : plain.entryFields? target = some (key', val')) (hval : val.type = .message name group)
    (hval' : val'.type = .message name' group') : moves name name' := by
  rw [KeepsTypes, hentry, hentry'] at h
  simp only [hval, hval', FieldType.Corresponds] at h
  exact h

end KeepsTypes

theorem convertSingle_returns (hu : type.Fits u) (hw : type'.accepts w)
    (hreturns : ∀ m m' name group, u = .message m → w = .message m' → type' = .message name group →
      there name m = .ok m' → ∃ m'', back m.type m' = .ok m'' ∧ m''.type = m.type)
    (h : convertSingle there type' u = .ok w) :
    ∃ u', convertSingle back type w = .ok u' ∧ type.Fits u' := by
  cases u with
  | message m =>
    obtain ⟨group, rfl⟩ := hu.exists_message
    cases type' with
    | message name group' =>
      obtain ⟨m', hm', h⟩ := bind_eq_ok.mp h
      obtain rfl := Except.ok.inj h
      obtain ⟨m'', hm'', htype⟩ := hreturns m m' name group' rfl rfl rfl hm'
      refine ⟨.message m'', ?_, rfl, ?_⟩
      · rw [convertSingle, hm'']
        rfl
      · rintro _ ⟨⟩
        rw [htype]
        rfl
    | scalar scalar =>
      -- A message that was left as it is does not fit a field of another type.
      obtain rfl := Except.ok.inj h
      cases scalar <;> exact absurd hw Bool.false_ne_true
    | enum name =>
      obtain rfl := Except.ok.inj h
      exact absurd hw Bool.false_ne_true
  | _ =>
    obtain rfl := Except.ok.inj h
    exact ⟨_, rfl, hu⟩

theorem entryFields?_of_isList {pool : Pool} {field : Field} (h : pool.isList field) :
    pool.entryFields? field = none := by
  simp only [Pool.isList, Pool.isMap, Bool.and_eq_true, Bool.not_eq_true', Bool.and_eq_false_iff,
    beq_iff_eq] at h
  obtain ⟨hlabel, hmap⟩ := h
  have hentry : ((pool.messageTypeOf? field).map (·.isMapEntry)).getD false = false := by
    rcases hmap with hmap | hmap
    · exact absurd hlabel (by simpa using hmap)
    · exact hmap
  rw [Pool.entryFields?]
  unfold guard
  rw [if_pos hlabel]
  cases htype : pool.messageTypeOf? field with
  | none => rfl
  | some entry =>
    have hnot : ¬ entry.isMapEntry := by simpa [htype] using hentry
    rw [pure_bind, Option.bind_eq_bind, Option.bind_some, if_neg hnot]
    rfl

/-- What a map holds is converted by the type of the values of its entries. -/
theorem convertValue_map {pool : Pool} {nested : ConvertNested} {field key val : Field}
    (hentry : pool.entryFields? field = some (key, val)) (entries : List (MapKey × Value)) :
    convertValue pool nested field.type (.map entries)
      = (convertEntries nested val.type entries).map .map := by
  have hfound : (field.type.typeName?.bind fun name =>
      (pool.message? name).bind (·.fieldByNumber? 2)) = some val := by
    obtain ⟨-, entry, hmessage, -, -, hfound⟩ := Pool.entryFields?_eq_some_iff.mp hentry
    rw [Pool.messageTypeOf?] at hmessage
    split at hmessage
    · next name group hname => simp [hname, FieldType.typeName?, hmessage, hfound]
    · exact absurd hmessage (by simp)
  rw [convertValue, hfound]
  rfl

section Copied

variable {moves : String → String → Prop} (haccepts : plain.accepts target w)
  (hkeeps : KeepsTypes source plain moves leaf target)
  (hreturns : Returns there back moves v w)
  (h : convertValue plain there target.type v = .ok w)

include haccepts hkeeps hreturns h

theorem convertValue_single_returns (hsingular : leaf.isSingular) (hv : leaf.type.Fits v) :
    ∃ v', convertValue source back leaf.type w = .ok v' ∧ leaf.type.Fits v' := by
  have hentry : source.entryFields? leaf = none := entryFields?_of_isSingular hsingular
  have hback : target.type.accepts w → convertSingle there target.type v = .ok w →
      ∃ v', convertSingle back leaf.type w = .ok v' ∧ leaf.type.Fits v' := by
    intro hw hconvert
    refine convertSingle_returns hv hw ?_ hconvert
    rintro m m' name group rfl rfl hname hthere
    obtain ⟨group', hgroup⟩ := hv.exists_message
    exact hreturns m m' .message .message name (hkeeps.single hentry hgroup hname) hthere
  cases v with
  | list items => exact absurd hv.accepts (FieldType.not_accepts_list _ _)
  | map entries => exact absurd hv.accepts (FieldType.not_accepts_map _ _)
  | message m =>
    have hconvert : convertSingle there target.type (.message m) = .ok w := h
    obtain ⟨m', rfl⟩ : ∃ m', w = .message m' := by
      cases htarget : target.type with
      | message name group =>
        rw [htarget] at hconvert
        obtain ⟨m', -, hconvert⟩ := bind_eq_ok.mp hconvert
        exact ⟨m', (Except.ok.inj hconvert).symm⟩
      | scalar scalar =>
        rw [htarget] at hconvert
        exact ⟨m, (Except.ok.inj hconvert).symm⟩
      | enum name =>
        rw [htarget] at hconvert
        exact ⟨m, (Except.ok.inj hconvert).symm⟩
    exact hback haccepts hconvert
  | _ =>
    have hconvert := h
    obtain rfl := Except.ok.inj h
    exact hback haccepts hconvert

theorem convertValue_list_returns {items : List Value} (hv : v = .list items)
    (hlist : source.isList leaf) (hitems : ∀ item ∈ items, leaf.type.Fits item) :
    ∃ v', convertValue source back leaf.type w = .ok v' ∧ source.Fits leaf v' := by
  subst hv
  obtain ⟨ws, hws, h⟩ := bind_eq_ok.mp h
  obtain rfl := Except.ok.inj h
  rw [Pool.accepts, Bool.and_eq_true, List.all_eq_true] at haccepts
  have hentry := entryFields?_of_isList hlist
  obtain ⟨us, hus, hall⟩ := exists_mapM_of_mapM (g := convertSingle back leaf.type) hws (by
    intro u hu w hw hconvert
    refine convertSingle_returns (hitems u hu) (haccepts.2 w hw) ?_ hconvert
    rintro m m' name group rfl rfl hname hthere
    obtain ⟨group', hgroup⟩ := (hitems _ hu).exists_message
    exact hreturns m m' (.item hu) (.item hw) name (hkeeps.single hentry hgroup hname) hthere)
  refine ⟨.list us, ?_, .list hlist hall⟩
  rw [convertValue, hus]
  rfl

theorem convertValue_map_returns {entries : List (MapKey × Value)} {key val : Field}
    (hv : v = .map entries) (hentry : source.entryFields? leaf = some (key, val))
    (hentries : ∀ entry ∈ entries, key.type.accepts entry.1.toValue ∧ val.type.Fits entry.2) :
    ∃ v', convertValue source back leaf.type w = .ok v' ∧ source.Fits leaf v' := by
  subst hv
  obtain ⟨ws, rfl⟩ : ∃ ws, w = .map ws := by
    rw [convertValue] at h
    split at h
    · obtain ⟨ws, -, h⟩ := bind_eq_ok.mp h
      exact ⟨ws, (Except.ok.inj h).symm⟩
    · exact ⟨entries, (Except.ok.inj h).symm⟩
  rw [Pool.accepts] at haccepts
  cases hentry' : plain.entryFields? target with
  | none =>
    rw [hentry'] at haccepts
    exact absurd haccepts Bool.false_ne_true
  | some entry' =>
    obtain ⟨key', val'⟩ := entry'
    simp only [hentry', List.all_eq_true, Bool.and_eq_true] at haccepts
    rw [convertValue_map hentry'] at h
    obtain ⟨ws', hws, h⟩ := map_eq_ok.mp h
    obtain rfl := Value.map.inj h
    obtain ⟨us, hus, hall⟩ : ∃ us, convertEntries back val.type ws' = .ok us ∧
        ∀ entry ∈ us, key.type.accepts entry.1.toValue ∧ val.type.Fits entry.2 := by
      refine exists_mapM_of_mapM hws ?_
      rintro ⟨k, u⟩ hu ⟨k', w⟩ hw hconvert
      obtain ⟨w', hsingle, hpair⟩ := bind_eq_ok.mp hconvert
      obtain ⟨rfl, rfl⟩ := Prod.mk.inj (Except.ok.inj hpair)
      obtain ⟨hkey, hfits⟩ := hentries _ hu
      have hmoved : ∀ m m' name group, u = .message m → w' = .message m' →
          val'.type = .message name group → there name m = .ok m' →
          ∃ m'', back m.type m' = .ok m'' ∧ m''.type = m.type := by
        rintro m m' name group rfl rfl hname hthere
        obtain ⟨group', hgroup⟩ := hfits.exists_message
        exact hreturns m m' (.entry hu) (.entry hw) name
          (hkeeps.entry hentry hentry' hgroup hname) hthere
      obtain ⟨u', hback, hu'⟩ :=
        convertSingle_returns hfits (haccepts _ hw).2 hmoved hsingle
      refine ⟨(k, u'), ?_, hkey, hu'⟩
      change (do return (k, ← convertSingle back val.type w')) = _
      rw [hback]
      rfl
    refine ⟨.map us, ?_, .map hentry hall⟩
    rw [convertValue_map hentry, hus]
    rfl

theorem convertValue_returns (hv : source.Fits leaf v) :
    ∃ v', convertValue source back leaf.type w = .ok v' ∧ source.Fits leaf v' := by
  cases hv with
  | list hlist hitems =>
    exact convertValue_list_returns haccepts hkeeps hreturns h rfl hlist hitems
  | map hentry hentries =>
    exact convertValue_map_returns haccepts hkeeps hreturns h rfl hentry hentries
  | single hsingular hfits =>
    obtain ⟨v', hv', hfits'⟩ := convertValue_single_returns haccepts hkeeps hreturns h hsingular hfits
    exact ⟨v', hv', .single hsingular hfits'⟩

end Copied

/-! ## Values that are carried by other ones -/

/-- A singular field takes single values of its type only. -/
theorem accepts_of_isSingular {pool : Pool} {field : Field} (hsingular : field.isSingular)
    (h : pool.accepts field w) : field.type.accepts w ∧ ∀ items, w ≠ .list items := by
  have hlabel : ¬ field.label = .repeated := by simpa [Field.isSingular] using hsingular
  cases w with
  | list items =>
    rw [Pool.accepts, Pool.isList, Bool.and_eq_true, Bool.and_eq_true, beq_iff_eq] at h
    exact absurd h.1.1 hlabel
  | map entries =>
    rw [Pool.accepts, entryFields?_of_isSingular hsingular] at h
    exact absurd h Bool.false_ne_true
  | _ => exact ⟨h, fun items heq => by cases heq⟩

theorem eachItem_of_ne_list {f : Value → Except ConvertError Value} (h : ∀ items, v ≠ .list items) :
    eachItem f v = f v := by
  cases v with
  | list items => exact absurd rfl (h items)
  | _ => rfl

/-- What was made of a value item by item is turned back item by item. -/
theorem exists_eachItem {f g : Value → Except ConvertError Value} (hv : source.Fits leaf v)
    (hw : plain.accepts target w) (hlabel : leaf.isSingular → target.isSingular)
    (h : eachItem f v = .ok w) (hmap : ∀ entries u', f (.map entries) ≠ .ok u')
    (hitem : ∀ u u', leaf.type.Fits u → (∀ m, u = .message m → v.Holds m) →
      target.type.accepts u' → f u = .ok u' → ∃ u'', g u' = .ok u'' ∧ leaf.type.Fits u'') :
    ∃ v', eachItem g w = .ok v' ∧ source.Fits leaf v' := by
  cases hv with
  | @list items hlist hitems =>
    obtain ⟨ws, hws, h⟩ := bind_eq_ok.mp h
    obtain rfl := Except.ok.inj h
    rw [Pool.accepts, Bool.and_eq_true, List.all_eq_true] at hw
    obtain ⟨us, hus, hall⟩ := exists_mapM_of_mapM (g := g) hws fun u hu u' hu' hf =>
      hitem u u' (hitems u hu) (fun m hm => .item (hm ▸ hu)) (hw.2 u' hu') hf
    refine ⟨.list us, ?_, .list hlist hall⟩
    rw [eachItem, hus]
    rfl
  | @map entries key val hentry hentries => exact absurd h (hmap entries w)
  | single hsingular hfits =>
    obtain ⟨htype, hne⟩ := accepts_of_isSingular (hlabel hsingular) hw
    have hnot : ∀ items, v ≠ .list items := by
      rintro items rfl
      exact FieldType.not_accepts_list _ _ hfits.accepts
    rw [eachItem_of_ne_list hnot] at h
    obtain ⟨v', hv', hfits'⟩ := hitem v w hfits (fun m hm => hm ▸ .message) htype h
    refine ⟨v', ?_, .single hsingular hfits'⟩
    rw [eachItem_of_ne_list hne]
    exact hv'

/-- A function that is applied to a value is applied to some item, unless there are none. -/
theorem exists_item {f : Value → Except ConvertError Value} (hv : source.Fits leaf v)
    (hne : v ≠ .list []) (h : eachItem f v = .ok w) (hmap : ∀ entries u', f (.map entries) ≠ .ok u') :
    ∃ u u', leaf.type.Fits u ∧ (∀ m, u = .message m → v.Holds m) ∧ f u = .ok u' := by
  cases hv with
  | @list items hlist hitems =>
    cases items with
    | nil => exact absurd rfl hne
    | cons u us =>
      obtain ⟨ws, hws, -⟩ := bind_eq_ok.mp h
      rw [List.mapM_cons] at hws
      obtain ⟨u', hu', -⟩ := bind_eq_ok.mp hws
      exact ⟨u, u', hitems u List.mem_cons_self, fun m hm => .item (hm ▸ List.mem_cons_self), hu'⟩
  | @map entries key val hentry hentries => exact absurd h (hmap entries w)
  | single hsingular hfits =>
    have hnot : ∀ items, v ≠ .list items := by
      rintro items rfl
      exact FieldType.not_accepts_list _ _ hfits.accepts
    rw [eachItem_of_ne_list hnot] at h
    exact ⟨v, w, hfits, fun m hm => hm ▸ .message, h⟩

/-- The text of an enum value stands for a number. -/
theorem exists_numberOf? (type : EnumType) (n : Int32) :
    ∃ k, type.numberOf? (type.textOf n) = some k := by
  rw [EnumType.textOf, EnumType.numberOf?]
  cases hname : type.name? n.toInt with
  | none =>
    have hread : Text.integer? (-2147483648) 2147483647 (toString n.toInt) = some n.toInt :=
      Text.integer?_toString (by decide) n.le_toInt (Int.le_of_lt_add_one n.toInt_lt)
    rw [Option.getD_none, hread]
    cases type.number? (toString n.toInt) with
    | none => exact ⟨n.toInt, rfl⟩
    | some k => exact ⟨k, rfl⟩
  | some name =>
    obtain ⟨entry, hentry, rfl⟩ := Option.map_eq_some_iff.mp hname
    have hfound : (type.values.lookup entry.1).isSome := by
      rw [List.lookup_isSome_iff]
      exact ⟨entry, List.mem_of_find?_eq_some hentry, beq_self_eq_true _⟩
    obtain ⟨k, hk⟩ := Option.isSome_iff_exists.mp hfound
    exact ⟨k, by rw [Option.getD_some, EnumType.number?, hk]; rfl⟩

/-! ## Carrying a value and back -/

theorem getD_map_ok_eq_ok {ε α : Type} {x : Option α} {e : ε} {a : α}
    (h : (x.map Except.ok).getD (.error e) = .ok a) : x = some a := by
  cases x with
  | none => exact absurd h nofun
  | some found => exact congrArg some (Except.ok.inj h)

theorem exists_field_of_valueNamed? {pool : Pool} {m : Message} {type : MessageType} {name : String}
    (htype : m.type? pool = some type) (h : valueNamed? pool m name = some v) :
    ∃ field, type.field? name = some field ∧ m.get pool field = v := by
  rw [valueNamed?, htype, Option.bind_eq_bind, Option.bind_some] at h
  obtain ⟨field, hfield, h⟩ := Option.bind_eq_some_iff.mp h
  exact ⟨field, hfield, Option.some.inj h⟩

/-- A message can be read from its bytes again: one that is well typed and has the same fields set. -/
def Message.Survives (pool : Pool) (m : Message) : Prop :=
  ∃ m', Wire.decode? pool m.type (Wire.encode pool m) = some m' ∧ m'.type = m.type ∧
    m'.WellTyped pool ∧ ∀ type, m.type? pool = some type → ∀ field ∈ type.fields,
      m'.has pool field = m.has pool field

namespace FieldPlan

/-- The values of a plan are copied as they are. -/
def Copies (plan : FieldPlan) : Prop :=
  ¬ plan.origin.isSerialized ∧ ¬ plan.origin.aliasType.isSome ∧ plan.origin.enumFormat = none

/-- What the way back of a value that a plan carries depends on. -/
structure ReturnsValue (plan : FieldPlan) (source plain : Pool) (there back : ConvertNested)
    (leaf target : Field) (v w : Value) : Prop where
  fits : source.Fits leaf v
  /-- A list without items does not count as set. -/
  nonempty : v ≠ .list []
  accepts : plain.accepts target w
  label : leaf.isSingular → target.isSingular
  wellTyped : ∀ m, v.Holds m → m.WellTyped source
  /-- Messages that are carried as their bytes can be decoded. -/
  decodes : plan.origin.isSerialized → ∀ m, v.Holds m → m.Survives source
  /-- Messages that are moved to another type can be moved back. -/
  copies : plan.Copies →
    ∃ moves, KeepsTypes source plain moves leaf target ∧ Returns there back moves v w

variable (hback : plan.ReturnsValue source plain there back leaf target v w)
  (h : plan.carry source plain there leaf target.type v = .ok w)

include hback h

theorem exists_uncarry_serialized (hserialized : plan.origin.isSerialized) :
    ∃ v', plan.uncarry source back leaf w = .ok v' ∧ source.Fits leaf v' := by
  rw [carry, if_pos hserialized] at h
  obtain ⟨u, u', hu, -, hfound⟩ := exists_item hback.fits hback.nonempty h (fun _ _ => nofun)
  obtain ⟨first, rfl⟩ : ∃ m, u = .message m := by
    cases u with
    | message m => exact ⟨m, rfl⟩
    | _ => exact absurd hfound nofun
  obtain ⟨group, htype⟩ := hu.exists_message
  rw [uncarry, if_pos hserialized, htype]
  refine exists_eachItem hback.fits hback.accepts hback.label h (fun _ _ => nofun) ?_
  intro u u' hu hholds _ hencoded
  cases u with
  | message m =>
    obtain rfl := Except.ok.inj hencoded
    obtain ⟨m', hdecode, htype', -⟩ := hback.decodes hserialized m (hholds m rfl)
    have hname : m.type = first.type := by
      have hname := hu.named m rfl
      rw [htype] at hname
      exact (Option.some.inj hname).symm
    refine ⟨.message m', ?_, ?_, ?_⟩
    · rw [hname] at hdecode
      simp only [hdecode]
    · rw [htype]
      rfl
    · rintro _ ⟨⟩
      rw [htype, FieldType.typeName?, htype', hname]
  | _ => exact absurd hencoded nofun

theorem exists_uncarry_alias (hserialized : ¬ plan.origin.isSerialized)
    (halias : plan.origin.aliasType.isSome) :
    ∃ v', plan.uncarry source back leaf w = .ok v' ∧ source.Fits leaf v' := by
  rw [carry, if_neg hserialized, if_pos halias] at h
  obtain ⟨u, u', hu, hholds, hfound⟩ := exists_item hback.fits hback.nonempty h (fun _ _ => nofun)
  obtain ⟨first, rfl⟩ : ∃ m, u = .message m := by
    cases u with
    | message m => exact ⟨m, rfl⟩
    | _ => exact absurd hfound nofun
  obtain ⟨group, htype⟩ := hu.exists_message
  obtain ⟨type, hfirst, -⟩ := hback.wellTyped first (hholds first rfl) first .refl
  have hmessage : source.messageTypeOf? leaf = some type := by
    rw [Pool.messageTypeOf?, htype]
    exact hfirst
  have hfull : type.fullName = first.type := (Pool.message?_mem hfirst).2
  rw [uncarry, if_neg hserialized, if_pos halias, hmessage]
  refine exists_eachItem hback.fits hback.accepts hback.label h (fun _ _ => nofun) ?_
  intro u u' hu hholds haccepts hunwrapped
  cases u with
  | message m =>
    have hname : m.type = first.type := by
      have hname := hu.named m rfl
      rw [htype] at hname
      exact (Option.some.inj hname).symm
    have hm : m.type? source = some type := by
      rw [Message.type?, hname]
      exact hfirst
    obtain ⟨field, hfield, rfl⟩ := exists_field_of_valueNamed? hm (getD_map_ok_eq_ok hunwrapped)
    have hmem := (MessageType.field?_mem hfield).1
    have hinner := ((hback.wellTyped m (hholds m rfl)).fitsType hm).accepts_get hmem haccepts
    refine ⟨.message (Message.set { type := type.fullName } type field (m.get source field)), ?_, ?_, ?_⟩
    · simp only [hfield, Message.set?, hinner, if_true, Option.map_some, Option.getD_some]
    · rw [htype]
      rfl
    · rintro _ ⟨⟩
      rw [htype, FieldType.typeName?, Message.type_set, hfull]
  | _ => exact absurd hunwrapped nofun

theorem exists_uncarry_asString (hserialized : ¬ plan.origin.isSerialized)
    (halias : ¬ plan.origin.aliasType.isSome) (hformat : plan.origin.enumFormat = some .asString) :
    ∃ v', plan.uncarry source back leaf w = .ok v' ∧ source.Fits leaf v' := by
  rw [carry, if_neg hserialized, if_neg halias, hformat] at h
  rw [uncarry, if_neg hserialized, if_neg halias, hformat]
  cases htype : leaf.type with
  | enum name =>
    simp only [htype] at h ⊢
    refine exists_eachItem hback.fits hback.accepts hback.label h (fun _ _ => nofun) ?_
    intro u u' _ _ _ hcarried
    cases u with
    | enum n =>
      obtain rfl := Except.ok.inj hcarried
      obtain ⟨k, hk⟩ := exists_numberOf? ((source.enum? name).getD default) n
      refine ⟨.enum (Int32.ofInt k), ?_, ?_, fun m hm => nomatch hm⟩
      · simp only [hk]
      · rw [htype]
        rfl
    | _ => exact absurd hcarried nofun
  | _ =>
    simp only [htype] at h
    exact absurd h nofun

theorem exists_uncarry_asInt (hserialized : ¬ plan.origin.isSerialized)
    (halias : ¬ plan.origin.aliasType.isSome) (hformat : plan.origin.enumFormat = some .asInt) :
    ∃ v', plan.uncarry source back leaf w = .ok v' ∧ source.Fits leaf v' := by
  rw [carry, if_neg hserialized, if_neg halias, hformat] at h
  rw [uncarry, if_neg hserialized, if_neg halias, hformat]
  refine exists_eachItem hback.fits hback.accepts hback.label h (fun _ _ => nofun) ?_
  intro u u' hu _ _ hcarried
  cases u with
  | enum n =>
    obtain rfl := Except.ok.inj hcarried
    exact ⟨.enum n, rfl, hu⟩
  | _ => exact absurd hcarried nofun

/-- **Whatever a plan carries into a Plain field it can take back**, to a value that fits the source
field. -/
theorem exists_uncarry : ∃ v', plan.uncarry source back leaf w = .ok v' ∧ source.Fits leaf v' := by
  by_cases hserialized : plan.origin.isSerialized
  · exact exists_uncarry_serialized hback h hserialized
  by_cases halias : plan.origin.aliasType.isSome
  · exact exists_uncarry_alias hback h hserialized halias
  cases hformat : plan.origin.enumFormat with
  | some format =>
    cases format with
    | asString => exact exists_uncarry_asString hback h hserialized halias hformat
    | asInt => exact exists_uncarry_asInt hback h hserialized halias hformat
  | none =>
    obtain ⟨moves, hkeeps, hreturns⟩ := hback.copies ⟨hserialized, halias, hformat⟩
    rw [carry, if_neg hserialized, if_neg halias, hformat] at h
    rw [uncarry, if_neg hserialized, if_neg halias, hformat]
    exact convertValue_returns hback.accepts hkeeps hreturns h hback.fits

end FieldPlan

end PlainSchema
