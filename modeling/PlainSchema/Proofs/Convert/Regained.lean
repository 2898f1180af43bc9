import PlainSchema.Proofs.Convert.Carried
import PlainSchema.Proofs.Value.Same

/-!
# Values that come back as they were

A value that was carried into a Plain field and taken back from there is like the value that it was
made of, `FieldPlan.Regains.alike`:

```text
serialized    the messages are decoded from what they were encoded to
alias         the wrapper holds nothing but the field that was taken out of it
enum value    its name, or its number if it has none, stands for its number
copied        the messages in it come back, one by one
```
-/

namespace PlainSchema

open Proto

variable {source plain : Pool} {there back : ConvertNested} {leaf target : Field} {plan : FieldPlan}
  {type type' : FieldType} {u v w v' : Value} {moves : String → String → Prop}
  {r : Message → Message → Prop}

/-! ## Lists and items -/

/-- What was made of the items of a list and of the outcomes in turn is related to the items. -/
theorem forall₂_of_mapM {ε α β γ : Type} {f : α → Except ε β} {g : β → Except ε γ}
    {p : γ → α → Prop} {xs : List α} {ys : List β} {zs : List γ} (hf : xs.mapM f = .ok ys)
    (hg : ys.mapM g = .ok zs)
    (h : ∀ x ∈ xs, ∀ y ∈ ys, ∀ z, f x = .ok y → g y = .ok z → p z x) : List.Forall₂ p zs xs := by
  rw [mapM_eq_ok] at hf hg
  induction hf generalizing zs with
  | nil =>
    cases hg
    exact .nil
  | cons hxy _ ih =>
    cases hg with
    | cons hyz hrest =>
      refine .cons (h _ List.mem_cons_self _ List.mem_cons_self _ hxy hyz) (ih hrest ?_)
      intro x hx y hy
      exact h x (List.mem_cons_of_mem _ hx) y (List.mem_cons_of_mem _ hy)

/-- A value of a singular field, or a list of them, comes back if its items do. -/
theorem alike_of_eachItem {f g : Value → Except ConvertError Value} (hv : source.Fits leaf v)
    (hw : plain.accepts target w) (hlabel : leaf.isSingular → target.isSingular)
    (hthere : eachItem f v = .ok w) (hback : eachItem g w = .ok v')
    (hmap : ∀ entries u', f (.map entries) ≠ .ok u')
    (hitem : ∀ u u' u'', leaf.type.Fits u → (∀ m, u = .message m → v.Holds m) → f u = .ok u' →
      g u' = .ok u'' → u''.Alike r u) : v'.Alike r v := by
  cases hv with
  | @list items hlist hitems =>
    obtain ⟨ws, hws, hthere⟩ := bind_eq_ok.mp hthere
    obtain rfl := Except.ok.inj hthere
    obtain ⟨us, hus, hback⟩ := bind_eq_ok.mp hback
    obtain rfl := Except.ok.inj hback
    refine .list (forall₂_of_mapM hws hus ?_)
    intro u hu u' _ u'' hf hg
    exact hitem u u' u'' (hitems u hu) (fun m hm => .item (hm ▸ hu)) hf hg
  | @map entries key val hentry hentries => exact absurd hthere (hmap entries w)
  | single hsingular hfits =>
    have hnot : ∀ items, v ≠ .list items := by
      rintro items rfl
      exact FieldType.not_accepts_list _ _ hfits.accepts
    rw [eachItem_of_ne_list hnot] at hthere
    rw [eachItem_of_ne_list (accepts_of_isSingular (hlabel hsingular) hw).2] at hback
    exact hitem v w v' hfits (fun m hm => hm ▸ .message) hthere hback

/-! ## Values that are copied -/

/-- The messages of a value that were moved to those of another one, and back to their own types, are
related to what they were. -/
def Regained (there back : ConvertNested) (moves : String → String → Prop)
    (r : Message → Message → Prop) (v w : Value) : Prop :=
  ∀ m m' m'', v.Holds m → w.Holds m' → ∀ name, moves m.type name → there name m = .ok m' →
    back m.type m' = .ok m'' → r m'' m

theorem alike_of_convertSingle (hu : type.Fits u) (hw : type'.accepts w)
    (hregained : ∀ m m' m'' name group, u = .message m → w = .message m' →
      type' = .message name group → there name m = .ok m' → back m.type m' = .ok m'' → r m'' m)
    (hthere : convertSingle there type' u = .ok w) (hback : convertSingle back type w = .ok v') :
    v'.Alike r u := by
  cases u with
  | message m =>
    obtain ⟨group, rfl⟩ := hu.exists_message
    cases type' with
    | message name group' =>
      obtain ⟨m', hm', hthere⟩ := bind_eq_ok.mp hthere
      obtain rfl := Except.ok.inj hthere
      obtain ⟨m'', hm'', hback⟩ := bind_eq_ok.mp hback
      obtain rfl := Except.ok.inj hback
      exact .message (hregained m m' m'' name group' rfl rfl rfl hm' hm'')
    | scalar scalar =>
      -- A message that was left as it is does not fit a field of another type.
      obtain rfl := Except.ok.inj hthere
      cases scalar <;> exact absurd hw Bool.false_ne_true
    | enum name =>
      obtain rfl := Except.ok.inj hthere
      exact absurd hw Bool.false_ne_true
  | _ =>
    obtain rfl := Except.ok.inj hthere
    obtain rfl := Except.ok.inj hback
    exact .refl

section Copied

variable (haccepts : plain.accepts target w)
  (hkeeps : KeepsTypes source plain moves leaf target)
  (hregained : Regained there back moves r v w)
  (hthere : convertValue plain there target.type v = .ok w)
  (hback : convertValue source back leaf.type w = .ok v')

include haccepts hkeeps hregained hthere hback

theorem alike_of_convertValue_single (hsingular : leaf.isSingular)
    (hlabel : leaf.isSingular → target.isSingular) (hv : leaf.type.Fits v) : v'.Alike r v := by
  have hentry : source.entryFields? leaf = none := entryFields?_of_isSingular hsingular
  obtain ⟨hw, hlist⟩ := accepts_of_isSingular (hlabel hsingular) haccepts
  have hmap : ∀ entries, w ≠ .map entries := by
    rintro entries rfl
    exact FieldType.not_accepts_map _ _ hw
  have hthere : convertSingle there target.type v = .ok w := by
    cases v with
    | list items => exact absurd hv.accepts (FieldType.not_accepts_list _ _)
    | map entries => exact absurd hv.accepts (FieldType.not_accepts_map _ _)
    | _ => exact hthere
  have hback : convertSingle back leaf.type w = .ok v' := by
    cases w with
    | list items => exact absurd rfl (hlist items)
    | map entries => exact absurd rfl (hmap entries)
    | _ => exact hback
  refine alike_of_convertSingle hv hw ?_ hthere hback
  rintro m m' m'' name group rfl rfl hname hm' hm''
  obtain ⟨group', hgroup⟩ := hv.exists_message
  exact hregained m m' m'' .message .message name (hkeeps.single hentry hgroup hname) hm' hm''

theorem alike_of_convertValue_list {items : List Value} (hv : v = .list items)
    (hlist : source.isList leaf) (hitems : ∀ item ∈ items, leaf.type.Fits item) :
    v'.Alike r v := by
  subst hv
  obtain ⟨ws, hws, hthere⟩ := bind_eq_ok.mp hthere
  obtain rfl := Except.ok.inj hthere
  obtain ⟨us, hus, hback⟩ := bind_eq_ok.mp hback
  obtain rfl := Except.ok.inj hback
  rw [Pool.accepts, Bool.and_eq_true, List.all_eq_true] at haccepts
  have hentry := entryFields?_of_isList hlist
  refine .list (forall₂_of_mapM hws hus ?_)
  intro u hu w hw u' hu' hu''
  refine alike_of_convertSingle (hitems u hu) (haccepts.2 w hw) ?_ hu' hu''
  rintro m m' m'' name group rfl rfl hname hm' hm''
  obtain ⟨group', hgroup⟩ := (hitems _ hu).exists_message
  exact hregained m m' m'' (.item hu) (.item hw) name (hkeeps.single hentry hgroup hname) hm' hm''

theorem alike_of_convertValue_map {entries : List (MapKey × Value)} {key val : Field}
    (hv : v = .map entries) (hentry : source.entryFields? leaf = some (key, val))
    (hentries : ∀ entry ∈ entries, key.type.accepts entry.1.toValue ∧ val.type.Fits entry.2) :
    v'.Alike r v := by
  subst hv
  obtain ⟨ws, rfl⟩ : ∃ ws, w = .map ws := by
    rw [convertValue] at hthere
    split at hthere
    · obtain ⟨ws, -, hthere⟩ := bind_eq_ok.mp hthere
      exact ⟨ws, (Except.ok.inj hthere).symm⟩
    · exact ⟨entries, (Except.ok.inj hthere).symm⟩
  rw [convertValue_map hentry] at hback
  obtain ⟨us, hus, rfl⟩ := map_eq_ok.mp hback
  rw [Pool.accepts] at haccepts
  cases hentry' : plain.entryFields? target with
  | none =>
    rw [hentry'] at haccepts
    exact absurd haccepts Bool.false_ne_true
  | some entry' =>
    obtain ⟨key', val'⟩ := entry'
    simp only [hentry', List.all_eq_true, Bool.and_eq_true] at haccepts
    rw [convertValue_map hentry'] at hthere
    obtain ⟨ws', hws, hthere⟩ := map_eq_ok.mp hthere
    obtain rfl := Value.map.inj hthere
    -- Entry by entry the key stays and the value comes back.
    have hpairs : List.Forall₂ (fun e e' : MapKey × Value => e.1 = e'.1 ∧ e.2.Alike r e'.2) us
        entries := by
      refine forall₂_of_mapM hws hus ?_
      rintro ⟨k, u⟩ hu ⟨k', w⟩ hw ⟨k'', u'⟩ hconvert hreturn
      obtain ⟨_, hsingle, hpair⟩ := bind_eq_ok.mp hconvert
      obtain ⟨rfl, rfl⟩ := Prod.mk.inj (Except.ok.inj hpair)
      obtain ⟨_, hsingle', hpair'⟩ := bind_eq_ok.mp hreturn
      obtain ⟨rfl, rfl⟩ := Prod.mk.inj (Except.ok.inj hpair')
      obtain ⟨-, hfits⟩ := hentries _ hu
      refine ⟨rfl, alike_of_convertSingle hfits (haccepts _ hw).2 ?_ hsingle hsingle'⟩
      rintro m m' m'' name group rfl rfl hname hm' hm''
      obtain ⟨group', hgroup⟩ := hfits.exists_message
      exact hregained m m' m'' (.entry hu) (.entry hw) name
        (hkeeps.entry hentry hentry' hgroup hname) hm' hm''
    refine .map ?_ ?_
    · exact (map_eq_map_of_forall₂ hpairs fun _ _ h => h.1)
    · rw [List.forall₂_map_left_iff, List.forall₂_map_right_iff]
      exact hpairs.imp fun _ _ h => h.2

theorem alike_of_convertValue (hlabel : leaf.isSingular → target.isSingular)
    (hv : source.Fits leaf v) : v'.Alike r v := by
  cases hv with
  | list hlist hitems =>
    exact alike_of_convertValue_list haccepts hkeeps hregained hthere hback rfl hlist hitems
  | map hentry hentries =>
    exact alike_of_convertValue_map haccepts hkeeps hregained hthere hback rfl hentry hentries
  | single hsingular hfits =>
    exact alike_of_convertValue_single haccepts hkeeps hregained hthere hback hsingular hlabel hfits

end Copied

/-! ## Names of enum values -/

/-- The text of every value of an enum type stands for that value. -/
def EnumType.ReadsBack (type : EnumType) : Prop :=
  ∀ n : Int32, type.numberOf? (type.textOf n) = some n.toInt

/-- An enum whose values have names of their own, none of which is a number, reads its values back. -/
theorem EnumType.readsBack {type : EnumType} (hnames : (type.values.map (·.1)).Nodup)
    (hspelled : ∀ value ∈ type.values,
      Text.integer? (-2147483648) 2147483647 value.1 = none) : type.ReadsBack := by
  intro n
  rw [numberOf?, textOf]
  have hread : Text.integer? (-2147483648) 2147483647 (toString n.toInt) = some n.toInt :=
    Text.integer?_toString (by decide) n.le_toInt (Int.le_of_lt_add_one n.toInt_lt)
  cases hname : type.name? n.toInt with
  | some name =>
    obtain ⟨entry, hentry, rfl⟩ := Option.map_eq_some_iff.mp hname
    have hnumber : entry.2 = n.toInt := by simpa using List.find?_some hentry
    have hlookup : type.number? entry.1 = some n.toInt := by
      rw [← hnumber]
      exact lookup_eq_some_of_nodup hnames (List.mem_of_find?_eq_some hentry)
    rw [Option.getD_some, hlookup]
    rfl
  | none =>
    -- A number is no name of a value.
    have hnone : type.number? (toString n.toInt) = none := by
      rw [number?, List.lookup_eq_none_iff]
      intro value hvalue
      have hne : toString n.toInt ≠ value.1 := by
        intro heq
        rw [heq, hspelled value hvalue] at hread
        cases hread
      simpa using hne
    rw [Option.getD_none, hnone, hread]
    rfl

/-! ## Carrying a value and back -/

namespace FieldPlan

/-- What it takes for a value that a plan carries to come back as it was. -/
structure Regains (plan : FieldPlan) (source plain : Pool) (there back : ConvertNested)
    (leaf target : Field) (r : Message → Message → Prop) (v w : Value) : Prop where
  fits : source.Fits leaf v
  accepts : plain.accepts target w
  label : leaf.isSingular → target.isSingular
  decodes : plan.origin.isSerialized → ∀ m, v.Holds m → ∀ m'',
    Wire.decode? source m.type (Wire.encode source m) = some m'' → r m'' m
  /-- A wrapper is the same as one with nothing but the wrapped field. -/
  wraps : ¬ plan.origin.isSerialized → plan.origin.aliasType.isSome → ∀ m, v.Holds m →
    ∀ type, m.type? source = some type → ∀ field, type.field? plan.aliasField = some field →
      r (Message.set { type := type.fullName } type field (m.get source field)) m
  enums : ∀ name, leaf.type = .enum name → ((source.enum? name).getD default).ReadsBack
  copies : plan.Copies →
    ∃ moves, KeepsTypes source plain moves leaf target ∧ Regained there back moves r v w

namespace Regains

variable (h : plan.Regains source plain there back leaf target r v w)
  (hthere : plan.carry source plain there leaf target.type v = .ok w)
  (hback : plan.uncarry source back leaf w = .ok v')

include h hthere hback

theorem alike_serialized (hserialized : plan.origin.isSerialized) : v'.Alike r v := by
  rw [carry, if_pos hserialized] at hthere
  rw [uncarry, if_pos hserialized] at hback
  cases htype : leaf.type with
  | message name group =>
    rw [htype] at hback
    refine alike_of_eachItem h.fits h.accepts h.label hthere hback (fun _ _ h => by cases h) ?_
    intro u u' u'' hu hholds hencoded hdecoded
    cases u with
    | message m =>
      obtain rfl := Except.ok.inj hencoded
      have hname : m.type = name := by
        have hnamed := hu.named m rfl
        rw [htype] at hnamed
        exact (Option.some.inj hnamed).symm
      dsimp only at hdecoded
      cases hfound : Wire.decode? source name (Wire.encode source m) with
      | none =>
        rw [hfound] at hdecoded
        cases hdecoded
      | some m'' =>
        rw [hfound] at hdecoded
        obtain rfl := Except.ok.inj hdecoded
        exact .message (h.decodes hserialized m (hholds m rfl) m'' (hname ▸ hfound))
    | _ => cases hencoded
  | _ =>
    rw [htype] at hback
    cases hback

theorem alike_alias (hserialized : ¬ plan.origin.isSerialized)
    (halias : plan.origin.aliasType.isSome) : v'.Alike r v := by
  rw [carry, if_neg hserialized, if_pos halias] at hthere
  rw [uncarry, if_neg hserialized, if_pos halias] at hback
  cases hof : source.messageTypeOf? leaf with
  | none =>
    rw [hof] at hback
    cases hback
  | some type =>
    rw [hof] at hback
    refine alike_of_eachItem h.fits h.accepts h.label hthere hback (fun _ _ h => by cases h) ?_
    intro u u' u'' hu hholds hunwrapped hwrapped
    cases u with
    | message m =>
      have hm : m.type? source = some type := by
        obtain ⟨group, hgroup⟩ := hu.exists_message
        rw [Pool.messageTypeOf?, hgroup] at hof
        exact hof
      obtain ⟨field, hfield, rfl⟩ := exists_field_of_valueNamed? hm (getD_map_ok_eq_ok hunwrapped)
      rw [hfield] at hwrapped
      dsimp only at hwrapped
      rw [Message.set?] at hwrapped
      split at hwrapped
      · obtain rfl := Except.ok.inj hwrapped
        exact .message (h.wraps hserialized halias m (hholds m rfl) type hm field hfield)
      · cases hwrapped
    | _ => cases hunwrapped

theorem alike_asString (hserialized : ¬ plan.origin.isSerialized)
    (halias : ¬ plan.origin.aliasType.isSome) (hformat : plan.origin.enumFormat = some .asString) :
    v'.Alike r v := by
  rw [carry, if_neg hserialized, if_neg halias, hformat] at hthere
  rw [uncarry, if_neg hserialized, if_neg halias, hformat] at hback
  cases htype : leaf.type with
  | enum name =>
    simp only [htype] at hthere hback
    refine alike_of_eachItem h.fits h.accepts h.label hthere hback (fun _ _ h => by cases h) ?_
    intro u u' u'' _ _ hcarried hread
    cases u with
    | enum n =>
      obtain rfl := Except.ok.inj hcarried
      dsimp only at hread
      rw [h.enums name htype n] at hread
      obtain rfl := Except.ok.inj hread
      rw [Int32.ofInt_toInt]
      exact .refl
    | _ => cases hcarried
  | _ =>
    simp only [htype] at hthere
    cases hthere

theorem alike_asInt (hserialized : ¬ plan.origin.isSerialized)
    (halias : ¬ plan.origin.aliasType.isSome) (hformat : plan.origin.enumFormat = some .asInt) :
    v'.Alike r v := by
  rw [carry, if_neg hserialized, if_neg halias, hformat] at hthere
  rw [uncarry, if_neg hserialized, if_neg halias, hformat] at hback
  refine alike_of_eachItem h.fits h.accepts h.label hthere hback (fun _ _ h => by cases h) ?_
  intro u u' u'' _ _ hcarried hread
  cases u with
  | enum n =>
    obtain rfl := Except.ok.inj hcarried
    obtain rfl := Except.ok.inj hread
    exact .refl
  | _ => cases hcarried

/-- **What a plan carried into a Plain field and takes back is like what it was.** -/
theorem alike : v'.Alike r v := by
  by_cases hserialized : plan.origin.isSerialized
  · exact h.alike_serialized hthere hback hserialized
  by_cases halias : plan.origin.aliasType.isSome
  · exact h.alike_alias hthere hback hserialized halias
  cases hformat : plan.origin.enumFormat with
  | some format =>
    cases format with
    | asString => exact h.alike_asString hthere hback hserialized halias hformat
    | asInt => exact h.alike_asInt hthere hback hserialized halias hformat
  | none =>
    obtain ⟨moves, hkeeps, hregained⟩ := h.copies ⟨hserialized, halias, hformat⟩
    rw [carry, if_neg hserialized, if_neg halias, hformat] at hthere
    rw [uncarry, if_neg hserialized, if_neg halias, hformat] at hback
    exact alike_of_convertValue h.accepts hkeeps hregained hthere hback h.label h.fits

end Regains

end FieldPlan

end PlainSchema
