import PlainSchema.Proofs.Convert.Restored
import PlainSchema.Proofs.Value.Written

/-!
# What a message in the making holds

While a message is restored, it holds nothing but what was written through the paths of the plans that
are done, the messages on the way to it, and what is inside of it, `Restoring.holdsWritten_foldlM`.
-/

namespace PlainSchema

open Proto

namespace Restoring

variable {c : Restoring} {casters : Casters (Value → Except String Value)} {selection : Selection}
  {plan : FieldPlan} {plans : List FieldPlan} {out out' : Message} {path : List String}

/-- A place is inside of what was written through a path, or a message on the way to it. -/
def Belongs (place : List String) (value : Value) (written : List String) : Prop :=
  written <+: place ∨ (place <+: written ∧ ∃ inner, value = .message inner)

/-- Whatever a message holds belongs to what one of the plans wrote. -/
def HoldsWritten (c : Restoring) (selection : Selection) (plans : List FieldPlan) (out : Message) :
    Prop :=
  ∀ place value, place ≠ [] → out.at? c.source place = some value →
    ∃ plan ∈ plans, ∃ written, c.WritesThrough selection plan written ∧ Belongs place value written

theorem HoldsWritten.append (h : c.HoldsWritten selection plans out) (plan : FieldPlan) :
    c.HoldsWritten selection (plans ++ [plan]) out := by
  intro place value hne hat
  obtain ⟨writer, hwriter, hwritten⟩ := h place value hne hat
  exact ⟨writer, List.mem_append_left _ hwriter, hwritten⟩

/-- A place that is not apart from a path belongs to what was written through the path. -/
theorem belongs_of_not_apart {value written : Value} {place : List String} {m : Message} {pool : Pool}
    (hapart : ¬ Apart place path) (hself : m.at? pool path = some written)
    (hat : m.at? pool place = some value) : Belongs place value path := by
  by_cases hinside : path <+: place
  · exact Or.inl hinside
  have hfront : place <+: path := by
    by_contra hnot
    exact hapart ⟨hnot, hinside⟩
  obtain ⟨rest, rfl⟩ := hfront
  have hrest : rest ≠ [] := by
    rintro rfl
    exact hinside (by simp)
  obtain ⟨child, hchild, -⟩ := Message.exists_at?_of_append hrest hself
  exact Or.inr ⟨List.prefix_append _ _, child, Option.some.inj (hat.symm.trans hchild)⟩

theorem holdsWritten_writeIn? (hpool : c.source.Linked) (h : c.HoldsWritten selection plans out)
    (hwrites : c.WritesThrough selection plan path) {value : Value}
    (hwrite : Message.writeIn? c.source value out path = some out') :
    c.HoldsWritten selection (plans ++ [plan]) out' := by
  intro place found hne hat
  by_cases hapart : Apart place path
  · exact h.append plan place found hne (Message.at?_of_writeIn? hpool hapart hwrite hat)
  · exact ⟨plan, by simp, path, hwrites,
      belongs_of_not_apart hapart (Message.at?_writeIn?_self hwrite) hat⟩

theorem holdsWritten_set (hpool : c.source.Linked) (htype : out.type? c.source = some c.type)
    (h : c.HoldsWritten selection plans out) {name : String} {field : Field} {value : Value}
    (hwrites : c.WritesThrough selection plan [name]) (hfield : c.type.field? name = some field) :
    c.HoldsWritten selection (plans ++ [plan]) (out.set c.type field value) := by
  intro place found hne hat
  by_cases hapart : Apart place [name]
  · exact h.append plan place found hne (Message.at?_of_set hpool htype hfield hapart hat)
  · have hself : (out.set c.type field value).at? c.source [name] = some value := by
      rw [Message.at?_singleton, Message.stored?_eq (Message.type?_set htype field value) hfield,
        Message.value?_set_self]
    exact ⟨plan, by simp, [name], hwrites, belongs_of_not_apart hapart hself hat⟩

/-- What a message holds after one more plan was written by one of the plans before, or by this one. -/
theorem holdsWritten_restoreField (hpool : c.source.Linked)
    (htype : out.type? c.source = some c.type) (h : c.HoldsWritten selection plans out)
    (hstep : c.restoreField selection out plan = .ok out') :
    c.HoldsWritten selection (plans ++ [plan]) out' := by
  by_cases hreversible : plan.isReversible
  · rcases restoreField_of_isReversible hreversible hstep with ⟨-, rfl⟩ | ⟨write, hadapted, -, hwrite⟩
    · exact h.append plan
    · obtain ⟨_, _, -, -, -, -, hwrite⟩ := Message.write?_eq_some hwrite
      exact holdsWritten_writeIn? hpool h (.value hreversible hadapted) hwrite
  · rcases restoreField_of_not_isReversible hreversible hstep with rfl | ⟨name, field, value, hwrites,
      hfield, rfl⟩
    · exact h.append plan
    · exact holdsWritten_set hpool htype h hwrites hfield

theorem holdsWritten_foldlM (hpool : c.source.Linked)
    (htype : c.source.message? c.type.fullName = some c.type)
    (h : plans.foldlM (c.restoreField selection) { type := c.type.fullName } = .ok out) :
    c.HoldsWritten selection plans out := by
  suffices hboth : out.type? c.source = some c.type ∧ c.HoldsWritten selection plans out from hboth.2
  refine foldlM_prefix (fun met out => out.type? c.source = some c.type ∧
    c.HoldsWritten selection met out) ⟨htype, ?_⟩ ?_ h
  · intro place value hne hat
    rw [Message.at?_new hne] at hat
    exact absurd hat nofun
  · intro met plan before after hbefore hstep
    exact ⟨type?_restoreField hbefore.1 hstep,
      holdsWritten_restoreField hpool hbefore.1 hbefore.2 hstep⟩

end Restoring

end PlainSchema
