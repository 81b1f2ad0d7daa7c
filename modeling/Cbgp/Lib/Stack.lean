import Mathlib.Logic.Relation

/-! # Exhausting a stack

A loop takes an item off a stack, records the items that it leads to and puts them on the stack.  Once the stack is
empty, the items recorded are those that the first item leads to.
-/

namespace Cbgp.Lib

open Relation

universe u

variable {α : Type u} {leads : α → α → Prop} {start : α} {recorded recorded' : α → Prop} {stack stack' : List α}

/-- What holds between the turns of the loop. -/
structure Exhausting (leads : α → α → Prop) (start : α) (recorded : α → Prop) (stack : List α) : Prop where
  sound : ∀ a, recorded a → TransGen leads start a
  reached : ∀ a ∈ stack, ReflTransGen leads start a
  complete : ∀ a, TransGen leads start a → recorded a ∨ ∃ b ∈ stack, TransGen leads b a

namespace Exhausting

theorem start_ (leads : α → α → Prop) (start : α) : Exhausting leads start (fun _ => False) [start] where
  sound _ no := no.elim
  reached a member := by
    rw [List.mem_singleton.mp member]
  complete a path := .inr ⟨start, List.mem_singleton_self start, path⟩

/-- An item is taken, and what it leads to is recorded and put on the stack. -/
theorem turn {a : α} (exhausting : Exhausting leads start recorded (a :: stack))
    (records : ∀ b, recorded' b ↔ recorded b ∨ leads a b) (pushes : ∀ b, b ∈ stack' ↔ b ∈ stack ∨ leads a b) :
    Exhausting leads start recorded' stack' := by
  have here := exhausting.reached a List.mem_cons_self
  refine ⟨fun b known => ?_, fun b member => ?_, fun c path => ?_⟩
  · obtain old | new := (records b).mp known
    · exact exhausting.sound b old
    · exact TransGen.tail' here new
  · obtain old | new := (pushes b).mp member
    · exact exhausting.reached b (List.mem_cons_of_mem a old)
    · exact here.tail new
  · obtain known | ⟨b, member, later⟩ := exhausting.complete c path
    · exact .inl ((records c).mpr (.inl known))
    · cases List.mem_cons.mp member with
      | inr waits => exact .inr ⟨b, (pushes b).mpr (.inl waits), later⟩
      | inl taken =>
        subst taken
        -- the first step of the way from the item has been made
        obtain ⟨d, first, rest⟩ := TransGen.head'_iff.mp later
        cases rest.cases_head with
        | inl same => exact .inl ((records c).mpr (.inr (same ▸ first)))
        | inr onward =>
          obtain ⟨e, second, rest⟩ := onward
          exact .inr ⟨d, (pushes d).mpr (.inr first), TransGen.head' second rest⟩

/-- The stack is empty. -/
theorem finished (exhausting : Exhausting leads start recorded []) (a : α) :
    recorded a ↔ TransGen leads start a := by
  refine ⟨exhausting.sound a, fun path => ?_⟩
  obtain known | ⟨b, member, _⟩ := exhausting.complete a path
  · exact known
  · cases member

end Exhausting

end Cbgp.Lib
