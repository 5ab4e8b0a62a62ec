import Mathlib.Data.List.Basic

/-!
# A mailbox with room for one item

Items come from a queue, one at a time through a single slot, to a reader. As long as the slot is
filled only when it is empty, and what is taken out is what was put in, nothing is lost.
-/

universe u

/-- The items to come, the item in the slot, and the items taken out so far. -/
structure Mailbox (α : Type u) where
  coming : List α
  slot : Option α
  got : List α

namespace Mailbox

variable {α : Type u} {b b' : Mailbox α}

/-- The moves of the mailbox. -/
inductive Step : Mailbox α → Mailbox α → Prop where
  | idle (b : Mailbox α) : Step b b
  | fill (a : α) (coming got : List α) : Step ⟨a :: coming, none, got⟩ ⟨coming, some a, got⟩
  | take (a : α) (coming got : List α) : Step ⟨coming, some a, got⟩ ⟨coming, none, got ++ [a]⟩

/-- All items, in order. -/
def items (b : Mailbox α) : List α := b.got ++ b.slot.toList ++ b.coming

/-- No move loses, repeats, changes or reorders an item. -/
lemma Step.items_eq (h : Step b b') : b'.items = b.items := by
  cases h with
  | idle => rfl
  | fill a coming got => simp [items]
  | take a coming got => simp [items]

/-- What has been taken out are the first items. -/
lemma got_prefix (b : Mailbox α) : b.got <+: b.items := by
  unfold items
  rw [List.append_assoc]
  exact List.prefix_append _ _

end Mailbox
