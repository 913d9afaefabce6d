/-
CppLint.Lib.BoundedFifo — a first-in first-out buffer of bounded capacity.

The bound is a field of the type, so a buffer that overflows cannot be
built: `push` needs a proof that there is room, and every state of a system
that has such a buffer in it respects the bound without an invariant being
proved about it.
-/
import Mathlib.Data.List.Basic

namespace CppLint.Lib

/-- A FIFO of at most `cap` items, oldest first. -/
structure BoundedFifo (cap : Nat) (α : Type) where
  items : List α
  bound : items.length ≤ cap
deriving DecidableEq

namespace BoundedFifo

variable {cap : Nat} {α : Type}

/-- The empty buffer. -/
def empty : BoundedFifo cap α := ⟨[], Nat.zero_le _⟩

/-- Append an item to a buffer that has room. -/
def push (q : BoundedFifo cap α) (a : α) (h : q.items.length < cap) : BoundedFifo cap α :=
  ⟨q.items ++ [a], by rw [List.length_append]; exact h⟩

/-- The buffer after its oldest item has been taken out. -/
def tail (q : BoundedFifo cap α) : BoundedFifo cap α :=
  ⟨q.items.tail, by have := q.bound; simp; omega⟩

@[simp] theorem items_empty : (empty : BoundedFifo cap α).items = [] := rfl

@[simp] theorem items_push (q : BoundedFifo cap α) (a : α) (h : q.items.length < cap) :
    (q.push a h).items = q.items ++ [a] := rfl

@[simp] theorem items_tail (q : BoundedFifo cap α) : q.tail.items = q.items.tail := rfl

/-- A buffer with some capacity is either not full or has an item to take. -/
theorem not_full_or_nonempty (hcap : 1 ≤ cap) (q : BoundedFifo cap α) :
    q.items.length < cap ∨ ∃ a rest, q.items = a :: rest := by
  cases h : q.items with
  | nil => exact .inl (by simp; omega)
  | cons a rest => exact .inr ⟨a, rest, rfl⟩

end BoundedFifo

end CppLint.Lib
