import Mathlib.Algebra.Group.Nat.Defs

/-!
# Machine words as bounded naturals

A `usize` counter of a 64-bit target is a natural number below `Usize.size`;
the atomic additions and subtractions on it wrap.
-/

namespace Lib.Usize

@[irreducible] def size : Nat := 2 ^ 64

/-- `fetch_add`: the sum modulo the word size. -/
def wrappingAdd (a b : Nat) : Nat := (a + b) % size

/-- `fetch_sub`: the difference modulo the word size. -/
def wrappingSub (a b : Nat) : Nat := (a + size - b) % size

def wrappingMul (a b : Nat) : Nat := (a * b) % size

def checkedAdd (a b : Nat) : Option Nat := if a + b < size then some (a + b) else none

theorem wrappingAdd_of_lt {a b : Nat} (h : a + b < size) : wrappingAdd a b = a + b :=
  Nat.mod_eq_of_lt h

theorem wrappingSub_of_le {a b : Nat} (ha : a < size) (h : b ≤ a) :
    wrappingSub a b = a - b := by
  have he : a + size - b = (a - b) + size := by omega
  unfold wrappingSub
  rw [he, Nat.add_mod_right]
  exact Nat.mod_eq_of_lt (by omega)

theorem checkedAdd_eq_some_iff {a b c : Nat} :
    checkedAdd a b = some c ↔ a + b < size ∧ c = a + b := by
  unfold checkedAdd
  split
  · rename_i h
    simp only [Option.some.injEq, h, true_and]
    exact eq_comm
  · rename_i h
    simp [h]

end Lib.Usize
