/-!
# Bilevel.Capacity

How long a sequence can be.

* `Capacity.addressable` is the greatest length that can be counted.
* `Memory` says for what there is room. It is left open; `Memory.standard` is one to run programs with.
* `Capacity.check` refuses sequences that cannot be counted, and then those for which there is no room
  (`check_eq_ok_iff`).
-/

namespace Bilevel

/-- Why a sequence is too long. -/
inductive CapacityFault where
  /-- A length that cannot be counted. -/
  | unaddressable
  /-- A length for which there is no room. -/
  | unavailable
  deriving Repr, DecidableEq

/-- For what there is room. -/
structure Memory where
  /-- Whether there is room for an array of so many numbers. -/
  numbers : Nat → Bool
  /-- Whether there is room for a list of so many items. -/
  items : Nat → Bool

namespace Capacity

/-- The greatest length that can be counted. -/
def addressable : Int := 0x7fffffffffffffff

/-- The bytes of a number in an array. -/
def entrySize : Int := 8

/-- Refuses sequences that are too long. One of negative length is empty. -/
def check (fits : Nat → Bool) (length : Int) : Except CapacityFault Unit :=
  if addressable < length then .error .unaddressable
  else if fits length.toNat then .ok ()
  else .error .unavailable

theorem check_eq_ok_iff (fits : Nat → Bool) (length : Int) :
    check fits length = .ok () ↔ length ≤ addressable ∧ fits length.toNat = true := by
  by_cases h1 : addressable < length
  · rw [check, if_pos h1]
    exact ⟨fun h => (by cases h), fun h => by omega⟩
  · rw [check, if_neg h1]
    cases hfits : fits length.toNat with
    | true => exact ⟨fun _ => ⟨by omega, rfl⟩, fun _ => rfl⟩
    | false => exact ⟨fun h => (by cases h), fun h => by cases h.2⟩

end Capacity

/-- Room for 3.5 GiB at a time: numbers take eight bytes, and items forty. -/
def Memory.standard : Memory where
  numbers n := decide (Capacity.entrySize * n ≤ 0xe0000000)
  items n := decide (40 * n ≤ 0xe0000000)

end Bilevel
