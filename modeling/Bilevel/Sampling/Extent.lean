import Bilevel.Fault

/-!
# Bilevel.Sampling.Extent

How large an array of drawn numbers is.

* `extents` reads the lengths of the dimensions of an array: one number, or a list of them.
* `entryCount` is the number of entries of such an array. It refuses arrays that could not be
  addressed, even those without entries, and arrays for which there is no room.
-/

namespace Bilevel
namespace Sampling

variable {α : Type}

/-- The length of a dimension: an integer that can be stored as a word. -/
def extent : Datum α → Except (Fault α) Int
  | .int n =>
    if -Capacity.addressable - 1 ≤ n ∧ n ≤ Capacity.addressable then return n
    else throw .oversized
  | _ => throw .notCount

/-- The lengths of the dimensions of an array. Nothing, and an empty sequence, stand for a single
entry without dimensions. -/
def extents : Datum α → Except (Fault α) (List Int)
  | .null => return []
  | .list ds => if Datum.maxDims < ds.length then throw .oversized else ds.mapM extent
  | .text s =>
    if s.isEmpty then return []
    else if Datum.maxDims < s.length then throw .oversized
    else throw .notCount
  | d => do return [← extent d]

/-- The product of the lengths that are not zero. -/
def volume (dims : List Int) : Int :=
  (dims.filter (· != 0)).foldl (· * ·) 1

/-- The number of entries of an array. -/
def entryCount (memory : Memory) (dims : List Int) : Except (Fault α) Nat :=
  if dims.any (· < 0) then throw .negativeCount
  else if Capacity.addressable < Capacity.entrySize * volume dims then throw .oversized
  else
    let count := dims.foldl (· * ·) 1
    match Capacity.check memory.numbers count with
    | .ok () => return count.toNat
    | .error why => throw (.capacity why)

end Sampling
end Bilevel
