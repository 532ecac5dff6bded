import Bilevel.Datum.Tensor

/-!
# Bilevel.Graph.Distance

What lengths of paths are made of.

* A `Distance` can be added and, as a rule, compared.
* Numbers are distances that can always be compared.
* Arrays are distances too: they are added entry by entry, a single number to all entries, but two
  of them can be compared only if a single entry comes out.
-/

namespace Bilevel

/-- Lengths of paths. -/
class Distance (δ : Type) where
  ofNat : Nat → δ
  add : δ → δ → δ
  /-- Whether the first is less, if that can be said. -/
  less? : δ → δ → Option Bool
  /-- Whether the two are equal, if that can be said. -/
  equal? : δ → δ → Option Bool

instance {α : Type} [Scalar α] : Distance α where
  ofNat := Scalar.ofNat
  add := Scalar.add
  less? a b := some (Scalar.lt a b)
  equal? a b := some (Scalar.eq a b)

namespace Tensor

variable {α β : Type}

/-- Combines two arrays of one shape entry by entry; a single number is combined with all entries
of the other array. -/
def combine (f : α → α → β) (s t : Tensor α) : Tensor β :=
  match s, t with
  | ⟨[], [a]⟩, t => ⟨t.shape, t.entries.map (f a)⟩
  | s, ⟨[], [b]⟩ => ⟨s.shape, s.entries.map (f · b)⟩
  | s, t => ⟨s.shape, s.entries.zipWith f t.entries⟩

/-- The only entry of an array. -/
def only? (t : Tensor α) : Option α :=
  match t.entries with
  | [a] => some a
  | _ => none

/-- A single number as an array. -/
def single (a : α) : Tensor α :=
  ⟨[], [a]⟩

end Tensor

instance {α : Type} [Scalar α] : Distance (Tensor α) where
  ofNat n := .single (Scalar.ofNat n)
  add := Tensor.combine Scalar.add
  less? s t := (Tensor.combine Scalar.lt s t).only?
  equal? s t := (Tensor.combine Scalar.eq s t).only?

end Bilevel
