/-!
# Bilevel.Sampling.Generator

Random integers from any generator.

* `Generator` is all that is asked of one: a state for every seed, integers within bounds, and choices
  without repetition.
* A computation with draws is a `StateM` over the states of the generator. It starts from whatever
  state the generator is in; a seed, if there is one, fixes this state.
* `Generator.below` and `Generator.freshSeed` are single draws, `many` repeats a draw.
-/

namespace Bilevel
namespace Sampling

/-- A generator of random integers, with states of type `σ`. -/
structure Generator (σ : Type) where
  /-- The state that a seed starts from. -/
  start : Nat → σ
  /-- An integer from the first number to the second, exclusive. -/
  between : Int → Int → StateM σ Int
  /-- So many different numbers below the second number. -/
  select : Nat → Nat → StateM σ (List Nat)
  between_mem {low high : Int} (h : low < high) (s : σ) :
    low ≤ (between low high s).1 ∧ (between low high s).1 < high
  length_select {k m : Nat} (h : k ≤ m) (s : σ) : (select k m s).1.length = k
  nodup_select {k m : Nat} (h : k ≤ m) (s : σ) : (select k m s).1.Nodup
  lt_of_mem_select {k m : Nat} (h : k ≤ m) (s : σ) : ∀ i ∈ (select k m s).1, i < m

variable {β σ : Type}

namespace Generator

/-- A number below `bound`. -/
def below (g : Generator σ) (bound : Nat) : StateM σ Nat := do
  return (← g.between 0 bound).toNat

theorem below_lt (g : Generator σ) {bound : Nat} (h : 0 < bound) (s : σ) :
    (g.below bound s).1 < bound := by
  have hmem := g.between_mem (show (0 : Int) < bound by omega) s
  have hvalue : (g.below bound s).1 = (g.between 0 bound s).1.toNat := rfl
  omega

/-- A number that can start another generator. -/
def freshSeed (g : Generator σ) : StateM σ Nat :=
  g.below 0x80000000

end Generator

/-- As many draws as the first argument says. -/
def many : Nat → StateM σ β → StateM σ (List β)
  | 0, _ => return []
  | n + 1, one => do
    let x ← one
    return x :: (← many n one)

theorem length_many (n : Nat) (one : StateM σ β) (s : σ) : (many n one s).1.length = n := by
  induction n generalizing s with
  | zero => rfl
  | succ n ih => exact congrArg (· + 1) (ih (one s).2)

theorem forall_mem_many {P : β → Prop} {one : StateM σ β} (h : ∀ s, P (one s).1) (n : Nat) (s : σ) :
    ∀ x ∈ (many n one s).1, P x := by
  induction n generalizing s with
  | zero => exact fun x hx => absurd hx List.not_mem_nil
  | succ n ih =>
    have hcons : (many (n + 1) one s).1 = (one s).1 :: (many n one (one s).2).1 := rfl
    rw [hcons]
    exact List.forall_mem_cons.2 ⟨h s, ih _⟩

end Sampling
end Bilevel
