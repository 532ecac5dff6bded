import Bilevel.Sampling.Generator

/-!
# Bilevel.Sampling.Source

A generator of pseudo-random numbers to run programs with.

* `Source` is a linear congruential generator on words of 64 bits; a draw gives the upper 31 bits of
  the next state.
* `Source.between` draws integers, and `Source.sample` takes members out of a list.
* `Generator.linear` puts them together. No theorem is about this generator alone: it stands in for
  any other one.
-/

namespace Bilevel
namespace Sampling

/-- A source, by its state. -/
structure Source where
  state : UInt64
  deriving Repr, DecidableEq

namespace Source

/-- The source that a seed starts: the seed modulo `2 ^ 64`, and zero without one. -/
def ofSeed (seed : Option Int) : Source :=
  ⟨UInt64.ofInt (seed.getD 0)⟩

/-- The next number of a source, and the source after it. -/
def next (s : Source) : Nat × Source :=
  let state := s.state * 6364136223846793005 + 1442695040888963407
  ((state >>> 33).toNat, ⟨state⟩)

/-- An integer from `low` to `high`, exclusive. -/
def between (low high : Int) : StateM Source Int := fun s =>
  (low + (s.next.1 : Int) % (high - low), s.next.2)

theorem between_mem {low high : Int} (h : low < high) (s : Source) :
    low ≤ (between low high s).1 ∧ (between low high s).1 < high := by
  have h1 := Int.emod_nonneg (s.next.1 : Int) (show high - low ≠ 0 by omega)
  have h2 := Int.emod_lt_of_pos (s.next.1 : Int) (show 0 < high - low by omega)
  have h3 : (between low high s).1 = low + (s.next.1 : Int) % (high - low) := rfl
  omega

/-- Takes so many different members out of a list, one after the other. -/
def sample {β : Type} : Nat → List β → StateM Source (List β)
  | 0, _ => return []
  | n + 1, pool => do
    let i ← between 0 pool.length
    match pool[i.toNat]? with
    | none => return []
    | some x => return x :: (← sample n (pool.eraseIdx i.toNat))

/-- Out of a list that is long enough something is taken, and then something else out of the rest. -/
theorem sample_succ {β : Type} (k : Nat) {pool : List β} (hpool : 0 < pool.length) (s : Source) :
    ∃ (i : Nat) (hi : i < pool.length) (rest : Source),
      (sample (k + 1) pool s).1 = pool[i] :: (sample k (pool.eraseIdx i) rest).1 := by
  have hmem := between_mem (show (0 : Int) < pool.length by omega) s
  have hi : (between 0 pool.length s).1.toNat < pool.length := by omega
  refine ⟨_, hi, (between 0 pool.length s).2, ?_⟩
  have hrun : sample (k + 1) pool s =
      (match pool[(between 0 pool.length s).1.toNat]? with
        | none => pure []
        | some x => (do
          return x :: (← sample k (pool.eraseIdx (between 0 pool.length s).1.toNat))) :
          StateM Source (List β)) (between 0 pool.length s).2 := rfl
  rw [hrun, List.getElem?_eq_getElem hi]
  rfl

theorem length_sample {β : Type} (k : Nat) (pool : List β) (hk : k ≤ pool.length) (s : Source) :
    (sample k pool s).1.length = k := by
  induction k generalizing pool s with
  | zero => rfl
  | succ k ih =>
    obtain ⟨i, hi, rest, hrun⟩ := sample_succ k (show 0 < pool.length by omega) s
    have hlen : (pool.eraseIdx i).length = pool.length - 1 := List.length_eraseIdx_of_lt hi
    rw [hrun, List.length_cons, ih _ (by omega)]

theorem mem_of_mem_sample {β : Type} (k : Nat) (pool : List β) (hk : k ≤ pool.length) (s : Source) :
    ∀ x ∈ (sample k pool s).1, x ∈ pool := by
  induction k generalizing pool s with
  | zero => exact fun x hx => absurd hx List.not_mem_nil
  | succ k ih =>
    obtain ⟨i, hi, rest, hrun⟩ := sample_succ k (show 0 < pool.length by omega) s
    have hlen : (pool.eraseIdx i).length = pool.length - 1 := List.length_eraseIdx_of_lt hi
    rw [hrun]
    exact List.forall_mem_cons.2 ⟨List.getElem_mem hi,
      fun x hx => List.mem_of_mem_eraseIdx (ih _ (by omega) rest x hx)⟩

/-- What is taken out of a list is not put back. -/
theorem nodup_sample {β : Type} (k : Nat) (pool : List β) (hpool : pool.Nodup)
    (hk : k ≤ pool.length) (s : Source) : (sample k pool s).1.Nodup := by
  induction k generalizing pool s with
  | zero => exact List.nodup_nil
  | succ k ih =>
    obtain ⟨i, hi, rest, hrun⟩ := sample_succ k (show 0 < pool.length by omega) s
    have hlen : (pool.eraseIdx i).length = pool.length - 1 := List.length_eraseIdx_of_lt hi
    rw [hrun]
    refine List.nodup_cons.2 ⟨fun hx => ?_, ih _ (hpool.eraseIdx i) (by omega) rest⟩
    have hmem := mem_of_mem_sample k (pool.eraseIdx i) (by omega) rest _ hx
    obtain ⟨j, hj, hji, hget⟩ := List.mem_eraseIdx_iff_getElem.1 hmem
    exact hji ((List.getElem_inj hpool).1 hget)

end Source

/-- The generator that programs are run with. -/
def Generator.linear : Generator Source where
  start seed := Source.ofSeed (some seed)
  between := Source.between
  select count bound := Source.sample count (List.range bound)
  between_mem h s := Source.between_mem h s
  length_select h s := Source.length_sample _ _ (by rw [List.length_range]; exact h) s
  nodup_select h s := Source.nodup_sample _ _ List.nodup_range (by rw [List.length_range]; exact h) s
  lt_of_mem_select h s i hi := List.mem_range.1
    (Source.mem_of_mem_sample _ _ (by rw [List.length_range]; exact h) s i hi)

end Sampling
end Bilevel
