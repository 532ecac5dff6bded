import Bilevel.Proofs.Runs
import Bilevel.Sampling.Dense
import Mathlib.Algebra.BigOperators.Group.List.Basic
import Mathlib.Algebra.BigOperators.Ring.List
import Mathlib.Algebra.Order.Ring.Int

/-!
# Bilevel.Proofs.Sampling.Room

Which sizes of dense programs can be drawn, in any memory.

* `Storable`: there is room for an array of these dimensions, and those of them that are not zero can
  be multiplied.
* `Sizes.HasRoom`: there is room for all arrays of a program, for the quadratic term even if it is not
  asked for, and for the list of the integer indices.
* `sizes_eq_ok_iff`: sizes are refused for no other reason.
* `Yields` says what a run of a request may come to. Only a seed that is no negative number starts a
  run, and without a seed it may start from any state.
-/

namespace Bilevel
namespace Sampling

variable {memory : Memory}

/-- There is room for an array of numbers. -/
def Storable (memory : Memory) (dims : List Nat) : Prop :=
  Capacity.entrySize * volume (dims.map Nat.cast) ≤ Capacity.addressable ∧
    memory.numbers dims.prod = true

instance (dims : List Nat) : Decidable (Storable memory dims) :=
  inferInstanceAs (Decidable (_ ∧ _))

theorem foldl_mul_natCast (dims : List Nat) :
    (dims.map Nat.cast).foldl (· * ·) 1 = ((dims.prod : Nat) : Int) := by
  rw [← List.prod_eq_foldl]
  exact (map_list_prod (Nat.castRingHom Int) dims).symm

/-- Zero lengths apart, the entries are as many as the product that is checked before. -/
theorem volume_eq_prod {dims : List Int} (h : dims.prod ≠ 0) : volume dims = dims.prod := by
  have hne : ∀ n ∈ dims, (n != 0) = true := fun n hn =>
    bne_iff_ne.2 fun h0 => h (List.prod_eq_zero (h0 ▸ hn))
  rw [volume, List.filter_eq_self.2 hne, List.prod_eq_foldl]

/-- What can be addressed can also be counted. -/
theorem prod_le_addressable {dims : List Int}
    (h : Capacity.entrySize * volume dims ≤ Capacity.addressable) :
    dims.prod ≤ Capacity.addressable := by
  by_cases hzero : dims.prod = 0
  · rw [hzero]
    exact (show (0 : Int) ≤ Capacity.addressable by decide)
  · rw [volume_eq_prod hzero] at h
    unfold Capacity.entrySize Capacity.addressable at h
    unfold Capacity.addressable
    omega

theorem entryCount_isOk_iff {α : Type} (dims : List Nat) :
    (∃ n, entryCount (α := α) memory (dims.map Nat.cast) = .ok n) ↔ Storable memory dims := by
  have hsign : ((dims.map (Nat.cast (R := Int))).any (· < 0)) = false := by
    simp
  unfold entryCount Storable
  rw [hsign, if_neg Bool.false_ne_true]
  by_cases hvol : Capacity.addressable < Capacity.entrySize * volume (dims.map Nat.cast)
  · rw [if_pos hvol]
    exact iff_of_false (fun ⟨n, hn⟩ => by cases hn) fun h => h.1.not_gt hvol
  · have hcount : Capacity.check memory.numbers (dims.prod : Nat) = .ok () ↔
        memory.numbers dims.prod = true := by
      have hle := prod_le_addressable (not_lt.1 hvol)
      rw [List.prod_eq_foldl, foldl_mul_natCast] at hle
      rw [Capacity.check_eq_ok_iff, and_iff_right hle, Int.toNat_natCast]
    rw [if_neg hvol, ← hcount]
    simp only [foldl_mul_natCast]
    constructor
    · rintro ⟨n, hn⟩
      split at hn
      · rename_i hok
        exact ⟨not_lt.1 hvol, hok⟩
      · cases hn
    · rintro ⟨-, hok⟩
      rw [hok]
      exact ⟨_, rfl⟩

/-- The length of one dimension is at most what can be counted. -/
theorem Storable.le_addressable {n : Nat} (h : Storable memory [n]) :
    (n : Int) ≤ Capacity.addressable := by
  have hle := prod_le_addressable h.1
  rwa [List.map_singleton, List.prod_singleton] at hle

theorem extent_int_eq_ok_iff {α : Type} (n m : Int) :
    extent (.int n : Datum α) = .ok m ↔
      (-Capacity.addressable - 1 ≤ n ∧ n ≤ Capacity.addressable) ∧ m = n := by
  simp only [extent]
  split
  · rename_i h
    exact ⟨fun hm => ⟨h, (Except.ok.inj hm).symm⟩, fun hm => by rw [hm.2]; rfl⟩
  · rename_i h
    exact iff_of_false (fun hm => by cases hm) fun hm => h hm.1

theorem extents_int_eq_ok_iff {α : Type} (n : Int) (dims : List Int) :
    extents (.int n : Datum α) = .ok dims ↔ ∃ m, extent (.int n : Datum α) = .ok m ∧ [m] = dims := by
  simp only [extents]
  rw [bind_eq_ok_iff]
  simp only [pure, Except.pure, Except.ok.injEq]

namespace DenseRequest

theorem drawable_usable_eq_ok_iff {α : Type} (seed : Option Int) (dims : List Nat) (u : Unit) :
    drawable (α := α) memory (.usable seed) (dims.map Nat.cast) = .ok u ↔ Storable memory dims := by
  rw [← entryCount_isOk_iff (α := α)]
  unfold drawable
  constructor
  · intro h
    obtain ⟨n, hn, -⟩ := exists_of_bind h
    exact ⟨n, hn⟩
  · rintro ⟨n, hn⟩
    rw [hn]
    rfl

/-- There is room for a program of these sizes. -/
@[mk_iff]
structure Sizes.HasRoom (memory : Memory) (s : Sizes) : Prop where
  arrays : ∀ dims ∈ [[s.nu], [s.nl], [s.mu, s.nu], [s.mu, s.nl], [s.mu], [s.ml, s.nu], [s.ml, s.nl],
    [s.ml], [s.nu, s.nl]], Storable memory dims
  indices : s.nInt ≤ Capacity.addressable ∧ memory.items s.nInt.toNat = true

/-- The request for a program whose sizes are any integers. -/
def ofNumbers {α : Type} (nu nl mu ml nInt : Int) (bilinear : Bool) (seed : Option Int) (box : α) :
    DenseRequest α where
  nu := .int nu
  nl := .int nl
  mu := .int mu
  ml := .int ml
  nInt := .int nInt
  bilinear := bilinear
  box := .real box
  seed := .usable seed

/-- The request for a program of these sizes. -/
def Sizes.request {α : Type} (s : Sizes) (bilinear : Bool) (seed : Option Int) (box : α) :
    DenseRequest α :=
  ofNumbers s.nu s.nl s.mu s.ml s.nInt bilinear seed box

variable {α : Type} {s : Sizes} {bilinear : Bool} {seed : Option Int} {box : α}

theorem drawable_one (n : Nat) (u : Unit) :
    drawable (α := α) memory (.usable seed) [(n : Int)] = .ok u ↔ Storable memory [n] :=
  drawable_usable_eq_ok_iff seed [n] u

theorem drawable_two (m n : Nat) (u : Unit) :
    drawable (α := α) memory (.usable seed) [(m : Int), (n : Int)] = .ok u ↔
      Storable memory [m, n] :=
  drawable_usable_eq_ok_iff seed [m, n] u

theorem discard_two (m n : Nat) (u : Unit) :
    (discard (entryCount memory [(m : Int), (n : Int)]) : Except (Fault α) Unit) = .ok u ↔
      Storable memory [m, n] := by
  rw [← entryCount_isOk_iff (α := α)]
  cases h : entryCount (α := α) memory [(m : Int), (n : Int)] with
  | error why => exact iff_of_false (fun h => by cases h) fun ⟨c, hc⟩ => by cases h.symm.trans hc
  | ok c => exact iff_of_true rfl ⟨c, h⟩

/-- Whether the quadratic term is drawn or only made room for is the same here. -/
theorem quadratic_eq_ok_iff {β : Type} (m n : Nat) (rest : Except (Fault α) β) (c : β) :
    (if bilinear then drawable memory (.usable seed) [(m : Int), (n : Int)] >>= fun _ => rest
      else discard (entryCount memory [(m : Int), (n : Int)]) >>= fun _ => rest) = .ok c ↔
      Storable memory [m, n] ∧ rest = .ok c := by
  cases bilinear with
  | false => simp only [Bool.false_eq_true, if_false, bind_eq_ok_iff, discard_two, exists_const]
  | true => simp only [if_true, bind_eq_ok_iff, drawable_two, exists_const]

/-- Sizes are refused for lack of room only. -/
theorem sizes_eq_ok_iff [Scalar α] {s' : Sizes} :
    (s.request bilinear seed box).sizes memory = .ok s' ↔ s.HasRoom memory ∧ s' = s := by
  have hinteger : Request.integer (.int s.nInt : Datum α) = .ok s.nInt := rfl
  have hlow : ∀ n : Nat, -Capacity.addressable - 1 ≤ (n : Int) := fun n => by
    unfold Capacity.addressable
    omega
  have hroom := Sizes.hasRoom_iff memory s
  simp only [List.forall_mem_cons, List.not_mem_nil, false_implies, implies_true, and_true,
    ← Capacity.check_eq_ok_iff] at hroom
  unfold sizes Sizes.request ofNumbers
  simp only [bind_eq_ok_iff, extents_int_eq_ok_iff, extent_int_eq_ok_iff, and_assoc, existsAndEq,
    exists_and_left, true_and, exists_const, drawable_one, drawable_two, hinteger, hlow,
    Except.ok.injEq]
  rw [quadratic_eq_ok_iff, hroom]
  cases Capacity.check memory.items s.nInt with
  | error why =>
    simp only [throw, throwThe, MonadExceptOf.throw, reduceCtorEq, and_false, false_and]
  | ok u =>
    simp only [pure, Except.pure, Except.ok.injEq, Int.toNat_natCast, and_true]
    rw [eq_comm]
    constructor
    · rintro ⟨-, h1, -, h2, -, -, h3, -, h4, h5, -, h6, h7, h8, h9, hs⟩
      exact ⟨⟨h1, h2, h3, h4, h5, h6, h7, h8, h9⟩, hs⟩
    · rintro ⟨⟨h1, h2, h3, h4, h5, h6, h7, h8, h9⟩, hs⟩
      exact ⟨h1.le_addressable, h1, h2.le_addressable, h2, h5.le_addressable, h1.le_addressable, h3,
        h2.le_addressable, h4, h5, h8.le_addressable, h6, h7, h8, h9, hs⟩

/-! ## Runs -/

end DenseRequest

/-- A state that a run with a seed starts from: the one of the seed. Without a seed it is any state, and
a negative seed starts no run. -/
def Generator.Starts {σ : Type} (g : Generator σ) : Option Int → σ → Prop
  | none, _ => True
  | some n, state => 0 ≤ n ∧ state = g.start n.toNat

namespace DenseRequest

/-- What a run of a request may come to. -/
def Yields {α σ : Type} [Scalar α] (g : Generator σ) (memory : Memory) (r : DenseRequest α)
    (outcome : Except (Fault α) (Program α)) : Prop :=
  ∃ seed state, r.seed = .usable seed ∧ g.Starts seed state ∧ r.generateFrom g memory state = outcome

/-- The runs with the generator and the memory that are used are among them. -/
theorem yields_generate {α : Type} [Scalar α] {r : DenseRequest α} {n : Nat}
    (h : r.seed = .usable (some n)) : r.Yields Generator.linear Memory.standard r.generate := by
  refine ⟨some n, source r.seed, h, ⟨Int.natCast_nonneg n, ?_⟩, rfl⟩
  rw [h]
  rfl

end DenseRequest
end Sampling
end Bilevel
