import Bilevel.Proofs.Sampling.Draws
import Bilevel.Proofs.Sampling.Room

/-!
# Bilevel.Proofs.Sampling.Origin

The origin of a dense random program.

* `exists_boxed_of_drawn`: what is drawn makes a program, and its upper bounds can be set.
* `generateFrom_isOk_iff`: a run ends with a program exactly if there is room for it.
* `indicesInRange_indices`: if more variables are to be integer than there are, the first index that
  names no variable is the one that is reported.
* `generate_admits_origin`: whatever is drawn, the origin of a program that is generated is accepted
  unless there are too many integer variables or the upper bounds are too far below zero.
-/

namespace Bilevel
namespace Sampling
namespace DenseRequest

open Program

/-- Indices are gone through in order, so that the first one too many is reported. -/
theorem indicesInRange_indices {α : Type} [Scalar α] {nu : Nat} {n : Int} (h : (nu : Int) < n) :
    indicesInRange nu ((indices n).map (Datum.int (α := α))) =
      .error (.integerIndex (.int (nu + 1 : Nat)) nu) := by
  obtain ⟨k, hk⟩ := Nat.exists_eq_add_of_lt (show nu < n.toNat by omega)
  have hsplit : indices n = indices nu ++
      ((nu + 1 : Nat) : Int) :: (List.range k).map fun i => ((nu + (i + 1) + 1 : Nat) : Int) := by
    rw [indices, hk, Nat.add_assoc, List.range_add, List.map_append, List.range_succ_eq_map,
      List.map_cons, List.map_cons, List.map_map, List.map_map]
    rfl
  rw [hsplit, List.map_append, indicesInRange_append fun j hj => mem_indices.1 hj, List.map_cons,
    indicesInRange, between?_int, decide_eq_false (by omega)]
  rfl

variable {s : Sizes} {bilinear : Bool}

theorem exists_boxed_of_drawn {a : Arguments Float} (h : Drawn s bilinear a) (box : Float) :
    ∃ p : Program Float, boxed a (.real box) = .ok p ∧ p.nu = s.nu ∧ p.nl = s.nl ∧
      p.Jx = (indices s.nInt).map .int ∧ ∃ high, p.Boxed high ∧ ∀ l, high l = box := by
  obtain ⟨p, hp, hnu, hnl, hJx, hbox⟩ := exists_build_of_drawn h
  obtain ⟨p₁, hp₁, hsame₁, hbox⟩ := hbox.setAll .upper box
  obtain ⟨p₂, hp₂, hsame₂, hbox⟩ := hbox.setAll .lower box
  have hsame : p₂.toCoefficients = p.toCoefficients := hsame₂.trans hsame₁
  refine ⟨p₂, ?_, ?_, ?_, ?_, _, hbox, fun l => ?_⟩
  · rw [boxed, hp]
    show (p.setAll .upper .upper (.real box) >>= fun p => p.setAll .upper .lower (.real box)) = _
    rw [hp₁]
    exact hp₂
  · rw [← hnu]
    exact congrArg (fun c => c.cx.length) hsame
  · rw [← hnl]
    exact congrArg (fun c => c.cy.length) hsame
  · rw [← hJx, hsame]
  · cases l <;> rfl

section Runs

variable {σ : Type} {g : Generator σ} {memory : Memory} {state : σ} {seed : Option Int} {box : Float}

theorem boxed_of_generateFrom {p : Program Float}
    (h : (s.request bilinear seed box).generateFrom g memory state = .ok p) :
    s.HasRoom memory ∧ boxed (arguments g s bilinear state).1 (.real box) = .ok p := by
  obtain ⟨s', hs, h⟩ := exists_of_bind h
  obtain ⟨hroom, rfl⟩ := sizes_eq_ok_iff.1 hs
  exact ⟨hroom, h⟩

/-- A program is generated exactly if there is room for it, whatever is drawn. -/
theorem generateFrom_isOk_iff :
    (∃ p, (s.request bilinear seed box).generateFrom g memory state = .ok p) ↔ s.HasRoom memory := by
  constructor
  · rintro ⟨p, hp⟩
    exact (boxed_of_generateFrom hp).1
  · intro hroom
    obtain ⟨p, hp, -⟩ := exists_boxed_of_drawn (drawn_arguments g s bilinear state) box
    refine ⟨p, ?_⟩
    rw [generateFrom, sizes_eq_ok_iff.2 ⟨hroom, rfl⟩]
    exact hp

end Runs

theorem point_origin {p : Program Float} {x y : Datum Float}
    (hx : x.toTensor = .ok ⟨[p.nu], List.replicate p.nu Scalar.zero⟩)
    (hy : y.toTensor = .ok ⟨[p.nl], List.replicate p.nl Scalar.zero⟩) :
    p.point x y = .ok (List.replicate p.nu Scalar.zero, List.replicate p.nl Scalar.zero) := by
  rw [point, coordinates, coordinates, hx, hy]
  exact if_pos ⟨rfl, rfl⟩

/-- An upper bound that is not below zero is no obstacle. -/
theorem neg_le_of_zero_le {box e : Float} (hbox : Scalar.le Scalar.zero box = true)
    (he : Scalar.le Scalar.zero e = true) : Scalar.le (Scalar.neg box) e = true := by
  have hneg := Faithful.neg_le_neg_of_le hbox
  have hzero : Scalar.le (Scalar.neg Scalar.zero) (Scalar.zero : Float) = true := by
    rw [Faithful.le_eq, Faithful.exact_neg, Faithful.exact_zero]
    rfl
  exact Faithful.le_trans hneg (Faithful.le_trans hzero he)

section Checks

variable {p : Program Float} {n : Int} {x y : Datum Float} {eps : Option (Datum Float)}
  (hJx : p.Jx = (indices n).map .int)

include hJx

/-- More variables are to be integer than there are. -/
theorem check_of_lt (hlt : (p.nu : Int) < n) {xs ys : Row Float} (hpoint : p.point x y = .ok (xs, ys)) :
    p.check .both x y eps = .error (.integerIndex (.int (p.nu + 1 : Nat)) p.nu) := by
  have hindices := indicesInRange_indices (α := Float) hlt
  rw [← hJx] at hindices
  rw [(check_of_point hpoint eps).2.2, upperVerdict_of_outOfRange hindices]
  rfl

/-- All variables have the same upper bound. -/
theorem check_of_le_nu (hle : n ≤ p.nu) {high : Level → Float} (hboxed : p.Boxed high) {box : Float}
    (hhigh : ∀ l, high l = box) {e : Float} (he : Tolerance.ofRequest eps = .ok (.number e))
    (hzero : Scalar.le Scalar.zero e = true)
    (hpoint : p.point x y =
      .ok (List.replicate p.nu Scalar.zero, List.replicate p.nl Scalar.zero)) :
    ∃ r, p.check .both x y eps = .ok r ∧
      (r = none ↔ (p.nu = 0 ∧ p.nl = 0) ∨ Scalar.le (Scalar.neg box) e = true) := by
  obtain ⟨r, hr, hiff⟩ := check_origin hboxed he hzero Double.distance?_zero hJx
    (fun j hj => ⟨(mem_indices.1 hj).1, (mem_indices.1 hj).2.trans hle⟩) hpoint
  rw [hhigh, hhigh, ← and_or_right] at hiff
  exact ⟨r, hr, hiff⟩

end Checks

/-- **The origin.** Whatever the generator and the memory are, a dense random program is generated
exactly if there is room for its arrays and for the list of its integer indices. At the origin of such a
program, under a tolerance that is not below zero, a check of both levels fails exactly if more variables
are to be integer than there are; the first index too many is reported. Otherwise the origin is accepted
exactly if there are no variables or the upper bound with the other sign is at most the tolerance, and so
it is whenever the bound is not below zero. -/
theorem generate_admits_origin {seed : Option Int} {box e : Float} {eps : Option (Datum Float)}
    {x y : Datum Float} {σ : Type} {g : Generator σ} {memory : Memory}
    {outcome : Except (Fault Float) (Program Float)}
    (hrun : (s.request bilinear seed box).Yields g memory outcome)
    (he : Tolerance.ofRequest eps = .ok (.number e)) (hle : Scalar.le Scalar.zero e = true)
    (hx : x.toTensor = .ok ⟨[s.nu], List.replicate s.nu Scalar.zero⟩)
    (hy : y.toTensor = .ok ⟨[s.nl], List.replicate s.nl Scalar.zero⟩) :
    ((∃ p, outcome = .ok p) ↔ s.HasRoom memory) ∧
    ∀ p, outcome = .ok p →
      ((∃ f, p.check .both x y eps = .error f) ↔ (s.nu : Int) < s.nInt) ∧
      ((s.nu : Int) < s.nInt →
        p.check .both x y eps = .error (.integerIndex (.int (s.nu + 1 : Nat)) s.nu)) ∧
      (s.nInt ≤ s.nu → (p.check .both x y eps = .ok none ↔
        (s.nu = 0 ∧ s.nl = 0) ∨ Scalar.le (Scalar.neg box) e = true)) ∧
      (s.nInt ≤ s.nu → Scalar.le Scalar.zero box = true → p.check .both x y eps = .ok none) := by
  obtain ⟨_, state, -, -, rfl⟩ := hrun
  refine ⟨generateFrom_isOk_iff, fun p hp => ?_⟩
  obtain ⟨-, hp⟩ := boxed_of_generateFrom hp
  obtain ⟨p', hp', hnu, hnl, hJx, high, hboxed, hhigh⟩ :=
    exists_boxed_of_drawn (drawn_arguments g s bilinear state) box
  obtain rfl : p' = p := Except.ok.inj (hp'.symm.trans hp)
  rw [← hnu] at hx ⊢
  rw [← hnl] at hy ⊢
  have hpoint := point_origin hx hy
  have hout : (p'.nu : Int) < s.nInt → p'.check .both x y eps = _ := fun hlt =>
    check_of_lt hJx hlt hpoint
  have hin := fun hfit => check_of_le_nu hJx hfit hboxed hhigh he hle hpoint
  refine ⟨⟨fun ⟨f, hf⟩ => ?_, fun hlt => ⟨_, hout hlt⟩⟩, hout, fun hle' => ?_, fun hle' hbox => ?_⟩
  · by_contra hnot
    obtain ⟨r, hr, -⟩ := hin (not_lt.1 hnot)
    cases hf.symm.trans hr
  · obtain ⟨r, hr, hiff⟩ := hin hle'
    rw [hr, ← hiff]
    exact ⟨fun h => Except.ok.inj h, fun h => congrArg Except.ok h⟩
  · obtain ⟨r, hr, hiff⟩ := hin hle'
    rw [hr, hiff.2 (.inr (neg_le_of_zero_le hbox hle))]

theorem generate_admits_origin_small :
    ∃ p : Program Float, (Sizes.request ⟨2, 1, 1, 1, 2⟩ true (some 4) (Float.ofInt 10)).generate = .ok p ∧
      p.check .both (.list [.int 0, .int 0]) (.list [.int 0]) (some (.int 0)) = .ok none := by
  have he : Tolerance.ofRequest (some (.int 0 : Datum Float)) = .ok (.number Scalar.zero) := rfl
  have hbox : Scalar.le Scalar.zero (Float.ofInt 10) = true := by decide +kernel
  have hrun : (Sizes.request ⟨2, 1, 1, 1, 2⟩ true (some 4) (Float.ofInt 10)).Yields Generator.linear
      Memory.standard _ := yields_generate (n := 4) rfl
  obtain ⟨hroom, hcheck⟩ := generate_admits_origin (x := .list [.int 0, .int 0]) (y := .list [.int 0])
    hrun he rfl rfl rfl
  obtain ⟨p, hp⟩ := hroom.2 ⟨by decide, by decide⟩
  obtain ⟨-, -, -, haccept⟩ := hcheck p hp
  exact ⟨p, hp, haccept (by decide) hbox⟩

/-- A list of indices that cannot be counted is refused before there is a program to check, although
more variables are to be integer than there are. -/
theorem generate_uncountable :
    let outcome := (Sizes.request ⟨2, 1, 1, 1, 10 ^ 20⟩ false (some 4) (Float.ofInt 10)).generate >>=
      fun p => p.check .both (.list [.int 0, .int 0]) (.list [.int 0]) none
    outcome = .error (.capacity .unaddressable) ∧
      ¬((∃ index nu, outcome = .error (.integerIndex index nu)) ↔ (2 : Int) < 10 ^ 20) := by
  intro outcome
  have houtcome : outcome = .error (.capacity .unaddressable) := rfl
  refine ⟨houtcome, fun h => ?_⟩
  obtain ⟨index, nu, herror⟩ := h.2 (by decide)
  cases houtcome.symm.trans herror

end DenseRequest
end Sampling
end Bilevel
