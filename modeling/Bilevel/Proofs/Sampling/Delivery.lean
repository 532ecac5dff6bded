import Bilevel.Proofs.Access
import Bilevel.Proofs.Double.Integers
import Bilevel.Proofs.Sampling.Lengths
import Bilevel.Proofs.Sampling.Origin

/-!
# Bilevel.Proofs.Sampling.Delivery

Dense random programs are what was asked for, and their options do not disturb them.

* `Delivers`: a program has the sizes, the integer indices and the bounds that were asked for, and its
  coefficients are integers of the right ranges.
* `delivers_of_drawn`: whatever is drawn, the program delivers.
* `generate_delivers`: so does every program that a run ends with. Two programs of the same sizes and
  the same seed differ in nothing but the quadratic term, the integer indices and the bounds.
-/

namespace Bilevel

open Program

namespace Sampling

/-- The number is an integer between two others. -/
def IsWhole (low high : Int) (v : Float) : Prop :=
  ∃ k : Int, low ≤ k ∧ k ≤ high ∧ Faithful.exact v = .finite k

/-- Integers of this size are not rounded. -/
theorem ConsistsOf.isWhole {low high : Int} {d : Datum Float} (h : ConsistsOf low (high + 1) d)
    (hlow : -2 ^ 53 ≤ low) (hhigh : high ≤ 2 ^ 53) {v : Float} (hv : d.Contains v) :
    IsWhole low high v := by
  obtain ⟨e, he, hv⟩ := hv
  obtain ⟨k, rfl, hk⟩ := h e he
  refine ⟨k, hk.1, by omega, ?_⟩
  rw [Datum.toScalar] at hv
  split at hv
  · rename_i hint
    cases hv
    rw [Double.eq_ofInt hint]
    exact Double.exact_ofInt_of_le (by omega)
  · cases hv

namespace DenseRequest

section Generation

variable {α : Type} [Scalar α]

/-- A request by names, with options of any kind. -/
def named (nu nl mu ml nInt : Int) (bilinear : Datum α) (seed : Option Int) (box : α) : Request α :=
  [("nu", .int nu), ("nl", .int nl), ("mu", .int mu), ("ml", .int ml), ("n_int", .int nInt),
    ("bilinear", bilinear), ("box", .real box), ("seed", seed.elim .null .int)]

theorem ofRequest_named (nu nl mu ml nInt : Int) (bilinear : Datum α) (seed : Option Int) (box : α) :
    ofRequest (named nu nl mu ml nInt bilinear seed box) =
      .ok (ofNumbers nu nl mu ml nInt bilinear.truthy seed box) := by
  cases seed <;> rfl

end Generation

/-- Bounds from zero to one number for all variables. -/
def evenBox (n : Nat) (high : Float) : Box Float :=
  ⟨List.replicate n Scalar.zero, List.replicate n high⟩

/-- The coefficients are integers of the ranges that they are drawn from. Without a quadratic term its
entries are zero. -/
structure IntegerCoefficients (s : Sizes) (bilinear : Bool) (c : Coefficients Float) : Prop where
  objectives : ∀ v ∈ c.cx ++ c.cy ++ c.d, IsWhole (-10) 10 v
  matrices : ∀ m ∈ [c.G, c.H, c.A, c.B], ∀ r ∈ m, ∀ v ∈ r, IsWhole (-5) 5 v
  rhs : ∀ v ∈ c.q ++ c.b, IsWhole 1 20 v
  quadratic : if bilinear then ∀ r ∈ c.F, ∀ v ∈ r, IsWhole (-3) 3 v
    else c.F = List.replicate s.nu (List.replicate s.nl Scalar.zero)

/-- A program is what was asked for. -/
structure Delivers (s : Sizes) (bilinear : Bool) (box : Float) (p : Program Float) : Prop where
  shaped : p.Shaped
  shape_eq : p.shape = [s.nu, s.nl, s.mu, s.ml]
  Jx_eq : p.Jx = (indices s.nInt).map .int
  xBox_eq : p.xBox = evenBox s.nu box
  yBox_eq : p.yBox = evenBox s.nl box
  coefficients : IntegerCoefficients s bilinear p.toCoefficients

variable {s : Sizes} {bilinear : Bool} {box : Float} {a a' : Arguments Float} {p p' : Program Float}

theorem integerCoefficients_of_drawn (hdrawn : Drawn s bilinear a) (h : build a = .ok p) :
    IntegerCoefficients s bilinear p.toCoefficients := by
  obtain ⟨hobj, -, -, hF, -⟩ := parts_of_build h
  obtain ⟨hcx, hcy, hd⟩ := contains_of_objectives hobj
  obtain ⟨⟨hG, hH, hq⟩, ⟨hA, hB, hb⟩, -⟩ := contains_of_build h
  have hten {n : Nat} {d : Datum Float} (hd : IsDrawnRow n (-10) 11 d) (v : Float)
      (hv : d.Contains v) : IsWhole (-10) 10 v :=
    ConsistsOf.isWhole hd.consistsOf (by decide) (by decide) hv
  have hfive {rows columns : Nat} {d : Datum Float} (hd : IsDrawnTable rows columns (-5) 6 d)
      (v : Float) (hv : d.Contains v) : IsWhole (-5) 5 v :=
    ConsistsOf.isWhole hd.consistsOf (by decide) (by decide) hv
  have hpositive {n : Nat} {d : Datum Float} (hd : IsDrawnRow n 1 21 d) (v : Float)
      (hv : d.Contains v) : IsWhole 1 20 v :=
    ConsistsOf.isWhole hd.consistsOf (by decide) (by decide) hv
  refine ⟨?_, ?_, ?_, ?_⟩
  · simp only [List.forall_mem_append]
    exact ⟨⟨fun v hv => hten hdrawn.cx v (hcx v hv), fun v hv => hten hdrawn.cy v (hcy v hv)⟩,
      fun v hv => hten hdrawn.d v (hd v hv)⟩
  · simp only [List.forall_mem_cons]
    exact ⟨fun r hr v hv => hfive hdrawn.G v (hG r hr v hv),
      fun r hr v hv => hfive hdrawn.H v (hH r hr v hv),
      fun r hr v hv => hfive hdrawn.A v (hA r hr v hv),
      fun r hr v hv => hfive hdrawn.B v (hB r hr v hv), fun m hm => absurd hm List.not_mem_nil⟩
  · simp only [List.forall_mem_append]
    exact ⟨fun v hv => hpositive hdrawn.q v (hq v hv), fun v hv => hpositive hdrawn.b v (hb v hv)⟩
  · obtain ⟨hnu, hnl⟩ := sizes_of_build h (hdrawn.cx.isRow (by decide) (by decide))
      (hdrawn.cy.isRow (by decide) (by decide))
    have hterm := hdrawn.F
    cases bilinear with
    | false =>
      have hnone : a.F = .null := hterm
      rw [hnone, hnu, hnl] at hF
      exact (Except.ok.inj hF).symm
    | true =>
      have htable : IsDrawnTable s.nu s.nl (-3) 4 a.F := hterm
      have hsome : a.F ≠ .null := fun hnull => by
        obtain ⟨ds, hds, -⟩ := htable
        cases hnull.symm.trans hds
      intro r hr v hv
      exact ConsistsOf.isWhole htable.consistsOf (by decide) (by decide)
        (contains_of_quadraticTerm hsome hF r hr v hv)

/-- The bounds of a generated program are set after it has been built. -/
theorem exists_build_of_boxed {box : Datum Float} (h : boxed a box = .ok p) :
    ∃ fresh, build a = .ok fresh ∧ p.toCoefficients = fresh.toCoefficients := by
  obtain ⟨fresh, hfresh, h⟩ := exists_of_bind h
  obtain ⟨bounded, hbounded, h⟩ := exists_of_bind h
  exact ⟨fresh, hfresh, (toCoefficients_of_setAll h).trans (toCoefficients_of_setAll hbounded)⟩

/-- Whatever is drawn, the program is what was asked for. -/
theorem delivers_of_drawn (hdrawn : Drawn s bilinear a) (h : boxed a (.real box) = .ok p) :
    Delivers s bilinear box p := by
  obtain ⟨p', hp', hnu, hnl, hJx, high, hboxed, hhigh⟩ := exists_boxed_of_drawn hdrawn box
  obtain rfl : p' = p := Except.ok.inj (hp'.symm.trans h)
  obtain ⟨⟨c, x, y⟩, hfresh, hsame⟩ := exists_build_of_boxed h
  have hcoefficients := integerCoefficients_of_drawn hdrawn hfresh
  obtain ⟨hmu, hml⟩ := rowCounts_of_build hfresh (hdrawn.q.isRow (by decide) (by decide))
    (hdrawn.b.isRow (by decide) (by decide))
  have hshaped := (shaped_of_build hfresh).1
  obtain ⟨c', xBox, yBox⟩ := p'
  obtain rfl : c' = c := hsame
  obtain rfl : xBox = evenBox s.nu box := by
    rw [evenBox, ← hnu, ← hhigh .upper]
    exact hboxed.box .upper
  obtain rfl : yBox = evenBox s.nl box := by
    rw [evenBox, ← hnl, ← hhigh .lower]
    exact hboxed.box .lower
  exact {
    shaped := { hshaped with
      xl_length := List.length_replicate.trans hnu.symm
      xu_length := List.length_replicate.trans hnu.symm
      yl_length := List.length_replicate.trans hnl.symm
      yu_length := List.length_replicate.trans hnl.symm }
    shape_eq := by
      show [_, _, _, _] = _
      rw [hnu, hnl]
      exact congrArg₂ (fun mu ml => [s.nu, s.nl, mu, ml]) hmu hml
    Jx_eq := hJx
    xBox_eq := rfl
    yBox_eq := rfl
    coefficients := hcoefficients }

/-! ## Two runs -/

/-- All but the quadratic term has been drawn before the options make a difference. -/
theorem arguments_of_options {σ : Type} (g : Generator σ) (s : Sizes) (nInt : Int)
    (bilinear bilinear' : Bool) (state : σ) :
    let a := (arguments (α := Float) g s bilinear state).1
    let a' := (arguments (α := Float) g { s with nInt } bilinear' state).1
    a' = { a with F := a'.F, Jx := a'.Jx } := by
  cases bilinear <;> cases bilinear' <;> rfl

theorem toCoefficients_of_boxed {box box' : Datum Float} (h : boxed a box = .ok p)
    (h' : boxed a' box' = .ok p') (ha : a' = { a with F := a'.F, Jx := a'.Jx }) :
    p'.toCoefficients = { p.toCoefficients with F := p'.F, Jx := p'.Jx } := by
  obtain ⟨fresh, hfresh, hsame⟩ := exists_build_of_boxed h
  obtain ⟨fresh', hfresh', hsame'⟩ := exists_build_of_boxed h'
  have hq : a'.q = a.q := by rw [ha]
  obtain ⟨hcoefficients, hrhs, -⟩ := toCoefficients_of_build hfresh hfresh' (by rw [ha])
  rw [hsame, hsame', hcoefficients, hrhs hq]

section Runs

variable {σ : Type} {g : Generator σ} {memory memory' : Memory} {state : σ} {seed : Option Int}

theorem delivers_of_generateFrom
    (h : (s.request bilinear seed box).generateFrom g memory state = .ok p) :
    Delivers s bilinear box p :=
  delivers_of_drawn (drawn_arguments g s bilinear state) (boxed_of_generateFrom h).2

/-- Two runs with one seed start from the same state. -/
theorem toCoefficients_of_yields {n : Nat} {nInt : Int} {bilinear' : Bool} {box' : Float}
    (h : (s.request bilinear (some n) box).Yields g memory (.ok p))
    (h' : ({ s with nInt : Sizes }.request bilinear' (some n) box').Yields g memory' (.ok p')) :
    p'.toCoefficients = { p.toCoefficients with F := p'.F, Jx := p'.Jx } := by
  obtain ⟨_, _, hseed, hstart, hrun⟩ := h
  obtain ⟨_, _, hseed', hstart', hrun'⟩ := h'
  cases hseed
  cases hseed'
  obtain ⟨-, rfl⟩ := hstart
  obtain ⟨-, rfl⟩ := hstart'
  exact toCoefficients_of_boxed (boxed_of_generateFrom hrun).2 (boxed_of_generateFrom hrun').2
    (arguments_of_options g s nInt bilinear bilinear' _)

end Runs

/-- **Delivery.** A request by names is read as it stands. Whatever the generator and the memory are, as
long as the integers that are drawn stay within their bounds, a run ends with a program exactly if there
is room for its arrays and for the list of its integer indices. The program has the sizes, indices and
bounds that were asked for, and its coefficients are integers of their ranges. Programs of the same
sizes and the same seed have the same coefficients apart from the quadratic term, whatever else is asked
for. A negative size makes no program; it is refused as a wrong length unless there is no room for an
array that is drawn before the first one with a negative length. -/
theorem generate_delivers :
    (∀ (nu nl mu ml nInt : Int) (bilinear : Datum Float) (seed : Option Int) (box : Float),
      ofRequest (named nu nl mu ml nInt bilinear seed box) =
        .ok (ofNumbers nu nl mu ml nInt bilinear.truthy seed box)) ∧
    ∀ {σ : Type} (g : Generator σ) (memory : Memory),
      (∀ (nu nl mu ml : Nat) (nInt : Int) (bilinear : Bool) (seed : Option Int) (box : Float) outcome,
        (ofNumbers nu nl mu ml nInt bilinear seed box).Yields g memory outcome →
        ((∃ p, outcome = .ok p) ↔ Sizes.HasRoom memory ⟨nu, nl, mu, ml, nInt⟩) ∧
        ∀ p, outcome = .ok p → Delivers ⟨nu, nl, mu, ml, nInt⟩ bilinear box p) ∧
      (∀ (nu nl mu ml n : Nat) (nInt nInt' : Int) (bilinear bilinear' : Bool) (box box' : Float)
        (memory' : Memory) (p p' : Program Float),
        (ofNumbers nu nl mu ml nInt bilinear (some n) box).Yields g memory (.ok p) →
        (ofNumbers nu nl mu ml nInt' bilinear' (some n) box').Yields g memory' (.ok p') →
        p'.toCoefficients = { p.toCoefficients with F := p'.F, Jx := p'.Jx }) ∧
      ∀ (nu nl mu ml nInt : Int) (bilinear : Bool) (seed : Option Int) (box : Float) outcome,
        (ofNumbers nu nl mu ml nInt bilinear seed box).Yields g memory outcome →
        nu < 0 ∨ nl < 0 ∨ mu < 0 ∨ ml < 0 →
        ∃ f, outcome = .error f ∧
          (RefusesLength f ∨ f = .capacity .unavailable ∧ RunsOutOfRoom memory nu nl mu ml) := by
  refine ⟨fun nu nl mu ml nInt bilinear seed box => ofRequest_named .., fun g memory => ⟨?_, ?_, ?_⟩⟩
  · rintro nu nl mu ml nInt bilinear seed box _ ⟨_, state, -, -, rfl⟩
    exact ⟨generateFrom_isOk_iff (s := ⟨nu, nl, mu, ml, nInt⟩),
      fun p hp => delivers_of_generateFrom (s := ⟨nu, nl, mu, ml, nInt⟩) hp⟩
  · intro nu nl mu ml n nInt nInt' bilinear bilinear' box box' memory' p p' h h'
    exact toCoefficients_of_yields (s := ⟨nu, nl, mu, ml, nInt⟩) h h'
  · rintro nu nl mu ml nInt bilinear seed box _ ⟨_, state, -, -, rfl⟩ hnegative
    obtain ⟨f, hsizes, hf⟩ :=
      @sizes_of_negative Float memory nu nl mu ml nInt bilinear seed box hnegative
    refine ⟨f, ?_, hf⟩
    rw [generateFrom, hsizes]
    rfl

theorem generate_delivers_small :
    ∃ p p' : Program Float,
      (ofNumbers 2 1 1 1 2 true (some 4) (Float.ofInt 10)).generate = .ok p ∧
      (ofNumbers 2 1 1 1 0 false (some 4) (Float.ofInt 7)).generate = .ok p' ∧
      Delivers ⟨2, 1, 1, 1, 2⟩ true (Float.ofInt 10) p ∧
      p'.toCoefficients = { p.toCoefficients with F := p'.F, Jx := p'.Jx } ∧
      ∃ f, (ofNumbers 2 1 1 (-1) 2 true (some 4) (Float.ofInt 10)).generate = .error f ∧
        RefusesLength f := by
  have hyields (nu nl mu ml nInt : Int) (bilinear : Bool) (box : Float) :
      (ofNumbers nu nl mu ml nInt bilinear (some 4) box).Yields Generator.linear Memory.standard _ :=
    yields_generate (n := 4) rfl
  obtain ⟨-, h⟩ := generate_delivers
  obtain ⟨hmade, hsame, hrefused⟩ := h Generator.linear Memory.standard
  obtain ⟨hroom, hdelivers⟩ := hmade 2 1 1 1 2 true _ (Float.ofInt 10) _ (hyields ..)
  obtain ⟨hroom', -⟩ := hmade 2 1 1 1 0 false _ (Float.ofInt 7) _ (hyields ..)
  obtain ⟨p, hp⟩ := hroom.2 ⟨by decide, by decide⟩
  obtain ⟨p', hp'⟩ := hroom'.2 ⟨by decide, by decide⟩
  obtain ⟨f, hf, -⟩ := hrefused 2 1 1 (-1) 2 true _ (Float.ofInt 10) _ (hyields ..) (by decide)
  have hcount : (ofNumbers 2 1 1 (-1) 2 true (some 4) (Float.ofInt 10)).generate =
      .error .negativeCount := rfl
  have hrun := hyields 2 1 1 1 2 true (Float.ofInt 10)
  have hrun' := hyields 2 1 1 1 0 false (Float.ofInt 7)
  have hlength : RefusesLength f := .inl (Except.error.inj (hf.symm.trans hcount))
  exact ⟨p, p', hp, hp', hdelivers p hp,
    hsame 2 1 1 1 4 2 0 true false _ _ Memory.standard p p' (hp ▸ hrun) (hp' ▸ hrun'), f, hf, hlength⟩

/-- Not every number of indices can be made room for. A negative size is not what is reported if an
array before it is too large. -/
theorem generate_without_room :
    (¬∃ p, (ofNumbers 2 1 1 1 (10 ^ 20) false (some 4) (Float.ofInt 10)).generate = .ok p) ∧
      ∃ f, (ofNumbers (2 ^ 59) 1 1 (-1) 0 false (some 4) (Float.ofInt 10)).generate = .error f ∧
        ¬RefusesLength f := by
  constructor
  · rintro ⟨p, hp⟩
    have hrefused : (ofNumbers 2 1 1 1 (10 ^ 20) false (some 4) (Float.ofInt 10)).generate =
        .error (.capacity .unaddressable) := rfl
    cases hrefused.symm.trans hp
  · refine ⟨.capacity .unavailable, rfl, ?_⟩
    rintro (hf | hf) <;> cases hf

end DenseRequest
end Sampling
end Bilevel
