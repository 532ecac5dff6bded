import Bilevel.Datum.Printer
import Bilevel.Log
import Bilevel.Program.Bounds
import Bilevel.Program.Build
import Bilevel.Sampling.Extent
import Bilevel.Sampling.Source
import Bilevel.Request

/-!
# Bilevel.Sampling.Dense

Dense random programs.

* All coefficients are small integers. The right-hand sides are positive, so that every row holds
  at the origin.
* `DenseRequest` says how large the program is, how many of its first variables are integer,
  whether it has a quadratic term, and the upper bound of all its variables.
* `DenseRequest.generateFrom` draws the program with any generator, from the state in which it is, and
  with whatever room there is. The numbers of variables and rows must not be negative. What is drawn
  first does not depend on the options, so they do not disturb it.
* `DenseRequest.generate` is the run with the generator and the memory that are used.
-/

namespace Bilevel
namespace Sampling

/-- Where a source starts. -/
inductive Seed where
  | usable (seed : Option Int)
  | unusable
  deriving Repr, DecidableEq

/-- What is asked of a dense random program. -/
structure DenseRequest (α : Type) where
  nu : Datum α
  nl : Datum α
  mu : Datum α
  ml : Datum α
  /-- How many of the first upper-level variables are integer. -/
  nInt : Datum α
  /-- Whether there is a quadratic term. -/
  bilinear : Bool
  /-- The upper bound of all variables. -/
  box : Datum α
  seed : Seed

namespace DenseRequest

variable {α σ : Type} [Scalar α]

/-- A seed. A number that is no integer starts a source, but one that cannot be drawn from. -/
def seedOf : Datum α → Except (Fault α) Seed
  | .real _ => return .unusable
  | d => do return .usable (← Request.seed d)

/-- The names of what can be asked for. -/
def names : List String :=
  ["nu", "nl", "mu", "ml", "n_int", "bilinear", "box", "seed"]

/-- A request by names. The sizes are needed; by default no variable is integer, there is no
quadratic term, and the upper bounds are ten. -/
def ofRequest (r : Request α) : Except (Fault α) (DenseRequest α) :=
  match r.known names, r.lookup "nu", r.lookup "nl", r.lookup "mu", r.lookup "ml" with
  | true, some nu, some nl, some mu, some ml => do
    return {
      nu, nl, mu, ml
      nInt := r.get "n_int" (.int 0)
      bilinear := (r.get "bilinear" .null).truthy
      box := r.get "box" (.int 10)
      seed := ← seedOf (r.get "seed" .null) }
  | _, _, _, _, _ => throw .arguments

/-- The line about a request. -/
def logLine (r : DenseRequest α) : LogLine :=
  ⟨.info, "RandomBilevelLP",
    "Generating instance nu=" ++ r.nu.shown ++ ", nl=" ++ r.nl.shown ++ ", mu=" ++ r.mu.shown ++
      ", ml=" ++ r.ml.shown ++ ", n_int=" ++ r.nInt.shown ++ "."⟩

/-- A row of drawn integers. -/
def row (g : Generator σ) (n : Nat) (low high : Int) : StateM σ (Datum α) := do
  return .list ((← many n (g.between low high)).map .int)

/-- A matrix of drawn integers, drawn row by row. -/
def table (g : Generator σ) (rows columns : Nat) (low high : Int) : StateM σ (Datum α) := do
  return .list (← many rows (row g columns low high))

/-- The sizes of a program. -/
structure Sizes where
  nu : Nat
  nl : Nat
  mu : Nat
  ml : Nat
  nInt : Int
  deriving Repr, DecidableEq

/-- The coefficients of a program of given sizes. -/
def arguments (g : Generator σ) (s : Sizes) (bilinear : Bool) : StateM σ (Arguments α) := do
  let cx ← row g s.nu (-10) 11
  let cy ← row g s.nl (-10) 11
  let G ← table g s.mu s.nu (-5) 6
  let H ← table g s.mu s.nl (-5) 6
  let q ← row g s.mu 1 21
  let d ← row g s.nl (-10) 11
  let A ← table g s.ml s.nu (-5) 6
  let B ← table g s.ml s.nl (-5) 6
  let b ← row g s.ml 1 21
  let F ← if bilinear then table g s.nu s.nl (-3) 4 else pure .null
  return { cx, cy, G, H, q, d, A, B, b, Jx := .upTo s.nInt, F }

/-- Refuses arrays that cannot be drawn: too large ones, and from an unusable seed all that have
entries. -/
def drawable (memory : Memory) (seed : Seed) (dims : List Int) : Except (Fault α) Unit := do
  let count ← entryCount memory dims
  if seed = .unusable ∧ 0 < count then throw .notDrawable

/-- The sizes that are asked for, in the order in which they are come across. The objectives would
be drawn with any number of dimensions; the matrices need two lengths, so that from there on all
sizes have to be lengths. There has to be room for the quadratic term even if it is not drawn. -/
def sizes (memory : Memory) (r : DenseRequest α) : Except (Fault α) Sizes := do
  drawable memory r.seed (← extents r.nu)
  drawable memory r.seed (← extents r.nl)
  let mu ← extent r.mu
  let nu ← extent r.nu
  drawable memory r.seed [mu, nu]
  let nl ← extent r.nl
  drawable memory r.seed [mu, nl]
  drawable memory r.seed [mu]
  let ml ← extent r.ml
  drawable memory r.seed [ml, nu]
  drawable memory r.seed [ml, nl]
  drawable memory r.seed [ml]
  let nInt ← Request.integer r.nInt
  if r.bilinear then drawable memory r.seed [nu, nl] else discard (entryCount memory [nu, nl])
  match Capacity.check memory.items nInt with
  | .ok () => return ⟨nu.toNat, nl.toNat, mu.toNat, ml.toNat, nInt⟩
  | .error why => throw (.capacity why)

/-- A program from its coefficients and the upper bound of all its variables. A program without
variables takes any `box`. -/
def boxed (a : Arguments α) (box : Datum α) : Except (Fault α) (Program α) := do
  let p ← Program.build a
  let p ← p.setAll .upper .upper box
  p.setAll .upper .lower box

/-- The program that a request asks for, from the draws of a generator in the given state. -/
def generateFrom (g : Generator σ) (memory : Memory) (state : σ) (r : DenseRequest α) :
    Except (Fault α) (Program α) := do
  let s ← r.sizes memory
  boxed (arguments g s r.bilinear state).1 r.box

/-- The source that a seed starts. -/
def source : Seed → Source
  | .usable seed => Source.ofSeed seed
  | .unusable => Source.ofSeed none

/-- The program that a request asks for, with the generator and the memory that are used. -/
def generate (r : DenseRequest α) : Except (Fault α) (Program α) :=
  r.generateFrom Generator.linear Memory.standard (source r.seed)

end DenseRequest
end Sampling
end Bilevel
