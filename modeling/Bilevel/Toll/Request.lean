import Bilevel.Request
import Bilevel.Toll.Program

/-!
# Bilevel.Toll.Request

Random toll settings.

* A `TollRequest` asks for a network of some size, a number of arcs that can be charged, a budget,
  and perhaps integer tolls.
* `TollRequest.generateFrom` draws the network with any generator, from the state in which it is, and
  builds its program. Budget and integer tolls come into play only after everything is drawn.
* `TollRequest.generate` is the run with the generator that is used.
-/

namespace Bilevel

/-- What is asked of a toll setting. -/
structure TollRequest (α : Type) where
  n : Datum α
  k : Datum α
  /-- How many arcs can be charged. -/
  tolls : Datum α
  budget : Datum α
  integerTolls : Bool
  seed : Option Int

/-- A network, its program, and the note about the undirected graph below it. -/
structure TollSetting (α : Type) where
  network : TollNetwork α
  program : Program α
  note : Network.BaseNote α

namespace TollRequest

open Sampling

variable {α σ : Type} [Scalar α]

/-- The names of what can be asked for. -/
def names : List String :=
  ["n", "k", "n_tolls", "budget", "integer_tolls", "seed"]

/-- The budget of requests that name none. -/
def defaultBudget : Numeral :=
  .decimal false 100 0

/-- A request by names. The numbers of nodes, neighbours and tolls are needed. -/
def ofRequest (r : Request α) : Except (Fault α) (TollRequest α) :=
  match r.known names, r.lookup "n", r.lookup "k", r.lookup "n_tolls" with
  | true, some n, some k, some tolls => do
    return {
      n, k, tolls
      budget := r.get "budget" (.real (Scalar.ofNumeral defaultBudget))
      integerTolls := (r.get "integer_tolls" .null).truthy
      seed := ← Request.seed (r.get "seed" .null) }
  | _, _, _, _ => throw .arguments

/-- The share of rewired edges that is noted for the undirected graph. -/
def rewiring : Numeral :=
  .decimal false 1 (-1)

/-- The network of a request and the note about its undirected graph. The seed of the network is
drawn first, and starts a run of its own; after it come the weights and the arcs that can be charged. -/
def networkFrom (g : Generator σ) (state : σ) (r : TollRequest α) (origin : Network.Origin α) :
    Except (Fault α) (TollNetwork α × Network.BaseNote α) :=
  let (networkSeed, state) := g.freshSeed state
  match Network.generateFrom g (g.start networkSeed) origin r.n r.k (Scalar.ofNumeral rewiring) with
  | .error why => throw (.graph why)
  | .ok (network, note) =>
    match r.tolls.between? 0 network.arcCount with
    | none => throw .notComparable
    | some false => throw (.tollCount r.tolls network.arcCount)
    | some true => do
      let n ← Request.integer r.n
      if n < 0 ∧ network.arcCount ≠ 0 then throw .emptyRange
      let tolls ← Request.integer r.tolls
      return ((TollNetwork.draw g network n tolls.toNat state).1, note)

/-- A toll setting as requested, from the draws of a generator in the given state, and what is logged on
the way to it. -/
def generateFrom (g : Generator σ) (state : σ) (r : TollRequest α) (origin : Network.Origin α) :
    List LogLine × Except (Fault α) (TollSetting α) :=
  match r.networkFrom g state origin with
  | .error f => ([], .error f)
  | .ok (t, note) =>
    ([t.logLine], do return ⟨t, ← t.program r.budget r.integerTolls, note⟩)

/-- A toll setting as requested, with the generator that is used. -/
def generate (r : TollRequest α) (origin : Network.Origin α) :
    List LogLine × Except (Fault α) (TollSetting α) :=
  r.generateFrom Generator.linear (Source.ofSeed r.seed) origin

end TollRequest
end Bilevel
