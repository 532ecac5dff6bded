import Bilevel.Proofs.Graph.Base
import Bilevel.Scalar.Extended
import Bilevel.Toll.Request

/-!
# Bilevel.Proofs.Toll.Request

What holds of every toll setting over a simple graph, whatever generator it is drawn with.

* `TollNetwork.Sound` adds to a sound network that every arc has a weight, and that the arcs to be
  charged are arcs.
* `networkFrom_cases` and `generateFrom_cases` take a run apart that ends with a setting.
* `sound_of_generateFrom`: the network of such a setting is sound, with as many arcs to be charged as
  requested. `numbered_of_generateFrom` is what remains of this over graphs with loops.
-/

namespace Bilevel

namespace TollNetwork

variable {α : Type}

/-- What holds of the networks of toll settings. -/
structure Sound (t : TollNetwork α) : Prop where
  network : t.toNamedNetwork.Sound
  length_weights : t.weights.length = t.graph.ordered.length
  tolled_lt : ∀ e ∈ t.tolled, e < t.graph.ordered.length

/-- Every arc has a number and a weight, and what can be charged are arcs. -/
structure Numbered (t : TollNetwork α) : Prop where
  network : t.toNamedNetwork.Numbered
  length_weights : t.weights.length = t.graph.ordered.length
  tolled_lt : ∀ e ∈ t.tolled, e < t.graph.ordered.length

theorem Sound.numbered {t : TollNetwork α} (ht : t.Sound) : t.Numbered :=
  ⟨ht.network.numbered, ht.length_weights, ht.tolled_lt⟩

section Draw

open Sampling

variable {σ : Type} (g : Generator σ) {network : NamedNetwork α} {k : Nat}

theorem numbered_draw (hnet : network.Numbered) (n : Int) (hk : k ≤ network.arcCount) (state : σ) :
    (draw g network n k state).1.Numbered ∧ (draw g network n k state).1.tolled.length = k := by
  refine ⟨⟨hnet, length_many _ _ state, fun e he => ?_⟩, ?_⟩
  · show e < network.graph.ordered.length
    rw [← hnet.arcCount_eq]
    exact g.lt_of_mem_select hk _ e (List.mem_mergeSort.1 he)
  · exact (List.length_mergeSort _).trans (g.length_select hk _)

theorem sound_draw (hnet : network.Sound) (n : Int) (hk : k ≤ network.arcCount) (state : σ) :
    (draw g network n k state).1.Sound ∧ (draw g network n k state).1.tolled.length = k := by
  obtain ⟨hnumbered, hlength⟩ := numbered_draw g hnet.numbered n hk state
  exact ⟨⟨hnet, hnumbered.length_weights, hnumbered.tolled_lt⟩, hlength⟩

theorem nodup_tolled_draw (n : Int) (hk : k ≤ network.arcCount) (state : σ) :
    (draw g network n k state).1.tolled.Nodup :=
  (List.mergeSort_perm _ _).nodup_iff.2 (g.nodup_select hk _)

end Draw

end TollNetwork

namespace TollRequest

open Sampling

variable {α σ : Type} [Scalar α] {g : Generator σ} {state : σ} {r : TollRequest α}
  {origin : Network.Origin α} {G : Graph}

theorem namedOfDraws_of_generateFrom {n k : Datum α} {rewiring : α} {network : NamedNetwork α}
    {note : Network.BaseNote α} (hbase : Network.base origin n k = .ok (.ofGraph G))
    (h : Network.generateFrom g state origin n k rewiring = .ok (network, note)) :
    ∃ keep pick, Network.namedOfDraws (.ofGraph G) keep pick = .ok network := by
  obtain ⟨base, hbase', h⟩ := exists_of_bind h
  obtain ⟨drawn, hdrawn, h⟩ := exists_of_bind h
  cases h
  cases hbase.symm.trans hbase'
  obtain ⟨pick, hdraw⟩ := Network.exists_draw g (.ofGraph G : NamedGraph α) (g.freshSeed state).2
  exact ⟨_, pick, hdraw.symm.trans hdrawn⟩

omit [Scalar α] in
theorem integer_eq_ok_iff {d : Datum α} {n : Int} :
    (Request.integer d : Except (Fault α) Int) = .ok n ↔ d.whole? = some n := by
  rw [Request.integer]
  cases d.whole? with
  | none => exact iff_of_false (fun h => by cases h) fun h => by cases h
  | some k => exact ⟨fun h => by cases h; rfl, fun h => by cases h; rfl⟩

omit [Scalar α] in
theorem eq_of_whole? {d : Datum α} {m n : Nat} (hm : d.whole? = some (m : Int))
    (hn : d.whole? = some (n : Int)) : m = n :=
  Int.ofNat_inj.1 (Option.some.inj (hm.symm.trans hn))

theorem bounds_of_between? {d : Datum α} {n : Int} {high : Nat} (hn : d.whole? = some n)
    (h : d.between? 0 high = some true) : 0 ≤ n ∧ n ≤ high := by
  cases d with
  | bool b =>
    cases hn
    simp only [Datum.between?, Option.some.injEq, Bool.and_eq_true, decide_eq_true_eq] at h
    cases b with
    | false => exact ⟨le_rfl, Int.natCast_nonneg high⟩
    | true => exact ⟨Int.one_nonneg, Int.ofNat_le.2 h.2⟩
  | int k =>
    cases hn
    simp only [Datum.between?, Option.some.injEq, Bool.and_eq_true, decide_eq_true_eq] at h
    exact h
  | null => cases hn
  | real x => cases hn
  | text s => cases hn
  | list items => cases hn
  | object fields => cases hn

/-- What stands behind the network of a request: one that is drawn for the base graph, with as many
arcs to be charged as asked. The draws for it come after the seed that the first one is drawn from. -/
theorem networkFrom_cases {t : TollNetwork α} {note : Network.BaseNote α}
    (h : r.networkFrom g state origin = .ok (t, note)) :
    ∃ network n, ∃ k : Nat,
      Network.generateFrom g (g.start (g.freshSeed state).1) origin r.n r.k
        (Scalar.ofNumeral rewiring) = .ok (network, note) ∧
      r.n.whole? = some n ∧ r.tolls.whole? = some (k : Int) ∧ k ≤ network.arcCount ∧
      t = (TollNetwork.draw g network n k (g.freshSeed state).2).1 := by
  rcases hseed : g.freshSeed state with ⟨seed, rest⟩
  rw [networkFrom, hseed] at h
  dsimp only at h ⊢
  split at h
  · cases h
  · rename_i network note' hgen
    split at h
    · cases h
    · cases h
    · rename_i hbetween
      obtain ⟨n, hn, h⟩ := exists_of_bind h
      split at h
      · cases h
      · obtain ⟨tolls, htolls, h⟩ := exists_of_bind h
        cases h
        have hwhole := integer_eq_ok_iff.1 htolls
        obtain ⟨h0, h1⟩ := bounds_of_between? hwhole hbetween
        refine ⟨network, n, tolls.toNat, hgen, integer_eq_ok_iff.1 hn, ?_, by omega, rfl⟩
        rw [hwhole, Int.toNat_of_nonneg h0]

/-- What stands behind a setting: its network, and the program of it. -/
theorem generateFrom_cases {s : TollSetting α} (h : (r.generateFrom g state origin).2 = .ok s) :
    r.networkFrom g state origin = .ok (s.network, s.note) ∧
      s.network.program r.budget r.integerTolls = .ok s.program := by
  rw [generateFrom] at h
  split at h
  · cases h
  · rename_i t note hnetwork
    obtain ⟨p, hprogram, h⟩ := exists_of_bind h
    cases h
    exact ⟨hnetwork, hprogram⟩

/-- A generated setting: what is drawn for the base graph, and the program of it. -/
theorem drawn_of_generateFrom (hbase : Network.base origin r.n r.k = .ok (.ofGraph G))
    {s : TollSetting α} (h : (r.generateFrom g state origin).2 = .ok s) :
    ∃ keep pick network n rest, ∃ k : Nat,
      Network.namedOfDraws (.ofGraph G) keep pick = .ok network ∧ k ≤ network.arcCount ∧
      s.network = (TollNetwork.draw g network n k rest).1 ∧ r.n.whole? = some n ∧
      r.tolls.whole? = some (k : Int) ∧
      s.network.program r.budget r.integerTolls = .ok s.program := by
  obtain ⟨hnet, hprogram⟩ := generateFrom_cases h
  obtain ⟨network, n, k, hgen, hn, hwhole, hk, hdrawn⟩ := networkFrom_cases hnet
  obtain ⟨keep, pick, hdraws⟩ := namedOfDraws_of_generateFrom hbase hgen
  exact ⟨keep, pick, network, n, _, k, hdraws, hk, hdrawn, hn, hwhole, hprogram⟩

/-- Over a simple graph the network of a setting is sound. -/
theorem sound_of_generateFrom (hG : G.Simple)
    (hbase : Network.base origin r.n r.k = .ok (.ofGraph G)) {s : TollSetting α}
    (h : (r.generateFrom g state origin).2 = .ok s) :
    s.network.Sound ∧ r.tolls.whole? = some (s.network.tolled.length : Int) ∧
      s.network.program r.budget r.integerTolls = .ok s.program := by
  obtain ⟨keep, pick, network, n, rest, k, hdraws, hk, hs, -, hwhole, hprogram⟩ :=
    drawn_of_generateFrom hbase h
  obtain ⟨hsound, hlength⟩ :=
    TollNetwork.sound_draw g (Network.sound_of_namedOfDraws hG hdraws) n hk rest
  rw [← hs] at hsound hlength
  exact ⟨hsound, hlength ▸ hwhole, hprogram⟩

/-- Over any graph whose nodes are written as integers, loops included, the arcs are numbered, and no
arc is to be charged twice. -/
theorem numbered_of_generateFrom (hbase : Network.base origin r.n r.k = .ok (.ofGraph G))
    {s : TollSetting α} (h : (r.generateFrom g state origin).2 = .ok s) :
    s.network.Numbered ∧ s.network.tolled.Nodup ∧
      r.tolls.whole? = some (s.network.tolled.length : Int) ∧
      s.network.program r.budget r.integerTolls = .ok s.program := by
  obtain ⟨keep, pick, network, n, rest, k, hdraws, hk, hs, hn, hwhole, hprogram⟩ :=
    drawn_of_generateFrom hbase h
  have hG : G.Ranged := Graph.ranged_of_base hn hbase
  obtain ⟨hnumbered, hlength⟩ :=
    TollNetwork.numbered_draw g ((Network.drawnFrom_of_namedOfDraws hdraws).numbered hG) n hk rest
  have hnodup := TollNetwork.nodup_tolled_draw g n hk rest
  rw [← hs] at hnumbered hlength hnodup
  exact ⟨hnumbered, hnodup, hlength ▸ hwhole, hprogram⟩

/-- Three nodes that are all joined, and one arc that can be charged. -/
def triangle (seed : Int) : TollRequest Extended where
  n := .int 3
  k := .int 2
  tolls := .int 1
  budget := .int 100
  integerTolls := false
  seed := some seed

def triangleEdges : List (Nat × Nat) :=
  [(0, 1), (1, 2), (0, 2)]

def allJoined : Network.Origin Extended :=
  .given (.list (triangleEdges.map fun e => .list [.int e.1, .int e.2]))

theorem base_triangle (seed : Int) :
    Network.base allJoined (triangle seed).n (triangle seed).k =
      .ok (.ofGraph (Graph.ofEdges 3 triangleEdges)) ∧ (Graph.ofEdges 3 triangleEdges).Simple :=
  Network.base_given (by decide) (triangle seed).k rfl

end TollRequest
end Bilevel
