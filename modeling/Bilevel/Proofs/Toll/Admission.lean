import Bilevel.Proofs.Graph.Orientation
import Bilevel.Proofs.Reconstruction
import Bilevel.Proofs.Toll.Program

/-!
# Bilevel.Proofs.Toll.Admission

Which toll settings there are, and what their programs look like.

* `TollNetwork.Layout n m k b` is all that is said about the program of a network with `n` nodes and
  `m` arcs, `k` of which are charged, and a budget `b`. Its last field says that the general
  construction takes the same coefficients and arrives at the same program.
* `Sound.exists_layout`: a sound network has such a program.
* `Draws` is what may be drawn for a setting over a graph, whatever it is drawn from.
* `generate_admits`: over a connected simple graph a request is refused exactly if it asks for less
  than no arcs to be charged, or for more than there are.
-/

namespace Bilevel

theorem pairwise_lt_mergeSort {l : List Nat} (h : l.Nodup) :
    (l.mergeSort (· ≤ ·)).Pairwise (· < ·) := by
  have hle : (l.mergeSort (· ≤ ·)).Pairwise fun a b => decide (a ≤ b) = true := by
    refine List.pairwise_mergeSort (fun a b c hab hbc => ?_) (fun a b => ?_) l
    · exact decide_eq_true ((of_decide_eq_true hab).trans (of_decide_eq_true hbc))
    · rw [Bool.or_eq_true, decide_eq_true_eq, decide_eq_true_eq]
      exact Nat.le_total a b
  have hne : (l.mergeSort (· ≤ ·)).Pairwise (· ≠ ·) := (List.mergeSort_perm l _).nodup_iff.2 h
  refine (hle.and hne).imp fun hab => ?_
  exact lt_of_le_of_ne (of_decide_eq_true hab.1) hab.2

namespace TollNetwork

variable {α : Type} [Scalar α] {t : TollNetwork α} {budget : Datum α} {b : α}

/-- The program of a network with `n` nodes and `m` arcs, `k` of which are charged. -/
structure Layout (t : TollNetwork α) (n m k : Nat) (b : α) (integerTolls : Bool) (p : Program α) :
    Prop where
  shape_eq : p.shape = [k, m, 1, 2 * n]
  shaped : p.Shaped
  xBox_eq : p.xBox = ⟨List.replicate k Scalar.zero, List.replicate k Scalar.infinity⟩
  yBox_eq : p.yBox = ⟨List.replicate m Scalar.zero, List.replicate m Scalar.one⟩
  cx_eq : p.cx = List.replicate k Scalar.zero
  cy_eq : p.cy = p.d
  d_eq : ∀ (e : Nat) (a : Nat × Nat), t.graph.ordered[e]? = some a → ∃ w ≤ 10 * n,
    t.weights[t.graph.numberFrom t.graph.firsts a]? = some w ∧ p.d[e]? = some (Scalar.ofNat w)
  A_eq : p.A = List.replicate (2 * n) (List.replicate k Scalar.zero)
  G_eq : p.G = [List.replicate k Scalar.one]
  H_eq : p.H = [List.replicate m Scalar.zero]
  q_eq : p.q = [b]
  Jx_eq : p.Jx = if integerTolls then (List.range' 1 k).map fun (i : Nat) => .int i else []
  length_tolled : t.tolled.length = k
  tolled_lt : ∀ e ∈ t.tolled, e < m
  tolled_ascending : t.tolled.Pairwise (· < ·)
  /-- The row of a charged arc has a one at its number, and zeros elsewhere. -/
  F_eq : ∀ i e : Nat, t.tolled[i]? = some e →
    p.F[i]? = some ((List.replicate m Scalar.zero).set e Scalar.one)
  /-- The coefficients are accepted, and so is every change of an upper bound. -/
  built : ∃ fresh, Program.build p.toCoefficients.loose = .ok fresh ∧
    fresh.setEach .upper .lower (.real Scalar.one) = .ok p

theorem Sound.exists_layout (ht : t.Sound) (hweights : ∀ w ∈ t.weights, w ≤ 10 * t.graph.size)
    (htolled : t.tolled.Pairwise (· < ·)) (hb : budget.toScalar = .ok b) (integerTolls : Bool) :
    ∃ p, t.program budget integerTolls = .ok p ∧
      t.Layout t.graph.size t.arcCount t.tolled.length b integerTolls p := by
  have hshaped := shaped_assembled ht b integerTolls
  have hnl := nl_assembled ht.numbered b integerTolls
  have hnu := nu_assembled t b integerTolls
  have hml : (t.assembled b integerTolls).ml = 2 * t.graph.size :=
    hshaped.A_shape.length_eq.symm.trans List.length_replicate
  refine ⟨t.assembled b integerTolls, program_eq ht hb integerTolls, ?_⟩
  rw [ht.network.arcCount_eq]
  refine ⟨?_, hshaped, rfl, rfl, rfl, rfl, fun e a ha => ?_, rfl, rfl, rfl, rfl, rfl, rfl,
    ht.tolled_lt, htolled, fun i e he => ?_, ?_⟩
  · rw [Program.shape, hnu, hnl, hml]
    rfl
  · have he : e < t.weights.length := by
      rw [ht.length_weights]
      exact (List.getElem?_eq_some_iff.1 ha).1
    refine ⟨t.weights[e], hweights _ (List.getElem_mem he), ?_, ?_⟩
    · rw [ht.network.proper.numberFrom_eq ha, List.getElem?_eq_getElem he]
    · show (t.weights.map Scalar.ofNat)[e]? = _
      rw [List.getElem?_map, List.getElem?_eq_getElem he]
      rfl
  · show (units t.graph.ordered.length t.tolled)[i]? = _
    rw [units, List.getElem?_map, he]
    rfl
  · refine hshaped.exists_built ?_ ?_
    · rw [hnu]
      rfl
    · rw [hnl]
      rfl

/-- What is drawn for a setting over a graph: a direction for each edge, a sink, a weight for each
arc, and the arcs to be charged. -/
structure Draws (G : Graph) where
  keep : List Bool
  pick : Nat
  weights : List Nat
  chosen : List Nat
  length_keep : keep.length = G.pairs.length
  length_weights : weights.length = G.pairs.length
  weight_le : ∀ w ∈ weights, w ≤ 10 * G.size
  nodup_chosen : chosen.Nodup
  chosen_lt : ∀ e ∈ chosen, e < G.pairs.length

def ofDraws {G : Graph} (network : NamedNetwork α) (d : Draws G) : TollNetwork α :=
  { network with weights := d.weights, tolled := d.chosen.mergeSort (· ≤ ·) }

variable {G : Graph}

theorem exists_network (hG : G.Simple) (hconn : G.Connected) (hsize : 2 ≤ G.size)
    {keep : List Bool} (hkeep : keep.length = G.pairs.length) (pick : Nat) :
    ∃ network : NamedNetwork α, Network.namedOfDraws (.ofGraph G) keep pick = .ok network ∧
      network.Sound ∧ network.graph.size = G.size ∧ network.arcCount = G.pairs.length := by
  obtain ⟨network, hnetwork⟩ :=
    Network.exists_namedOfDraws (α := α) hG hconn hsize hkeep pick
  have ho := Network.orientation_of_namedOfDraws hG hkeep hnetwork
  exact ⟨network, hnetwork, Network.sound_of_namedOfDraws hG hnetwork, ho.size_eq, ho.edgeCount_eq⟩

/-- Whatever is drawn, there is a program. -/
theorem exists_layout_of_draws (hG : G.Simple) (hconn : G.Connected) (hsize : 2 ≤ G.size)
    (hb : budget.toScalar = .ok b) (integerTolls : Bool) (d : Draws G) :
    ∃ (network : NamedNetwork α) (p : Program α),
      Network.namedOfDraws (.ofGraph G) d.keep d.pick = .ok network ∧
      (ofDraws network d).program budget integerTolls = .ok p ∧
      (ofDraws network d).Layout G.size G.pairs.length d.chosen.length b integerTolls p := by
  obtain ⟨network, hnetwork, hnet, hnodes, harcs⟩ :=
    exists_network (α := α) hG hconn hsize d.length_keep d.pick
  have hcount : network.graph.ordered.length = G.pairs.length := hnet.arcCount_eq.symm.trans harcs
  have ht : (ofDraws network d).Sound := by
    refine ⟨hnet, d.length_weights.trans hcount.symm, fun e he => ?_⟩
    exact (d.chosen_lt e (List.mem_mergeSort.1 he)).trans_eq hcount.symm
  have hweights : ∀ w ∈ (ofDraws network d).weights, w ≤ 10 * (ofDraws network d).graph.size :=
    fun w hw => (d.weight_le w hw).trans_eq (congrArg (10 * ·) hnodes.symm)
  obtain ⟨p, hp, hlayout⟩ :=
    ht.exists_layout hweights (pairwise_lt_mergeSort d.nodup_chosen) hb integerTolls
  have hchosen : (ofDraws network d).tolled.length = d.chosen.length := List.length_mergeSort _
  have hsizes : (ofDraws network d).graph.size = G.size ∧
      (ofDraws network d).arcCount = G.pairs.length := ⟨hnodes, harcs⟩
  rw [hchosen, hsizes.1, hsizes.2] at hlayout
  exact ⟨network, p, hnetwork, hp, hlayout⟩

end TollNetwork

namespace TollRequest

open Sampling

variable {α σ : Type} [Scalar α] {r : TollRequest α} {origin : Network.Origin α} {G : Graph} {b : α}
  {c : Int} {g : Generator σ} {state : σ}

theorem between?_of_whole? {d : Datum α} (hd : d.whole? = some c) (high : Nat) :
    d.between? 0 high = some (decide (0 ≤ c ∧ c ≤ high)) := by
  cases d with
  | bool v =>
    cases hd
    cases v <;> simp [Datum.between?]
  | int k =>
    cases hd
    simp [Datum.between?]
  | null => cases hd
  | real x => cases hd
  | text s => cases hd
  | list items => cases hd
  | object fields => cases hd

/-- What becomes of a request once the network below it is drawn. -/
theorem networkFrom_eq {seed n : Nat} {rest : σ} {network : NamedNetwork α}
    {note : Network.BaseNote α} (hseed : g.freshSeed state = (seed, rest))
    (hgen : Network.generateFrom g (g.start seed) origin r.n r.k (Scalar.ofNumeral rewiring) =
      .ok (network, note))
    (hn : r.n.whole? = some (n : Int)) (hc : r.tolls.whole? = some c) :
    r.networkFrom g state origin =
      if 0 ≤ c ∧ c ≤ network.arcCount then
        .ok ((TollNetwork.draw g network n c.toNat rest).1, note)
      else .error (.tollCount r.tolls network.arcCount) := by
  rw [networkFrom, hseed]
  simp only [hgen, between?_of_whole? hc]
  by_cases hfits : 0 ≤ c ∧ c ≤ network.arcCount
  · rw [decide_eq_true hfits, if_pos hfits]
    simp only [integer_eq_ok_iff.2 hn, integer_eq_ok_iff.2 hc, bind, Except.bind]
    rw [if_neg fun h => absurd h.1 (by omega)]
    rfl
  · rw [decide_eq_false hfits, if_neg hfits]
    rfl

omit [Scalar α] in
/-- A generator keeps to what may be drawn. -/
theorem exists_draws_of_draw (g : Generator σ) {keep : List Bool} {pick : Nat}
    {network : NamedNetwork α} (hkeep : keep.length = G.pairs.length) (hnet : network.Sound)
    (harcs : network.arcCount = G.pairs.length) {k : Nat} (hk : k ≤ G.pairs.length) (state : σ) :
    ∃ d : TollNetwork.Draws G, d.keep = keep ∧ d.pick = pick ∧ d.chosen.length = k ∧
      (TollNetwork.draw g network G.size k state).1 = TollNetwork.ofDraws network d := by
  have hbound : (TollNetwork.weightFactor * (G.size : Int) + 1).toNat = 10 * G.size + 1 := by
    rw [TollNetwork.weightFactor]
    omega
  have hweight := forall_mem_many (P := (· < 10 * G.size + 1)) (g.below_lt (Nat.succ_pos _))
    network.graph.ordered.length state
  rw [← hbound] at hweight
  have hcount : k ≤ network.arcCount := harcs ▸ hk
  refine ⟨⟨keep, pick, _, _, hkeep, ?_, fun w hw => ?_, g.nodup_select hcount _, ?_⟩, rfl, rfl,
    g.length_select hcount _, rfl⟩
  · exact (length_many _ _ state).trans (hnet.arcCount_eq.symm.trans harcs)
  · have hlt := hweight w hw
    omega
  · intro e he
    rw [← harcs]
    exact g.lt_of_mem_select hcount _ e he

/-- **Admission.** Over a connected simple graph of at least two nodes the construction succeeds
whatever is drawn. Whatever the generator is and in whatever state, a request is refused exactly if less
than no arcs are to be charged, or more than there are edges. -/
theorem generate_admits (hG : G.Simple) (hconn : G.Connected) (hsize : 2 ≤ G.size)
    (hbase : Network.base origin r.n r.k = .ok (.ofGraph G))
    (hn : r.n.whole? = some (G.size : Int)) (hc : r.tolls.whole? = some c)
    (hb : r.budget.toScalar = .ok b) :
    (∀ d : TollNetwork.Draws G, ∃ (network : NamedNetwork α) (p : Program α),
      Network.namedOfDraws (.ofGraph G) d.keep d.pick = .ok network ∧
      (TollNetwork.ofDraws network d).program r.budget r.integerTolls = .ok p ∧
      (TollNetwork.ofDraws network d).Layout G.size G.pairs.length d.chosen.length b
        r.integerTolls p) ∧
    ∀ {σ : Type} (g : Generator σ) (state : σ),
      (c < 0 ∨ G.pairs.length < c →
        r.generateFrom g state origin = ([], .error (.tollCount r.tolls G.pairs.length))) ∧
      (0 ≤ c → c ≤ G.pairs.length →
        ∃ s : TollSetting α, r.generateFrom g state origin = ([s.network.logLine], .ok s) ∧
          s.network.Layout G.size G.pairs.length c.toNat b r.integerTolls s.program) := by
  have hlayout := TollNetwork.exists_layout_of_draws hG hconn hsize hb r.integerTolls
  refine ⟨hlayout, fun g state => ?_⟩
  rcases hseed : g.freshSeed state with ⟨seed, rest⟩
  obtain ⟨pick, hgen⟩ :=
    Network.exists_generateFrom g (g.start seed) origin (Scalar.ofNumeral rewiring) hbase
  have hkeep : (Network.drawnDirections g (g.start seed) G).length = G.pairs.length :=
    Network.length_directions g G _
  obtain ⟨network, hnetwork, hnet, -, harcs⟩ :=
    TollNetwork.exists_network (α := α) hG hconn hsize hkeep pick
  obtain ⟨note, hnote⟩ := hgen network hnetwork
  have hrun := networkFrom_eq hseed hnote hn hc
  rw [harcs] at hrun
  refine ⟨fun hrange => ?_, fun h0 hm => ?_⟩
  · rw [if_neg (by omega)] at hrun
    rw [generateFrom, hrun]
  · rw [if_pos ⟨h0, hm⟩] at hrun
    obtain ⟨d, hdkeep, hdpick, hcount, hdraw⟩ :=
      exists_draws_of_draw g hkeep hnet harcs (show c.toNat ≤ G.pairs.length by omega) rest
    -- the edges were directed before, so that the network of these draws is the one already there
    obtain ⟨network', p, hnetwork', hp, hl⟩ := hlayout d
    rw [hdkeep, hdpick, hnetwork] at hnetwork'
    cases hnetwork'
    rw [hcount] at hl
    rw [hdraw] at hrun
    refine ⟨⟨TollNetwork.ofDraws network d, p, note⟩, ?_, hl⟩
    rw [generateFrom, hrun]
    simp only [hp, bind, Except.bind]
    rfl

/-- A kite with some of its four arcs to be charged. -/
def kiteTolls (tolls : Int) : TollRequest Extended where
  n := .int 4
  k := .int 2
  tolls := .int tolls
  budget := .real (.finite (5 / 2))
  integerTolls := true
  seed := some 1

def kiteEdges : Network.Origin Extended :=
  .given (.list (Network.kite.map fun e => .list [.int e.1, .int e.2]))

/-- All four arcs can be charged, but not five. -/
theorem generate_admits_kite :
    (∃ s, (kiteTolls 4).generate kiteEdges = ([s.network.logLine], .ok s) ∧
      s.network.Layout 4 4 4 (.finite (5 / 2)) true s.program) ∧
    (kiteTolls 5).generate kiteEdges = ([], .error (.tollCount (.int 5) 4)) := by
  have hedges : ∀ e ∈ Network.kite, e.1 < 4 ∧ e.2 < 4 ∧ e.1 ≠ e.2 := by decide
  obtain ⟨hbase, hG⟩ := Network.base_given (α := Extended) hedges (kiteTolls 4).k
    (show (kiteTolls 4).n.whole? = _ from rfl)
  have hconn : (Graph.ofEdges 4 Network.kite).Connected :=
    (Graph.isConnected_iff hG (by decide)).1 (by decide)
  obtain ⟨-, hfour⟩ := generate_admits (r := kiteTolls 4) hG hconn (by decide) hbase rfl rfl rfl
  obtain ⟨-, hfive⟩ := generate_admits (r := kiteTolls 5) hG hconn (by decide) hbase rfl rfl rfl
  exact ⟨(hfour Generator.linear (Source.ofSeed (some 1))).2 (by decide) (by decide),
    (hfive Generator.linear (Source.ofSeed (some 1))).1 (.inr (by decide))⟩

end TollRequest
end Bilevel
