import Bilevel.Proofs.Double.Integers
import Bilevel.Proofs.Toll.Program
import Bilevel.Toll.Session

/-!
# Bilevel.Proofs.Toll.Options

Tolls, budget and integer tolls do not change the network of a toll setting.

* `TollNetwork.charging` is the same network with other arcs that can be charged.
  `shortestPathFlowBy_charging` and `program_charging` say what does not depend on them: the flow without
  tolls, whatever search finds it, and the weights and equations of the program.
* `SameNetwork` and `SameTolls` say what two settings have in common. `generate_ignores_options`:
  settings that are drawn from one state of a generator have their network in common, and if they charge
  as many arcs, all but the budget and the integer tolls.
-/

namespace Bilevel

open Sampling

variable {α σ : Type}

/-! ## Without tolls -/

namespace TollNetwork

variable [Scalar α]

/-- Tolls that are zero change no price. -/
theorem foldl_modify_zero [AddsZero α] (weights : List Nat) {charges : List (Nat × α)}
    (hcharges : ∀ c ∈ charges, c.2 = Scalar.zero) :
    charges.foldl (fun a (e, toll) => a.modify e (Scalar.add · toll))
      (weights.map Scalar.ofNat).toArray = (weights.map Scalar.ofNat).toArray := by
  induction charges with
  | nil => rfl
  | cons c charges ih =>
    obtain ⟨e, toll⟩ := c
    obtain ⟨htoll, hrest⟩ := List.forall_mem_cons.1 hcharges
    obtain rfl : toll = Scalar.zero := htoll
    have hmodify : (weights.map (Scalar.ofNat (α := α))).toArray.modify e (Scalar.add · Scalar.zero) =
        (weights.map Scalar.ofNat).toArray := by
      refine Array.ext (Array.size_modify ..) fun i h1 h2 => ?_
      rw [Array.getElem_modify, List.getElem_toArray, List.getElem_map, AddsZero.add_zero, ite_self]
    simp only [List.foldl_cons, hmodify]
    exact ih hrest

theorem prices_zero [AddsZero α] (t : TollNetwork α) (k : Nat) :
    t.prices (List.replicate k (Scalar.zero : α)) = (t.weights.map Scalar.ofNat).toArray :=
  foldl_modify_zero t.weights fun _ hc => List.eq_of_mem_replicate (List.of_mem_zip hc).2

/-- The same network with other arcs that can be charged. -/
def charging (t : TollNetwork α) (tolled : List Nat) : TollNetwork α :=
  { t with tolled }

/-- Without tolls it makes no difference which arcs could be charged. -/
theorem shortestPathFlowBy_charging [AddsZero α] (find : Route.Finder) (t : TollNetwork α)
    (tolled : List Nat) :
    (t.charging tolled).shortestPathFlowBy find none = t.shortestPathFlowBy find none := by
  have hpath :
      (t.charging tolled).cheapestPath find (List.replicate tolled.length (Scalar.zero : α)) =
      t.cheapestPath find (List.replicate t.tolled.length (Scalar.zero : α)) := by
    unfold cheapestPath
    rw [prices_zero, prices_zero]
    rfl
  exact congrArg t.flowAlong hpath

section Program

variable {t : TollNetwork α} {tolled : List Nat} {budget budget' : Datum α}
  {integerTolls integerTolls' : Bool} {p p' : Program α}

/-- Weights and equations are those of the network, whatever can be charged. -/
theorem program_charging (h : t.program budget integerTolls = .ok p)
    (h' : (t.charging tolled).program budget' integerTolls' = .ok p') :
    p'.cy = p.cy ∧ p'.d = p.d ∧ p'.B = p.B ∧ p'.b = p.b := by
  obtain ⟨-, hcy, hd⟩ := objectives_of_program h
  obtain ⟨-, hcy', hd'⟩ := objectives_of_program h'
  obtain ⟨rows, rhs, fresh, hrows, hrhs, hbuild, rfl⟩ := exists_build_of_program h
  obtain ⟨rows', rhs', fresh', hrows', hrhs', hbuild', rfl⟩ := exists_build_of_program h'
  obtain rfl : rows = rows' := Except.ok.inj (hrows.symm.trans hrows')
  obtain rfl : rhs = rhs' := Except.ok.inj (hrhs.symm.trans hrhs')
  have hflows : fresh'.cy = fresh.cy := hcy'.trans hcy.symm
  obtain ⟨-, hlow, -⟩ := Program.parts_of_build hbuild
  obtain ⟨-, hlow', -⟩ := Program.parts_of_build hbuild'
  have hnl : fresh'.nl = fresh.nl := congrArg List.length hflows
  rw [hnl] at hlow'
  obtain ⟨hB, hb⟩ := Program.rest_of_constraints hlow hlow'
  exact ⟨hflows, hd'.trans hd.symm, hB, hb⟩

/-- With the same arcs to charge, budget and integer tolls make up the whole difference. -/
theorem program_of_options (h : t.program budget integerTolls = .ok p)
    (h' : t.program budget' integerTolls' = .ok p') :
    p' = { p with q := p'.q, Jx := p'.Jx } := by
  obtain ⟨rows, rhs, fresh, hrows, hrhs, hbuild, rfl⟩ := exists_build_of_program h
  obtain ⟨rows', rhs', fresh', hrows', hrhs', hbuild', rfl⟩ := exists_build_of_program h'
  obtain rfl : rows = rows' := Except.ok.inj (hrows.symm.trans hrows')
  obtain rfl : rhs = rhs' := Except.ok.inj (hrhs.symm.trans hrhs')
  obtain ⟨hcoefficients, -, hF⟩ := Program.toCoefficients_of_build hbuild hbuild' rfl
  obtain ⟨-, hx, -⟩ := Program.shaped_of_build hbuild
  obtain ⟨-, hx', -⟩ := Program.shaped_of_build hbuild'
  rw [hF rfl] at hcoefficients
  have hnu : fresh'.nu = fresh.nu := congrArg (fun c => c.cx.length) hcoefficients
  have hnl : fresh'.nl = fresh.nl := congrArg (fun c => c.cy.length) hcoefficients
  have hxBox : fresh'.xBox = fresh.xBox := by rw [hx', hnu, hx]
  rw [hxBox, hnl]
  exact congrArg (Program.mk · fresh.xBox _) hcoefficients

end Program

end TollNetwork

/-! ## Two settings -/

/-- The command asks for something that has nothing to do with tolls. -/
def TollCommand.AsksNetwork : TollCommand α → Prop
  | .start | .finish | .arcNumbers | .numberedArcs | .pathToFlow _ => True
  | .shortestPathFlow none | .shortestPathFlow (some .null) => True
  | .program (.read field) => field ∈ [.cy, .d, .B, .b, .nl, .ml]
  | _ => False

namespace TollSetting

variable [Scalar α]

/-- Two settings with one network: they differ at most in which arcs can be charged, and in the parts
of their programs that are about tolls. -/
structure SameNetwork (s s' : TollSetting α) : Prop where
  network_eq : s'.network = s.network.charging s'.network.tolled
  note_eq : s'.note = s.note
  cy_eq : s'.program.cy = s.program.cy
  d_eq : s'.program.d = s.program.d
  B_eq : s'.program.B = s.program.B
  b_eq : s'.program.b = s.program.b
  flow_eq : ∀ find : Route.Finder,
    s'.network.shortestPathFlowBy find none = s.network.shortestPathFlowBy find none
  answer_eq : ∀ c : TollCommand α, c.AsksNetwork → (s'.perform c).1 = (s.perform c).1

/-- Two settings that differ at most in their budget and in which tolls are integers. -/
structure SameTolls (s s' : TollSetting α) : Prop where
  network_eq : s'.network = s.network
  note_eq : s'.note = s.note
  program_eq : s'.program = { s.program with q := s'.program.q, Jx := s'.program.Jx }
  answer_eq : ∀ c : TollCommand α, (∀ command, c ≠ .program command) →
    (s'.perform c).1 = (s.perform c).1

variable {s s' : TollSetting α} {budget budget' : Datum α} {integerTolls integerTolls' : Bool}

theorem sameNetwork_of_charging [AddsZero α]
    (hnet : s'.network = s.network.charging s'.network.tolled) (hnote : s'.note = s.note)
    (h : s.network.program budget integerTolls = .ok s.program)
    (h' : s'.network.program budget' integerTolls' = .ok s'.program) : s.SameNetwork s' := by
  obtain ⟨t, p, note⟩ := s
  obtain ⟨t', p', note'⟩ := s'
  obtain ⟨tolled, rfl⟩ : ∃ tolled, t' = t.charging tolled := ⟨_, hnet⟩
  obtain ⟨hcy, hd, hB, hb⟩ : p'.cy = p.cy ∧ p'.d = p.d ∧ p'.B = p.B ∧ p'.b = p.b :=
    TollNetwork.program_charging h h'
  have hflow := fun find => t.shortestPathFlowBy_charging find tolled
  refine ⟨rfl, hnote, hcy, hd, hB, hb, hflow, fun c hc => ?_⟩
  cases c with
  | start | finish | arcNumbers | numberedArcs | pathToFlow => rfl
  | tolledArcs => exact hc.elim
  | shortestPathFlow tolls =>
    cases tolls with
    | none => exact congrArg (fun y => Answer.ofExcept (y.map .row)) (hflow Route.search)
    | some d =>
      cases d with
      | null => exact congrArg (fun y => Answer.ofExcept (y.map .row)) (hflow Route.search)
      | _ => exact hc.elim
  | program command =>
    cases command with
    | read field =>
      have hnl : p'.nl = p.nl := congrArg List.length hcy
      have hml : p'.ml = p.ml := congrArg List.length hb
      have hfield : field ∈ [.cy, .d, .B, .b, .nl, .ml] := hc
      have hread : p'.read field = p.read field := by
        simp only [List.mem_cons, List.not_mem_nil, or_false] at hfield
        rcases hfield with rfl | rfl | rfl | rfl | rfl | rfl <;>
          simp only [Program.read, hcy, hd, hB, hb, hnl, hml]
      exact congrArg Answer.ok hread
    | _ => exact hc.elim

theorem sameTolls_of_network (hnet : s'.network = s.network) (hnote : s'.note = s.note)
    (h : s.network.program budget integerTolls = .ok s.program)
    (h' : s'.network.program budget' integerTolls' = .ok s'.program) : s.SameTolls s' := by
  obtain ⟨t, p, note⟩ := s
  obtain ⟨t', p', note'⟩ := s'
  obtain rfl : t' = t := hnet
  refine ⟨rfl, hnote, TollNetwork.program_of_options h h', fun c hc => ?_⟩
  cases c with
  | program command => exact absurd rfl (hc command)
  | _ => rfl

end TollSetting

namespace TollRequest

variable [Scalar α]

/-- **Options.** Whatever the generator is, two settings with the same numbers of nodes and neighbours and
the same undirected graph, drawn from the same state, which is what a common seed gives them, have one
network with one weight for each arc; whatever does not ask for tolls is answered alike. If they also
charge as many arcs, they charge the same ones, and they differ at most in the right-hand side for the
budget and in which tolls are integers. -/
theorem generate_ignores_options [AddsZero α] (origin : Network.Origin α) {σ : Type}
    (g : Generator σ) (state : σ) (r r' : TollRequest α) {s s' : TollSetting α} (hn : r'.n = r.n)
    (hk : r'.k = r.k) (hs : (r.generateFrom g state origin).2 = .ok s)
    (hs' : (r'.generateFrom g state origin).2 = .ok s') :
    s.SameNetwork s' ∧ (r'.tolls.whole? = r.tolls.whole? → s.SameTolls s') := by
  obtain ⟨hnet, hprogram⟩ := generateFrom_cases hs
  obtain ⟨hnet', hprogram'⟩ := generateFrom_cases hs'
  obtain ⟨network, n, k, hgen, hsize, htolls, -, hdrawn⟩ := networkFrom_cases hnet
  obtain ⟨network', n', k', hgen', hsize', htolls', -, hdrawn'⟩ := networkFrom_cases hnet'
  -- the network is the same, and so is the state in which weights and tolled arcs are drawn
  rw [hn, hk, hgen] at hgen'
  obtain ⟨rfl, hnote⟩ : network = network' ∧ s.note = s'.note := by
    simpa only [Prod.mk.injEq] using Except.ok.inj hgen'
  obtain rfl : n = n' := by
    rw [hn, hsize] at hsize'
    exact Option.some.inj hsize'
  refine ⟨TollSetting.sameNetwork_of_charging ?_ hnote.symm hprogram hprogram', fun hcount =>
    TollSetting.sameTolls_of_network ?_ hnote.symm hprogram hprogram'⟩
  · rw [hdrawn, hdrawn']
    rfl
  · obtain rfl : k = k' := eq_of_whole? htolls (hcount ▸ htolls')
    rw [hdrawn, hdrawn']

/-- The triangle with other options. -/
def otherOptions (tolls : Int) : TollRequest Extended :=
  { triangle 5 with tolls := .int tolls, budget := .real (.finite (1 / 2)), integerTolls := true }

theorem generate_otherOptions :
    ((triangle 5).generate allJoined).2.isOk = true ∧
      ((otherOptions 1).generate allJoined).2.isOk = true ∧
      ((otherOptions 3).generate allJoined).2.isOk = true := by
  refine ⟨?_, ?_, ?_⟩ <;> cbv

theorem generate_ignores_options_triangle :
    ∃ s s₁ s₃ : TollSetting Extended, ((triangle 5).generate allJoined).2 = .ok s ∧
      ((otherOptions 1).generate allJoined).2 = .ok s₁ ∧
      ((otherOptions 3).generate allJoined).2 = .ok s₃ ∧ s.SameTolls s₁ ∧ s.SameNetwork s₃ := by
  obtain ⟨hok, hok₁, hok₃⟩ := generate_otherOptions
  obtain ⟨s, hs⟩ := exists_of_isOk hok
  obtain ⟨s₁, hs₁⟩ := exists_of_isOk hok₁
  obtain ⟨s₃, hs₃⟩ := exists_of_isOk hok₃
  have hsame := generate_ignores_options allJoined Generator.linear (Source.ofSeed (some 5))
  refine ⟨s, s₁, s₃, hs, hs₁, hs₃, ?_, ?_⟩
  · exact (hsame (triangle 5) (otherOptions 1) rfl rfl hs hs₁).2 rfl
  · exact (hsame (triangle 5) (otherOptions 3) rfl rfl hs hs₃).1

end TollRequest
end Bilevel
