import Bilevel.Proofs.Construction
import Bilevel.Proofs.Feasibility
import Bilevel.Proofs.Graph.Flow
import Bilevel.Proofs.Reconstruction
import Bilevel.Proofs.Toll.Request

/-!
# Bilevel.Proofs.Toll.Program

The program of a toll setting over exact numbers.

* `incidence_eq`, `supply_eq`: the equations of flow are written down from the numbers of the nodes.
* `assembled` is the program as a whole. `program_eq`: the construction takes its coefficients and
  arrives at it, for any budget that is a number. `exists_assembled`: no other budget is taken.
* `lowerFeasible_iff`: the rows of the follower hold exactly if at every node the balance of the flow
  is that of one unit from the source to the sink, and the bounds if all amounts are between zero and
  one, up to the tolerance.
-/

namespace Bilevel

open Linear in
/-- What the follower can choose from, whatever the leader does: its rows without the leader's part
hold, and its bounds. -/
def Program.Polytope (p : Program Extended) (y : List ℚ) : Prop :=
  (∀ (i : Nat) (r : Row Extended) (c : Extended), p.B[i]? = some r → p.b[i]? = some c →
    ((product (rational r) y : ℝ) : EReal) ≤ c.toEReal) ∧
  BoundsWithin p.yBox y 0

namespace TollNetwork

section Incidence

variable {α : Type}

theorem placeOf_natCast {n v : Nat} (e : Nat) (h : v < n) :
    (placeOf n e (.int v) : Except (Fault α) Place) = .ok (.cell v) := by
  rw [placeOf, rowOf_natCast h]
  rfl

theorem mapM_placeOf {n : Nat} {arcs : List (Nat × Nat)} (harcs : ∀ a ∈ arcs, a.1 < n ∧ a.2 < n)
    (k : Nat) :
    ((arcs.map fun a => ((.int a.1, .int a.2) : Datum α × Datum α)).zipIdx k).mapM
      (fun ((a, b), e) => do return (← placeOf n e a, ← placeOf n e b)) =
      (.ok (arcs.map fun a => (.cell a.1, .cell a.2)) : Except (Fault α) (List (Place × Place))) := by
  induction arcs generalizing k with
  | nil => rfl
  | cons a arcs ih =>
    obtain ⟨h1, h2⟩ := harcs a List.mem_cons_self
    simp only [List.map_cons, List.zipIdx_cons, List.mapM_cons, placeOf_natCast k h1,
      placeOf_natCast k h2, ih fun b hb => harcs b (List.mem_cons_of_mem a hb)]
    rfl

theorem mapM_cells? (arcs : List (Nat × Nat)) :
    (arcs.map fun a => (Place.cell a.1, Place.cell a.2)).mapM cells? = some arcs := by
  induction arcs with
  | nil => rfl
  | cons a arcs ih =>
    rw [List.map_cons, List.mapM_cons, ih]
    rfl

variable {t : TollNetwork α}

theorem Sound.ends_lt (ht : t.Sound) :
    ∀ a ∈ t.graph.ordered, a.1 < t.graph.size ∧ a.2 < t.graph.size :=
  fun _ ha => ⟨Digraph.lt_size_of_mem (Digraph.mem_ordered.1 ha),
    ht.network.proper.lt_size_of_mem (Digraph.mem_ordered.1 ha)⟩

theorem Sound.ends_ne (ht : t.Sound) : ∀ a ∈ t.graph.ordered, a.1 ≠ a.2 := by
  rintro ⟨u, v⟩ ha (rfl : u = v)
  exact ht.network.loopless u (Digraph.mem_ordered.1 ha)

variable [Scalar α]

/-- The rows of the incidence matrix. -/
def nodeRows (t : TollNetwork α) : Rows α :=
  (List.range t.graph.size).map (incidenceRow t.graph.ordered)

/-- The right-hand sides of the equations. -/
def nodeSides (t : TollNetwork α) : Row α :=
  (List.range t.graph.size).map fun v =>
    if v = t.sink then Scalar.neg Scalar.one
    else if v = t.source then Scalar.one
    else Scalar.zero

theorem incidence_eq (ht : t.Sound) : t.incidence = .ok t.nodeRows := by
  rw [incidence, ht.network.arcNames_eq, mapM_placeOf ht.ends_lt]
  simp only [bind, Except.bind]
  rw [mapM_cells?]
  rfl

theorem supply_eq (ht : t.Sound) : t.supply = .ok t.nodeSides := by
  have hsource : (rowOf t.graph.size Network.start : Except (Fault α) Nat) = .ok t.source := by
    rw [ht.network.source_eq]
    exact rowOf_natCast ht.network.size_pos
  have hsink : (rowOf t.graph.size t.finish : Except (Fault α) Nat) = .ok t.sink := by
    rw [ht.network.finish_eq]
    exact rowOf_natCast ht.network.sink_lt
  rw [supply, hsource, hsink]
  rfl

/-- The program of a network with a budget. -/
def assembled (t : TollNetwork α) (b : α) (integerTolls : Bool) : Program α where
  cx := List.replicate t.tolled.length Scalar.zero
  cy := t.weights.map Scalar.ofNat
  G := [List.replicate t.tolled.length Scalar.one]
  H := [List.replicate t.graph.ordered.length Scalar.zero]
  q := [b]
  d := t.weights.map Scalar.ofNat
  A := List.replicate (2 * t.graph.size) (List.replicate t.tolled.length Scalar.zero)
  B := t.nodeRows ++ t.nodeRows.map (·.map Scalar.neg)
  b := t.nodeSides ++ t.nodeSides.map Scalar.neg
  F := units t.graph.ordered.length t.tolled
  Jx := if integerTolls then (List.range' 1 t.tolled.length).map fun (i : Nat) => .int i else []
  xBox := Program.freshBox t.tolled.length
  yBox := ⟨List.replicate t.graph.ordered.length Scalar.zero,
    List.replicate t.graph.ordered.length Scalar.one⟩

omit [Scalar α] in
theorem Numbered.length_arcNames (ht : t.Numbered) : t.arcNames.length = t.graph.ordered.length := by
  rw [ht.network.arcNames_eq, List.length_map]

theorem hasShape_units (length : Nat) (positions : List Nat) :
    Rows.HasShape (units length positions : Rows α) positions.length length := by
  refine ⟨List.length_map _, fun r hr => ?_⟩
  obtain ⟨e, -, rfl⟩ := List.mem_map.1 hr
  rw [List.length_set, List.length_replicate]

theorem hasShape_A (t : TollNetwork α) (b : α) (integerTolls : Bool) :
    Rows.HasShape (t.assembled b integerTolls).A (2 * t.graph.size) t.tolled.length :=
  Rows.hasShape_replicate _ _ _

theorem hasShape_B (t : TollNetwork α) (b : α) (integerTolls : Bool) :
    Rows.HasShape (t.assembled b integerTolls).B (2 * t.graph.size) t.graph.ordered.length := by
  have hlength : ∀ r ∈ t.nodeRows, r.length = t.graph.ordered.length := by
    intro r hr
    obtain ⟨v, -, rfl⟩ := List.mem_map.1 hr
    exact length_incidenceRow _ v
  refine ⟨?_, fun r hr => ?_⟩
  · show (t.nodeRows ++ t.nodeRows.map (·.map Scalar.neg)).length = _
    rw [List.length_append, List.length_map, nodeRows, List.length_map, List.length_range]
    omega
  · rcases List.mem_append.1 hr with hr | hr
    · exact hlength r hr
    · obtain ⟨s, hs, rfl⟩ := List.mem_map.1 hr
      rw [List.length_map]
      exact hlength s hs

theorem nu_assembled (t : TollNetwork α) (b : α) (integerTolls : Bool) :
    (t.assembled b integerTolls).nu = t.tolled.length :=
  List.length_replicate

theorem nl_assembled (ht : t.Numbered) (b : α) (integerTolls : Bool) :
    (t.assembled b integerTolls).nl = t.graph.ordered.length :=
  (List.length_map _).trans ht.length_weights

theorem shaped_assembled (ht : t.Sound) (b : α) (integerTolls : Bool) :
    (t.assembled b integerTolls).Shaped := by
  have hrows : (t.assembled b integerTolls).ml = 2 * t.graph.size := by
    show (t.nodeSides ++ t.nodeSides.map Scalar.neg).length = _
    rw [List.length_append, List.length_map, nodeSides, List.length_map, List.length_range]
    omega
  have hnu := nu_assembled t b integerTolls
  have hnl := nl_assembled ht.numbered b integerTolls
  refine ⟨rfl, ?_, ?_, ?_, ?_, ?_, ?_, ?_, ?_, ?_⟩
  · rw [hnu]
    exact List.length_replicate
  · rw [hnu]
    exact List.length_replicate
  · rw [hnl]
    exact List.length_replicate
  · rw [hnl]
    exact List.length_replicate
  · rw [hnu]
    exact Rows.hasShape_replicate 1 _ _
  · rw [hnl]
    exact Rows.hasShape_replicate 1 _ _
  · rw [hrows, hnu]
    exact hasShape_A t _ _
  · rw [hrows, hnl]
    exact hasShape_B t _ _
  · rw [hnu, hnl]
    exact hasShape_units _ _

/-- Apart from how the budget and the integer tolls are handed in, the construction takes the
coefficients of the program that it arrives at. -/
theorem build_arguments (ht : t.Sound) {budget : Datum α} {b : α} (hb : budget.toScalar = .ok b)
    (integerTolls : Bool) :
    Program.build (t.arguments t.nodeRows t.nodeSides budget integerTolls) =
      Program.build (t.assembled b integerTolls).toCoefficients.loose := by
  refine Program.build_congr ?_ ?_ ?_
  · simp only [arguments, Coefficients.loose, assembled, ht.numbered.length_arcNames]
  · exact (Datum.toTensor_singleton hb).trans (Datum.toTensor_vector [b]).symm
  · cases integerTolls with
    | false => rfl
    | true =>
      have hindices : (List.range t.tolled.length).map (fun i => (Datum.int (i + 1 : Nat) : Datum α)) =
          (List.range' 1 t.tolled.length).map fun (i : Nat) => .int i := by
        rw [List.range'_eq_map_range, List.map_map]
        exact List.map_congr_left fun i _ => congrArg (fun j : Nat => Datum.int j) (Nat.add_comm i 1)
      exact congrArg Except.ok hindices

/-- Of a sound network only the budget can be refused. -/
theorem program_eq (ht : t.Sound) {budget : Datum α} {b : α} (hb : budget.toScalar = .ok b)
    (integerTolls : Bool) : t.program budget integerTolls = .ok (t.assembled b integerTolls) := by
  have hx : (t.assembled b integerTolls).xBox =
      Program.freshBox (t.assembled b integerTolls).nu := by
    rw [nu_assembled]
    rfl
  have hy : (t.assembled b integerTolls).yBox =
      ⟨List.replicate (t.assembled b integerTolls).nl Scalar.zero,
        List.replicate (t.assembled b integerTolls).nl Scalar.one⟩ := by
    rw [nl_assembled ht.numbered]
    rfl
  rw [← (shaped_assembled ht b integerTolls).build_setAll hx hy, ← build_arguments ht hb, program,
    incidence_eq ht, supply_eq ht]
  rfl

/-- A program is built from its equations, and then the bounds of all flows are set. -/
theorem exists_build_of_program {p : Program α} {budget : Datum α} {integerTolls : Bool}
    (hp : t.program budget integerTolls = .ok p) :
    ∃ rows rhs fresh, t.incidence = .ok rows ∧ t.supply = .ok rhs ∧
      Program.build (t.arguments rows rhs budget integerTolls) = .ok fresh ∧
      p = { fresh with
        yBox := ⟨List.replicate fresh.nl Scalar.zero, List.replicate fresh.nl Scalar.one⟩ } := by
  obtain ⟨rows, hrows, hp⟩ := exists_of_bind hp
  obtain ⟨rhs, hrhs, hp⟩ := exists_of_bind hp
  obtain ⟨fresh, hbuild, hset⟩ := exists_of_bind hp
  refine ⟨rows, rhs, fresh, hrows, hrhs, hbuild, ?_⟩
  have hall := fresh.setAll_freshBox Scalar.one
  rw [← (Program.shaped_of_build hbuild).2.2] at hall
  exact Except.ok.inj (hset.symm.trans hall)

theorem exists_assembled {p : Program α} {budget : Datum α} {integerTolls : Bool} (ht : t.Sound)
    (hp : t.program budget integerTolls = .ok p) :
    ∃ b, budget.toScalar = .ok b ∧ p = t.assembled b integerTolls := by
  obtain ⟨rows, rhs, fresh, -, -, hbuild, -⟩ := exists_build_of_program hp
  obtain ⟨-, -, hupper, -⟩ := Program.parts_of_build hbuild
  obtain ⟨-, -, row, -, -, hrow, -, -, hshape, -⟩ := Program.constraints_cases hupper
  obtain ⟨b, hb⟩ := Datum.exists_toScalar_of_singleton hrow hshape
  exact ⟨b, hb, Except.ok.inj (hp.symm.trans (program_eq ht hb integerTolls))⟩

/-- The parts of a program that the objectives are made of. -/
theorem objectives_of_program {p : Program α} {budget : Datum α} {integerTolls : Bool}
    (hp : t.program budget integerTolls = .ok p) :
    p.cx = List.replicate t.tolled.length Scalar.zero ∧ p.cy = t.weights.map Scalar.ofNat ∧
      p.d = t.weights.map Scalar.ofNat := by
  obtain ⟨rows, rhs, fresh, -, -, hbuild, rfl⟩ := exists_build_of_program hp
  obtain ⟨hobj, -⟩ := Program.parts_of_build hbuild
  have hparts : Program.objectives (t.arguments rows rhs budget integerTolls) =
      .ok (List.replicate t.tolled.length Scalar.zero, t.weights.map Scalar.ofNat,
        t.weights.map Scalar.ofNat) := by
    rw [Program.objectives, arguments, Program.array_of_ok (Datum.toTensor_vector _),
      Program.array_of_ok (Datum.toTensor_vector _)]
    exact if_pos ⟨rfl, rfl, rfl⟩
  simpa only [Prod.mk.injEq] using Except.ok.inj (hobj.symm.trans hparts)

theorem quadraticTerm_of_program {p : Program α} {budget : Datum α} {integerTolls : Bool}
    (ht : t.Numbered) (hp : t.program budget integerTolls = .ok p) :
    p.F = units t.graph.ordered.length t.tolled := by
  obtain ⟨hcx, hcy, -⟩ := objectives_of_program hp
  obtain ⟨rows, rhs, fresh, -, -, hbuild, rfl⟩ := exists_build_of_program hp
  obtain ⟨-, -, -, hqua, -⟩ := Program.parts_of_build hbuild
  have hnu : fresh.nu = t.tolled.length := (congrArg List.length hcx).trans List.length_replicate
  have hnl : fresh.nl = t.graph.ordered.length :=
    (congrArg List.length hcy).trans ((List.length_map _).trans ht.length_weights)
  have hunits : Program.quadraticTerm t.tolled.length t.graph.ordered.length
      (.matrix (units t.graph.ordered.length t.tolled)) =
        .ok (units t.graph.ordered.length t.tolled : Rows α) :=
    Program.quadraticTerm_of_hasShape (hasShape_units _ _)
  simp only [arguments, hnu, hnl, ht.length_arcNames] at hqua
  exact Except.ok.inj (hqua.symm.trans hunits)

theorem nu_eq {p : Program α} {budget : Datum α} {integerTolls : Bool}
    (hp : t.program budget integerTolls = .ok p) : p.nu = t.tolled.length := by
  rw [Program.nu, (objectives_of_program hp).1, List.length_replicate]

theorem nl_eq {p : Program α} {budget : Datum α} {integerTolls : Bool} (ht : t.Numbered)
    (hp : t.program budget integerTolls = .ok p) : p.nl = t.graph.ordered.length := by
  rw [Program.nl, (objectives_of_program hp).2.1, List.length_map, ht.length_weights]

end Incidence

open Extended Linear

/-! ## Over exact numbers -/

theorem product_map (arcs : List (Nat × Nat)) (y : List ℚ) (f : Nat × Nat → ℚ) :
    product (arcs.map f) y = total arcs y f := by
  rw [product, List.zipWith_map_left, total, ← List.map_uncurry_zip_eq_zipWith]
  rfl

theorem incidenceRow_finite {arcs : List (Nat × Nat)} (hloop : ∀ a ∈ arcs, a.1 ≠ a.2) (v : Nat) :
    incidenceRow arcs v = (arcs.map (Bilevel.incidence v)).map finite := by
  rw [incidenceRow, List.map_map]
  refine List.map_congr_left fun a ha => ?_
  obtain ⟨u, w⟩ := a
  have hne := hloop (u, w) ha
  show (if w = v then Scalar.neg Scalar.one else if u = v then Scalar.one else Scalar.zero :
    Extended) = finite ((if u = v then 1 else 0) - (if w = v then 1 else 0))
  by_cases hw : w = v
  · have hu : u ≠ v := fun hu => hne (hu.trans hw.symm)
    rw [if_pos hw, if_neg hu, if_pos hw, zero_sub]
    rfl
  · rw [if_neg hw, if_neg hw, sub_zero]
    by_cases hu : u = v
    · rw [if_pos hu, if_pos hu]
      rfl
    · rw [if_neg hu, if_neg hu]
      rfl

theorem product_zeros (k : Nat) (x : List ℚ) : product (List.replicate k 0) x = 0 := by
  induction k generalizing x with
  | zero => rfl
  | succ k ih =>
    cases x with
    | nil => rfl
    | cons a x =>
      rw [product, List.replicate_succ, List.zipWith_cons_cons, List.sum_cons, zero_mul, zero_add]
      exact ih x

theorem product_zeros_right (r : List ℚ) (k : Nat) : product r (List.replicate k 0) = 0 := by
  induction r generalizing k with
  | nil => rfl
  | cons a r ih =>
    cases k with
    | zero => rfl
    | succ k =>
      rw [product, List.replicate_succ, List.zipWith_cons_cons, List.sum_cons, mul_zero, zero_add]
      exact ih k

theorem rational_zeros (k : Nat) : rational (List.replicate k Scalar.zero) = List.replicate k 0 := by
  rw [rational, List.map_replicate]
  rfl

variable {t : TollNetwork Extended} {p : Program Extended} {budget : Datum Extended}
  {integerTolls : Bool}

theorem nodeRows_finite (ht : t.Sound) :
    t.nodeRows = (List.range t.graph.size).map fun v =>
      (t.graph.ordered.map (Bilevel.incidence v)).map finite :=
  List.map_congr_left fun v _ => incidenceRow_finite ht.ends_ne v

theorem nodeSides_finite (ht : t.Sound) :
    t.nodeSides = (List.range t.graph.size).map fun v => finite (unitSupply t.source t.sink v) := by
  refine List.map_congr_left fun v _ => ?_
  rw [unitSupply]
  by_cases hsink : v = t.sink
  · have hsource : t.source ≠ v := fun h => ht.network.sink_ne (hsink ▸ h.symm)
    rw [if_pos hsink, if_neg hsource, if_pos hsink.symm, zero_sub]
    rfl
  · rw [if_neg hsink, if_neg (Ne.symm hsink), sub_zero]
    by_cases hsource : v = t.source
    · rw [if_pos hsource, if_pos hsource.symm]
      rfl
    · rw [if_neg hsource, if_neg (Ne.symm hsource)]
      rfl

theorem map_neg_finite (r : List ℚ) : (r.map finite).map Scalar.neg = (r.map (-·)).map finite := by
  rw [List.map_map, List.map_map]
  rfl

theorem product_neg (r y : List ℚ) : product (r.map (-·)) y = -product r y := by
  unfold product
  induction r generalizing y with
  | nil => exact neg_zero.symm
  | cons a r ih =>
    cases y with
    | nil => exact neg_zero.symm
    | cons q y =>
      rw [List.map_cons, List.zipWith_cons_cons, List.sum_cons, ih, List.zipWith_cons_cons,
        List.sum_cons, neg_add, neg_mul]

/-- A row without coefficients on one side, over rational numbers. -/
theorem row_le_iff (k : Nat) (r x y : List ℚ) (c eps : ℚ) :
    (((product (rational (List.replicate k Scalar.zero)) x +
        product (rational (r.map finite)) y : ℚ) : ℝ) : EReal) ≤
      (finite c).toEReal + ((eps : ℝ) : EReal) ↔ product r y ≤ c + eps := by
  rw [rational_zeros, product_zeros, zero_add, rational_map_finite, toEReal, ← EReal.coe_add,
    ← Rat.cast_add, coe_le_coe_iff]

theorem getElem?_first_half {β : Type} (g h : Nat → β) {n i : Nat} (hi : i < n) :
    ((List.range n).map g ++ (List.range n).map h)[i]? = some (g i) := by
  rw [List.getElem?_append_left (by simpa using hi), List.getElem?_map, List.getElem?_range hi]
  rfl

theorem getElem?_second_half {β : Type} (g h : Nat → β) {n i : Nat} (hi : i < n) :
    ((List.range n).map g ++ (List.range n).map h)[n + i]? = some (h i) := by
  rw [List.getElem?_append_right (by simp), List.length_map, List.length_range,
    Nat.add_sub_cancel_left, List.getElem?_map, List.getElem?_range hi]
  rfl

/-- Equations that are written as two rows each. -/
theorem rowsWithin_pairs (n k : Nat) (f : Nat → List ℚ) (c : Nat → ℚ) (x y : List ℚ) (eps : ℚ) :
    RowsWithin (List.replicate (2 * n) (List.replicate k Scalar.zero))
      (((List.range n).map fun v => (f v).map finite) ++
        ((List.range n).map fun v => (f v).map finite).map (·.map Scalar.neg))
      (((List.range n).map fun v => finite (c v)) ++
        ((List.range n).map fun v => finite (c v)).map Scalar.neg) x y eps ↔
    ∀ v < n, |product (f v) y - c v| ≤ eps := by
  have hzeros : ∀ {i : Nat}, i < 2 * n →
      (List.replicate (2 * n) (List.replicate k (Scalar.zero : Extended)))[i]? =
        some (List.replicate k Scalar.zero) := fun hi => List.getElem?_replicate_of_lt hi
  have hrows : ((List.range n).map fun v => (f v).map finite).map (·.map Scalar.neg) =
      (List.range n).map fun v => ((f v).map (-·)).map finite := by
    rw [List.map_map]
    exact List.map_congr_left fun v _ => map_neg_finite (f v)
  have hsides : ((List.range n).map fun v => finite (c v)).map Scalar.neg =
      (List.range n).map fun v => finite (-c v) := by
    rw [List.map_map]
    rfl
  rw [hrows, hsides]
  constructor
  · intro h v hv
    have hup := (row_le_iff k _ x y _ eps).1
      (h v _ _ _ (hzeros (by omega)) (getElem?_first_half _ _ hv) (getElem?_first_half _ _ hv))
    have hdown := (row_le_iff k _ x y (-c v) eps).1
      (h (n + v) _ _ _ (hzeros (by omega)) (getElem?_second_half _ _ hv)
        (getElem?_second_half _ _ hv))
    rw [product_neg] at hdown
    rw [abs_le]
    constructor
    · linarith
    · linarith
  · intro h i r s a hr hs ha
    have hi : i < 2 * n := by
      have hlt := (List.getElem?_eq_some_iff.1 hr).1
      rwa [List.length_replicate] at hlt
    rw [hzeros hi] at hr
    cases hr
    by_cases hin : i < n
    · rw [getElem?_first_half _ _ hin] at hs ha
      cases hs
      cases ha
      have habs := abs_le.1 (h i hin)
      exact (row_le_iff k _ x y _ eps).2 (by linarith)
    · obtain ⟨j, rfl⟩ : ∃ j, i = n + j := ⟨i - n, by omega⟩
      rw [getElem?_second_half _ _ (by omega)] at hs ha
      cases hs
      cases ha
      have habs := abs_le.1 (h j (by omega))
      refine (row_le_iff k _ x y (-c j) eps).2 ?_
      rw [product_neg]
      linarith

theorem boundsWithin_unit_iff {m : Nat} {y : List ℚ} (hy : y.length = m) (eps : ℚ) :
    BoundsWithin ⟨List.replicate m Scalar.zero, List.replicate m Scalar.one⟩ y eps ↔
      ∀ q ∈ y, -eps ≤ q ∧ q ≤ 1 + eps := by
  have hlow : ∀ q : ℚ, (finite 0).toEReal - ((eps : ℝ) : EReal) ≤ ((q : ℝ) : EReal) ↔ -eps ≤ q := by
    intro q
    rw [toEReal, ← EReal.coe_sub, ← Rat.cast_sub, coe_le_coe_iff, zero_sub]
  have hhigh : ∀ q : ℚ, ((q : ℝ) : EReal) ≤ (finite 1).toEReal + ((eps : ℝ) : EReal) ↔
      q ≤ 1 + eps := by
    intro q
    rw [toEReal, ← EReal.coe_add, ← Rat.cast_add, coe_le_coe_iff]
  constructor
  · intro h q hq
    obtain ⟨j, hj⟩ := List.mem_iff_getElem?.1 hq
    have hlt : j < m := hy ▸ (List.getElem?_eq_some_iff.1 hj).1
    obtain ⟨h1, h2⟩ := h j q _ _ hj (List.getElem?_replicate_of_lt hlt)
      (List.getElem?_replicate_of_lt hlt)
    exact ⟨(hlow q).1 h1, (hhigh q).1 h2⟩
  · intro h j q low high hj hl hu
    obtain ⟨h1, h2⟩ := h q (List.mem_of_getElem? hj)
    have hlt : j < m := hy ▸ (List.getElem?_eq_some_iff.1 hj).1
    rw [List.getElem?_replicate_of_lt hlt] at hl hu
    cases hl
    cases hu
    exact ⟨(hlow q).2 h1, (hhigh q).2 h2⟩

/-! ## The rows of the follower -/

theorem isFinite_A (t : TollNetwork Extended) (b : Extended) (integerTolls : Bool) :
    ∀ r ∈ (t.assembled b integerTolls).A, ∀ a ∈ r, a.IsFinite := by
  intro r hr a ha
  rw [List.eq_of_mem_replicate hr] at ha
  exact ⟨0, List.eq_of_mem_replicate ha⟩

theorem isFinite_B (ht : t.Sound) (b : Extended) (integerTolls : Bool) :
    ∀ r ∈ (t.assembled b integerTolls).B, ∀ a ∈ r, a.IsFinite := by
  have hrows : ∀ r ∈ t.nodeRows, ∀ a ∈ r, a.IsFinite := by
    intro r hr a ha
    rw [nodeRows_finite ht] at hr
    obtain ⟨v, -, rfl⟩ := List.mem_map.1 hr
    obtain ⟨c, -, rfl⟩ := List.mem_map.1 ha
    exact ⟨c, rfl⟩
  intro r hr a ha
  rcases List.mem_append.1 hr with hr | hr
  · exact hrows r hr a ha
  · obtain ⟨s, hs, rfl⟩ := List.mem_map.1 hr
    obtain ⟨c, hc, rfl⟩ := List.mem_map.1 ha
    exact (hrows s hs c hc).neg

theorem isFinite_b (ht : t.Sound) (b : Extended) (integerTolls : Bool) :
    ∀ c ∈ (t.assembled b integerTolls).b, c.IsFinite := by
  have hsides : ∀ c ∈ t.nodeSides, c.IsFinite := by
    intro c hc
    rw [nodeSides_finite ht] at hc
    obtain ⟨v, -, rfl⟩ := List.mem_map.1 hc
    exact ⟨_, rfl⟩
  intro c hc
  rcases List.mem_append.1 hc with hc | hc
  · exact hsides c hc
  · obtain ⟨a, ha, rfl⟩ := List.mem_map.1 hc
    exact (hsides a ha).neg

theorem rowsWithin_assembled (ht : t.Sound) (b : Extended) (integerTolls : Bool)
    (x y : List ℚ) (eps : ℚ) :
    RowsWithin (t.assembled b integerTolls).A (t.assembled b integerTolls).B
      (t.assembled b integerTolls).b x y eps ↔
    ∀ v < t.graph.size,
      |balance t.graph.ordered y v - unitSupply t.source t.sink v| ≤ eps := by
  show RowsWithin (List.replicate (2 * t.graph.size) (List.replicate t.tolled.length Scalar.zero))
    (t.nodeRows ++ t.nodeRows.map (·.map Scalar.neg))
    (t.nodeSides ++ t.nodeSides.map Scalar.neg) x y eps ↔ _
  rw [nodeRows_finite ht, nodeSides_finite ht, rowsWithin_pairs]
  refine forall₂_congr fun v _ => ?_
  rw [product_map]
  rfl

/-- The conditions of the follower: balances and bounds, up to the tolerance. -/
theorem lowerFeasible_iff (ht : t.Sound) (hp : t.program budget integerTolls = .ok p)
    {y : List ℚ} (hy : y.length = t.graph.ordered.length) (x : List ℚ) (eps : ℚ) :
    p.LowerFeasible x y eps ↔
      (∀ v < t.graph.size,
        |balance t.graph.ordered y v - unitSupply t.source t.sink v| ≤ eps) ∧
      ∀ q ∈ y, -eps ≤ q ∧ q ≤ 1 + eps := by
  obtain ⟨b, -, rfl⟩ := exists_assembled ht hp
  exact and_congr (rowsWithin_assembled ht b integerTolls x y eps) (boundsWithin_unit_iff hy eps)

theorem polytope_iff (ht : t.Sound) (hp : t.program budget integerTolls = .ok p)
    (x y : List ℚ) : p.Polytope y ↔ p.LowerFeasible x y 0 := by
  have hzero : (((0 : ℚ) : ℝ) : EReal) = 0 := by rw [Rat.cast_zero, EReal.coe_zero]
  obtain ⟨b, -, rfl⟩ := exists_assembled ht hp
  have hsum : ∀ s : Row Extended,
      product (rational (List.replicate t.tolled.length Scalar.zero)) x + product (rational s) y =
        product (rational s) y := by
    intro s
    rw [rational_zeros, product_zeros, zero_add]
  refine and_congr ⟨fun h i r s c hr hs hc => ?_, fun h i s c hs hc => ?_⟩ Iff.rfl
  · rw [List.eq_of_mem_replicate (List.mem_of_getElem? hr), hsum, hzero, add_zero]
    exact h i s c hs hc
  · have hi : i < 2 * t.graph.size :=
      (hasShape_B t b integerTolls).length_eq ▸ (List.getElem?_eq_some_iff.1 hs).1
    have hr : (t.assembled b integerTolls).A[i]? =
        some (List.replicate t.tolled.length Scalar.zero) := List.getElem?_replicate_of_lt hi
    have hle := h i _ s c hr hs hc
    rw [hsum, hzero, add_zero] at hle
    exact hle

end TollNetwork
end Bilevel
