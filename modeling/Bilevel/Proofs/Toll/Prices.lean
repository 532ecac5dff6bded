import Bilevel.Proofs.Toll.Encoding
import Bilevel.Proofs.Toll.Program

/-!
# Bilevel.Proofs.Toll.Prices

What the follower pays, in its program and on the arcs of the network.

* `price` is what an arc costs by its number: its weight, and the tolls on it.
* `lowerValue_eq`: the follower's objective adds up the prices of all arcs. `arcPrice_eq`: they are
  the prices on which the search for a path runs.
* `upperValue_eq`: the leader's objective adds up the weights alone.
* `pathToFlow_eq`: the flow along a path is one on the arcs of the path and zero elsewhere.
-/

namespace Bilevel
namespace TollNetwork

open Extended Linear

/-- What is charged on the arc with a number. -/
def charge (tolled : List Nat) (x : List ℚ) (e : Nat) : ℚ :=
  ((tolled.zip x).map fun (i, q) => if i = e then q else 0).sum

/-- What the follower pays on the arc with a number: its weight, and what is charged on it. -/
def price (t : TollNetwork Extended) (x : List ℚ) (e : Nat) : ℚ :=
  (t.weights.getD e 0 : ℚ) + charge t.tolled x e

variable {t : TollNetwork Extended} {x y : List ℚ}

theorem charge_nonneg (tolled : List Nat) (hx : ∀ q ∈ x, 0 ≤ q) (e : Nat) :
    0 ≤ charge tolled x e := by
  refine List.sum_nonneg fun c hc => ?_
  obtain ⟨⟨i, q⟩, hiq, rfl⟩ := List.mem_map.1 hc
  simp only
  split
  · exact hx q (List.of_mem_zip hiq).2
  · exact le_rfl

theorem charge_of_notMem {tolled : List Nat} {e : Nat} (h : e ∉ tolled) (x : List ℚ) :
    charge tolled x e = 0 := by
  refine List.sum_eq_zero fun c hc => ?_
  obtain ⟨⟨i, q⟩, hiq, rfl⟩ := List.mem_map.1 hc
  exact if_neg fun hi : i = e => h (hi ▸ (List.of_mem_zip hiq).1)

/-- An arc that is listed once is charged what stands at its place. -/
theorem charge_of_getElem? {tolled : List Nat} (hnodup : tolled.Nodup) {i e : Nat} {q : ℚ}
    (he : tolled[i]? = some e) (hq : x[i]? = some q) : charge tolled x e = q := by
  induction tolled generalizing x i with
  | nil => cases he
  | cons k tolled ih =>
    obtain ⟨hk, hnodup⟩ := List.nodup_cons.1 hnodup
    cases x with
    | nil => cases hq
    | cons c x =>
      have hsplit : charge (k :: tolled) (c :: x) e = (if k = e then c else 0) + charge tolled x e := by
        rw [charge, List.zip_cons_cons, List.map_cons, List.sum_cons]
        rfl
      cases i with
      | zero =>
        cases he
        cases hq
        rw [hsplit, if_pos rfl, charge_of_notMem hk, add_zero]
      | succ i =>
        have hmem : e ∈ tolled := List.mem_of_getElem? he
        rw [hsplit, if_neg fun h : k = e => hk (h ▸ hmem), ih hnodup he hq, zero_add]

theorem price_nonneg (t : TollNetwork Extended) (hx : ∀ q ∈ x, 0 ≤ q) (e : Nat) :
    0 ≤ t.price x e :=
  add_nonneg (Nat.cast_nonneg _) (charge_nonneg t.tolled hx e)

/-! ## Prices as the search looks them up -/

theorem getElem?_foldl_modify (pairs : List (Nat × ℚ)) (a : Array Extended) (w : Nat → ℚ)
    (e : Nat) (h : a[e]? = some (finite (w e))) :
    ((pairs.map fun p => (p.1, finite p.2)).foldl
      (fun a (e, toll) => a.modify e (Distance.add · toll)) a)[e]? =
      some (finite (w e + (pairs.map fun (i, q) => if i = e then q else 0).sum)) := by
  induction pairs generalizing a w with
  | nil => simpa using h
  | cons p pairs ih =>
    obtain ⟨i, q⟩ := p
    have hstep : (a.modify i (Distance.add · (finite q)))[e]? =
        some (finite (w e + if i = e then q else 0)) := by
      rw [Array.getElem?_modify, h]
      by_cases hi : i = e
      · rw [if_pos hi, if_pos hi]
        rfl
      · rw [if_neg hi, if_neg hi, add_zero]
    rw [List.map_cons, List.foldl_cons]
    simp only
    rw [ih _ (fun e => w e + if i = e then q else 0) hstep, List.map_cons, List.sum_cons, add_assoc]

theorem size_foldl_modify {δ : Type} [Distance δ] (pairs : List (Nat × δ)) (a : Array δ) :
    (pairs.foldl (fun a (e, toll) => a.modify e (Distance.add · toll)) a).size = a.size := by
  induction pairs generalizing a with
  | nil => rfl
  | cons p pairs ih => rw [List.foldl_cons, ih, Array.size_modify]

theorem getElem?_prices {e : Nat} (he : e < t.weights.length) :
    (t.prices (x.map finite))[e]? = some (finite (t.price x e)) := by
  have hweight : (t.weights.map (Distance.ofNat (δ := Extended))).toArray[e]? =
      some (finite (t.weights.getD e 0 : ℚ)) := by
    rw [List.getElem?_toArray, List.getElem?_map, List.getElem?_eq_getElem he,
      List.getD_eq_getElem _ _ he]
    rfl
  have hzip : t.tolled.zip (x.map finite) = (t.tolled.zip x).map fun p => (p.1, finite p.2) :=
    List.zip_map_right
  rw [prices, hzip]
  exact getElem?_foldl_modify _ _ (fun e => (t.weights.getD e 0 : ℚ)) e hweight

theorem size_prices : (t.prices (x.map finite)).size = t.weights.length := by
  rw [prices, size_foldl_modify, List.size_toArray, List.length_map]

/-- The price of an arc as a rational number. -/
def arcPrice (t : TollNetwork Extended) (x : List ℚ) (a : Nat × Nat) : ℚ :=
  (t.priceOf t.graph.firsts (t.prices (x.map finite)) a).toRat

theorem priceOf_eq (t : TollNetwork Extended) (x : List ℚ) (a : Nat × Nat) :
    t.priceOf t.graph.firsts (t.prices (x.map finite)) a = finite (t.arcPrice x a) := by
  refine (IsFinite.finite_toRat ?_).symm
  rw [priceOf, Array.getD_eq_getD_getElem?]
  by_cases he : t.graph.numberFrom t.graph.firsts a < t.weights.length
  · rw [getElem?_prices he]
    exact ⟨_, rfl⟩
  · rw [Array.getElem?_eq_none (by rw [size_prices]; omega)]
    exact ⟨0, rfl⟩

theorem arcPrice_eq (ht : t.Numbered) {a : Nat × Nat} {i : Nat}
    (h : t.graph.ordered[i]? = some a) : t.arcPrice x a = t.price x i := by
  have hi : i < t.weights.length := by
    rw [ht.length_weights]
    exact (List.getElem?_eq_some_iff.1 h).1
  rw [arcPrice, priceOf, ht.network.proper.numberFrom_eq h, Array.getD_eq_getD_getElem?,
    getElem?_prices hi]
  rfl

theorem map_arcPrice (ht : t.Numbered) (x : List ℚ) :
    t.graph.ordered.map (t.arcPrice x) = (List.range t.graph.ordered.length).map (t.price x) := by
  refine List.ext_getElem (by simp) fun i h1 h2 => ?_
  rw [List.length_map] at h1
  rw [List.getElem_map, List.getElem_map, List.getElem_range]
  exact arcPrice_eq ht (List.getElem?_eq_getElem h1)

theorem arcPrice_nonneg (ht : t.Numbered) (hx : ∀ q ∈ x, 0 ≤ q) {a : Nat × Nat}
    (ha : a ∈ t.graph.ordered) : 0 ≤ t.arcPrice x a := by
  obtain ⟨i, hi⟩ := List.mem_iff_getElem?.1 ha
  rw [arcPrice_eq ht hi]
  exact price_nonneg t hx i

/-! ## Prices in the program -/

theorem product_add {β : Type} (l : List β) (f h : β → ℚ) (y : List ℚ) :
    product (l.map f) y + product (l.map h) y = product (l.map fun b => f b + h b) y := by
  unfold product
  induction l generalizing y with
  | nil => exact add_zero 0
  | cons b l ih =>
    cases y with
    | nil => exact add_zero 0
    | cons q y =>
      simp only [List.map_cons, List.zipWith_cons_cons, List.sum_cons]
      rw [← ih y]
      ring

theorem units_finite (m : Nat) (tolled : List Nat) :
    units m tolled = (tolled.map fun i => (List.replicate m (0 : ℚ)).set i 1).map (·.map finite) := by
  rw [units, List.map_map]
  refine List.map_congr_left fun i _ => ?_
  show _ = ((List.replicate m (0 : ℚ)).set i 1).map finite
  rw [List.map_set, List.map_replicate]
  rfl

theorem getD_unit {m j : Nat} (hj : j < m) (i : Nat) :
    ((List.replicate m (0 : ℚ)).set i 1).getD j 0 = if i = j then 1 else 0 := by
  rw [List.getD_eq_getElem?_getD, List.getElem?_set, List.getElem?_replicate_of_lt hj,
    List.length_replicate]
  by_cases hi : i = j
  · rw [if_pos hi, if_pos (hi ▸ hj), if_pos hi]
    rfl
  · rw [if_neg hi, if_neg hi]
    rfl

theorem combination_units {m : Nat} (tolled : List Nat) (x : List ℚ) :
    combination m x (tolled.map fun i => (List.replicate m (0 : ℚ)).set i 1) =
      (List.range m).map (charge tolled x) := by
  refine List.map_congr_left fun j hj => ?_
  have hjm : j < m := List.mem_range.1 hj
  unfold charge
  congr 1
  induction tolled generalizing x with
  | nil => simp
  | cons i tolled ih =>
    cases x with
    | nil => rfl
    | cons q x =>
      simp only [List.map_cons, List.zip_cons_cons, getD_unit hjm]
      rw [ih]
      congr 1
      split
      · exact mul_one q
      · exact mul_zero q

variable {p : Program Extended} {budget : Datum Extended} {integerTolls : Bool}

/-- The weight of an arc. -/
def arcWeight (t : TollNetwork Extended) (a : Nat × Nat) : ℚ :=
  (t.weights.getD (t.graph.numberFrom t.graph.firsts a) 0 : ℚ)

/-- The price of an arc is its weight and what is charged on it. -/
theorem arcPrice_eq_add (ht : t.Numbered) {a : Nat × Nat} {e : Nat}
    (h : t.graph.ordered[e]? = some a) (x : List ℚ) :
    t.arcPrice x a = t.arcWeight a + charge t.tolled x e := by
  rw [arcPrice_eq ht h, price, arcWeight, ht.network.proper.numberFrom_eq h]

theorem map_arcWeight (ht : t.Numbered) :
    t.graph.ordered.map t.arcWeight =
      (List.range t.graph.ordered.length).map fun e => (t.weights.getD e 0 : ℚ) := by
  refine List.ext_getElem (by simp) fun i h1 h2 => ?_
  rw [List.length_map] at h1
  rw [List.getElem_map, List.getElem_map, List.getElem_range, arcWeight,
    ht.network.proper.numberFrom_eq (List.getElem?_eq_getElem h1)]

theorem weights_finite (ht : t.Numbered) :
    t.weights.map Scalar.ofNat = (t.graph.ordered.map t.arcWeight).map finite := by
  rw [map_arcWeight ht]
  refine List.ext_getElem (by simp [ht.length_weights]) fun i h1 h2 => ?_
  have hi : i < t.weights.length := by simpa using h1
  simp [hi]
  rfl

/-- The leader's objective adds up the weights of the arcs. -/
theorem upperValue_eq (ht : t.Numbered) (hp : t.program budget integerTolls = .ok p)
    (x y : List ℚ) :
    p.upperValue (x.map finite) (y.map finite) =
      finite (total t.graph.ordered y t.arcWeight) := by
  obtain ⟨hcx, hcy, -⟩ := objectives_of_program hp
  have hzeros : List.replicate t.tolled.length (Scalar.zero : Extended) =
      (List.replicate t.tolled.length (0 : ℚ)).map finite := by
    rw [List.map_replicate]
    rfl
  rw [Program.upperValue, hcx, hcy, weights_finite ht, hzeros, dot_finite, dot_finite, add_finite,
    product_zeros, product_map, zero_add]

/-- The follower's objective adds up the prices of the arcs. -/
theorem lowerValue_eq (ht : t.Numbered) (hp : t.program budget integerTolls = .ok p)
    (x y : List ℚ) :
    p.lowerValue (x.map finite) (y.map finite) =
      finite (total t.graph.ordered y (t.arcPrice x)) := by
  obtain ⟨-, -, hd⟩ := objectives_of_program hp
  have hF := quadraticTerm_of_program ht hp
  have hunits : ∀ row ∈ t.tolled.map fun i => (List.replicate t.graph.ordered.length (0 : ℚ)).set i 1,
      row.length = t.graph.ordered.length := by
    intro row hrow
    obtain ⟨i, -, rfl⟩ := List.mem_map.1 hrow
    rw [List.length_set, List.length_replicate]
  rw [Program.lowerValue, hd, nl_eq ht hp, hF, weights_finite ht, dot_finite, units_finite,
    combine_finite _ _ _ hunits, dot_finite, add_finite, combination_units, map_arcWeight ht,
    product_add, ← product_map, map_arcPrice ht]
  rfl

/-! ## The flow along a path -/

/-- A list of nodes that follows the arcs has the flow that is one on its arcs. -/
theorem pathToFlow_eq (ht : t.toNamedNetwork.Numbered) {path : List Nat}
    (hpath : arcsOf path ⊆ t.graph.ordered) :
    t.pathToFlow (.list (path.map fun (v : Nat) => .int v)) =
      .ok ((indicator t.graph.ordered (arcsOf path)).map finite) := by
  obtain ⟨y, hrun, hlength, hentry⟩ := pathToFlow_of_walk ht hpath
  refine hrun.trans (congrArg Except.ok (List.ext_getElem? fun e => ?_))
  rw [indicator, List.map_map, List.getElem?_map]
  cases ha : t.graph.ordered[e]? with
  | none =>
    rw [List.getElem?_eq_none_iff] at ha
    rw [List.getElem?_eq_none (by rw [hlength, ht.arcCount_eq]; exact ha)]
    rfl
  | some a =>
    rw [hentry e a ha]
    show _ = some (finite (if a ∈ arcsOf path then 1 else 0))
    split
    · rfl
    · rfl

end TollNetwork
end Bilevel
