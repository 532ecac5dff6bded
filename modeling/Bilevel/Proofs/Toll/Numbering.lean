import Bilevel.Proofs.Toll.Encoding
import Bilevel.Proofs.Toll.Program
import Bilevel.Toll.Session

/-!
# Bilevel.Proofs.Toll.Numbering

The numbers of the arcs, and what goes by them.

* `ArcNumbering` says that the arcs of the final network and the numbers below their count belong
  together one to one, both ways of looking them up agree, and the variables, the flows, the columns of
  the incidence matrix and the arcs that can be charged follow these numbers.
* `exists_number_of_mem`, `exists_arc_of_lt`: an arc's number leads back to the arc, a number's arc to
  the number.
* `getElem?_B_column`, `getElem?_F_row`: the entries that belong to one arc.
* `arcNumbering_of_generateFrom`: this holds of every setting that is generated over a simple graph,
  whatever arcs were turned round on the way.
-/

namespace Bilevel

open TollNetwork

namespace TollSetting

variable {α : Type} [Scalar α]

/-- The arcs are numbered in their order, and `k` of them can be charged. -/
structure ArcNumbering (s : TollSetting α) (k : Nat) : Prop where
  nodup : s.network.graph.ordered.Nodup
  /-- The two tables list the arcs of the final network, in its order. -/
  arcNumbers_eq : (s.perform .arcNumbers).1 = .ok (.table (s.network.graph.ordered.zipIdx.map
    fun (a, e) => [.int a.1, .int a.2, .int e]))
  numberedArcs_eq : (s.perform .numberedArcs).1 = .ok (.table (s.network.graph.ordered.zipIdx.map
    fun (a, e) => [.int e, .int a.1, .int a.2]))
  /-- The arc of an arc's number is the arc. -/
  decode_encode : ∀ a ∈ s.network.graph.ordered, ∃ e < s.network.arcCount,
    s.network.arcNumber (.int a.1) (.int a.2) = .ok e ∧
      s.network.arcNames[e]? = some (.int a.1, .int a.2)
  /-- The number of a number's arc is the number. -/
  encode_decode : ∀ e < s.network.arcCount, ∃ a ∈ s.network.graph.ordered,
    s.network.arcNames[e]? = some (.int a.1, .int a.2) ∧
      s.network.arcNumber (.int a.1) (.int a.2) = .ok e
  encode_injective : ∀ a ∈ s.network.graph.ordered, ∀ b ∈ s.network.graph.ordered,
    s.network.arcNumber (.int a.1) (.int a.2) = s.network.arcNumber (.int b.1) (.int b.2) → a = b
  arcCount_eq : s.network.arcCount = s.network.graph.ordered.length
  nl_eq : s.program.nl = s.network.arcCount
  pathToFlow_length : ∀ path y, s.network.pathToFlow path = .ok y → y.length = s.network.arcCount
  /-- The column of an arc is one at its tail, minus one at its head and zero at all other nodes; in
  the second half of the rows all signs are turned round. -/
  B_column : ∀ (e : Nat) (a : Nat × Nat), s.network.arcNames[e]? = some (.int a.1, .int a.2) →
    a.1 ≠ a.2 ∧ a.1 < s.network.graph.size ∧ a.2 < s.network.graph.size ∧
    ∀ v < s.network.graph.size,
      let entry := if v = a.1 then Scalar.one else if v = a.2 then Scalar.neg Scalar.one
        else Scalar.zero
      s.program.B.item? v e = some entry ∧
        s.program.B.item? (s.network.graph.size + v) e = some (Scalar.neg entry)
  B_shape : Rows.HasShape s.program.B (2 * s.network.graph.size) s.network.arcCount
  tolledArcs_eq : (s.perform .tolledArcs).1 =
    .ok (.table (s.network.tolledArcs.map fun (u, v) => [u, v]))
  tolledArcs_length : s.network.tolledArcs.length = k
  tolledArcs_nodup : s.network.tolledArcs.Nodup
  /-- The row of a charged arc is one at its number and zero at all others. -/
  F_row : ∀ i < k, ∃ e < s.network.arcCount,
    s.network.tolledArcs[i]? = s.network.arcNames[e]? ∧ ∀ j < s.network.arcCount,
      s.program.F.item? i j = some (if j = e then Scalar.one else Scalar.zero)
  F_shape : Rows.HasShape s.program.F k s.network.arcCount

end TollSetting

namespace TollNetwork

variable {α : Type} {t : TollNetwork α} {e : Nat} {a : Nat × Nat}

/-! ## Arcs that can be charged -/

theorem exists_of_getElem?_tolled (ht : t.Numbered) {i : Nat} (h : i < t.tolled.length) :
    ∃ e a, t.tolled[i]? = some e ∧ t.tolledArcs[i]? = some a ∧ t.arcNames[e]? = some a := by
  have htolled : t.tolled[i]? = some t.tolled[i] := List.getElem?_eq_getElem h
  have hlt : t.tolled[i] < t.arcNames.length := by
    rw [ht.network.arcNames_eq, List.length_map]
    exact ht.tolled_lt _ (List.getElem_mem h)
  refine ⟨t.tolled[i], t.arcNames[t.tolled[i]], htolled, ?_, List.getElem?_eq_getElem hlt⟩
  rw [getElem?_tolledArcs ht, htolled]
  exact List.getElem?_eq_getElem hlt

theorem length_tolledArcs (ht : t.Numbered) : t.tolledArcs.length = t.tolled.length := by
  refine le_antisymm (List.length_filterMap_le _ _) ?_
  by_contra hlt
  obtain ⟨_, _, -, harc, -⟩ := exists_of_getElem?_tolled ht (not_le.1 hlt)
  exact lt_irrefl _ (List.getElem?_eq_some_iff.1 harc).1

/-- Arcs with different numbers are different. -/
theorem nodup_tolledArcs (ht : t.Numbered) (hnodup : t.tolled.Nodup) : t.tolledArcs.Nodup := by
  refine List.nodup_iff_injective_getElem.2 fun ⟨i, hi⟩ ⟨j, hj⟩ hij => ?_
  rw [length_tolledArcs ht] at hi hj
  obtain ⟨e, a, he, ha, hea⟩ := exists_of_getElem?_tolled ht hi
  obtain ⟨f, b, hf, hb, hfb⟩ := exists_of_getElem?_tolled ht hj
  have hab : a = b := by
    rw [List.getElem?_eq_some_iff] at ha hb
    obtain ⟨_, rfl⟩ := ha
    obtain ⟨_, rfl⟩ := hb
    exact hij
  subst hab
  obtain rfl : e = f := arcNames_injective ht.network hea hfb
  exact Fin.ext ((List.getElem?_inj hi hnodup).1 (he.trans hf.symm))

variable [Scalar α]

/-! ## Both ways of looking an arc up -/

theorem arcNumber_of_ordered (ht : t.toNamedNetwork.Numbered) (h : t.graph.ordered[e]? = some a) :
    t.arcNumber (.int a.1) (.int a.2) = .ok e :=
  (arcNumber_eq_ok_iff ht).2 ((getElem?_arcNames_iff ht).2 h)

theorem exists_number_of_mem (ht : t.toNamedNetwork.Numbered) (ha : a ∈ t.graph.ordered) :
    ∃ e < t.arcCount, t.arcNumber (.int a.1) (.int a.2) = .ok e ∧
      t.arcNames[e]? = some (.int a.1, .int a.2) := by
  obtain ⟨e, he⟩ := List.mem_iff_getElem?.1 ha
  refine ⟨e, ?_, arcNumber_of_ordered ht he, (getElem?_arcNames_iff ht).2 he⟩
  rw [ht.arcCount_eq]
  exact (List.getElem?_eq_some_iff.1 he).1

theorem exists_arc_of_lt (ht : t.toNamedNetwork.Numbered) (he : e < t.arcCount) :
    ∃ a ∈ t.graph.ordered, t.arcNames[e]? = some (.int a.1, .int a.2) ∧
      t.arcNumber (.int a.1) (.int a.2) = .ok e := by
  have ha := List.getElem?_eq_getElem (ht.arcCount_eq ▸ he)
  exact ⟨_, List.mem_of_getElem? ha, (getElem?_arcNames_iff ht).2 ha, arcNumber_of_ordered ht ha⟩

theorem arcNumber_injective (ht : t.toNamedNetwork.Numbered) {b : Nat × Nat}
    (ha : a ∈ t.graph.ordered) (hb : b ∈ t.graph.ordered)
    (h : t.arcNumber (.int a.1) (.int a.2) = t.arcNumber (.int b.1) (.int b.2)) : a = b := by
  obtain ⟨e, he⟩ := List.mem_iff_getElem?.1 ha
  obtain ⟨f, hf⟩ := List.mem_iff_getElem?.1 hb
  rw [arcNumber_of_ordered ht he, arcNumber_of_ordered ht hf, Except.ok.injEq] at h
  rw [h, hf] at he
  exact (Option.some.inj he).symm

/-! ## Entries of the matrices -/

theorem getElem?_incidenceRow {arcs : List (Nat × Nat)} (h : arcs[e]? = some a)
    (hends : a.1 ≠ a.2) (v : Nat) :
    (incidenceRow arcs v : Row α)[e]? = some (if v = a.1 then Scalar.one
      else if v = a.2 then Scalar.neg Scalar.one else Scalar.zero) := by
  rw [incidenceRow, List.getElem?_map, h]
  by_cases htail : v = a.1
  · simp [htail, hends.symm]
  · simp [htail, eq_comm]

theorem getElem?_B_column {b : α} {integerTolls : Bool} (h : t.graph.ordered[e]? = some a)
    (hends : a.1 ≠ a.2) {v : Nat} (hv : v < t.graph.size) :
    let entry : α := if v = a.1 then Scalar.one else if v = a.2 then Scalar.neg Scalar.one
      else Scalar.zero
    (t.assembled b integerTolls).B.item? v e = some entry ∧
      (t.assembled b integerTolls).B.item? (t.graph.size + v) e = some (Scalar.neg entry) := by
  have hrow := getElem?_incidenceRow (α := α) h hends v
  have hB : (t.assembled b integerTolls).B =
      (List.range t.graph.size).map (incidenceRow t.graph.ordered) ++
        (List.range t.graph.size).map fun v => (incidenceRow t.graph.ordered v).map Scalar.neg := by
    show t.nodeRows ++ t.nodeRows.map (·.map Scalar.neg) = _
    rw [nodeRows, List.map_map]
    rfl
  rw [hB]
  refine ⟨?_, ?_⟩
  · rw [Rows.item?, getElem?_first_half _ _ hv]
    exact hrow
  · rw [Rows.item?, getElem?_second_half _ _ hv]
    show ((incidenceRow t.graph.ordered v).map Scalar.neg)[e]? = _
    rw [List.getElem?_map, hrow]
    rfl

theorem getElem?_F_row {b : α} {integerTolls : Bool} {i j : Nat} (h : t.tolled[i]? = some e)
    (hj : j < t.graph.ordered.length) :
    (t.assembled b integerTolls).F.item? i j =
      some (if j = e then Scalar.one else Scalar.zero) := by
  show (units t.graph.ordered.length t.tolled).item? i j = _
  rw [Rows.item?, units, List.getElem?_map, h]
  show ((List.replicate t.graph.ordered.length Scalar.zero).set e Scalar.one)[j]? = _
  rw [List.getElem?_set, List.getElem?_replicate_of_lt hj, List.length_replicate]
  by_cases he : e = j
  · rw [if_pos he, if_pos (he ▸ hj), if_pos he.symm]
  · rw [if_neg he, if_neg (Ne.symm he)]

theorem length_of_pathToFlow {path : Datum α} {y : Row α} (h : t.pathToFlow path = .ok y) :
    y.length = t.arcCount := by
  obtain ⟨nodes, -, h⟩ := exists_of_bind h
  obtain ⟨numbers, -, h⟩ := exists_of_bind h
  cases h
  exact length_flowOn t numbers

end TollNetwork

namespace TollSetting

variable {α : Type} {s : TollSetting α}

/-- The tables list the arcs as they are written, which is as integers. -/
theorem arcTable_arcNames (ht : s.network.toNamedNetwork.Numbered)
    (entry : Datum α → Datum α → Datum α → List (Datum α)) :
    arcTable s.network.arcNames entry = .table (s.network.graph.ordered.zipIdx.map
      fun (a, e) => entry (.int e) (.int a.1) (.int a.2)) := by
  rw [arcTable, ht.arcNames_eq, List.zipIdx_map, List.map_map]
  rfl

theorem arcTable_map (arcs : List (Datum α × Datum α)) (entry : Datum α → Datum α → List (Datum α)) :
    arcTable arcs (fun _ u v => entry u v) = .table (arcs.map fun (u, v) => entry u v) := by
  conv_rhs => rw [← List.zipIdx_map_fst 0 arcs, List.map_map]
  rfl

variable [Scalar α]

theorem arcNumbering_of_sound (ht : s.network.Sound) (hnodup : s.network.tolled.Nodup)
    {budget : Datum α} {integerTolls : Bool}
    (hp : s.network.program budget integerTolls = .ok s.program) :
    s.ArcNumbering s.network.tolled.length := by
  have hnamed := ht.numbered.network
  have hcount := hnamed.arcCount_eq
  obtain ⟨b, -, hassembled⟩ := exists_assembled ht hp
  refine
    { nodup := ht.network.proper.nodup_ordered
      arcNumbers_eq := congrArg Answer.ok (arcTable_arcNames hnamed _)
      numberedArcs_eq := congrArg Answer.ok (arcTable_arcNames hnamed _)
      decode_encode := fun a => exists_number_of_mem hnamed
      encode_decode := fun e => exists_arc_of_lt hnamed
      encode_injective := fun a ha b hb => arcNumber_injective hnamed ha hb
      arcCount_eq := hcount
      nl_eq := (nl_eq ht.numbered hp).trans hcount.symm
      pathToFlow_length := fun path y => length_of_pathToFlow
      B_column := fun e a he => ?_
      B_shape := ?_
      tolledArcs_eq := congrArg Answer.ok (arcTable_map _ _)
      tolledArcs_length := length_tolledArcs ht.numbered
      tolledArcs_nodup := nodup_tolledArcs ht.numbered hnodup
      F_row := fun i hi => ?_
      F_shape := ?_ }
  · have ha := (getElem?_arcNames_iff hnamed).1 he
    have hmem := List.mem_of_getElem? ha
    have hends := ht.ends_ne a hmem
    refine ⟨hends, (ht.ends_lt a hmem).1, (ht.ends_lt a hmem).2, fun v hv => ?_⟩
    rw [hassembled]
    exact getElem?_B_column ha hends hv
  · rw [hassembled, hcount]
    exact hasShape_B _ _ _
  · obtain ⟨e, a, he, ha, hea⟩ := exists_of_getElem?_tolled ht.numbered hi
    refine ⟨e, ?_, ha.trans hea.symm, fun j hj => ?_⟩
    · rw [hcount]
      exact ht.tolled_lt e (List.mem_of_getElem? he)
    · rw [hassembled]
      exact getElem?_F_row he (hcount ▸ hj)
  · rw [hassembled, hcount]
    refine ⟨List.length_map _, fun r hr => ?_⟩
    obtain ⟨e, -, rfl⟩ := List.mem_map.1 hr
    rw [List.length_set, List.length_replicate]

end TollSetting

namespace TollRequest

variable {α σ : Type} [Scalar α] {g : Sampling.Generator σ} {state : σ} {r : TollRequest α}
  {origin : Network.Origin α} {G : Graph}

/-- **Numbering.** In every setting that is generated over a simple graph the arcs of the final network
are numbered one to one and in order, and the program goes by these numbers; as many different arcs can
be charged as were asked for. -/
theorem arcNumbering_of_generateFrom (hG : G.Simple)
    (hbase : Network.base origin r.n r.k = .ok (.ofGraph G)) {s : TollSetting α}
    (hs : (r.generateFrom g state origin).2 = .ok s) :
    ∃ k : Nat, r.tolls.whole? = some (k : Int) ∧ s.ArcNumbering k := by
  obtain ⟨ht, hwhole, hp⟩ := sound_of_generateFrom hG hbase hs
  obtain ⟨-, hnodup, -⟩ := numbered_of_generateFrom hbase hs
  exact ⟨_, hwhole, TollSetting.arcNumbering_of_sound ht hnodup hp⟩

theorem generate_opened :
    (((triangle 5).generate allJoined).2.map fun s => s.network.graph.ordered) =
      .ok [(0, 1), (0, 2), (1, 2)] := by
  cbv

/-- Both arcs at the source were drawn into it and turned round, which moves them to the front. -/
theorem arcNumbering_opened : ∃ s, ((triangle 5).generate allJoined).2 = .ok s ∧
    s.network.graph.ordered = [(0, 1), (0, 2), (1, 2)] ∧ s.ArcNumbering 1 := by
  obtain ⟨s, hs, hordered⟩ := exists_of_map generate_opened
  obtain ⟨k, hk, hnumbering⟩ := arcNumbering_of_generateFrom (base_triangle 5).2 (base_triangle 5).1 hs
  obtain rfl : k = 1 := eq_of_whole? hk rfl
  exact ⟨s, hs, hordered, hnumbering⟩

end TollRequest
end Bilevel
