import Bilevel.Heap
import Mathlib.Data.List.Basic
import Mathlib.Order.Lattice
import Mathlib.Order.Nat

/-!
# Bilevel.Proofs.Heap

A heap gives a least item, as long as items are compared by a key that is ordered.

* `Ordered` says that no item is less than its parent. While an item rises or sinks, `RiseReady` and
  `SinkReady` say what is left of that.
* `push_spec`, `pop_spec`: both succeed, and the heap holds the items that it should, in order. The
  item that comes out is a least one.
-/

namespace Bilevel
namespace Heap

variable {β ε κ : Type} [LinearOrder κ] {key : β → κ} {less : β → β → Except ε Bool}
  {h : Heap β} {i j k : Nat} {x y z : β}

theorem parent_lt (hi : 0 < i) : parent i < i := by
  unfold parent
  omega

/-- The item at position `i` is at most the one at position `j`. -/
def AtMost (key : β → κ) (h : Heap β) (i j : Nat) : Prop :=
  ∀ x y, h[i]? = some x → h[j]? = some y → key x ≤ key y

/-- No item is less than its parent. -/
def Ordered (key : β → κ) (h : Heap β) : Prop :=
  ∀ j, 0 < j → AtMost key h (parent j) j

/-- Only the item at position `i` may be less than its parent. -/
structure RiseReady (key : β → κ) (h : Heap β) (i : Nat) : Prop where
  others : ∀ j, 0 < j → j ≠ i → AtMost key h (parent j) j
  past : 0 < i → ∀ j, 0 < j → parent j = i → AtMost key h (parent i) j

/-- Only the item at position `i` may be out of order, with its parent or its children. -/
structure SinkReady (key : β → κ) (h : Heap β) (i : Nat) : Prop where
  others : ∀ j, 0 < j → j ≠ i → parent j ≠ i → AtMost key h (parent j) j
  past : 0 < i → ∀ j, 0 < j → parent j = i → AtMost key h (parent i) j

theorem atMost_refl (h : Heap β) (i : Nat) : AtMost key h i i := by
  intro a b ha hb
  rw [ha] at hb
  cases hb
  exact le_rfl

theorem atMost_of_le (hx : h[i]? = some x) (hy : h[j]? = some y) (hle : key x ≤ key y) :
    AtMost key h i j := by
  intro a b ha hb
  rw [hx] at ha
  rw [hy] at hb
  cases ha
  cases hb
  exact hle

theorem atMost_of_none (hy : h[j]? = none) (i : Nat) : AtMost key h i j := by
  intro a b _ hb
  rw [hy] at hb
  cases hb

theorem getElem?_swap (hx : h[i]? = some x) (hy : h[j]? = some y) (k : Nat) :
    (h.swapIfInBounds i j)[k]? = if k = i then some y else if k = j then some x else h[k]? := by
  obtain ⟨hi, rfl⟩ := Array.getElem?_eq_some_iff.1 hx
  obtain ⟨hj, rfl⟩ := Array.getElem?_eq_some_iff.1 hy
  rw [Array.swapIfInBounds_def, dif_pos hi, dif_pos hj, Array.getElem?_swap]
  grind

theorem perm_swap (h : Heap β) (i j : Nat) : (h.swapIfInBounds i j).toList.Perm h.toList := by
  rw [Array.swapIfInBounds_def]
  split
  · split
    · exact (Array.swap_perm _ _).toList
    · exact .refl _
  · exact .refl _

/-! ## Rising -/

theorem RiseReady.swap (hr : RiseReady key h i) (hi : 0 < i) (hx : h[i]? = some x)
    (hy : h[parent i]? = some y) (hlt : key x < key y) :
    RiseReady key (h.swapIfInBounds i (parent i)) (parent i) := by
  have hpi := parent_lt hi
  have hget := getElem?_swap hx hy
  constructor
  · intro j hj hne a b ha hb
    rw [hget] at ha hb
    have hpj := parent_lt hj
    by_cases hji : j = i
    · subst hji
      grind
    · have hold := hr.others j hj hji
      have hpast := hr.past hi j hj
      unfold AtMost at hold hpast
      grind
  · intro hp j hj hji a b ha hb
    rw [hget] at ha hb
    have hpp := parent_lt hp
    have habove := hr.others (parent i) hp (Nat.ne_of_lt hpi)
    have hold := hr.others j hj
    unfold AtMost at habove hold
    grind

theorem RiseReady.ordered (hr : RiseReady key h i) (hi : 0 < i → AtMost key h (parent i) i) :
    Ordered key h := by
  intro j hj
  by_cases hji : j = i
  · subst hji
    exact hi hj
  · exact hr.others j hj hji

theorem rise_spec (hless : ∀ x y, less x y = .ok (decide (key x < key y)))
    (hr : RiseReady key h i) :
    ∃ h', rise less h i = .ok h' ∧ h'.toList.Perm h.toList ∧ Ordered key h' := by
  induction i using Nat.strongRecOn generalizing h with
  | _ i ih =>
    rw [rise]
    by_cases hi : 0 < i
    · rw [if_pos hi]
      cases hx : h[i]? with
      | none =>
        refine ⟨h, rfl, .refl _, hr.ordered fun _ a b _ hb => ?_⟩
        rw [hx] at hb
        cases hb
      | some x =>
        cases hy : h[parent i]? with
        | none =>
          refine ⟨h, rfl, .refl _, hr.ordered fun _ a b ha _ => ?_⟩
          rw [hy] at ha
          cases ha
        | some y =>
          simp only [hless, bind, Except.bind]
          by_cases hlt : key x < key y
          · rw [decide_eq_true hlt, if_pos rfl]
            obtain ⟨h', hrun, hperm, hord⟩ := ih (parent i) (parent_lt hi) (hr.swap hi hx hy hlt)
            exact ⟨h', hrun, hperm.trans (perm_swap h i (parent i)), hord⟩
          · rw [decide_eq_false hlt, if_neg Bool.false_ne_true]
            exact ⟨h, rfl, .refl _, hr.ordered fun _ => atMost_of_le hy hx (not_lt.1 hlt)⟩
    · rw [if_neg hi]
      exact ⟨h, rfl, .refl _, hr.ordered fun h0 => absurd h0 hi⟩

/-! ## Sinking -/

theorem SinkReady.swap (hs : SinkReady key h i) {c : Nat} (hc : 0 < c) (hci : parent c = i)
    (hx : h[i]? = some x) (hy : h[c]? = some y)
    (hleast : ∀ j, 0 < j → parent j = i → AtMost key h c j) :
    SinkReady key (h.swapIfInBounds i c) c := by
  have hic : i < c := hci ▸ parent_lt hc
  have hget := getElem?_swap hx hy
  constructor
  · intro j hj hjc hpc a b ha hb
    rw [hget] at ha hb
    have hpj := parent_lt hj
    by_cases hji : j = i
    · subst hji
      have hpast := hs.past hj c hc hci
      unfold AtMost at hpast
      grind
    · have hold := hs.others j hj hji
      have hmin := hleast j hj
      unfold AtMost at hold hmin
      grind
  · intro _ j hj hjc a b ha hb
    rw [hget] at ha hb
    have hpj := parent_lt hj
    have hold := hs.others j hj
    unfold AtMost at hold
    grind

theorem child_cases (hj : 0 < j) (hp : parent j = i) : j = 2 * i + 1 ∨ j = 2 * i + 2 := by
  unfold parent at hp
  omega

/-- An item without children is in order with them. -/
theorem SinkReady.riseReady_of_leaf (hs : SinkReady key h i) (hleft : ¬2 * i + 1 < h.size) :
    RiseReady key h i := by
  have hnone : ∀ j, 0 < j → parent j = i → h[j]? = none := by
    intro j hj hp
    rcases child_cases hj hp with rfl | rfl
    · exact Array.getElem?_eq_none (by omega)
    · exact Array.getElem?_eq_none (by omega)
  constructor
  · intro j hj hji
    by_cases hp : parent j = i
    · exact atMost_of_none (hnone j hj hp) _
    · exact hs.others j hj hji hp
  · intro _ j hj hp
    exact atMost_of_none (hnone j hj hp) _

theorem sink_spec (hless : ∀ x y, less x y = .ok (decide (key x < key y)))
    (hs : SinkReady key h i) (hi : i < h.size) :
    ∃ h' k, sink less h i = .ok (h', k) ∧ h'.toList.Perm h.toList ∧ RiseReady key h' k := by
  induction hn : h.size - i using Nat.strongRecOn generalizing h i with
  | _ n ih =>
    have hx : h[i]? = some h[i] := Array.getElem?_eq_getElem hi
    have hstep : ∀ c, c < h.size → i < c → 0 < c → parent c = i →
        (∀ j, 0 < j → parent j = i → AtMost key h c j) →
        ∃ h' k, sink less (h.swapIfInBounds i c) c = .ok (h', k) ∧
          h'.toList.Perm h.toList ∧ RiseReady key h' k := by
      intro c hcs hic hc hci hleast
      have hy : h[c]? = some h[c] := Array.getElem?_eq_getElem hcs
      have hsize : (h.swapIfInBounds i c).size = h.size := Array.size_swapIfInBounds
      obtain ⟨h', k, hrun, hperm, hready⟩ := ih (h.size - c) (by omega)
        (hs.swap hc hci hx hy hleast) (by rw [hsize]; exact hcs) (by rw [hsize])
      exact ⟨h', k, hrun, hperm.trans (perm_swap h i c), hready⟩
    rw [sink]
    by_cases hleft : 2 * i + 1 < h.size
    · rw [if_pos hleft]
      have hl : h[2 * i + 1]? = some h[2 * i + 1] := Array.getElem?_eq_getElem hleft
      have hpl : parent (2 * i + 1) = i := by
        unfold parent
        omega
      have hpr : parent (2 * i + 2) = i := by
        unfold parent
        omega
      rw [hl]
      cases hr : h[2 * i + 2]? with
      | none =>
        refine hstep (2 * i + 1) hleft (by omega) (by omega) hpl fun j hj hp => ?_
        rcases child_cases hj hp with rfl | rfl
        · exact atMost_refl h _
        · exact atMost_of_none hr _
      | some r =>
        simp only [hless, bind, Except.bind]
        by_cases hlt : key h[2 * i + 1] < key r
        · rw [decide_eq_true hlt, if_pos rfl]
          refine hstep (2 * i + 1) hleft (by omega) (by omega) hpl fun j hj hp => ?_
          rcases child_cases hj hp with rfl | rfl
          · exact atMost_refl h _
          · exact atMost_of_le hl hr hlt.le
        · rw [decide_eq_false hlt, if_neg Bool.false_ne_true]
          have hright : 2 * i + 2 < h.size := (Array.getElem?_eq_some_iff.1 hr).1
          refine hstep (2 * i + 2) hright (by omega) (by omega) hpr fun j hj hp => ?_
          rcases child_cases hj hp with rfl | rfl
          · exact atMost_of_le hr hl (not_lt.1 hlt)
          · exact atMost_refl h _
    · rw [if_neg hleft]
      exact ⟨h, i, rfl, .refl _, hs.riseReady_of_leaf hleft⟩

/-! ## Adding and taking out -/

theorem push_spec (hless : ∀ x y, less x y = .ok (decide (key x < key y)))
    (hh : Ordered key h) (x : β) :
    ∃ h', push less h x = .ok h' ∧ h'.toList.Perm (x :: h.toList) ∧ Ordered key h' := by
  have hready : RiseReady key (Array.push h x) h.size := by
    constructor
    · intro j hj hne a b ha hb
      have hjlt : j < h.size := by
        have hlt := (Array.getElem?_eq_some_iff.1 hb).1
        rw [Array.size_push] at hlt
        omega
      have hplt := Nat.lt_trans (parent_lt hj) hjlt
      rw [Array.getElem?_push_lt hplt] at ha
      rw [Array.getElem?_push_lt hjlt] at hb
      exact hh j hj a b (by rw [Array.getElem?_eq_getElem hplt]; exact ha)
        (by rw [Array.getElem?_eq_getElem hjlt]; exact hb)
    · intro _ j hj hp a b _ hb
      have hlt := (Array.getElem?_eq_some_iff.1 hb).1
      rw [Array.size_push] at hlt
      have hgt := parent_lt hj
      omega
  obtain ⟨h', hrun, hperm, hord⟩ := rise_spec hless hready
  refine ⟨h', hrun, hperm.trans ?_, hord⟩
  rw [Array.toList_push]
  exact List.perm_append_singleton x h.toList

theorem Ordered.least (hh : Ordered key h) (hx : h[0]? = some x) (hy : h[i]? = some y) :
    key x ≤ key y := by
  induction i using Nat.strongRecOn generalizing y with
  | _ i ih =>
    by_cases hi : 0 < i
    · have hlt := parent_lt hi
      have hget : h[parent i]? = some _ :=
        Array.getElem?_eq_getElem (Nat.lt_trans hlt (Array.getElem?_eq_some_iff.1 hy).1)
      exact le_trans (ih (parent i) hlt hget) (hh i hi _ _ hget hy)
    · have h0 : i = 0 := by omega
      subst h0
      rw [hx] at hy
      cases hy
      exact le_rfl

/-- The items that are left with the last one in the first place. -/
theorem toList_refill (hsize : 1 < h.size) (hx : h[0]? = some x) (hy : h.back? = some y) :
    h.toList.Perm (x :: ((Array.pop h).setIfInBounds 0 y).toList) := by
  obtain ⟨l⟩ := h
  cases l with
  | nil => cases hx
  | cons a rest =>
    obtain rfl | ⟨mid, b, hrest⟩ := List.eq_nil_or_concat rest
    · exact absurd hsize (Nat.lt_irrefl 1)
    · rw [List.concat_eq_append] at hrest
      subst hrest
      have hxa : a = x := Option.some.inj hx
      have hyb : b = y := by
        rw [List.back?_toArray, ← List.cons_append, List.getLast?_append] at hy
        exact Option.some.inj hy
      subst hxa hyb
      rw [Array.toList_setIfInBounds, Array.toList_pop, ← List.cons_append, List.dropLast_concat]
      exact (List.perm_append_singleton b mid).cons a

theorem sinkReady_refill (hh : Ordered key h) (y : β) :
    SinkReady key ((Array.pop h).setIfInBounds 0 y) 0 := by
  have hget : ∀ k a, 0 < k → ((Array.pop h).setIfInBounds 0 y)[k]? = some a → h[k]? = some a := by
    intro k a hk ha
    rw [Array.getElem?_setIfInBounds_ne (Nat.ne_of_lt hk), Array.getElem?_pop] at ha
    split at ha
    · exact ha
    · cases ha
  constructor
  · intro j hj _ hp a b ha hb
    exact hh j hj a b (hget _ a (Nat.pos_of_ne_zero hp) ha) (hget j b hj hb)
  · exact fun h0 => absurd h0 (Nat.lt_irrefl 0)

theorem pop_spec (hless : ∀ x y, less x y = .ok (decide (key x < key y)))
    (hh : Ordered key h) (hne : 0 < h.size) :
    ∃ x h', pop less h = .ok (some (x, h')) ∧ h.toList.Perm (x :: h'.toList) ∧
      (∀ y ∈ h, key x ≤ key y) ∧ Ordered key h' := by
  have hfirst : h[0]? = some h[0] := Array.getElem?_eq_getElem hne
  have hleast : ∀ y ∈ h, key h[0] ≤ key y := by
    intro y hy
    obtain ⟨i, hi⟩ := Array.mem_iff_getElem?.1 hy
    exact hh.least hfirst hi
  have hback : h.back? = some (h[h.size - 1]) := by
    rw [Array.back?_eq_getElem?]
    exact Array.getElem?_eq_getElem (by omega)
  rw [pop, hfirst, hback]
  simp only
  by_cases hone : h.size = 1
  · rw [if_pos hone]
    have hlist : h.toList = [h[0]] := by
      refine List.ext_getElem hone fun k h1 h2 => ?_
      have hk : k = 0 := by
        rw [List.length_singleton] at h2
        omega
      subst hk
      rfl
    refine ⟨h[0], #[], rfl, ?_, hleast, fun j hj a b _ hb => ?_⟩
    · rw [hlist]
    · rw [Array.getElem?_empty] at hb
      cases hb
  · rw [if_neg hone]
    have hsize : 1 < h.size := by omega
    have hroom : 0 < ((Array.pop h).setIfInBounds 0 h[h.size - 1]).size := by
      rw [Array.size_setIfInBounds, Array.size_pop]
      omega
    obtain ⟨sunk, k, hsink, hperm, hready⟩ :=
      sink_spec hless (sinkReady_refill hh h[h.size - 1]) hroom
    obtain ⟨h', hrise, hperm', hord⟩ := rise_spec hless hready
    refine ⟨h[0], h', ?_, ?_, hleast, hord⟩
    · rw [hsink]
      simp only [bind, Except.bind, hrise]
      rfl
    · exact (toList_refill hsize hfirst hback).trans ((hperm'.trans hperm).symm.cons _)

end Heap
end Bilevel
