import Mathlib.Data.List.Forall2

/-!
# Bilevel.Proofs.Runs

Computations that may fail, taken apart.

* `exists_of_bind`: if a sequence succeeds, so does its first part, and the rest with the result.
  `bind_eq_ok_iff` is the same as an equivalence, `exists_of_map` for a result that is looked at
  afterwards, `exists_of_isOk` for one that is only looked at as a whole.
* `error_of_bind`: a sequence fails as another one that begins with the same part.
* `mapM_eq_ok_iff`: a list of results is one result for each item. `length_of_mapM_ok`: a list keeps
  its length when every item becomes another one.
* `forM_cases`: a run over a list fails at the first item that is refused.
-/

namespace Bilevel

variable {β γ δ ε : Type}

theorem exists_of_bind {x : Except ε β} {f : β → Except ε γ} {c : γ} (h : x >>= f = .ok c) :
    ∃ b, x = .ok b ∧ f b = .ok c := by
  cases x with
  | error e => cases h
  | ok b => exact ⟨b, rfl, h⟩

theorem bind_eq_ok_iff {x : Except ε β} {f : β → Except ε γ} {c : γ} :
    x >>= f = .ok c ↔ ∃ b, x = .ok b ∧ f b = .ok c :=
  ⟨exists_of_bind, fun ⟨_, hb, hc⟩ => hb ▸ hc⟩

theorem error_of_bind {x : Except ε β} {f : β → Except ε γ} {g : β → Except ε δ} {e : ε}
    (h : x >>= f = .error e) (hfg : ∀ b, x = .ok b → f b = .error e → g b = .error e) :
    x >>= g = .error e := by
  cases x with
  | error e' =>
    cases h
    rfl
  | ok b => exact hfg b rfl h

theorem exists_of_map {x : Except ε β} {f : β → γ} {c : γ} (h : x.map f = .ok c) :
    ∃ b, x = .ok b ∧ f b = c := by
  cases x with
  | error e => cases h
  | ok b => exact ⟨b, rfl, Except.ok.inj h⟩

theorem exists_of_isOk {x : Except ε β} (h : x.isOk = true) : ∃ b, x = .ok b := by
  cases x with
  | error e => cases h
  | ok b => exact ⟨b, rfl⟩

theorem exists_of_forall₂ {R : β → γ → Prop} {xs : List β} {ys : List γ}
    (h : List.Forall₂ R xs ys) :
    (∀ x ∈ xs, ∃ y ∈ ys, R x y) ∧ ∀ y ∈ ys, ∃ x ∈ xs, R x y := by
  induction h with
  | nil => simp
  | cons h _ ih =>
    simp only [List.mem_cons, forall_eq_or_imp, exists_eq_or_imp]
    exact ⟨⟨.inl h, fun x hx => .inr (ih.1 x hx)⟩, .inl h, fun y hy => .inr (ih.2 y hy)⟩

theorem forall₂_of_forall {R : β → γ → Prop} {xs : List β} (h : ∀ x ∈ xs, ∃ y, R x y) :
    ∃ ys, List.Forall₂ R xs ys := by
  induction xs with
  | nil => exact ⟨[], .nil⟩
  | cons x xs ih =>
    obtain ⟨y, hy⟩ := h x List.mem_cons_self
    obtain ⟨ys, hys⟩ := ih fun z hz => h z (List.mem_cons_of_mem x hz)
    exact ⟨y :: ys, .cons hy hys⟩

/-- A run over a list succeeds exactly if it does item by item. -/
theorem mapM_eq_ok_iff {f : β → Except ε γ} {xs : List β} {ys : List γ} :
    xs.mapM f = .ok ys ↔ List.Forall₂ (fun x y => f x = .ok y) xs ys := by
  induction xs generalizing ys with
  | nil =>
    rw [List.forall₂_nil_left_iff]
    exact ⟨fun h => (Except.ok.inj h).symm, fun h => h ▸ rfl⟩
  | cons x xs ih =>
    rw [List.mapM_cons, List.forall₂_cons_left_iff]
    constructor
    · intro h
      obtain ⟨y, hy, h⟩ := exists_of_bind h
      obtain ⟨zs, hzs, h⟩ := exists_of_bind h
      exact ⟨y, zs, hy, ih.1 hzs, (Except.ok.inj h).symm⟩
    · rintro ⟨y, zs, hy, hzs, rfl⟩
      rw [hy, ih.2 hzs]
      rfl

theorem length_of_mapM_ok {f : β → Except ε γ} {xs : List β} {ys : List γ}
    (h : xs.mapM f = .ok ys) : ys.length = xs.length :=
  (mapM_eq_ok_iff.1 h).length_eq.symm

/-- Either all items pass, or the run ends with the fault of the first one that does not. -/
theorem forM_cases (f : β → Except ε Unit) (xs : List β) :
    (∀ x ∈ xs, f x = .ok ()) ∨ ∃ before x after e, xs = before ++ x :: after ∧
      (∀ y ∈ before, f y = .ok ()) ∧ f x = .error e ∧ xs.forM f = .error e := by
  induction xs with
  | nil => exact .inl fun x hx => absurd hx List.not_mem_nil
  | cons x xs ih =>
    have hcons : (x :: xs).forM f = f x >>= fun _ => xs.forM f := rfl
    rw [hcons]
    cases hx : f x with
    | error e =>
      exact .inr ⟨[], x, xs, e, rfl, fun y hy => absurd hy List.not_mem_nil, hx, rfl⟩
    | ok u =>
      rcases ih with hall | ⟨before, y, after, e, rfl, hbefore, hy, hrun⟩
      · exact .inl (List.forall_mem_cons.2 ⟨hx, hall⟩)
      · exact .inr ⟨x :: before, y, after, e, rfl, List.forall_mem_cons.2 ⟨hx, hbefore⟩, hy, hrun⟩

end Bilevel
