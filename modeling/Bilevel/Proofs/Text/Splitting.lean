import Mathlib.Data.List.Forall2
import Mathlib.Data.List.Nodup

/-!
# Bilevel.Proofs.Text.Splitting

Lists that were put together from parts can be taken apart again.

* `cut`: a list is cut at the first place of an item that does not stand before it.
* `closed_injective`, `opened_injective`, `intercalate_injective`: parts with an item after each,
  before each or between them, if no part has this item.
* `filter_kind`: parts of different kinds, one after the other.
* `forall₂_of_map_eq`: items that were written one by one. `map_zip_zip`: lists that were put together
  item by item.
-/

namespace Bilevel
namespace Splitting

variable {β : Type} {c : β}

theorem cut {a b a' b' : List β} (ha : c ∉ a) (ha' : c ∉ a')
    (h : a ++ c :: b = a' ++ c :: b') : a = a' ∧ b = b' := by
  induction a generalizing a' with
  | nil =>
    cases a' with
    | nil => exact ⟨rfl, (List.cons.inj h).2⟩
    | cons d a' => exact absurd ((List.cons.inj h).1 ▸ List.mem_cons_self) ha'
  | cons d a ih =>
    cases a' with
    | nil => exact absurd ((List.cons.inj h).1 ▸ List.mem_cons_self) ha
    | cons d' a' =>
      obtain ⟨rfl, hrest⟩ := List.cons.inj h
      obtain ⟨rfl, hb⟩ := ih (fun hc => ha (List.mem_cons_of_mem d hc))
        (fun hc => ha' (List.mem_cons_of_mem d hc)) hrest
      exact ⟨rfl, hb⟩

/-- Parts that are closed by an item each. -/
theorem closed_injective {ps ps' : List (List β)} (hps : ∀ p ∈ ps, c ∉ p)
    (hps' : ∀ p ∈ ps', c ∉ p) (h : ps.flatMap (· ++ [c]) = ps'.flatMap (· ++ [c])) : ps = ps' := by
  induction ps generalizing ps' with
  | nil =>
    cases ps' with
    | nil => rfl
    | cons p' ps' => simp at h
  | cons p ps ih =>
    cases ps' with
    | nil => simp at h
    | cons p' ps' =>
      simp only [List.flatMap_cons, List.append_assoc, List.singleton_append] at h
      obtain ⟨rfl, hrest⟩ := cut (hps p List.mem_cons_self) (hps' p' List.mem_cons_self) h
      rw [ih (fun q hq => hps q (List.mem_cons_of_mem p hq))
        (fun q hq => hps' q (List.mem_cons_of_mem p hq)) hrest]

theorem flatMap_opened (ps : List (List β)) (a : List β) :
    (a ++ ps.flatMap (c :: ·)) ++ [c] = (a :: ps).flatMap (· ++ [c]) := by
  induction ps generalizing a with
  | nil => simp
  | cons p ps ih =>
    rw [List.flatMap_cons, List.flatMap_cons, ← ih]
    simp

/-- A part, and then others that are opened by an item each. -/
theorem opened_injective {a a' : List β} {ps ps' : List (List β)} (hps : ∀ p ∈ a :: ps, c ∉ p)
    (hps' : ∀ p ∈ a' :: ps', c ∉ p) (h : a ++ ps.flatMap (c :: ·) = a' ++ ps'.flatMap (c :: ·)) :
    a = a' ∧ ps = ps' := by
  have hclosed := congrArg (· ++ [c]) h
  simp only [flatMap_opened] at hclosed
  exact List.cons.inj (closed_injective hps hps' hclosed)

theorem intercalate_append {sep : List β} {ps qs : List (List β)} (hps : ps ≠ []) (hqs : qs ≠ []) :
    sep.intercalate (ps ++ qs) = sep.intercalate ps ++ (sep ++ sep.intercalate qs) := by
  induction ps with
  | nil => exact absurd rfl hps
  | cons p ps ih =>
    cases ps with
    | nil =>
      obtain ⟨q, qs, rfl⟩ := List.exists_cons_of_ne_nil hqs
      simp
    | cons p' ps =>
      have hrest := ih (List.cons_ne_nil p' ps)
      rw [List.cons_append] at hrest
      rw [List.cons_append, List.cons_append, List.intercalate_cons_cons,
        List.intercalate_cons_cons, hrest]
      simp only [List.append_assoc]

theorem mem_intercalate {sep : List β} {ps : List (List β)} {b : β}
    (h : b ∈ sep.intercalate ps) : b ∈ sep ∨ ∃ p ∈ ps, b ∈ p := by
  induction ps with
  | nil => simp at h
  | cons p ps ih =>
    cases ps with
    | nil =>
      rw [List.intercalate_singleton] at h
      exact .inr ⟨p, List.mem_cons_self, h⟩
    | cons q ps =>
      rw [List.intercalate_cons_cons, List.mem_append, List.mem_append] at h
      rcases h with (h | h) | h
      · exact .inr ⟨p, List.mem_cons_self, h⟩
      · exact .inl h
      · exact (ih h).imp_right fun ⟨r, hr, hb⟩ => ⟨r, List.mem_cons_of_mem p hr, hb⟩

/-- Parts with a separator between them that begins with an item of its own. -/
theorem intercalate_injective {sep : List β} {ps ps' : List (List β)} (hps : ∀ p ∈ ps, c ∉ p)
    (hps' : ∀ p ∈ ps', c ∉ p) (hne : ps ≠ []) (hne' : ps' ≠ [])
    (h : (c :: sep).intercalate ps = (c :: sep).intercalate ps') : ps = ps' := by
  induction ps generalizing ps' with
  | nil => exact absurd rfl hne
  | cons p ps ih =>
    have hp := hps p List.mem_cons_self
    cases ps' with
    | nil => exact absurd rfl hne'
    | cons p' ps' =>
      have hp' := hps' p' List.mem_cons_self
      cases ps with
      | nil =>
        cases ps' with
        | nil => simpa using h
        | cons q' ps' =>
          rw [List.intercalate_singleton, List.intercalate_cons_cons, List.append_assoc] at h
          exact absurd (h ▸ List.mem_append_right p' List.mem_cons_self) hp
      | cons q ps =>
        cases ps' with
        | nil =>
          rw [List.intercalate_singleton, List.intercalate_cons_cons, List.append_assoc] at h
          exact absurd (h ▸ List.mem_append_right p List.mem_cons_self) hp'
        | cons q' ps' =>
          rw [List.intercalate_cons_cons, List.intercalate_cons_cons, List.append_assoc,
            List.append_assoc, List.cons_append, List.cons_append] at h
          obtain ⟨rfl, hrest⟩ := cut hp hp' h
          rw [ih (fun r hr => hps r (List.mem_cons_of_mem p hr))
            (fun r hr => hps' r (List.mem_cons_of_mem p hr)) (List.cons_ne_nil q ps)
            (List.cons_ne_nil q' ps') (List.append_cancel_left hrest)]

/-- The part of one kind, among parts of different kinds. -/
theorem filter_kind {κ : Type} [DecidableEq κ] {kind : β → κ} {part : κ → List β}
    (h : ∀ k, ∀ b ∈ part k, kind b = k) {ks : List κ} (hks : ks.Nodup) {k : κ} (hk : k ∈ ks) :
    (ks.flatMap part).filter (fun b => kind b = k) = part k := by
  have hother : ∀ k' ≠ k, (part k').filter (fun b => kind b = k) = [] := by
    intro k' hne
    rw [List.filter_eq_nil_iff]
    intro b hb
    rw [h k' b hb]
    simpa using hne
  have hsame : (part k).filter (fun b => kind b = k) = part k := by
    rw [List.filter_eq_self]
    intro b hb
    rw [h k b hb]
    simp
  induction ks with
  | nil => cases hk
  | cons k' ks ih =>
    obtain ⟨hnot, hks⟩ := List.nodup_cons.1 hks
    rw [List.flatMap_cons, List.filter_append]
    by_cases hk' : k' = k
    · subst hk'
      have hrest : (ks.flatMap part).filter (fun b => kind b = k') = [] := by
        rw [List.filter_flatMap]
        exact List.flatMap_eq_nil_iff.2 fun k'' hk'' => hother k'' fun heq => hnot (heq ▸ hk'')
      rw [hsame, hrest, List.append_nil]
    · rw [hother k' hk', List.nil_append]
      exact ih hks ((List.mem_cons.1 hk).resolve_left (Ne.symm hk'))

/-- Equal images of two lists relate their items one by one. -/
theorem forall₂_of_map_eq {γ δ : Type} {f : β → δ} {g : γ → δ} {R : β → γ → Prop} {l : List β}
    {l' : List γ} (hR : ∀ a ∈ l, ∀ b ∈ l', f a = g b → R a b) (h : l.map f = l'.map g) :
    List.Forall₂ R l l' := by
  induction l generalizing l' with
  | nil =>
    rw [List.map_eq_nil_iff.1 h.symm]
    exact .nil
  | cons a l ih =>
    cases l' with
    | nil => cases h
    | cons b l' =>
      obtain ⟨hab, hrest⟩ := List.cons.inj h
      exact .cons (hR a List.mem_cons_self b List.mem_cons_self hab)
        (ih (fun a ha b hb => hR a (List.mem_cons_of_mem _ ha) b (List.mem_cons_of_mem _ hb)) hrest)

theorem forall₂_of_map {γ δ : Type} {R : γ → δ → Prop} {f : β → γ} {g : β → δ} {l l' : List β}
    (h : List.Forall₂ (fun a b => R (f a) (g b)) l l') : List.Forall₂ R (l.map f) (l'.map g) := by
  rwa [List.forall₂_map_left_iff, List.forall₂_map_right_iff]

/-- Three lists of one length that were put together. -/
theorem map_zip_zip {γ δ : Type} {as : List β} {bs : List γ} {cs : List δ}
    (has : as.length = cs.length) (hbs : bs.length = cs.length) :
    (as.zip (bs.zip cs)).map (·.1) = as ∧ (as.zip (bs.zip cs)).map (·.2.1) = bs ∧
      (as.zip (bs.zip cs)).map (·.2.2) = cs := by
  have hlength : (bs.zip cs).length = as.length := by
    rw [List.length_zip, hbs, Nat.min_self, has]
  have hrest : (as.zip (bs.zip cs)).map (·.2) = bs.zip cs := List.map_snd_zip (Nat.le_of_eq hlength)
  refine ⟨List.map_fst_zip (Nat.le_of_eq hlength.symm), ?_, ?_⟩
  · rw [show (fun r : β × γ × δ => r.2.1) = (·.1) ∘ (·.2) from rfl, ← List.map_map, hrest,
      List.map_fst_zip (Nat.le_of_eq hbs)]
  · rw [show (fun r : β × γ × δ => r.2.2) = (·.2) ∘ (·.2) from rfl, ← List.map_map, hrest,
      List.map_snd_zip (Nat.le_of_eq hbs.symm)]

end Splitting
end Bilevel
