import Bilevel.Proofs.States

/-!
# Bilevel.Proofs.Precedence

Why access to a bound fails, and what it leaves behind.

* `Refusal` lists what can be wrong with a level and an index, in the order of the checks: a cause
  presupposes that there is none before it. No bound has two causes, and either there is one or level
  and index name a bound (`Names`).
* `locate_eq_error_iff`, `setBound_eq_error_iff`, `bounds_eq_error_iff`: these are the faults of the
  accesses; a change looks at its value only after them.
* `access_precedence`: the same for the two commands on any program that one can come to work with,
  with what they leave behind.
-/

namespace Bilevel
namespace Program

variable {α : Type}

/-- Why a level and an index name no bound. Only a level itself is one: a text is not, whatever it
says. -/
inductive Refusal (p : Program α) : LevelArg α → Datum α → Fault α → Prop
  | noLevel (got index : Datum α) : Refusal p (.other got) index (.notLevel got)
  | noInteger (l : Level) {index : Datum α} (hindex : ∀ j, index ≠ .int j) :
    Refusal p (.member l) index (.notIndex index)
  | noVariable (l : Level) {j : Int} (hj : ¬(1 ≤ j ∧ j ≤ p.size l)) :
    Refusal p (.member l) (.int j) (.outOfRange l (.int j) (.int (p.size l)))

/-- The level and the index name the bound at a position of a level. -/
def Names (p : Program α) (level : LevelArg α) (index : Datum α) (l : Level) (i : Nat) : Prop :=
  level = .member l ∧ index = .int (i + 1 : Nat) ∧ i < p.size l

variable {p : Program α} {level : LevelArg α} {index : Datum α} {f g : Fault α} {l : Level} {i : Nat}

theorem locate_eq_error_iff :
    p.locate level index = .error f ↔ p.Refusal level index f := by
  constructor
  · intro h
    unfold locate at h
    cases level with
    | other got =>
      cases h
      exact .noLevel got index
    | member l =>
      cases index with
      | int j =>
        simp only at h
        by_cases hj : 1 ≤ j ∧ j ≤ p.size l
        · rw [if_pos hj] at h
          cases h
        · rw [if_neg hj] at h
          cases h
          exact .noVariable l hj
      | _ =>
        cases h
        exact .noInteger l fun j hj => by cases hj
  · intro h
    cases h with
    | noLevel got index => rfl
    | noInteger l hindex =>
      unfold locate
      cases index with
      | int j => exact absurd rfl (hindex j)
      | _ => rfl
    | noVariable l hj => exact if_neg hj

theorem Refusal.unique (hf : p.Refusal level index f) (hg : p.Refusal level index g) : f = g :=
  Except.error.inj ((locate_eq_error_iff.2 hf).symm.trans (locate_eq_error_iff.2 hg))

theorem Names.not_refusal (h : p.Names level index l i) : ¬p.Refusal level index f := by
  intro hf
  have hok := (p.locate_eq_ok_iff level index l i).2 h
  rw [locate_eq_error_iff.2 hf] at hok
  cases hok

theorem refusal_or_names (p : Program α) (level : LevelArg α) (index : Datum α) :
    (∃ f, p.Refusal level index f) ∨ ∃ l i, p.Names level index l i := by
  cases h : p.locate level index with
  | error f => exact .inl ⟨f, locate_eq_error_iff.1 h⟩
  | ok at' => exact .inr ⟨at'.1, at'.2, (p.locate_eq_ok_iff level index _ _).1 h⟩

/-- A bound that is named is read. -/
theorem exists_bounds_of_names (hp : p.Shaped) (h : p.Names level index l i) :
    ∃ low high, (p.box l).lower[i]? = some low ∧ (p.box l).upper[i]? = some high ∧
      p.bounds level index = .ok (low, high) := by
  have hlow : i < (p.box l).lower.length := (hp.length_get l .lower).symm ▸ h.2.2
  have hhigh : i < (p.box l).upper.length := (hp.length_get l .upper).symm ▸ h.2.2
  refine ⟨_, _, List.getElem?_eq_getElem hlow, List.getElem?_eq_getElem hhigh, ?_⟩
  rw [bounds, (p.locate_eq_ok_iff level index l i).2 h]
  simp only [bind, Except.bind, List.getElem?_eq_getElem hlow, List.getElem?_eq_getElem hhigh]
  rfl

theorem bounds_eq_error_iff (hp : p.Shaped) :
    p.bounds level index = .error f ↔ p.Refusal level index f := by
  rcases p.refusal_or_names level index with ⟨g, hg⟩ | ⟨l, i, hname⟩
  · rw [bounds, locate_eq_error_iff.2 hg]
    constructor
    · intro h
      cases h
      exact hg
    · intro hf
      rw [hf.unique hg]
      rfl
  · obtain ⟨low, high, -, -, hbounds⟩ := exists_bounds_of_names hp hname
    rw [hbounds]
    constructor
    · intro h
      cases h
    · exact fun hf => absurd hf hname.not_refusal

variable [Scalar α] {value : Datum α}

theorem setBound_eq_error_iff {side : Side} :
    p.setBound side level index value = .error f ↔ p.Refusal level index f ∨
      ∃ l i why, p.Names level index l i ∧ value.toScalar = .error why ∧ f = .conversion why := by
  unfold setBound
  rcases p.refusal_or_names level index with ⟨g, hg⟩ | ⟨l, i, hname⟩
  · rw [locate_eq_error_iff.2 hg]
    constructor
    · intro h
      cases h
      exact .inl hg
    · rintro (hf | ⟨l, i, why, hname, -⟩)
      · rw [hf.unique hg]
        rfl
      · exact absurd hg hname.not_refusal
  · rw [(p.locate_eq_ok_iff level index l i).2 hname]
    simp only [bind, Except.bind]
    cases hv : value.toScalar with
    | error why =>
      constructor
      · intro h
        cases h
        exact .inr ⟨l, i, why, hname, rfl, rfl⟩
      · rintro (hf | ⟨_, _, why', -, hwhy, rfl⟩)
        · exact absurd hf hname.not_refusal
        · cases hwhy
          rfl
    | ok v =>
      constructor
      · intro h
        cases h
      · rintro (hf | ⟨_, _, why, -, hwhy, -⟩)
        · exact absurd hf hname.not_refusal
        · cases hwhy

/-! ## Commands -/

theorem fault_perform_bounds :
    (p.perform (.bounds level index)).1.fault = some f ↔ p.bounds level index = .error f := by
  rw [perform]
  cases p.bounds level index with
  | error g => simp [Except.map, Answer.ofExcept]
  | ok pair => simp [Except.map, Answer.ofExcept]

theorem fault_perform_setBound {side : Side} :
    (p.perform (.setBound side level index value)).1.fault = some f ↔
      p.setBound side level index value = .error f := by
  rw [perform]
  cases p.setBound side level index value with
  | error g => simp
  | ok p' => simp [Answer.ok]

/-- A change that is answered with a fault changes nothing. -/
theorem perform_setBound_of_fault {side : Side}
    (h : (p.perform (.setBound side level index value)).1.fault = some f) :
    (p.perform (.setBound side level index value)).2 = p := by
  rw [perform, fault_perform_setBound.1 h]

/-- **Precedence.** Reading a bound fails exactly for the cause that comes first among the level, the
kind of the index and its range; a change fails for the same causes, and after them if its value is no
number. A command that fails leaves the whole program as it is. Reading a bound that is named gives
this one and its counterpart; changing it puts the number there, and no other bound is touched. -/
theorem access_precedence (hp : p.Reachable) (side : Side) (level : LevelArg α)
    (index value : Datum α) :
    ((∃ f, p.Refusal level index f) ↔ ¬∃ l i, p.Names level index l i) ∧
    (∀ f, (p.perform (.bounds level index)).1.fault = some f ↔ p.Refusal level index f) ∧
    (∀ f, (p.perform (.setBound side level index value)).1.fault = some f ↔
      p.Refusal level index f ∨
        ∃ l i why, p.Names level index l i ∧ value.toScalar = .error why ∧ f = .conversion why) ∧
    (p.perform (.bounds level index)).2 = p ∧
    (∀ f, (p.perform (.setBound side level index value)).1.fault = some f →
      (p.perform (.setBound side level index value)).2 = p) ∧
    (∀ l i, p.Names level index l i →
      ∃ low high, (p.box l).lower[i]? = some low ∧ (p.box l).upper[i]? = some high ∧
        (p.perform (.bounds level index)).1 = .ok (.interval low high)) ∧
    (∀ l i v, p.Names level index l i → value.toScalar = .ok v →
      (p.perform (.setBound side level index value)).1.fault = none ∧
      ∀ l' side' k, (((p.perform (.setBound side level index value)).2.box l').get side')[k]? =
        if l = l' ∧ side = side' ∧ i = k then some v else ((p.box l').get side')[k]?) := by
  have hshape := hp.shaped
  refine ⟨⟨?_, ?_⟩, fun f => ?_, fun f => ?_, rfl, fun f => perform_setBound_of_fault, ?_, ?_⟩
  · rintro ⟨f, hf⟩ ⟨l, i, hname⟩
    exact hname.not_refusal hf
  · exact (p.refusal_or_names level index).resolve_right
  · rw [fault_perform_bounds, bounds_eq_error_iff hshape]
  · rw [fault_perform_setBound, setBound_eq_error_iff]
  · intro l i hname
    obtain ⟨low, high, hlow, hhigh, hbounds⟩ := exists_bounds_of_names hshape hname
    refine ⟨low, high, hlow, hhigh, ?_⟩
    rw [perform, hbounds]
    rfl
  · intro l i v hname hv
    obtain ⟨hl, hindex, hi⟩ := hname
    have hset := (p.setBound_eq_ok_iff _ side level index value).2 ⟨l, i, v, hl, hindex, hi, hv, rfl⟩
    rw [perform, hset]
    refine ⟨rfl, fun l' side' k => get_box_withBox_set p l l' side side' i k v ?_⟩
    rw [hshape.length_get]
    exact hi

/-- An index that is out of range comes before a value that is no number. -/
theorem access_index_zero : ∃ p : Program Extended, build smallArguments = .ok p ∧
    (p.perform (.setBound .upper (.member .upper) (.int 0) (.list []))).1.fault =
      some (.outOfRange .upper (.int 0) (.int 2)) ∧
    (p.perform (.setBound .upper (.member .upper) (.int 0) (.list []))).2 = p := by
  have h : build smallArguments = .ok _ := rfl
  obtain ⟨-, -, hset, -, hsame, -⟩ :=
    access_precedence (.built h) .upper (.member .upper) (.int 0) (.list [])
  have hfault := (hset _).2 (.inl (.noVariable .upper (by decide)))
  exact ⟨_, h, hfault, hsame _ hfault⟩

end Program
end Bilevel
