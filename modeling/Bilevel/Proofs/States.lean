import Bilevel.Proofs.History
import Bilevel.Proofs.Reconstruction
import Bilevel.Proofs.Toll.Program
import Bilevel.Sampling.Dense

/-!
# Bilevel.Proofs.States

The programs that one can come to work with.

* `Program.Reachable`: a program is built from loose arguments, and commands are performed on it.
* `Reachable.shaped`: all rows and matrices of such a program fit.
* `Reachable.setAll`: changing the bounds of a whole level is a sequence of commands, so that the dense
  random programs and those of toll settings are reachable too (`reachable_of_generateFrom`).
-/

namespace Bilevel
namespace Program

variable {α : Type} [Scalar α]

/-- The program was built, and then commands were performed on it. -/
inductive Reachable : Program α → Prop
  | built {a : Arguments α} {p : Program α} (h : build a = .ok p) : Reachable p
  | performed {p : Program α} (c : Command α) (h : Reachable p) : Reachable (p.perform c).2

variable {p p' : Program α}

theorem Reachable.shaped (h : p.Reachable) : p.Shaped := by
  induction h with
  | built h => exact (shaped_of_build h).1
  | performed c _ ih => exact ih.perform c

theorem Reachable.after (h : p.Reachable) (cs : List (Command α)) : (p.after cs).Reachable := by
  induction cs generalizing p with
  | nil => exact h
  | cons c cs ih => exact ih (h.performed c)

theorem Reachable.setBound (h : p.Reachable) {side : Side} {level : LevelArg α} {index value : Datum α}
    (hset : p.setBound side level index value = .ok p') : p'.Reachable := by
  have hperform : (p.perform (.setBound side level index value)).2 = p' := by
    rw [perform, hset]
  exact hperform ▸ h.performed _

/-- Variable by variable, every change starts from a reachable program. -/
theorem Reachable.setEach (h : p.Reachable) {side : Side} {l : Level} {value : Datum α}
    (hset : p.setEach side l value = .ok p') : p'.Reachable := by
  unfold Program.setEach at hset
  generalize List.range (p.size l) = is at hset
  induction is generalizing p with
  | nil =>
    cases hset
    exact h
  | cons i is ih =>
    rw [List.foldlM_cons] at hset
    obtain ⟨q, hq, hset⟩ := exists_of_bind hset
    exact ih (h.setBound hq) hset

theorem Reachable.setAll (h : p.Reachable) {side : Side} {l : Level} {value : Datum α}
    (hset : p.setAll side l value = .ok p') : p'.Reachable :=
  h.setEach ((h.shaped.setEach_eq_setAll side l value).trans hset)

end Program

variable {α σ : Type} [Scalar α] {g : Sampling.Generator σ} {state : σ}

theorem Sampling.DenseRequest.reachable_of_generateFrom {r : DenseRequest α} {memory : Memory}
    {p : Program α} (h : r.generateFrom g memory state = .ok p) : p.Reachable := by
  obtain ⟨s, -, h⟩ := exists_of_bind h
  obtain ⟨built, hbuilt, h⟩ := exists_of_bind h
  obtain ⟨bounded, hbounded, h⟩ := exists_of_bind h
  exact ((Program.Reachable.built hbuilt).setAll hbounded).setAll h

theorem TollNetwork.reachable_of_program {t : TollNetwork α} {budget : Datum α}
    {integerTolls : Bool} {p : Program α} (h : t.program budget integerTolls = .ok p) :
    p.Reachable := by
  obtain ⟨rows, -, h⟩ := exists_of_bind h
  obtain ⟨rhs, -, h⟩ := exists_of_bind h
  obtain ⟨fresh, hbuild, h⟩ := exists_of_bind h
  exact (Program.Reachable.built hbuild).setAll h

theorem TollRequest.reachable_of_generateFrom {r : TollRequest α} {origin : Network.Origin α}
    {s : TollSetting α} (h : (r.generateFrom g state origin).2 = .ok s) : s.program.Reachable :=
  TollNetwork.reachable_of_program (generateFrom_cases h).2

end Bilevel
