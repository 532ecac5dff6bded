import Bilevel.Proofs.Access
import Bilevel.Proofs.Construction
import Bilevel.Scalar.Extended

/-!
# Bilevel.Proofs.History

What a program is after any sequence of commands.

* `Program.transcript` pairs the commands with the answers that they got.
* `Program.boundAfter` is the number that the last successful change of a bound put there, or the
  fresh bound if there was none. It looks at the transcript only.
* `overwrite_eq`: writing into what a property returned never reaches the program, since an array of
  its own is locked.
* `Program.readAfter` is what a property has to return after a history, and `after_history` says that
  it does: bounds are what the history says, and nothing else ever changes.
-/

namespace Bilevel

variable {α : Type} [Scalar α]

/-- The fresh bound of a side: zero below and infinity above. -/
def Side.fresh : Side → α
  | .lower => Scalar.zero
  | .upper => Scalar.infinity

/-- The number that a command put into a bound, by side, level and index: its value, if it is a
change of this very bound and was answered without a fault. -/
def assigned? (side : Side) (l : Level) (j : Nat) : Command α × Answer α → Option α
  | (.setBound side' (.member l') (.int k) value, answer) =>
    if answer.fault.isNone ∧ side' = side ∧ l' = l ∧ k = j then value.toScalar.toOption
    else none
  | _ => none

namespace Program

/-- The commands with their answers. -/
def transcript (p : Program α) : List (Command α) → List (Command α × Answer α)
  | [] => []
  | c :: cs => (c, (p.perform c).1) :: (p.perform c).2.transcript cs

/-- A bound according to the history. -/
def boundAfter (p : Program α) (cs : List (Command α)) (side : Side) (l : Level) (j : Nat) : α :=
  ((p.transcript cs).reverse.findSome? (assigned? side l j)).getD side.fresh

/-- The bounds of a level on one side according to the history. -/
def boundsAfter (p : Program α) (cs : List (Command α)) (side : Side) (l : Level) : Row α :=
  (List.range' 1 (p.size l)).map (p.boundAfter cs side l)

/-- What a property returns after a history. -/
def readAfter (p : Program α) (cs : List (Command α)) : Field → Reply α
  | .cx => .row p.cx
  | .cy => .row p.cy
  | .G => .matrix p.mu p.nu p.G
  | .H => .matrix p.mu p.nl p.H
  | .q => .row p.q
  | .d => .row p.d
  | .A => .matrix p.ml p.nu p.A
  | .B => .matrix p.ml p.nl p.B
  | .b => .row p.b
  | .F => .matrix p.nu p.nl p.F
  | .xl => .row (p.boundsAfter cs .lower .upper)
  | .xu => .row (p.boundsAfter cs .upper .upper)
  | .yl => .row (p.boundsAfter cs .lower .lower)
  | .yu => .row (p.boundsAfter cs .upper .lower)
  | .Jx => .data p.Jx
  | .nu => .count p.nu
  | .nl => .count p.nl
  | .mu => .count p.mu
  | .ml => .count p.ml
  | .shape => .counts [p.nu, p.nl, p.mu, p.ml]

/-! ## What is handed out -/

omit [Scalar α] in
/-- Arrays of its own a program hands out locked. -/
theorem locked_lend {p : Program α} {field : Field} (h : (p.lend field).own = true) :
    (p.lend field).locked = true := by
  cases field <;> first | rfl | cases h

/-- No write into what a property returned reaches the program. -/
theorem overwrite_eq {p p' : Program α} {field : Field} {value : Datum α} {entry : Nat}
    (h : p.overwrite field value entry = .ok p') : p' = p := by
  obtain ⟨lent, hwrite, h⟩ := exists_of_bind h
  unfold Lent.write at hwrite
  split at hwrite
  · cases hwrite
  · rename_i hlocked
    obtain ⟨content, -, hwrite⟩ := exists_of_bind hwrite
    cases hwrite
    have hown : (p.lend field).own = false :=
      Bool.eq_false_iff.2 fun hown => hlocked (locked_lend hown)
    simp only [hown] at h
    cases h
    rfl

/-! ## One command -/

/-- A command leaves the program as it is, or it is a change that succeeds. -/
theorem perform_cases (p : Program α) (c : Command α) :
    ((p.perform c).2 = p ∧ ∀ side l j, assigned? side l j (c, (p.perform c).1) = none) ∨
      ∃ side l i value v, c = .setBound side (.member l) (.int (i + 1 : Nat)) value ∧
        i < p.size l ∧ value.toScalar = .ok v ∧ (p.perform c).1.fault = none ∧
        (p.perform c).2 = p.withBox l ((p.box l).set side i v) := by
  cases c with
  | setBound side level index value =>
    cases hset : p.setBound side level index value with
    | ok p' =>
      obtain ⟨l, i, v, rfl, rfl, hi, hv, rfl⟩ :=
        (p.setBound_eq_ok_iff p' side level index value).1 hset
      refine .inr ⟨side, l, i, value, v, rfl, hi, hv, ?_, ?_⟩
      · rw [perform, hset]
        rfl
      · rw [perform, hset]
    | error f =>
      refine .inl ⟨?_, ?_⟩
      · rw [perform, hset]
      · intro side' l j
        rw [perform, hset]
        cases level with
        | other => rfl
        | member =>
          cases index with
          | int k => simp [assigned?]
          | _ => rfl
  | overwrite field value entry =>
    refine .inl ⟨?_, fun _ _ _ => rfl⟩
    rw [perform]
    cases hwrite : p.overwrite field value entry with
    | ok p' => exact overwrite_eq hwrite
    | error f => rfl
  | _ => exact .inl ⟨rfl, fun _ _ _ => rfl⟩

theorem toCoefficients_perform (p : Program α) (c : Command α) :
    (p.perform c).2.toCoefficients = p.toCoefficients := by
  rcases p.perform_cases c with ⟨hp, -⟩ | ⟨side, l, i, _, v, -, -, -, -, hp⟩
  · rw [hp]
  · rw [hp, toCoefficients_withBox]

theorem size_perform (p : Program α) (c : Command α) (l : Level) :
    (p.perform c).2.size l = p.size l := by
  rcases p.perform_cases c with ⟨hp, -⟩ | ⟨side, l', i, _, v, -, -, -, -, hp⟩
  · rw [hp]
  · rw [hp, size_withBox]

theorem Shaped.perform {p : Program α} (h : p.Shaped) (c : Command α) :
    (p.perform c).2.Shaped := by
  rcases p.perform_cases c with ⟨hp, -⟩ | ⟨side, l, i, _, v, -, -, -, -, hp⟩
  · rw [hp]
    exact h
  · rw [hp]
    exact h.withBox_set l side i v

/-- A command puts into a bound what its transcript says, or leaves it alone. -/
theorem get_box_perform {p : Program α} (h : p.Shaped) (c : Command α) (side : Side) (l : Level)
    (i : Nat) :
    (((p.perform c).2.box l).get side)[i]? =
      (assigned? side l (i + 1) (c, (p.perform c).1)).or ((p.box l).get side)[i]? := by
  rcases p.perform_cases c with ⟨hp, hnone⟩ | ⟨side', l', k, value, v, rfl, hk, hv, hf, hp⟩
  · rw [hp, hnone]
    rfl
  · have hlen : k < ((p.box l').get side').length := by
      rw [h.length_get]
      exact hk
    rw [hp, get_box_withBox_set p l' l side' side k i v hlen]
    simp only [assigned?, hf, hv, Option.isNone_none, true_and, Except.toOption]
    by_cases heq : l' = l ∧ side' = side ∧ k = i
    · obtain ⟨rfl, rfl, rfl⟩ := heq
      rw [if_pos ⟨rfl, rfl, rfl⟩, if_pos ⟨rfl, rfl, rfl⟩]
      rfl
    · rw [if_neg heq, if_neg]
      · rfl
      · rintro ⟨h1, h2, h3⟩
        exact heq ⟨h2, h1, by omega⟩

/-! ## All commands -/

theorem after_cons (p : Program α) (c : Command α) (cs : List (Command α)) :
    p.after (c :: cs) = (p.perform c).2.after cs := rfl

theorem toCoefficients_after (p : Program α) (cs : List (Command α)) :
    (p.after cs).toCoefficients = p.toCoefficients := by
  induction cs generalizing p with
  | nil => rfl
  | cons c cs ih => rw [after_cons, ih, toCoefficients_perform]

theorem Shaped.after {p : Program α} (h : p.Shaped) (cs : List (Command α)) :
    (p.after cs).Shaped := by
  induction cs generalizing p with
  | nil => exact h
  | cons c cs ih =>
    rw [after_cons]
    exact ih (h.perform c)

theorem size_after (p : Program α) (cs : List (Command α)) (l : Level) :
    (p.after cs).size l = p.size l := by
  induction cs generalizing p with
  | nil => rfl
  | cons c cs ih => rw [after_cons, ih, size_perform]

/-- The last command that puts something into a bound decides; without one it stays. -/
theorem get_box_after {p : Program α} (h : p.Shaped) (cs : List (Command α)) (side : Side)
    (l : Level) (i : Nat) :
    (((p.after cs).box l).get side)[i]? =
      ((p.transcript cs).reverse.findSome? (assigned? side l (i + 1))).or
        ((p.box l).get side)[i]? := by
  induction cs generalizing p with
  | nil => rfl
  | cons c cs ih =>
    rw [after_cons, ih (h.perform c), get_box_perform h, transcript, List.reverse_cons,
      List.findSome?_append, Option.or_assoc, List.findSome?_singleton]

theorem getElem?_freshBox (n : Nat) (side : Side) (i : Nat) (hi : i < n) :
    ((freshBox n : Box α).get side)[i]? = some side.fresh := by
  cases side with
  | lower => exact List.getElem?_replicate_of_lt hi
  | upper => exact List.getElem?_replicate_of_lt hi

theorem getElem?_after {a : Arguments α} {p : Program α} (h : build a = .ok p)
    (cs : List (Command α)) (side : Side) (l : Level) {i : Nat} (hi : i < p.size l) :
    (((p.after cs).box l).get side)[i]? = some (p.boundAfter cs side l (i + 1)) := by
  obtain ⟨hshape, hx, hy⟩ := shaped_of_build h
  have hfresh : ((p.box l).get side)[i]? = some side.fresh := by
    cases l with
    | lower =>
      rw [box, hy]
      exact getElem?_freshBox p.nl side i hi
    | upper =>
      rw [box, hx]
      exact getElem?_freshBox p.nu side i hi
  rw [get_box_after hshape, hfresh, boundAfter]
  cases (p.transcript cs).reverse.findSome? (assigned? side l (i + 1)) with
  | none => rfl
  | some v => rfl

theorem get_after {a : Arguments α} {p : Program α} (h : build a = .ok p) (cs : List (Command α))
    (side : Side) (l : Level) : ((p.after cs).box l).get side = p.boundsAfter cs side l := by
  apply List.ext_getElem?
  intro i
  by_cases hi : i < p.size l
  · rw [getElem?_after h cs side l hi, boundsAfter, List.getElem?_map, List.getElem?_range' hi,
      Nat.one_mul, Nat.add_comm 1 i]
    rfl
  · have hlen : (((p.after cs).box l).get side).length ≤ i := by
      rw [((shaped_of_build h).1.after cs).length_get, size_after]
      omega
    rw [List.getElem?_eq_none hlen, List.getElem?_eq_none]
    rw [boundsAfter, List.length_map, List.length_range']
    omega

theorem read_after {a : Arguments α} {p : Program α} (h : build a = .ok p) (cs : List (Command α))
    (field : Field) : (p.after cs).read field = p.readAfter cs field := by
  have hcoef := toCoefficients_after p cs
  have hget := get_after h cs
  cases field with
  | xl => exact congrArg Reply.row (hget .lower .upper)
  | xu => exact congrArg Reply.row (hget .upper .upper)
  | yl => exact congrArg Reply.row (hget .lower .lower)
  | yu => exact congrArg Reply.row (hget .upper .lower)
  | _ =>
    simp only [read, readAfter, shape, nu, nl, mu, ml]
    rw [hcoef]

/-- **History.** After any commands each property returns what the history says. Every bound is the
number that the last successful change of just this bound put there, or fresh, and the bounds of a
variable are answered with this pair. Coefficients, integer indices and sizes are as they were built,
and all rows and matrices still fit. -/
theorem after_history {a : Arguments α} {p : Program α} (h : build a = .ok p)
    (cs : List (Command α)) :
    (∀ field, ((p.after cs).perform (.read field)).1 = .ok (p.readAfter cs field)) ∧
    (∀ l (j : Nat), 1 ≤ j → j ≤ p.size l →
      ((p.after cs).perform (.bounds (.member l) (.int j))).1 =
        .ok (.interval (p.boundAfter cs .lower l j) (p.boundAfter cs .upper l j))) ∧
    (p.after cs).toCoefficients = p.toCoefficients ∧
    (p.after cs).Shaped := by
  refine ⟨fun field => congrArg Answer.ok (read_after h cs field), ?_, toCoefficients_after p cs,
    (shaped_of_build h).1.after cs⟩
  intro l j h1 hj
  obtain ⟨i, rfl⟩ : ∃ i, j = i + 1 := ⟨j - 1, by omega⟩
  have hbounds : (p.after cs).bounds (.member l) (.int (i + 1 : Nat)) =
      .ok (p.boundAfter cs .lower l (i + 1), p.boundAfter cs .upper l (i + 1)) := by
    apply bounds_eq_ok
    · rw [size_after]
      omega
    · exact getElem?_after h cs .lower l (by omega)
    · exact getElem?_after h cs .upper l (by omega)
  rw [perform, hbounds]
  rfl

/-- Two variables above, one below, and one row. -/
def smallArguments : Arguments Extended where
  cx := .list [.int 1, .int (-2)]
  cy := .list [.int 3]
  G := .list []
  H := .list []
  q := .list []
  d := .list [.int 1]
  A := .list [.list [.int 1, .int 0]]
  B := .list [.list [.int 1]]
  b := .list [.int 4]
  Jx := .list [.int 1]

/-- Changes of one bound and of others; the one of index zero, the last three of them and writes into
arrays change nothing. -/
def smallHistory : List (Command Extended) :=
  [.setBound .upper (.member .upper) (.int 2) (.int 5),
   .setBound .lower (.member .lower) (.int 1) (.text "-inf"),
   .setBound .upper (.member .upper) (.int 0) (.int 9),
   .overwrite .xu (.int 6),
   .overwrite .d (.int 6),
   .setBound .upper (.member .upper) (.int 2) (.int 7),
   .setBound .upper (.member .upper) (.int 2) (.list []),
   .setBound .upper (.other (.text "UPPER")) (.int 2) (.int 8),
   .setBound .upper (.member .upper) (.bool true) (.int 8)]

theorem after_smallHistory : ∃ p, build smallArguments = .ok p ∧
    ((p.after smallHistory).perform (.read .xu)).1 =
      .ok (.row [.infinite false, .finite 7]) ∧
    ((p.after smallHistory).perform (.read .d)).1 = .ok (.row [.finite 1]) ∧
    ((p.after smallHistory).perform (.bounds (.member .lower) (.int 1))).1 =
      .ok (.interval (.infinite true) (.infinite false)) := by
  have h : build smallArguments = .ok _ := rfl
  obtain ⟨hread, hbounds, -⟩ := after_history h smallHistory
  refine ⟨_, h, ?_, (hread .d).trans rfl, ?_⟩
  · rw [hread]
    exact congrArg (fun xs => Answer.ok (.row xs)) (by decide +kernel)
  · exact (hbounds .lower 1 (by decide) (by decide)).trans (by rfl)

end Program
end Bilevel
