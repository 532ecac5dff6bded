import Bilevel.Fault

/-!
# Bilevel.Request

Requests: what is asked for by names.

* `Request.known` says that no name is unknown.
* `Request.integer`, `Request.seed` and `Request.number` read the numbers of a request.
-/

namespace Bilevel

/-- Values by their names. -/
abbrev Request (α : Type) := List (String × Datum α)

namespace Request

variable {α : Type}

/-- Whether all names of a request are among the given ones. -/
def known (r : Request α) (names : List String) : Bool :=
  r.all fun (name, _) => names.contains name

/-- The value of a name, or another one if it is not asked for. -/
def get (r : Request α) (name : String) (other : Datum α) : Datum α :=
  (r.lookup name).getD other

/-- An integer; yes and no count as one and zero. -/
def integer (d : Datum α) : Except (Fault α) Int :=
  match d.whole? with
  | some n => return n
  | none => throw .notCount

/-- A seed, if there is one. -/
def seed (d : Datum α) : Except (Fault α) (Option Int) :=
  match d with
  | .null => return none
  | d => some <$> integer d

variable [Scalar α]

/-- A number, or a text that names one. -/
def number (d : Datum α) : Except (Fault α) α :=
  match d with
  | .null | .list _ | .object _ => throw (.conversion .notNumeric)
  | d =>
    match d.toScalar with
    | .ok x => return x
    | .error why => throw (.conversion why)

end Request
end Bilevel
