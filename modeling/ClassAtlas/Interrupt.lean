import ClassAtlas.Text.Basic

namespace ClassAtlas

/-- Why work had to stop. -/
inductive Interruption where
  | cancelled
  | timedOut
  deriving DecidableEq, Repr

/-- The wording of an interruption. -/
def Interruption.message : Interruption → Text
  | .cancelled => "context canceled"
  | .timedOut => "context deadline exceeded"

/-- The number of checks that still pass, without a bound if there is none, and the reason that
the failing checks give. -/
structure Budget where
  left : Option Nat
  reason : Interruption
  deriving DecidableEq, Repr

namespace Budget

/-- Work that is never interrupted. -/
def unlimited : Budget := ⟨none, .cancelled⟩

/-- Work that is cancelled after `n` checks. -/
def cancelAfter (n : Nat) : Budget := ⟨some n, .cancelled⟩

/-- Passes one check, or fails. -/
def check (b : Budget) : Except Interruption Budget :=
  match b.left with
  | none => .ok b
  | some 0 => .error b.reason
  | some (n + 1) => .ok { b with left := some n }

/-- A budget without a limit passes every check and stays as it is. -/
theorem check_of_left_eq_none {b : Budget} (h : b.left = none) : b.check = .ok b := by
  simp [check, h]

/-- What is left behind a check that passed. -/
def spend (b : Budget) : Budget := { b with left := b.left.map (· - 1) }

end Budget

end ClassAtlas
