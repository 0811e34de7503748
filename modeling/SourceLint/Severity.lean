/-! # Severities

Two levels, a warning being the lower. Where nothing else is said a finding is
an error.
-/

namespace SourceLint

/-- How bad a finding is. -/
inductive Severity where
  /-- Worth a look. -/
  | warning
  /-- Fails a run by default. -/
  | error
  deriving Repr, DecidableEq, BEq

namespace Severity

instance : Inhabited Severity := ⟨error⟩

/-- Warnings come before errors. -/
def rank : Severity → Nat
  | warning => 0
  | error => 1

instance : Ord Severity := ⟨compareOn rank⟩

/-- `s` is at least as bad as `threshold`. -/
def reaches (s threshold : Severity) : Bool :=
  threshold.rank ≤ s.rank

/-- The name of a severity in configuration and reports. -/
def render : Severity → String
  | warning => "warning"
  | error => "error"

/-- The severity with this exact name. -/
def parse? (s : String) : Option Severity :=
  if s = "error" then some error
  else if s = "warning" then some warning
  else none

end Severity

end SourceLint
