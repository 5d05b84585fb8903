import ScanPlanner.Number.Binary64
import ScanPlanner.Planning.Session

/-!
# Pauses

Between two attempts planning pauses for a least time and a random part on top of it. What happens
to the metadata meanwhile is a `Schedule`: one effect for each pause. When the schedule has ended
there are no more pauses, and pausing fails.
-/

namespace ScanPlanner

/-- What happens in each pause. -/
abbrev Schedule (ω : Type) := List (Effect ω Unit)

/-- The length of pauses, in milliseconds. -/
structure Backoff where
  least : Nat
  /-- The random part lies below this bound; zero stands for no random part. -/
  jitter : Nat
deriving DecidableEq

namespace Backoff

/-- Pauses of the given length, which must not be negative. -/
def make (least jitter : Int) : Result Backoff :=
  if least < 0 ∨ jitter < 0 then .error (.invalid .negativeBackoff)
  else .ok ⟨least.toNat, jitter.toNat⟩

/-- The time as the clock takes it: a binary number of seconds. There is none for a time beyond the
range of these numbers. -/
def seconds? (millis : Nat) : Option Binary64 :=
  match Binary64.ofInt millis with
  | .finite _ mantissa exponent =>
    let (num, den) := Binary64.ratio mantissa exponent
    some (Binary64.ofRatio false num (den * 1000))
  | _ => none

/-- The milliseconds of a time, as they are measured: the nearest whole number. -/
def measured (millis : Nat) : Nat :=
  match seconds? millis with
  | some (.finite _ mantissa exponent) =>
    let (num, den) := Binary64.ratio mantissa exponent
    match Binary64.ofRatio false (num * 1000) den with
    | .finite _ mantissa exponent =>
      let (num, den) := Binary64.ratio mantissa exponent
      Binary64.roundHalfEven num den
    | _ => millis
  | _ => millis

variable {ω : Type}

/-- The length of the next pause. -/
def delay (b : Backoff) (c : Collaborators ω) : Step ω Nat := do
  let extra ← if b.jitter > 0 then Step.draw c b.jitter else pure 0
  return b.least + extra

/-- The `count`-th pause, in which the given effect happens; without one, pausing fails. -/
def pause (b : Backoff) (c : Collaborators ω) (count : Nat) (meanwhile : Option (Effect ω Unit)) :
    Step ω Nat := do
  let millis ← b.delay c
  Step.note .debug .backoff
    ("Backing off for " ++ toString millis ++ " ms (pause " ++ toString count ++ ")")
  if (seconds? millis).isNone then throw .outOfRange
  Step.record (.paused millis)
  match meanwhile with
  | some effect => Step.perform effect
  | none => throw (.raised "no more sleeps scripted")
  return millis

end Backoff

end ScanPlanner
