/-!
# Barriers

A barrier lets a fixed number of parties wait for each other, again and again.
The last party to arrive starts a new generation, which releases the others.  An
aborted barrier turns away whoever arrives and whoever still waits.
-/

namespace Lockstep

structure Barrier where
  parties : Nat
  /-- The parties that wait for the present generation to end. -/
  arrived : Nat
  generation : Nat
  aborted : Bool
deriving DecidableEq

inductive Arrival where
  | released
  | waiting (generation : Nat)
  | aborted
deriving DecidableEq

inductive WaitStatus where
  | blocked
  | released
  | aborted
deriving DecidableEq

namespace Barrier

def new (parties : Nat) : Barrier := ⟨parties, 0, 0, false⟩

def arrive (b : Barrier) : Arrival × Barrier :=
  if b.aborted then (.aborted, b)
  else if b.arrived + 1 = b.parties then
    (.released, { b with arrived := 0, generation := b.generation + 1 })
  else (.waiting b.generation, { b with arrived := b.arrived + 1 })

/-- Whether a party that arrived in this generation still has to wait.  A
generation that ended before an abort counts as ended. -/
def poll (b : Barrier) (generation : Nat) : WaitStatus :=
  if b.generation ≠ generation then .released
  else if b.aborted then .aborted
  else .blocked

def abort (b : Barrier) : Barrier := { b with aborted := true }

end Barrier
end Lockstep
