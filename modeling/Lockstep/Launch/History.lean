import Lockstep.Launch.Step

/-!
# Launch histories

What a launch does along a schedule, seen from outside: the work that it runs, in
order, and whether the trace keeps all records of it.
-/

namespace Lockstep
namespace Phase

def work? : Phase → Option Work
  | execute ((_, work) :: _) _ => some work
  | _ => none

end Phase

namespace LaunchState

variable {η : Type}

/-- The work that runs while the groups follow a schedule. -/
def history (c : LaunchConfig) (d : Dispatcher η) : (schedule : List Nat) → LaunchState η →
    List Work
  | [], _ => []
  | group :: schedule, s =>
      (s.phase group).work?.toList ++ history c d schedule (step c d group s)

/-- Whether the trace has dropped no record of the run, which begins with the step of the
first group. -/
def keeps (s : LaunchState η) : Bool := s.phase 0 == .init || s.trace.dropped == 0

def keepsEvents (c : LaunchConfig) (d : Dispatcher η) : (schedule : List Nat) → LaunchState η →
    Bool
  | [], s => s.keeps
  | group :: schedule, s => s.keeps && keepsEvents c d schedule (step c d group s)

@[simp] theorem follow_nil (c : LaunchConfig) (d : Dispatcher η) (s : LaunchState η) :
    follow c d [] s = s := rfl

@[simp] theorem follow_cons (c : LaunchConfig) (d : Dispatcher η) (group : Nat)
    (schedule : List Nat) (s : LaunchState η) :
    follow c d (group :: schedule) s = follow c d schedule (step c d group s) := rfl

theorem follow_append (c : LaunchConfig) (d : Dispatcher η) (first later : List Nat)
    (s : LaunchState η) :
    follow c d (first ++ later) s = follow c d later (follow c d first s) := by
  simp [follow]

theorem keepsEvents_append {c : LaunchConfig} {d : Dispatcher η} {first later : List Nat}
    {s : LaunchState η} (h : keepsEvents c d first s = true)
    (h' : keepsEvents c d later (follow c d first s) = true) :
    keepsEvents c d (first ++ later) s = true := by
  induction first generalizing s with
  | nil => exact h'
  | cons group first ih =>
      rw [keepsEvents, Bool.and_eq_true] at h
      rw [List.cons_append, keepsEvents, Bool.and_eq_true]
      exact ⟨h.1, ih h.2 h'⟩

end LaunchState
end Lockstep
