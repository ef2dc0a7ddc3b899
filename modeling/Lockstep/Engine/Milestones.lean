import Lockstep.Engine.History

/-!
# Milestones of an engine

How the runs of a history end, and what the host trace tells of each of them.
-/

namespace Lockstep

variable {η : Type}

namespace RunEnd

/-- The events of a run whose groups have been started.  One that faults while they are at work
gets no further than one whose groups are at work still. -/
def milestones : RunEnd → List HostEvent
  | completed _ => [.runStart, .kernelStart, .kernelEnd, .runEnd]
  | faulted _ | unfinished => [.runStart, .kernelStart]

end RunEnd

namespace Engine

def endOf? (e : Engine η) : EngineCall η → Option RunEnd
  | .run schedule => some (e.runAlong schedule).1
  | .host .. => none

/-- How the runs of a history end, in order. -/
def ends : (calls : List (EngineCall η)) → Engine η → List RunEnd
  | [], _ => []
  | call :: calls, e => (e.endOf? call).toList ++ ends calls (e.perform call)

end Engine
end Lockstep
