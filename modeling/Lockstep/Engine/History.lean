import Lockstep.Engine
import Lockstep.Launch.History
import Lockstep.PrintBuffer.History

/-!
# Histories of an engine

Runs along any schedules, and what the host program changes in between of the state that it
shares with the invocations.  Beside the engine stand the messages that the invocations push,
each with its answer.
-/

namespace Lockstep

variable {η : Type} {d : Dispatcher η}

/-- What the functions of a dispatcher say.  All that an invocation can do with the print
buffer is to push messages. -/
structure Voice (d : Dispatcher η) where
  said : FuncId → InvocationContext η → NodeData η → UInt32 → Device η → List String
  pushes : ∀ func invocation, d.get? func = some invocation → ∀ context data offset device,
    (invocation context data offset device).2.print =
      (device.print.pushAll (said func context data offset device)).2

namespace LaunchState

/-- What the next step of a group pushes. -/
def pushesAt (c : LaunchConfig) (v : Voice d) (group : Nat) (s : LaunchState η) : List Pushed :=
  match s.phase group with
  | .execute ((lane, work) :: _) _ =>
      match d.get? work.func, s.graph.node work.node with
      | some _, .ok node =>
          let origin := c.originOf group
          let context : InvocationContext η :=
            ⟨s.graph, work.node, origin.block, origin.group, lane, work.threadInInvocation⟩
          (s.device.print.pushAll
            (v.said work.func context node.spec.data work.invocationOffset s.device)).1
      | _, _ => []
  | _ => []

def pushes (c : LaunchConfig) (v : Voice d) : (schedule : List Nat) → LaunchState η → List Pushed
  | [], _ => []
  | group :: schedule, s =>
      pushesAt c v group s ++ pushes c v schedule (step c d group s)

end LaunchState

namespace RunEnd

def summary? : RunEnd → Option RunSummary
  | completed summary => some summary
  | _ => none

theorem eq_completed {result : RunEnd} {summary : RunSummary} (h : result.summary? = some summary) :
    result = .completed summary := by
  cases result with
  | completed summary' => rw [Option.some.inj h]
  | faulted | unfinished => contradiction

end RunEnd

inductive EngineCall (η : Type) where
  | run (schedule : List Nat)
  /-- The host program changes what it shares with the invocations. -/
  | host (shared : Shared η) (arena : RunArena)

namespace Engine

/-- The state in which a run starts its groups, unless they are too many to count. -/
def launch? (e : Engine η) : Except Fault (LaunchState η) := do
  let _ ← e.config.launch.totalGroups
  return .initial e.config.launch e.graph { e.device with arena := e.device.arena.resetTmp } e.trace

/-- What becomes of a run whose groups have come to the state `s`. -/
def leave (e : Engine η) (s : LaunchState η) : RunEnd × Engine η :=
  let e := { e with graph := s.graph, device := s.device, trace := s.trace }
  match s.isOver, s.fault? with
  | false, _ => (.unfinished, e)
  | true, some fault => (.faulted fault, e)
  | true, none =>
      let (summary, e) := (e.note .kernelEnd).conclude
      (.completed summary, e)

/-- The engine at the start of a run, with its temporary blocks taken back. -/
def started (e : Engine η) : Engine η :=
  { e.note .runStart with device := { e.device with arena := e.device.arena.resetTmp } }

/-- A run whose groups take turns along a schedule. -/
def runAlong (schedule : List Nat) (e : Engine η) : RunEnd × Engine η :=
  match e.launch? with
  | .error fault => (.faulted fault, e.started)
  | .ok s₀ =>
      (e.started.note .kernelStart).leave
        (LaunchState.follow e.config.launch e.dispatcher schedule s₀)

/-- What the invocations of a run push. -/
def pushesAlong (v : Voice d) (schedule : List Nat) (e : Engine η) : List Pushed :=
  match e.launch? with
  | .error _ => []
  | .ok s₀ => LaunchState.pushes e.config.launch v schedule s₀

def perform (e : Engine η) : EngineCall η → Engine η
  | .run schedule => (e.runAlong schedule).2
  | .host shared arena => { e with device := { e.device with shared, arena } }

def play (calls : List (EngineCall η)) (e : Engine η) : Engine η := calls.foldl perform e

/-- What has been pushed since the last run that completed, after one more call. -/
def nextWaiting (v : Voice d) (e : Engine η) (log : List Pushed) : EngineCall η → List Pushed
  | .run schedule =>
      match (e.runAlong schedule).1 with
      | .completed _ => []
      | _ => log ++ e.pushesAlong v schedule
  | .host .. => log

def waiting (v : Voice d) : (calls : List (EngineCall η)) → Engine η → List Pushed → List Pushed
  | [], _, log => log
  | call :: calls, e, log => waiting v calls (e.perform call) (e.nextWaiting v log call)

end Engine
end Lockstep
