import Lockstep.Proofs.Engine.Accepted
import Lockstep.Proofs.Launch.Frame
import Lockstep.Proofs.PrintBuffer.Balance

/-!
# Messages

A print buffer keeps the pushes since it was last emptied, as far as its capacity goes, and
counts the others.  Only a run that completes empties it.  Main statement: what such a run
logs is what its invocations, and those of the runs since the last one that completed, have
pushed with success.
-/

namespace Lockstep

open Pushed

namespace PrintBuffer

variable {b : PrintBuffer} {log : List Pushed}

/-- The buffer is what the pushes since it was last empty have made of it. -/
structure Holds (b : PrintBuffer) (log : List Pushed) : Prop where
  messages : b.messages.toList = queued log
  dropped : b.dropped = .ofNat (refused log)
  fits : (queued log).length ≤ b.capacity.toNat
  answered : ∀ i pushed, log[i]? = some pushed →
    (pushed.kept = false ↔ (queued (log.take i)).length = b.capacity.toNat)

theorem holds_new (capacity : UInt32) : (new capacity).Holds [] :=
  ⟨rfl, rfl, Nat.zero_le _, fun _ _ h => by simp at h⟩

theorem capacity_push (b : PrintBuffer) (message : String) :
    (b.push message).2.capacity = b.capacity := by
  unfold push
  split <;> rfl

theorem Holds.append {b' : PrintBuffer} {pushed : Pushed} (h : b.Holds log)
    (hcapacity : b'.capacity = b.capacity)
    (hmessages : b'.messages.toList = queued (log ++ [pushed]))
    (hdropped : b'.dropped = .ofNat (refused (log ++ [pushed])))
    (hfits : (queued (log ++ [pushed])).length ≤ b.capacity.toNat)
    (hanswer : pushed.kept = false ↔ (queued log).length = b.capacity.toNat) :
    b'.Holds (log ++ [pushed]) := by
  refine ⟨hmessages, hdropped, hcapacity ▸ hfits, fun i other hother => ?_⟩
  rw [hcapacity]
  -- Earlier answers stand; the new one is about the whole log so far.
  rcases Nat.lt_trichotomy i log.length with hi | rfl | hi
  · rw [List.getElem?_append_left hi] at hother
    rw [List.take_append_of_le_length hi.le]
    exact h.answered i other hother
  · rw [List.getElem?_concat_length] at hother
    obtain rfl := Option.some.inj hother
    rwa [List.take_left']
    rfl
  · have hlength : (log ++ [pushed]).length ≤ i := by simpa using Nat.succ_le_of_lt hi
    rw [List.getElem?_eq_none hlength] at hother
    contradiction

theorem Holds.push (h : b.Holds log) (message : String) :
    (b.push message).2.Holds (log ++ [⟨message, (b.push message).1⟩]) := by
  have hsize : b.size = (queued log).length := by
    rw [← h.messages, Array.length_toList]
    rfl
  have hfits := h.fits
  unfold PrintBuffer.push
  split
  · rename_i hroom
    rw [hsize] at hroom
    refine h.append rfl (by simp [h.messages]) (by simp [h.dropped]) ?_ ?_
    · simpa using Nat.succ_le_of_lt hroom
    · simp only [Bool.true_eq_false, false_iff]
      exact hroom.ne
  · rename_i hfull
    rw [hsize] at hfull
    refine h.append rfl (by simp [h.messages]) (by simp [h.dropped, UInt64.ofNat_add])
      (by simpa using hfits) ?_
    simp only [true_iff]
    exact Nat.le_antisymm hfits (Nat.le_of_not_lt hfull)

theorem capacity_pushAll (b : PrintBuffer) (messages : List String) :
    (b.pushAll messages).2.capacity = b.capacity := by
  induction messages generalizing b with
  | nil => rfl
  | cons message messages ih => exact (ih _).trans (b.capacity_push message)

theorem Holds.pushAll (h : b.Holds log) (messages : List String) :
    (b.pushAll messages).2.Holds (log ++ (b.pushAll messages).1) := by
  induction messages generalizing b log with
  | nil => simpa [PrintBuffer.pushAll] using h
  | cons message messages ih =>
      have hrest := ih (h.push message)
      rwa [List.append_assoc] at hrest

theorem Holds.flush (h : b.Holds log) :
    b.flush.1.messages = queued log ∧
      b.flush.1.warning = warning? (.ofNat (refused log)) b.capacity ∧
      b.flush.2 = new b.capacity := by
  refine ⟨h.messages, ?_, rfl⟩
  rw [← h.dropped]
  rfl

end PrintBuffer

variable {η : Type} {d : Dispatcher η}

namespace LaunchState

variable {c : LaunchConfig} {s : LaunchState η} {g : Nat} {log : List Pushed}

/-- A step changes the print buffer by its pushes alone. -/
theorem step_print (v : Voice d) (g : Nat) (s : LaunchState η) :
    ∃ messages, s.device.print.pushAll messages =
      (pushesAt c v g s, (step c d g s).device.print) := by
  rw [step_device, pushesAt]
  cases hphase : s.phase g with
  | execute pending executed =>
      rcases pending with - | ⟨⟨lane, work⟩, pending⟩
      · exact ⟨[], rfl⟩
      · simp only [invoke]
        cases hget : d.get? work.func with
        | none => exact ⟨[], rfl⟩
        | some invocation =>
            cases hnode : s.graph.node work.node with
            | error fault => exact ⟨[], rfl⟩
            | ok node =>
                refine ⟨_, Prod.ext rfl ?_⟩
                exact (v.pushes work.func invocation hget _ _ _ _).symm
  | _ => exact ⟨[], rfl⟩

theorem holds_step (v : Voice d) (h : s.device.print.Holds log) (g : Nat) :
    (step c d g s).device.print.Holds (log ++ pushesAt c v g s) ∧
      (step c d g s).device.print.capacity = s.device.print.capacity := by
  obtain ⟨messages, hpushes⟩ := step_print (c := c) v g s
  have hholds := h.pushAll messages
  have hcapacity := s.device.print.capacity_pushAll messages
  rw [hpushes] at hholds hcapacity
  exact ⟨hholds, hcapacity⟩

theorem holds_follow (v : Voice d) (h : s.device.print.Holds log) (schedule : List Nat) :
    (follow c d schedule s).device.print.Holds (log ++ pushes c v schedule s) ∧
      (follow c d schedule s).device.print.capacity = s.device.print.capacity := by
  induction schedule generalizing s log with
  | nil => exact ⟨by simpa [pushes] using h, rfl⟩
  | cons g schedule ih =>
      obtain ⟨hholds, hcapacity⟩ := holds_step v h g
      obtain ⟨hrest, hrest'⟩ := ih hholds
      rw [List.append_assoc] at hrest
      exact ⟨hrest, hrest'.trans hcapacity⟩

end LaunchState

namespace Engine

variable {e : Engine η} {capacity : UInt32} {log : List Pushed}

/-- Between two calls, the buffer of the engine holds what waits for the next run that
completes. -/
structure Waits (e : Engine η) (d : Dispatcher η) (capacity : UInt32) (log : List Pushed) :
    Prop where
  dispatcher : e.dispatcher = d
  capacity : e.device.print.capacity = capacity
  holds : e.device.print.Holds log

theorem waits_of_new {config : EngineConfig} {shared : Shared η} {graph : TaskGraph η}
    (h : Engine.new config shared graph d = .ok (.ok e)) : Waits e d config.printCapacity [] := by
  obtain ⟨-, -, layout, arena, rfl⟩ := exists_of_new h
  exact ⟨rfl, rfl, PrintBuffer.holds_new _⟩

theorem leave_print (e : Engine η) (s : LaunchState η) :
    (∃ summary, (e.leave s).1 = .completed summary ∧
        summary.prints = s.device.print.flush.1 ∧
        (e.leave s).2.device.print = s.device.print.flush.2) ∨
      (∀ summary, (e.leave s).1 ≠ .completed summary) ∧
        (e.leave s).2.device.print = s.device.print := by
  unfold leave
  dsimp only
  split
  · exact .inr ⟨by simp, rfl⟩
  · exact .inr ⟨by simp, rfl⟩
  · exact .inl ⟨_, rfl, rfl, rfl⟩

theorem print_of_launch? {s₀ : LaunchState η} (h : e.launch? = .ok s₀) :
    s₀.device.print = e.device.print := by
  unfold launch? at h
  obtain ⟨_, -, h⟩ := exists_of_bind h
  rw [← Except.ok.inj h]
  rfl

theorem nextWaiting_of_completed (v : Voice d) {schedule : List Nat} {summary : RunSummary}
    (h : (e.runAlong schedule).1 = .completed summary) :
    e.nextWaiting v log (.run schedule) = [] := by
  simp only [nextWaiting, h]

theorem nextWaiting_of_ne (v : Voice d) {schedule : List Nat}
    (h : ∀ summary, (e.runAlong schedule).1 ≠ .completed summary) :
    e.nextWaiting v log (.run schedule) = log ++ e.pushesAlong v schedule := by
  cases hend : (e.runAlong schedule).1 with
  | completed summary => exact absurd hend (h summary)
  | faulted | unfinished => simp only [nextWaiting, hend]

theorem dispatcher_runAlong (e : Engine η) (schedule : List Nat) :
    (e.runAlong schedule).2.dispatcher = e.dispatcher := by
  unfold Engine.runAlong
  cases e.launch? with
  | error fault => rfl
  | ok s₀ => exact (leave_keeps _ _).2.1

/-- The groups of a run add their pushes to what waits.  Then the run completes and empties
the buffer, or leaves it as it is. -/
theorem Waits.ran (h : Waits e d capacity log) (v : Voice d) (schedule : List Nat) :
    ∃ b : PrintBuffer, b.capacity = capacity ∧ b.Holds (log ++ e.pushesAlong v schedule) ∧
      ((∃ summary, (e.runAlong schedule).1 = .completed summary ∧
          summary.prints = b.flush.1 ∧ (e.runAlong schedule).2.device.print = b.flush.2) ∨
        (∀ summary, (e.runAlong schedule).1 ≠ .completed summary) ∧
          (e.runAlong schedule).2.device.print = b) := by
  obtain ⟨rfl, rfl, hholds⟩ := h
  unfold Engine.runAlong pushesAlong
  cases hlaunch : e.launch? with
  | error fault =>
      refine ⟨e.device.print, rfl, ?_, .inr ⟨by simp, rfl⟩⟩
      rwa [List.append_nil]
  | ok s₀ =>
      have hprint := print_of_launch? hlaunch
      rw [← hprint] at hholds
      obtain ⟨hfollow, hcapacity⟩ :=
        LaunchState.holds_follow (c := e.config.launch) v hholds schedule
      rw [hprint] at hcapacity
      exact ⟨_, hcapacity, hfollow, leave_print _ _⟩

theorem Waits.runAlong (h : Waits e d capacity log) (v : Voice d) (schedule : List Nat) :
    ∃ b : PrintBuffer, b.capacity = capacity ∧ b.Holds (log ++ e.pushesAlong v schedule) ∧
      (∀ summary, (e.runAlong schedule).1 = .completed summary → summary.prints = b.flush.1) ∧
      Waits (e.runAlong schedule).2 d capacity (e.nextWaiting v log (.run schedule)) := by
  have hdispatcher := (e.dispatcher_runAlong schedule).trans h.dispatcher
  obtain ⟨b, hcapacity, hholds, hend⟩ := h.ran v schedule
  refine ⟨b, hcapacity, hholds, ?_⟩
  rcases hend with ⟨summary, hend, hlogged, hempty⟩ | ⟨hend, hkept⟩
  · refine ⟨fun summary' hend' => ?_, hdispatcher, ?_, ?_⟩
    · rw [← RunEnd.completed.inj (hend.symm.trans hend'), hlogged]
    · rw [hempty]
      exact hcapacity
    · rw [hempty, nextWaiting_of_completed v hend]
      exact PrintBuffer.holds_new _
  · refine ⟨fun summary hend' => absurd hend' (hend summary), hdispatcher, ?_, ?_⟩
    · rw [hkept, hcapacity]
    · rw [hkept, nextWaiting_of_ne v hend]
      exact hholds

/-! ## Histories -/

theorem Waits.perform (h : Waits e d capacity log) (v : Voice d) (call : EngineCall η) :
    Waits (e.perform call) d capacity (e.nextWaiting v log call) := by
  cases call with
  | run schedule =>
      obtain ⟨-, -, -, -, hwaits⟩ := h.runAlong v schedule
      exact hwaits
  | host shared arena => exact ⟨h.dispatcher, h.capacity, h.holds⟩

theorem Waits.play (h : Waits e d capacity log) (v : Voice d) (calls : List (EngineCall η)) :
    Waits (e.play calls) d capacity (waiting v calls e log) := by
  induction calls generalizing e log with
  | nil => exact h
  | cons call calls ih => exact ih (h.perform v call)

theorem waiting_eq_nil (v : Voice d) {calls : List (EngineCall η)}
    (h : ∀ earlier schedule later, calls = earlier ++ .run schedule :: later →
      ∃ summary, ((e.play earlier).runAlong schedule).1 = .completed summary) :
    waiting v calls e [] = [] := by
  induction calls generalizing e with
  | nil => rfl
  | cons call calls ih =>
      have hnext : e.nextWaiting v [] call = [] := by
        cases call with
        | run schedule =>
            obtain ⟨summary, hsummary⟩ := h [] schedule calls rfl
            exact nextWaiting_of_completed v hsummary
        | host shared arena => rfl
      rw [waiting, hnext]
      exact ih fun earlier schedule later hcalls =>
        h (call :: earlier) schedule later (by rw [hcalls, List.cons_append])

/-- For every engine, every history of runs and changes by the host program, and every next
run: of what the invocations have pushed since the last run that completed, a message is
refused just when as many messages are queued as the buffer takes; if the next run completes,
it logs what has been kept, and warns of as many as have been refused, which is exact below
2 ^ 64 of them.  If all runs so far have
completed, then these are the messages of that run alone.  What the engine does by itself is a
run along some schedule. -/
theorem logs_since_completed {config : EngineConfig} {shared : Shared η} {graph : TaskGraph η}
    (hnew : Engine.new config shared graph d = .ok (.ok e)) (v : Voice d)
    (calls : List (EngineCall η)) (schedule : List Nat) :
    let log := waiting v calls e [] ++ (e.play calls).pushesAlong v schedule
    (∀ i pushed, log[i]? = some pushed → (pushed.kept = false ↔
      (Pushed.queued (log.take i)).length = config.printCapacity.toNat)) ∧
    (∀ summary, ((e.play calls).runAlong schedule).1 = .completed summary →
      summary.prints.messages = Pushed.queued log ∧
      summary.prints.warning =
        PrintBuffer.warning? (.ofNat (Pushed.refused log)) config.printCapacity) ∧
    ((∀ earlier schedule later, calls = earlier ++ .run schedule :: later →
        ∃ summary, ((e.play earlier).runAlong schedule).1 = .completed summary) →
      log = (e.play calls).pushesAlong v schedule) ∧
    ∃ turns, (e.play calls).run = (e.play calls).runAlong turns := by
  intro log
  obtain ⟨b, hcapacity, hholds, hlogged, -⟩ :=
    ((waits_of_new hnew).play v calls).runAlong v schedule
  obtain ⟨hmessages, hwarning, -⟩ := hholds.flush
  rw [hcapacity] at hwarning
  refine ⟨fun i pushed hpushed => ?_, fun summary hsummary => ?_, fun hcompleted => ?_,
    exists_runAlong _⟩
  · rw [← hcapacity]
    exact hholds.answered i pushed hpushed
  · rw [hlogged summary hsummary]
    exact ⟨hmessages, hwarning⟩
  · change waiting v calls e [] ++ _ = _
    rw [waiting_eq_nil v hcompleted, List.nil_append]

namespace Sample

/-- Faults after a message, or passes another message on, as the host program has it. -/
def speak : Invocation Bool := fun _ _ _ device =>
  if device.shared.host then
    (.error (.raised "gave up"), { device with print := (device.print.push "lost").2 })
  else (.ok (), { device with print := (device.print.push "next").2 })

def speakers : Dispatcher Bool := ⟨#[speak]⟩

def voice : Voice speakers where
  said _ _ _ _ device := if device.shared.host then ["lost"] else ["next"]
  pushes func invocation hget context data offset device := by
    have hmem : invocation ∈ #[speak] := Array.mem_of_getElem? hget
    obtain rfl : invocation = speak := by simpa using hmem
    unfold speak
    split <;> rfl

/-- One group with one lane, and room for one message. -/
def quietConfig : EngineConfig := { config with launch := ⟨1, 1, 1⟩, printCapacity := 1 }

def asked (faulty : Bool) : Shared Bool := ⟨shared.storage, faulty⟩

def speaking : TaskGraph Bool := .ofSpecs [.fixed ⟨0⟩ 1]

def speaker : Engine Bool :=
  ((Engine.new quietConfig (asked true) speaking speakers).toOption.bind Except.toOption).get rfl

def turns : List Nat := List.replicate 40 0

/-- A run that faults after a message, and no more faults from then on. -/
def mended : List (EngineCall Bool) := [.run turns, .host (asked false) speaker.device.arena]

end Sample

/-- After a run that has completed nothing is left of a run that faulted earlier. -/
theorem logs_since_completed_sample :
    Engine.new Sample.quietConfig (Sample.asked true) Sample.speaking Sample.speakers =
        .ok (.ok Sample.speaker) ∧
      ∃ summary, ((Sample.speaker.play (Sample.mended ++ [.run Sample.turns])).runAlong
          Sample.turns).1 = .completed summary ∧
        summary.prints.messages = ["next"] ∧ summary.prints.warning = none := by
  have hnew : Engine.new Sample.quietConfig (Sample.asked true) Sample.speaking Sample.speakers =
      .ok (.ok Sample.speaker) := rfl
  obtain ⟨-, hlogs, -⟩ := logs_since_completed hnew Sample.voice
    (Sample.mended ++ [.run Sample.turns]) Sample.turns
  have hlog : waiting Sample.voice (Sample.mended ++ [.run Sample.turns]) Sample.speaker [] ++
      (Sample.speaker.play (Sample.mended ++ [.run Sample.turns])).pushesAlong Sample.voice
        Sample.turns = [⟨"next", true⟩] := by decide +kernel
  have hend : ((Sample.speaker.play (Sample.mended ++ [.run Sample.turns])).runAlong
      Sample.turns).1.summary?.isSome = true := by decide +kernel
  obtain ⟨summary, hsummary⟩ := Option.isSome_iff_exists.1 hend
  have hsummary := RunEnd.eq_completed hsummary
  obtain ⟨hmessages, hwarning⟩ := hlogs summary hsummary
  rw [hlog] at hmessages hwarning
  exact ⟨hnew, summary, hsummary, hmessages, hwarning⟩

/-- The message of a run that faulted is logged by the next run that completes, and takes the
room of the only message which that run has pushed. -/
theorem lost_message_logged :
    ∃ summary, ((Sample.speaker.play Sample.mended).runAlong Sample.turns).1 =
        .completed summary ∧
      (Sample.speaker.play Sample.mended).pushesAlong Sample.voice Sample.turns =
        [⟨"next", false⟩] ∧
      summary.prints.messages = ["lost"] := by
  have hend : ((Sample.speaker.play Sample.mended).runAlong Sample.turns).1.summary?.map
      (·.prints.messages) = some ["lost"] := by decide +kernel
  obtain ⟨summary, hsummary, hmessages⟩ := Option.map_eq_some_iff.1 hend
  exact ⟨summary, RunEnd.eq_completed hsummary, by decide +kernel, hmessages⟩

end Engine

end Lockstep
