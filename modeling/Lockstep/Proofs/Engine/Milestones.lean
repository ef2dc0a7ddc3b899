import Lockstep.Engine.Milestones
import Lockstep.Proofs.Engine.Launchable
import Lockstep.Proofs.Engine.Messages
import Lockstep.Proofs.Trace.File

/-!
# Milestones in the host trace

Each run adds its milestones to the host trace, behind those of the runs before it: four if it
completes, the first two of them if it faults.  Nothing else adds to the trace, and its file
tells all of it.
-/

namespace Lockstep

variable {η : Type} {d : Dispatcher η}

theorem HostTrace.events_empty : empty.events = [] := by simp [events, empty]

theorem HostTrace.events_record (t : HostTrace) (event : HostEvent) :
    (t.record event).events = t.events ++ [event] := by
  simp [record, events]

theorem HostTrace.columns_fileBytes (t : HostTrace) :
    (columns t.fileBytes).1 = t.events.map HostEvent.raw := by
  rw [fileBytes, columns_encode, events, Array.toList_map, List.map_map]
  rfl

namespace Engine

variable {e : Engine η} {told : List HostEvent}

theorem events_note (e : Engine η) (event : HostEvent) :
    (e.note event).hostTrace.events = e.hostTrace.events ++ [event] :=
  e.hostTrace.events_record event

/-- A run that has told of its start tells of its end if it completes, and else nothing. -/
theorem events_leave (h : e.hostTrace.events = told ++ [.runStart, .kernelStart])
    (s : LaunchState η) :
    (e.leave s).2.hostTrace.events = told ++ (e.leave s).1.milestones := by
  unfold leave
  dsimp only
  split
  · exact h
  · exact h
  · simp only [conclude, events_note, h, List.append_assoc]
    rfl

/-- A run whose groups can be counted tells of its milestones. -/
theorem events_runAlong (h : e.config.launch.numGroups < 2 ^ 32) (schedule : List Nat) :
    (e.runAlong schedule).2.hostTrace.events =
      e.hostTrace.events ++ (e.runAlong schedule).1.milestones := by
  obtain ⟨s₀, hlaunch⟩ := launch?_of_lt h
  simp only [runAlong, hlaunch]
  apply events_leave
  have hstart : (e.note .runStart).hostTrace.events = e.hostTrace.events ++ [.runStart] :=
    events_note e .runStart
  rw [events_note, started, hstart, List.append_assoc]
  rfl

/-- A run whose groups are too many to be counted starts none of them. -/
theorem runAlong_of_le (h : 2 ^ 32 ≤ e.config.launch.numGroups) (schedule : List Nat) :
    (e.runAlong schedule).1 = .faulted .mulOverflow := by
  have hlaunch : e.launch? = .error .mulOverflow := by
    rw [launch?, LaunchConfig.totalGroups_of_le h]
    rfl
  simp only [runAlong, hlaunch]

theorem config_perform (e : Engine η) (call : EngineCall η) :
    (e.perform call).config = e.config := by
  cases call with
  | host shared arena => rfl
  | run schedule =>
      unfold perform runAlong
      dsimp only
      split
      · rfl
      · exact (leave_keeps _ _).1

theorem events_perform (h : e.config.launch.numGroups < 2 ^ 32) (call : EngineCall η) :
    (e.perform call).hostTrace.events =
      e.hostTrace.events ++ (e.endOf? call).toList.flatMap RunEnd.milestones := by
  cases call with
  | host shared arena => exact (List.append_nil _).symm
  | run schedule =>
      rw [perform, events_runAlong h, endOf?, Option.toList_some, List.flatMap_singleton]

theorem events_play (h : e.config.launch.numGroups < 2 ^ 32) (calls : List (EngineCall η)) :
    (e.play calls).hostTrace.events =
      e.hostTrace.events ++ (ends calls e).flatMap RunEnd.milestones := by
  induction calls generalizing e with
  | nil => exact (List.append_nil _).symm
  | cons call calls ih =>
      have hconfig := e.config_perform call
      have hrest := ih (hconfig ▸ h)
      rw [events_perform h, List.append_assoc, ← List.flatMap_append] at hrest
      exact hrest

theorem eq_of_mem_ends (h : 2 ^ 32 ≤ e.config.launch.numGroups) {calls : List (EngineCall η)}
    {result : RunEnd} (hmem : result ∈ ends calls e) : result = .faulted .mulOverflow := by
  induction calls generalizing e with
  | nil => exact absurd hmem List.not_mem_nil
  | cons call calls ih =>
      rcases List.mem_append.1 hmem with hmem | hmem
      · cases call with
        | host shared arena => exact absurd hmem List.not_mem_nil
        | run schedule =>
            rw [endOf?, Option.toList_some, List.mem_singleton] at hmem
            exact hmem.trans (runAlong_of_le h schedule)
      · exact ih ((e.config_perform call).symm ▸ h) hmem

/-- For every list of events with their times: the file of the trace has 16 bytes for each, the
first half of it reads as the events and the second as the times, both in order, so that the
list comes back when the halves are put together, and no other list has this file.  For every
engine and every history of it whose runs start their groups: the trace tells of each run, one
after another, all four milestones if it has completed and the first two if a group has faulted,
and just these are in the first half of its file.  If the groups are too many to be counted, no
run of any history starts them.  What the engine does by itself is a run along some schedule. -/
theorem host_file_reads_back {config : EngineConfig} {shared : Shared η} {graph : TaskGraph η}
    (hnew : Engine.new config shared graph d = .ok (.ok e))
    (entries : List (HostEvent × Int64)) (calls : List (EngineCall η)) :
    let file := (HostTrace.ofEvents entries).fileBytes
    let half := file.length / 2
    (file.length = 16 * entries.length ∧
      HostTrace.words entries.length (file.take half) = entries.map (·.1.raw) ∧
      HostTrace.words entries.length (file.drop half) = entries.map (·.2) ∧
      HostTrace.entriesOf file = entries.map (fun entry => (some entry.1, entry.2)) ∧
      ∀ entries', entries' ≠ entries → (HostTrace.ofEvents entries').fileBytes ≠ file) ∧
    (config.launch.numGroups < 2 ^ 32 →
      (e.play calls).hostTrace.events = (ends calls e).flatMap RunEnd.milestones) ∧
    (HostTrace.columns (e.play calls).traceFiles.host.bytes).1 =
      (e.play calls).hostTrace.events.map HostEvent.raw ∧
    (2 ^ 32 ≤ config.launch.numGroups →
      ∀ result ∈ ends calls e, result = .faulted .mulOverflow) ∧
    ∃ turns, (e.play calls).run = (e.play calls).runAlong turns := by
  intro file half
  have hmade : e.hostTrace.events = [] ∧ e.config = config := by
    obtain ⟨-, -, layout, arena, rfl⟩ := exists_of_new hnew
    exact ⟨HostTrace.events_empty, rfl⟩
  obtain ⟨hempty, rfl⟩ := hmade
  have hfile : file = HostTrace.encode entries := HostTrace.fileBytes_ofEvents entries
  have hhalf : half = 8 * entries.length := by
    change file.length / 2 = _
    rw [hfile, HostTrace.length_encode]
    omega
  rw [hhalf, hfile]
  refine ⟨⟨HostTrace.length_encode entries, HostTrace.words_take_encode entries,
    HostTrace.words_drop_encode entries, HostTrace.entriesOf_encode entries, ?_⟩,
    fun hcount => ?_, HostTrace.columns_fileBytes _,
    fun hcount result hmem => eq_of_mem_ends hcount hmem, exists_runAlong _⟩
  · intro entries' hne hsame
    rw [HostTrace.fileBytes_ofEvents] at hsame
    exact hne (HostTrace.eq_of_encode_eq hsame)
  · have hplay := events_play hcount calls
    rwa [hempty] at hplay

namespace Sample

def extremes : List (HostEvent × Int64) :=
  [(.runEnd, -1), (.runStart, Int64.minValue), (.kernelEnd, Int64.maxValue), (.runEnd, 0)]

end Sample

/-- Times of all sizes, a run that faults before one that completes, and a launch of too many
groups. -/
theorem host_file_reads_back_sample :
    Engine.new Sample.quietConfig (Sample.asked true) Sample.speaking Sample.speakers =
        .ok (.ok Sample.speaker) ∧
      Sample.quietConfig.launch.numGroups < 2 ^ 32 ∧
      HostTrace.words 4 ((HostTrace.ofEvents Sample.extremes).fileBytes.drop 32) =
        [-1, Int64.minValue, Int64.maxValue, 0] ∧
      (HostTrace.ofEvents Sample.extremes.reverse).fileBytes ≠
        (HostTrace.ofEvents Sample.extremes).fileBytes ∧
      (Sample.speaker.play (Sample.mended ++ [.run Sample.turns])).hostTrace.events =
        [.runStart, .kernelStart, .runStart, .kernelStart, .kernelEnd, .runEnd] ∧
      ∃ e, Sample.engineOf (Sample.shaped ⟨65536, 65536, 1⟩ 0) (.ofSpecs []) = .ok (.ok e) ∧
        2 ^ 32 ≤ (Sample.shaped ⟨65536, 65536, 1⟩ 0).launch.numGroups ∧
        ∀ result ∈ ends [.run [0, 1]] e, result = .faulted .mulOverflow := by
  have hnew : Engine.new Sample.quietConfig (Sample.asked true) Sample.speaking Sample.speakers =
      .ok (.ok Sample.speaker) := rfl
  have hcount : Sample.quietConfig.launch.numGroups < 2 ^ 32 := by decide
  obtain ⟨⟨hlength, -, htimes, -, hother⟩, hevents, -⟩ :=
    host_file_reads_back hnew Sample.extremes (Sample.mended ++ [.run Sample.turns])
  rw [hlength] at htimes
  have hends : (ends (Sample.mended ++ [.run Sample.turns]) Sample.speaker).flatMap
      RunEnd.milestones =
        [.runStart, .kernelStart, .runStart, .kernelStart, .kernelEnd, .runEnd] := by
    decide +kernel
  obtain ⟨wide, hwide⟩ : ∃ e, Sample.engineOf (Sample.shaped ⟨65536, 65536, 1⟩ 0) (.ofSpecs []) =
      .ok (.ok e) := ⟨_, rfl⟩
  have hmany : 2 ^ 32 ≤ (Sample.shaped ⟨65536, 65536, 1⟩ 0).launch.numGroups := by decide
  obtain ⟨-, -, -, hrefused, -⟩ := host_file_reads_back hwide [] [.run [0, 1]]
  exact ⟨hnew, hcount, htimes, hother _ (by decide), (hevents hcount).trans hends, wide, hwide,
    hmany, hrefused hmany⟩

end Engine
end Lockstep
