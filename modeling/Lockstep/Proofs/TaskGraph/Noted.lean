import Lockstep.Proofs.TaskGraph.Order
import Lockstep.Proofs.Trace.Kept

/-!
# What the trace tells of the nodes

A graph notes the start of the node that it makes current and the finish of the node that it
retires.  Nodes without invocations are passed over in silence, so that what has been noted
so far can be read off the counters.
-/

namespace Lockstep
namespace TaskGraph

variable {η : Type} {g g' : TaskGraph η} {shared : Shared η} {trace trace' : DeviceTrace}
  {origin : TraceOrigin}

/-- What the trace tells of the node at an index when the node is done. -/
def life (g : TaskGraph η) (i : Nat) : List Mark :=
  if g.total i = 0 then [] else [(g.pickup i).mark .nodeStart, (g.pickup i).mark .nodeFinish]

/-- What the trace tells of all nodes when they are done. -/
def nodeMarks (g : TaskGraph η) : List Mark := (List.range g.numNodes).flatMap g.life

def currentMarks (g : TaskGraph η) : List Mark :=
  if g.cursor.toNat < g.numNodes then [(g.pickup g.cursor.toNat).mark .nodeStart] else []

/-- What the trace has told of the nodes so far. -/
def nodeLog (g : TaskGraph η) : List Mark :=
  (List.range g.cursor.toNat).flatMap g.life ++ g.currentMarks

theorem nodeLog_eq_nodeMarks (hcursor : g.cursor.toNat = g.numNodes) : g.nodeLog = g.nodeMarks := by
  rw [nodeLog, currentMarks, hcursor, if_neg (Nat.lt_irrefl _), List.append_nil, nodeMarks]

theorem life_congr {i : Nat} (h : g'.pickup i = g.pickup i) : g'.life i = g.life i := by
  unfold life total
  rw [h]

def openingNotes (g : TaskGraph η) (origin : TraceOrigin) : List TraceNote :=
  g.currentMarks.map (⟨·, origin⟩)

/-- What a report notes that leaves the graph `next`. -/
def reportNotes (g next : TaskGraph η) (id : NodeId) (origin : TraceOrigin) (retired : Bool) :
    List TraceNote :=
  if retired then ⟨(g.pickup id.index).mark .nodeFinish, origin⟩ :: next.openingNotes origin else []

theorem map_mark_openingNotes (g : TaskGraph η) (origin : TraceOrigin) :
    (g.openingNotes origin).map TraceNote.mark = g.currentMarks := by
  exact TraceNote.map_mark_map _ _

theorem length_openingNotes_le (g : TaskGraph η) (origin : TraceOrigin) :
    (g.openingNotes origin).length ≤ 1 := by
  unfold openingNotes currentMarks
  split <;> simp

theorem length_reportNotes_le (g next : TaskGraph η) (id : NodeId) (origin : TraceOrigin)
    (retired : Bool) : (g.reportNotes next id origin retired).length ≤ 2 := by
  unfold reportNotes
  split
  · exact Nat.succ_le_succ (length_openingNotes_le next origin)
  · exact Nat.zero_le _

theorem isNode_of_mem_openingNotes {n : TraceNote} (h : n ∈ g.openingNotes origin) :
    n.mark.event.isNode = true := by
  unfold openingNotes currentMarks at h
  split at h
  · obtain rfl : n = ⟨_, origin⟩ := by simpa using h
    rfl
  · simp at h

theorem isNode_of_mem_reportNotes {next : TaskGraph η} {id : NodeId} {retired : Bool}
    {n : TraceNote} (h : n ∈ g.reportNotes next id origin retired) :
    n.mark.event.isNode = true := by
  unfold reportNotes at h
  split at h
  · rcases List.mem_cons.1 h with rfl | h
    · rfl
    · exact isNode_of_mem_openingNotes h
  · simp at h

theorem advanceFrom_trace {start : Nat}
    (h : g.advanceFrom shared trace origin start = (.ok (), g', trace'))
    (hstart : start ≤ g.numNodes) : trace' = trace.noteAll (g'.openingNotes origin) := by
  have hnodes : g'.numNodes = g.numNodes := by
    have hsame := sameSpecs_advanceFrom g shared trace origin start
    rw [h] at hsame
    exact hsame.numNodes
  unfold openingNotes currentMarks
  rw [hnodes]
  rcases advanceFrom_ok h hstart with ⟨hdone, rfl⟩ | ⟨node, count, hopen, hnode, rfl⟩
  · rw [if_neg hdone.not_lt]
    rfl
  · rw [if_pos hopen, pickup, hnode]
    simp only [UInt32.ofNat_toNat]
    rfl

theorem init_trace (h : g.init shared trace = (.ok (), g', trace')) :
    trace' = trace.reset.noteAll (g'.openingNotes .first) := by
  rw [init_eq] at h
  exact advanceFrom_trace h (Nat.zero_le _)

theorem report_trace {id : NodeId} {finished : UInt32} {retired : Bool}
    (h : g.report shared trace id finished origin = (.ok retired, g', trace'))
    (hid : id.index < g.numNodes) :
    trace' = trace.noteAll (g.reportNotes g' id origin retired) := by
  rcases report_ok h with ⟨rfl, rfl, -⟩ | ⟨rfl, -, -, node, low, hnode, hsame, hadvance⟩
  · rfl
  · have hstart : id.index + 1 ≤ low.numNodes := hsame.numNodes ▸ hid
    have hmark : (g.pickup id.index).mark .nodeFinish =
        ⟨.nodeFinish, id, node.spec.func, node.total⟩ := by
      rw [Pickup.mark, pickup_node_index, pickup, hnode]
    rw [advanceFrom_trace hadvance hstart, reportNotes, if_pos rfl, hmark]
    rfl

theorem Begun.nodeLog (h : Begun g) : g.nodeLog = g.currentMarks := by
  have hsilent : (List.range g.cursor.toNat).flatMap g.life = [] := by
    apply List.flatMap_eq_nil_iff.2
    intro i hi
    have htotal : g.total i = 0 := by
      rw [← (h.untouched i).2]
      exact h.ordered.behind i (List.mem_range.1 hi)
    rw [life, if_pos htotal]
  rw [TaskGraph.nodeLog, hsilent, List.nil_append]

theorem nodeLog_congr (hspecs : SameSpecs g g') (hcursor : g'.cursor = g.cursor)
    (hpickup : ∀ i, g'.pickup i = g.pickup i) : g'.nodeLog = g.nodeLog := by
  have hlife : g'.life = g.life := funext fun i => life_congr (hpickup i)
  simp only [TaskGraph.nodeLog, currentMarks, hlife, hcursor, hspecs.numNodes, hpickup]

/-- A search for work leaves the nodes that it passes without invocations. -/
theorem Advanced.nodeLog {low : TaskGraph η} {i last : Nat} (h : Advanced low (i + 1) last g')
    (hzero : ∀ j, i < j → low.total j = 0) :
    g'.nodeLog = (List.range i).flatMap low.life ++ low.life i ++ g'.currentMarks := by
  have hstart := h.start_le
  have hlife : ∀ j < last, g'.life j = low.life j :=
    fun j hj => life_congr (h.pickup j (.inl hj.ne))
  have hpassed : (List.range' (i + 1) (last - (i + 1))).flatMap low.life = [] := by
    apply List.flatMap_eq_nil_iff.2
    intro j hj
    rw [life, if_pos (hzero j (List.mem_range'_1.1 hj).1)]
  have hrange : List.range last = List.range i ++ [i] ++ List.range' (i + 1) (last - (i + 1)) := by
    rw [← List.range_succ, List.range_eq_range', List.range_eq_range']
    have happend := @List.range'_append_1 0 (i + 1) (last - (i + 1))
    rw [Nat.zero_add, Nat.add_sub_of_le hstart] at happend
    exact happend.symm
  have hbefore : (List.range last).flatMap g'.life = (List.range last).flatMap low.life :=
    List.flatMap_congr fun j hj => hlife j (List.mem_range.1 hj)
  rw [TaskGraph.nodeLog, h.cursor, hbefore, hrange, List.flatMap_append, List.flatMap_append,
    hpassed, List.append_nil, List.flatMap_singleton]

theorem Reported.nodeLog {id : NodeId} {finished : UInt32} {retired : Bool} {asks : List Nat}
    (h : Reported g id.index finished.toNat true g' asks)
    (hreport : g.report shared trace id finished origin = (.ok retired, g', trace'))
    (hg : Ordered g) (hi : id.index ≤ g.cursor.toNat) (hN : id.index < g.numNodes)
    (hle : finished.toNat ≤ g.remaining id.index)
    (hpos : 0 < g.remaining id.index → 0 < g.total id.index) :
    g'.nodeLog = g.nodeLog ++ (g.reportNotes g' id origin retired).map TraceNote.mark := by
  have hretired := report_ok hreport
  cases h with
  | nothing hn =>
      obtain rfl : retired = false := by
        rcases hretired with ⟨hfalse, -⟩ | ⟨-, hpos, -⟩
        · exact hfalse
        · omega
      rw [reportNotes, if_neg Bool.false_ne_true, List.map_nil, List.append_nil]
  | lowers hn hlt h =>
      obtain rfl : retired = false := by
        rcases hretired with ⟨hfalse, -⟩ | ⟨-, -, heq, -⟩
        · exact hfalse
        · omega
      rw [reportNotes, if_neg Bool.false_ne_true, List.map_nil, List.append_nil]
      exact nodeLog_congr h.specs h.cursor h.pickup
  | retires low last hn hall h hadvanced =>
      obtain rfl : retired = true := by
        rcases hretired with ⟨-, -, hne⟩ | ⟨htrue, -⟩
        · omega
        · exact htrue
      have hcursor := hg.eq_cursor hi hn hle
      have hlife : low.life = g.life := funext fun j => life_congr (h.pickup j)
      have htotal : ∀ j, low.total j = g.total j := fun j => total_congr (h.pickup j)
      have hlog := hadvanced.nodeLog fun j hj => (htotal j).trans (hg.front j (.inl (by omega))).1
      have hnow : g.life id.index = g.currentMarks ++ [(g.pickup id.index).mark .nodeFinish] := by
        rw [currentMarks, ← hcursor, if_pos hN, life, if_neg (hpos (by omega)).ne']
        rfl
      rw [hlog, hlife, hnow, reportNotes, if_pos rfl, List.map_cons, map_mark_openingNotes,
        TaskGraph.nodeLog, ← hcursor]
      simp only [List.append_assoc, List.singleton_append]

end TaskGraph
end Lockstep
