import Lockstep.Engine.History
import Lockstep.Proofs.Launch.Abort
import Lockstep.Proofs.Launch.InOrder
import Lockstep.Proofs.Word

/-!
# Accepted engines

What an engine checks when it is made holds of all its runs: the launch has groups and
lanes, and few enough, the threads of every node tile a group or a block, and every node
names a function.  Runs change neither the configuration nor the functions nor what the
nodes are about.
-/

namespace Lockstep

theorem LaunchConfig.blockThreads_eq_ok {c : LaunchConfig} {width : Nat}
    (h : c.blockThreads = .ok width) : c.groupsPerBlock.toNat * c.lanesPerGroup.toNat < 2 ^ 32 ∧
      c.groupsPerBlock.toNat * c.lanesPerGroup.toNat = width := by
  unfold blockThreads Word.mul at h
  split at h
  · exact ⟨‹_›, Except.ok.inj h⟩
  · contradiction

namespace Engine

variable {η : Type} {e : Engine η} {c : LaunchConfig} {d : Dispatcher η}

/-- The engine has been made with success, and used since. -/
def IsAccepted (e : Engine η) : Prop :=
  ∃ shared graph e₀, Engine.new e.config shared graph e.dispatcher = .ok (.ok e₀) ∧
    graph.SameSpecs e.graph

theorem forM_ok {α : Type} {f : α → Except EngineError Unit} {l : List α}
    (h : l.forM f = .ok ()) : ∀ a ∈ l, f a = .ok () := by
  induction l with
  | nil => exact fun _ ha => absurd ha List.not_mem_nil
  | cons a l ih =>
      change (f a >>= fun _ => l.forM f) = _ at h
      cases ha : f a with
      | error e =>
          rw [ha] at h
          contradiction
      | ok u =>
          rw [ha] at h
          intro b hb
          rcases List.mem_cons.1 hb with rfl | hb
          · exact ha
          · exact ih h b hb

structure Checked (c : LaunchConfig) (d : Dispatcher η) (spec : NodeSpec η) : Prop where
  registered : d.contains spec.func = true
  counted : spec.isDynamic = true → spec.data.hasCount = true
  tiles : c.Tiles spec.threadsPerInvocation

theorem tiles_of_eq_true {threads : UInt32}
    (h : tiles threads c.lanesPerGroup (c.groupsPerBlock.toNat * c.lanesPerGroup.toNat) = true) :
    c.Tiles threads := by
  simp only [tiles, Bool.and_eq_true] at h
  obtain ⟨hpower, htile⟩ := h
  have hpos : 0 < threads.toNat := by
    simp only [Word.isPowerOfTwo, Bool.and_eq_true, bne_iff_ne] at hpower
    exact Nat.pos_of_ne_zero hpower.1
  by_cases hle : threads ≤ c.lanesPerGroup
  · rw [if_pos hle, beq_iff_eq] at htile
    have hdvd : threads.toNat ∣ c.lanesPerGroup.toNat := by
      apply Nat.dvd_of_mod_eq_zero
      rw [← UInt32.toNat_mod, htile]
      rfl
    exact ⟨hpos, fun _ => hdvd, hdvd.mul_left _⟩
  · rw [if_neg hle, beq_iff_eq] at htile
    refine ⟨hpos, fun hnarrow => absurd ?_ hle, Nat.dvd_of_mod_eq_zero htile⟩
    exact UInt32.le_iff_toNat_le.2 (Nat.le_of_not_lt fun hlt =>
      hnarrow (UInt32.lt_iff_toNat_lt.2 hlt))

theorem checked_of_checkNode {id : NodeId} {spec : NodeSpec η}
    (h : checkNode c (c.groupsPerBlock.toNat * c.lanesPerGroup.toNat) d id spec = .ok ()) :
    Checked c d spec := by
  unfold checkNode at h
  split at h
  · contradiction
  rename_i hregistered
  split at h
  · contradiction
  rename_i hcounted
  split at h
  · rename_i htiles
    refine ⟨by simpa using hregistered, fun hdynamic => ?_, tiles_of_eq_true htiles⟩
    simpa [hdynamic] using hcounted
  · contradiction

theorem checked_of_checkGraph {graph : TaskGraph η}
    (h : checkGraph c (c.groupsPerBlock.toNat * c.lanesPerGroup.toNat) d graph = .ok ())
    {spec : NodeSpec η} (hspec : spec ∈ graph.specs) : Checked c d spec := by
  obtain ⟨i, hi⟩ := List.mem_iff_getElem?.1 hspec
  apply checked_of_checkNode
  exact forM_ok h (spec, i) (List.mem_zipIdx_iff_getElem?.2 hi)

theorem launch_of_validate {config : EngineConfig} (h : config.validate = .ok ()) :
    config.launch.issue? = none := by
  unfold EngineConfig.validate at h
  split at h
  · contradiction
  split at h
  · contradiction
  · assumption

/-- An engine is made of a configuration and a graph that pass the checks, with empty
buffers. -/
theorem exists_of_new {config : EngineConfig} {shared : Shared η} {graph : TaskGraph η}
    (h : Engine.new config shared graph d = .ok (.ok e)) :
    config.validate = .ok () ∧
      (∃ width, config.launch.blockThreads = .ok width ∧
        checkGraph config.launch width d graph = .ok ()) ∧
      ∃ layout arena, e = ⟨config, graph, d, layout, ⟨shared, arena, .new config.printCapacity⟩,
        .ofConfig config.trace, .empty, 0⟩ := by
  unfold Engine.new at h
  split at h
  · exact absurd (Except.ok.inj h) (by simp)
  rename_i hvalid
  split at h
  · exact absurd (Except.ok.inj h) (by simp)
  obtain ⟨width, hwidth, h⟩ := exists_of_bind h
  split at h
  · exact absurd (Except.ok.inj h) (by simp)
  rename_i hgraph
  obtain ⟨layout, -, h⟩ := exists_of_bind h
  obtain ⟨arena, -, h⟩ := exists_of_bind h
  exact ⟨hvalid, ⟨width, hwidth, hgraph⟩, layout, arena,
    (Except.ok.inj (Except.ok.inj h)).symm⟩

theorem IsAccepted.checks (h : e.IsAccepted) :
    e.config.launch.issue? = none ∧
    e.config.launch.groupsPerBlock.toNat * e.config.launch.lanesPerGroup.toNat < 2 ^ 32 ∧
    ∀ spec ∈ e.graph.specs, Checked e.config.launch e.dispatcher spec := by
  obtain ⟨shared, graph, e₀, hnew, hspecs⟩ := h
  obtain ⟨hvalid, ⟨width, hwidth, hgraph⟩, -⟩ := exists_of_new hnew
  obtain ⟨hfits, rfl⟩ := LaunchConfig.blockThreads_eq_ok hwidth
  rw [hspecs.specs]
  exact ⟨launch_of_validate hvalid, hfits, fun _ => checked_of_checkGraph hgraph⟩

theorem valid_of_issue? (hissue : c.issue? = none)
    (hwidth : c.groupsPerBlock.toNat * c.lanesPerGroup.toNat < 2 ^ 32)
    (hcount : c.numGroups < 2 ^ 32) : c.Valid := by
  unfold LaunchConfig.issue? at hissue
  split at hissue
  · contradiction
  rename_i hblocks
  split at hissue
  · contradiction
  rename_i hpos
  split at hissue
  · contradiction
  rename_i hlanes
  obtain ⟨hlanes, hmax⟩ := not_or.1 hlanes
  have htoNat : ∀ {n : UInt32}, n ≠ 0 → 0 < n.toNat := fun hn =>
    Nat.pos_of_ne_zero fun hzero => hn (UInt32.toNat_inj.1 hzero)
  refine ⟨htoNat hblocks, htoNat hpos, htoNat hlanes, ?_, hwidth, hcount⟩
  exact UInt32.le_iff_toNat_le.1 (UInt32.not_lt.1 hmax)

theorem IsAccepted.valid (h : e.IsAccepted) {n : Nat}
    (hgroups : e.config.launch.totalGroups = .ok n) : e.config.launch.Valid := by
  obtain ⟨hissue, hwidth, -⟩ := h.checks
  refine valid_of_issue? hissue hwidth ?_
  unfold LaunchConfig.totalGroups Word.mul at hgroups
  split at hgroups
  · assumption
  · contradiction

theorem IsAccepted.tiles (h : e.IsAccepted) (i : Nat) :
    e.config.launch.Tiles (e.graph.pickup i).threadsPerInvocation := by
  obtain ⟨-, -, hchecked⟩ := h.checks
  unfold TaskGraph.pickup
  split
  · rename_i node hnode
    exact (hchecked node.spec (List.mem_map_of_mem (Array.mem_of_getElem? hnode).val)).tiles
  · exact ⟨Nat.one_pos, fun _ => Nat.one_dvd _, Nat.one_dvd _⟩

theorem IsAccepted.registered (h : e.IsAccepted) {id : NodeId} {node : Node η}
    (hnode : e.graph.node id = .ok node) :
    ∃ invocation, e.dispatcher.get? node.spec.func = some invocation := by
  have hmem := Array.mem_of_getElem? (TaskGraph.getElem?_of_node hnode)
  obtain ⟨-, -, hchecked⟩ := h.checks
  have hregistered := (hchecked node.spec (List.mem_map_of_mem hmem.val)).registered
  exact ⟨_, Array.getElem?_eq_getElem (of_decide_eq_true hregistered)⟩

theorem IsAccepted.isCounted (h : e.IsAccepted) {j : Nat} {node : Node η}
    (hnode : e.graph.nodes[j]? = some node) :
    e.graph.isCounted j = node.spec.isDynamic := by
  obtain ⟨-, -, hchecked⟩ := h.checks
  have hmem := Array.mem_of_getElem? hnode
  have hcounted := (hchecked node.spec (List.mem_map_of_mem hmem.val)).counted
  simp only [TaskGraph.isCounted, hnode]
  cases hdynamic : node.spec.isDynamic with
  | false => rfl
  | true => rw [hcounted hdynamic, Bool.true_and]

theorem launch?_eq {s₀ : LaunchState η} (h : e.launch? = .ok s₀) :
    (∃ n, e.config.launch.totalGroups = .ok n) ∧
      ∃ device, s₀ = .initial e.config.launch e.graph device e.trace := by
  unfold launch? at h
  cases hgroups : e.config.launch.totalGroups with
  | error fault =>
      rw [hgroups] at h
      contradiction
  | ok n =>
      rw [hgroups] at h
      exact ⟨⟨n, rfl⟩, _, (Except.ok.inj h).symm⟩

/-- What holds of the state that a schedule leads a run to. -/
structure Reached (c : LaunchConfig) (d : Dispatcher η) (graph : TaskGraph η)
    (schedule : List Nat) (s₀ : LaunchState η) (stage : Nat → Stage) (l : Ledger) : Prop where
  valid : c.Valid
  coherent : LaunchState.Coherent c (.follow c d schedule s₀) stage
  contained : LaunchState.Contained c (.follow c d schedule s₀)
  onCourse : LaunchState.OnCourse c (.follow c d schedule s₀) stage l
  logged : LaunchState.Logged c (.follow c d schedule s₀) stage l
    (LaunchState.asks c d schedule s₀)
  specs : graph.SameSpecs (LaunchState.follow c d schedule s₀).graph
  performed : LaunchState.performedWork c l = (LaunchState.history c d schedule s₀ : List Work)

theorem IsAccepted.reached (h : e.IsAccepted) {s₀ : LaunchState η} (hs₀ : e.launch? = .ok s₀)
    (schedule : List Nat) : ∃ stage, Reached e.config.launch e.dispatcher e.graph schedule s₀ stage
      (LaunchState.ledger e.config.launch e.dispatcher schedule s₀ .empty) := by
  obtain ⟨⟨n, hgroups⟩, device, rfl⟩ := launch?_eq hs₀
  have hvalid := h.valid hgroups
  have hpos : 0 < e.config.launch.numGroups := Nat.mul_pos hvalid.blocks_pos hvalid.groups_pos
  have hcoherent := LaunchState.Coherent.initial hpos e.graph device e.trace
  have hcourse := LaunchState.OnCourse.initial hvalid device e.trace h.tiles
  refine ⟨_, hvalid, hcoherent.follow schedule,
    (LaunchState.Contained.initial e.graph device e.trace).follow hcoherent schedule,
    hcourse.follow hvalid hcoherent schedule,
    (LaunchState.Logged.initial hvalid device e.trace h.tiles).follow hvalid hcoherent schedule,
    hcoherent.sameSpecs_follow schedule, ?_⟩
  rw [hcourse.performedWork_follow hvalid hcoherent schedule, LaunchState.performedWork_empty,
    zero_add]

theorem exists_schedule (c : LaunchConfig) (d : Dispatcher η) (fuel : Nat) (s : LaunchState η) :
    ∃ schedule, LaunchState.run c d fuel s = LaunchState.follow c d schedule s := by
  induction fuel generalizing s with
  | zero => exact ⟨[], rfl⟩
  | succ fuel ih =>
      rw [LaunchState.run]
      split
      · exact ⟨[], rfl⟩
      · obtain ⟨schedule, hschedule⟩ := ih (LaunchState.round c d s)
        refine ⟨List.range c.numGroups ++ schedule, ?_⟩
        rw [hschedule, LaunchState.follow_append]
        rfl

/-- A run is a run along some schedule. -/
theorem exists_runAlong (e : Engine η) : ∃ schedule, e.run = e.runAlong schedule := by
  unfold Engine.run runAlong launch?
  cases hgroups : e.config.launch.totalGroups with
  | error fault =>
      simp only [note, hgroups]
      exact ⟨[], rfl⟩
  | ok n =>
      obtain ⟨schedule, hschedule⟩ := exists_schedule e.config.launch e.dispatcher runFuel
        (.initial e.config.launch e.graph
          { e.device with arena := e.device.arena.resetTmp } e.trace)
      simp only [note, hgroups, hschedule]
      exact ⟨schedule, rfl⟩

theorem leave_keeps (e : Engine η) (s : LaunchState η) :
    (e.leave s).2.config = e.config ∧ (e.leave s).2.dispatcher = e.dispatcher ∧
      (e.leave s).2.graph = s.graph := by
  unfold leave
  dsimp only
  split <;> exact ⟨rfl, rfl, rfl⟩

theorem run_cases (e : Engine η) :
    e.run.2.config = e.config ∧ e.run.2.dispatcher = e.dispatcher ∧
    ((∃ fault, e.launch? = .error fault ∧ e.run.2.graph = e.graph) ∨
      ∃ s₀ schedule, e.launch? = .ok s₀ ∧
        e.run.2.graph = (LaunchState.follow e.config.launch e.dispatcher schedule s₀).graph) := by
  obtain ⟨schedule, hrun⟩ := e.exists_runAlong
  rw [hrun, runAlong]
  cases hlaunch : e.launch? with
  | error fault => exact ⟨rfl, rfl, .inl ⟨fault, rfl, rfl⟩⟩
  | ok s₀ =>
      obtain ⟨hconfig, hdispatcher, hgraph⟩ := leave_keeps (e.started.note .kernelStart)
        (LaunchState.follow e.config.launch e.dispatcher schedule s₀)
      exact ⟨hconfig, hdispatcher, .inr ⟨s₀, schedule, rfl, hgraph⟩⟩

theorem IsAccepted.run (h : e.IsAccepted) : e.run.2.IsAccepted := by
  obtain ⟨hconfig, hdispatcher, hgraph⟩ := e.run_cases
  obtain ⟨shared, graph, e₀, hnew, hspecs⟩ := id h
  refine ⟨shared, graph, e₀, by rw [hconfig, hdispatcher, hnew], ?_⟩
  rcases hgraph with ⟨fault, -, hgraph⟩ | ⟨s₀, schedule, hs₀, hgraph⟩
  · rwa [hgraph]
  · obtain ⟨stage, hreached⟩ := h.reached hs₀ schedule
    rw [hgraph]
    exact hspecs.trans hreached.specs

namespace Sample

def config : EngineConfig where
  state := ⟨1, 1, 2, 0, 0, 0, 0⟩
  launch := ⟨2, 1, 1⟩
  worldDataBytes := 0
  worldDataAlign := 1
  tmpAllocBytes := 0
  printCapacity := 0
  trace := ⟨false, 0⟩

def graph : TaskGraph Unit :=
  .ofSpecs [.fixed ⟨0⟩ 2, .dynamic ⟨0⟩ (.withCount .empty fun _ => 1)]

def shared : Shared Unit :=
  ⟨⟨config.state, .builtins 2, #[], #[], .empty 0, .empty 0⟩, ()⟩

def dispatcher : Dispatcher Unit := ⟨#[fun _ _ _ device => (.ok (), device)]⟩

def engine : Engine Unit :=
  ((Engine.new config shared graph dispatcher).toOption.bind Except.toOption).get rfl

def launch : LaunchState Unit := engine.launch?.toOption.get rfl

theorem isAccepted_engine : engine.IsAccepted := ⟨shared, graph, engine, rfl, .refl _⟩

theorem launch?_engine : engine.launch? = .ok launch := rfl

def schedule : List Nat := (List.replicate 60 [0, 1]).flatten

/-- The first block holds the last offset of the first node, and the second one idles. -/
def pause : List Nat := [0, 0, 1] ++ List.replicate 18 0 ++ List.replicate 20 1

def retire : List Nat := [0, 0, 1] ++ List.replicate 21 0

end Sample

end Engine
end Lockstep
