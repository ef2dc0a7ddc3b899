import Lockstep.Proofs.Engine.NodeEvents

/-!
# Events of the blocks

What the device trace tells of each block of a run that all groups have left.  The end of a
pass goes unnoted if its block was last answered the base that stands for having no work, as
happens when a node has as many invocations as a word can count.
-/

namespace Lockstep
namespace LaunchState

variable {η : Type} {c : LaunchConfig} {d : Dispatcher η} {s s' s'' : LaunchState η}

/-- Some schedule leads from one state to another and drops no record. -/
def Leads (c : LaunchConfig) (d : Dispatcher η) (s s' : LaunchState η) : Prop :=
  ∃ schedule, follow c d schedule s = s' ∧ keepsEvents c d schedule s = true

theorem keeps_of_dropped (h : s.trace.dropped = 0) : s.keeps = true := by
  simp [keeps, h]

namespace Leads

theorem step (g : Nat) (h : LaunchState.step c d g s = s') (hkept : s.trace.dropped = 0)
    (hkept' : s'.trace.dropped = 0) : Leads c d s s' := by
  refine ⟨[g], h, ?_⟩
  simp only [keepsEvents, h, keeps_of_dropped hkept, keeps_of_dropped hkept', Bool.and_self]

theorem trans (h : Leads c d s s') (h' : Leads c d s' s'') : Leads c d s s'' := by
  obtain ⟨first, rfl, hkept⟩ := h
  obtain ⟨later, rfl, hkept'⟩ := h'
  exact ⟨first ++ later, follow_append c d first later s, keepsEvents_append hkept hkept'⟩

end Leads
end LaunchState

namespace Engine

open LaunchState

variable {η : Type} {e : Engine η} {s₀ : LaunchState η}

/-- When all groups of a traced run have exited and no record was dropped, the trace tells of
each block that it started one node after another, in their order and with the function and
count of each, that it left each of them before it started the next, and at last that it has
left.  It misses only the end of a pass whose node has had all offsets claimed that a word can
count. -/
theorem events_of_blocks (he : e.IsAccepted) (hs₀ : e.launch? = .ok s₀)
    (henabled : e.trace.enabled = true) (schedule : List Nat)
    (hexited : ∀ g < e.config.launch.numGroups,
      (follow e.config.launch e.dispatcher schedule s₀).phase g = .exited)
    (hkept : keepsEvents e.config.launch e.dispatcher schedule s₀ = true) :
    let c := e.config.launch
    let s := follow c e.dispatcher schedule s₀
    ∃ notes, s.trace.Shows (.calibration :: notes) ∧
      ∀ b < c.numBlocks.toNat, ∃ passes : List Pass,
        TraceNote.blockMarks b notes =
          passes.flatMap Pass.marks ++ [.exit ⟨UInt32.ofNat e.graph.numNodes⟩] ∧
        passes.Pairwise (fun a b => a.pickup.node.index < b.pickup.node.index) ∧
        ∀ a ∈ passes, a.pickup.node.index < e.graph.numNodes ∧
          a.pickup = s.graph.pickup a.pickup.node.index ∧
          (a.waited = false → 2 ^ 32 - 1 ≤ s.graph.claimed a.pickup.node.index) := by
  intro c s
  obtain ⟨notes, h⟩ := he.told hs₀ henabled hexited hkept
  refine ⟨notes, h.shows, fun b hb => ?_⟩
  obtain ⟨passes, hmarks, hincreasing, hof⟩ := h.blocks b hb
  refine ⟨passes, hmarks, hincreasing, fun a ha => ?_⟩
  have ha := hof a ha
  exact ⟨h.specs.numNodes ▸ ha.lt_numNodes, ha.pickup_eq, ha.claimed⟩

theorem events_of_blocks_sample :
    ∃ notes, ∃ passes : List Pass, TraceNote.blockMarks 0 notes =
        passes.flatMap Pass.marks ++ [.exit ⟨2⟩] ∧
      passes.Pairwise (fun a b => a.pickup.node.index < b.pickup.node.index) ∧
      ∀ a ∈ passes, a.waited = true := by
  obtain ⟨notes, -, hblocks⟩ := events_of_blocks Sample.isAccepted_tracedEngine
    Sample.launch?_tracedEngine rfl Sample.schedule Sample.exited_tracedEngine
    Sample.keepsEvents_tracedEngine
  obtain ⟨passes, hmarks, hincreasing, hof⟩ := hblocks 0 (by decide)
  refine ⟨notes, passes, hmarks, hincreasing, fun a ha => ?_⟩
  -- The run claims little.
  obtain ⟨hnode, -, hclaimed⟩ := hof a ha
  have hlittle : ∀ k < Sample.tracedEngine.graph.numNodes,
      (follow Sample.tracedEngine.config.launch Sample.tracedEngine.dispatcher Sample.schedule
        Sample.tracedLaunch).graph.claimed k < 2 ^ 32 - 1 := by
    decide +kernel
  exact eq_true_of_ne_false fun hw => absurd (hclaimed hw) (Nat.not_le.2 (hlittle _ hnode))

/-! ## A claim that hides the end of a pass -/

namespace Saturation

def full : UInt32 := 0xFFFFFFFF

def config : EngineConfig :=
  { Sample.config with launch := ⟨1, 2, 1⟩, trace := ⟨true, 8⟩ }

def spec : NodeSpec Unit := (NodeSpec.fixed ⟨0⟩ full).withThreadsPerInvocation 2

/-- One block of two groups, which share every invocation of the only node. -/
def engine : Engine Unit :=
  ((Engine.new config Sample.shared (.ofSpecs [spec]) Sample.dispatcher).toOption.bind
    Except.toOption).get rfl

def launch : LaunchState Unit := engine.launch?.toOption.get rfl

theorem isAccepted_engine : engine.IsAccepted :=
  ⟨Sample.shared, .ofSpecs [spec], engine, rfl, .refl _⟩

def held : Pickup := ⟨⟨0⟩, ⟨0⟩, full, 2⟩

/-- A state in which one of the two groups stands at `p` and the other one at `q`. -/
def crowd (g : Nat) (p q : Phase) (base finished : UInt32) (arrived generation : Nat)
    (graph : TaskGraph Unit) (trace : DeviceTrace) : LaunchState Unit where
  graph
  device := launch.device
  trace
  blocks := #[⟨held, base, finished, ⟨2, arrived, generation, false⟩⟩]
  start := ⟨2, 0, 1, false⟩
  aborted := false
  groups := #[q, q].setIfInBounds g p

/-- Both groups are about to share out a claim. -/
def sharing (base : UInt32) (generation : Nat) (graph : TaskGraph Unit) (trace : DeviceTrace) :
    LaunchState Unit :=
  crowd 0 (.assign ⟨0⟩ base 0) (.assign ⟨0⟩ base 1) base 0 0 generation graph trace

/-- Both groups are about to see what their block was answered. -/
def reading (base : UInt32) (generation : Nat) (graph : TaskGraph Unit) (trace : DeviceTrace) :
    LaunchState Unit :=
  crowd 0 (.readBase held) (.readBase held) base 0 0 generation graph trace

section Passes

variable {g arrived generation : Nat} {p q : Phase} {base base' finished : UInt32}
  {graph graph' graph'' : TaskGraph Unit} {trace trace' : DeviceTrace}

@[simp] theorem graph_crowd :
    (crowd g p q base finished arrived generation graph trace).graph = graph := rfl

@[simp] theorem trace_crowd :
    (crowd g p q base finished arrived generation graph trace).trace = trace := rfl

@[simp] theorem device_crowd :
    (crowd g p q base finished arrived generation graph trace).device = launch.device := rfl

theorem phase_crowd (hg : g = 0 ∨ g = 1) :
    (crowd g p q base finished arrived generation graph trace).phase g = p := by
  rcases hg with rfl | rfl <;> rfl

theorem assign_held (hg : g = 0 ∨ g = 1) (hbase : base < full) :
    held.assign base (UInt32.ofNat g) 1 = [(0, ⟨⟨0⟩, ⟨0⟩, base, UInt32.ofNat g⟩)] := by
  have hbase := UInt32.lt_iff_toNat_lt.1 hbase
  have hwork : held.workOf base (UInt32.ofNat g) = some ⟨⟨0⟩, ⟨0⟩, base, UInt32.ofNat g⟩ := by
    rw [Pickup.workOf_eq_workAt]
    rcases hg with rfl | rfl <;>
      simp [Pickup.workAt, Pickup.unit, Pickup.threads, held, hbase]
  simp [Pickup.assign, hwork]

theorem step_assign (hg : g = 0 ∨ g = 1) (hbase : base < full) :
    step config.launch Sample.dispatcher g
      (crowd g (.assign ⟨0⟩ base (UInt32.ofNat g)) q base finished 0 generation graph trace) =
    crowd g (.execute [(0, ⟨⟨0⟩, ⟨0⟩, base, UInt32.ofNat g⟩)] .empty) q base finished 0 generation
      graph trace := by
  rw [← assign_held hg hbase]
  rcases hg with rfl | rfl <;> rfl

theorem invoke_eq {s : LaunchState Unit} {lane : UInt32} {work : Work} {node : Node Unit}
    (hfunc : work.func = ⟨0⟩) (hnode : s.graph.node work.node = .ok node) :
    invoke config.launch Sample.dispatcher g lane work s = (.ok (), s) := by
  have hget : Sample.dispatcher.get? work.func = some fun _ _ _ device => (.ok (), device) := by
    rw [hfunc]
    rfl
  simp only [invoke, hget, hnode]

theorem step_execute (hg : g = 0 ∨ g = 1) {work : Work} {node : Node Unit}
    (hfunc : work.func = ⟨0⟩) (hnode : graph.node work.node = .ok node) :
    step config.launch Sample.dispatcher g
      (crowd g (.execute [(0, work)] .empty) q base finished 0 generation graph trace) =
    crowd g (.execute [] ⟨1⟩) q base finished 0 generation graph trace := by
  have hset : LaneMask.empty.set 0 = .ok ⟨1⟩ := rfl
  simp only [step, phase_crowd hg, invoke_eq (s := crowd ..) hfunc hnode, hset]
  rcases hg with rfl | rfl <;> rfl

/-- A group serves its part of a claim. -/
theorem leads_work (hg : g = 0 ∨ g = 1) (hbase : base < full) {node : Node Unit}
    (hnode : graph.node ⟨0⟩ = .ok node) (hkept : trace.dropped = 0) :
    Leads config.launch Sample.dispatcher
      (crowd g (.assign ⟨0⟩ base (UInt32.ofNat g)) q base finished 0 generation graph trace)
      (crowd g (.enter (.finish held)) q base (finished + 1) 0 generation graph trace) := by
  refine (Leads.step g (step_assign hg hbase) hkept hkept).trans <|
    (Leads.step g (step_execute hg rfl hnode) hkept hkept).trans ?_
  have htally : step config.launch Sample.dispatcher g
      (crowd g (.execute [] ⟨1⟩) q base finished 0 generation graph trace) =
      crowd g (.tally ⟨1⟩) q base finished 0 generation graph trace := by
    rcases hg with rfl | rfl <;> rfl
  refine (Leads.step g htally hkept hkept).trans (.step g ?_ hkept hkept)
  rcases hg with rfl | rfl <;> rfl

/-- The two groups meet. -/
theorem leads_meet (site : Site) (hsite : site ≠ .start) (hkept : trace.dropped = 0) :
    Leads config.launch Sample.dispatcher
      (crowd 0 (.enter site) (.enter site) base finished 0 generation graph trace)
      (crowd 0 (afterSite true site) (afterSite false site) base finished 0 (generation + 1)
        graph trace) := by
  have hwaits : step config.launch Sample.dispatcher 0
      (crowd 0 (.enter site) (.enter site) base finished 0 generation graph trace) =
      crowd 1 (.enter site) (.waiting site generation) base finished 1 generation graph trace := by
    cases site <;> first | contradiction | rfl
  have hmeets : step config.launch Sample.dispatcher 1
      (crowd 1 (.enter site) (.waiting site generation) base finished 1 generation graph trace) =
      crowd 0 (.waiting site generation) (afterSite false site) base finished 0 (generation + 1)
        graph trace := by
    cases site <;> first | contradiction | rfl
  refine (Leads.step 0 hwaits hkept hkept).trans <| (Leads.step 1 hmeets hkept hkept).trans <|
    .step 0 ?_ hkept hkept
  have hbarrier : (crowd 0 (.waiting site generation) (afterSite false site) base finished 0
      (generation + 1) graph trace).barrierAt (config.launch.blockOf 0) site =
      ⟨2, 0, generation + 1, false⟩ := by
    cases site <;> first | contradiction | rfl
  have hpoll : (⟨2, 0, generation + 1, false⟩ : Barrier).poll generation = .released := by
    simp [Barrier.poll]
  simp only [step, phase_crowd (.inl rfl), hbarrier, hpoll]
  rfl

theorem step_collect :
    step config.launch Sample.dispatcher 0
      (crowd 0 (.collect held) q base (0 + 1 + 1) 0 generation graph trace) =
    crowd 0 (.report ⟨0⟩ 1) q base 0 0 generation graph trace := by
  have hcount : (1 : UInt32) = (0 + 1 + 1) / held.threadsPerInvocation := by decide
  rw [hcount]
  rfl

theorem step_report {retired : Bool}
    (hreport : graph.report launch.device.shared trace ⟨0⟩ 1 ⟨0, 0⟩ =
      (.ok retired, graph', trace')) :
    step config.launch Sample.dispatcher 0
      (crowd 0 (.report ⟨0⟩ 1) q base 0 0 generation graph trace) =
    crowd 0 .fetch q base 0 0 generation graph' trace' := by
  have horigin : config.launch.originOf 0 = ⟨0, 0⟩ := rfl
  simp only [step, phase_crowd (.inl rfl), graph_crowd, device_crowd, trace_crowd, horigin, hreport]
  rfl

theorem step_fetch (hg : g = 0 ∨ g = 1) (hbase : base < full) :
    step config.launch Sample.dispatcher g
      (crowd g .fetch q base finished 0 generation graph trace) =
    crowd g (.enter (.claimEnter held)) q base finished 0 generation graph trace := by
  have hwork : base ≠ noWork := UInt32.ne_of_lt hbase
  rcases hg with rfl | rfl <;>
  · change (if base = noWork then _ else _) = _
    rw [if_neg hwork]
    rfl

theorem step_claim (hclaim : graph.claim ⟨0⟩ 1 = .ok (base', graph')) :
    step config.launch Sample.dispatcher 0
      (crowd 0 (.claimForBlock held) q base 0 0 generation graph trace) =
    crowd 0 (.enter (.claimLeave held)) q base' 0 0 generation graph' trace := by
  have hnode : held.node = ⟨0⟩ := rfl
  have hbatch : config.launch.blockWidth / held.threadsPerInvocation = 1 := by decide
  simp only [step, phase_crowd (.inl rfl), graph_crowd, hbatch, hnode, hclaim]
  rfl

/-- The block works off its claim, reports it and claims once more. -/
theorem leads_pass (hbase : base < full) {node : Node Unit} (hnode : graph.node ⟨0⟩ = .ok node)
    {retired : Bool}
    (hreport : graph.report launch.device.shared trace ⟨0⟩ 1 ⟨0, 0⟩ =
      (.ok retired, graph', trace'))
    (hclaim : graph'.claim ⟨0⟩ 1 = .ok (base', graph'')) (hkept : trace.dropped = 0)
    (hkept' : trace'.dropped = 0) :
    Leads config.launch Sample.dispatcher (sharing base generation graph trace)
      (reading base' (generation + 3) graph'' trace') :=
  (leads_work (.inl rfl) hbase hnode hkept).trans <|
  (leads_work (g := 1) (.inr rfl) hbase hnode hkept).trans <|
  (leads_meet (.finish held) Site.noConfusion hkept).trans <|
  (Leads.step 0 step_collect hkept hkept).trans <|
  (Leads.step 0 (step_report hreport) hkept hkept').trans <|
  (Leads.step 0 (step_fetch (.inl rfl) hbase) hkept' hkept').trans <|
  (Leads.step 1 (step_fetch (g := 1) (.inr rfl) hbase) hkept' hkept').trans <|
  (leads_meet (.claimEnter held) Site.noConfusion hkept').trans <|
  (Leads.step 0 (step_claim hclaim) hkept' hkept').trans <|
  leads_meet (.claimLeave held) Site.noConfusion hkept'

theorem leads_again (hbase : base < full) (hkept : trace.dropped = 0) :
    Leads config.launch Sample.dispatcher (reading base generation graph trace)
      (sharing base generation graph trace) := by
  have hwork : ¬ held.total ≤ base := UInt32.not_le.2 hbase
  have hreads : ∀ g q, g = 0 ∨ g = 1 → step config.launch Sample.dispatcher g
      (crowd g (.readBase held) q base 0 0 generation graph trace) =
      crowd g (.assign ⟨0⟩ base (UInt32.ofNat g)) q base 0 0 generation graph trace := by
    intro g q hg
    rcases hg with rfl | rfl <;>
    · change (if held.total ≤ base then _ else _) = _
      rw [if_neg hwork]
      rfl
  exact (Leads.step 0 (hreads 0 _ (.inl rfl)) hkept hkept).trans
    (.step 1 (hreads 1 _ (.inr rfl)) hkept hkept)

end Passes

/-- The graph when the offset `k` has been claimed and those in front of it have been
reported. -/
def graphAt (k : Nat) : TaskGraph Unit :=
  ⟨#[⟨spec, UInt64.ofNat (k + 1), UInt32.ofNat (full.toNat - k), full⟩], 0⟩

def opening : DeviceTrace := engine.trace.reset.noteAll [⟨held.mark .nodeStart, .first⟩]

def opened : DeviceTrace := opening.noteAll [⟨held.mark .blockStart, ⟨0, 0⟩⟩]

theorem init_launch : launch.graph.init launch.device.shared launch.trace =
    (.ok (), ⟨#[⟨spec, 0, full, full⟩], 0⟩, opening) := by
  have hrewound : launch.graph.rewound = ⟨#[⟨spec, 0, 0, 0⟩], 0⟩ := by
    change (⟨#[Node.idle spec].map Node.rewound, 0⟩ : TaskGraph Unit) = _
    rw [List.map_toArray]
    rfl
  rw [TaskGraph.init_eq, hrewound]
  rfl

/-- Both groups meet at the start, and the leader picks up the node. -/
def start : List Nat := [0, 0, 1, 0, 0, 1, 0, 1, 0, 0, 0, 0, 0, 0, 0, 1, 0, 0, 1]

set_option maxRecDepth 4000 in
theorem leads_start :
    Leads config.launch Sample.dispatcher launch (sharing 0 2 (graphAt 0) opened) := by
  refine ⟨start, ?_, by decide +kernel⟩
  have hphase : launch.phase 0 = .init := by decide +kernel
  have hgraph : graphAt 0 = ⟨#[⟨spec, 1, full, full⟩], 0⟩ := by simp [graphAt]
  rw [start, follow_cons, hgraph]
  simp only [step, hphase, init_launch]
  rfl

theorem report_graphAt {k : Nat} (hk : k + 1 < full.toNat) (shared : Shared Unit)
    (trace : DeviceTrace) (origin : TraceOrigin) :
    (graphAt k).report shared trace ⟨0⟩ 1 origin = (.ok false,
      ⟨#[⟨spec, UInt64.ofNat (k + 1), UInt32.ofNat (full.toNat - (k + 1)), full⟩], 0⟩, trace) := by
  have hleft : (UInt32.ofNat (full.toNat - k)).toNat = full.toNat - k :=
    UInt32.toNat_ofNat_of_lt' ((Nat.sub_le _ _).trans_lt full.toNat_lt)
  have hnext : UInt32.ofNat (full.toNat - k) - 1 = UInt32.ofNat (full.toNat - (k + 1)) := by
    rw [Nat.sub_add_eq]
    exact (UInt32.ofNat_sub (a := full.toNat - k) (b := 1) (by omega)).symm
  have hnode : (graphAt k).node ⟨0⟩ =
      .ok ⟨spec, UInt64.ofNat (k + 1), UInt32.ofNat (full.toNat - k), full⟩ := rfl
  have hlt : ¬ UInt32.ofNat (full.toNat - k) < 1 := by
    rw [UInt32.lt_iff_toNat_lt, hleft]
    change ¬ _ < 1
    omega
  have hne : UInt32.ofNat (full.toNat - k) ≠ 1 := by
    intro heq
    have heq := congrArg UInt32.toNat heq
    rw [hleft] at heq
    change _ = 1 at heq
    omega
  unfold TaskGraph.report
  rw [if_neg (by decide), hnode]
  simp only [hlt, hne, if_false, hnext, ne_eq, not_false_eq_true, if_true]
  rfl

theorem claim_graphAt {k : Nat} (hk : k + 1 < full.toNat) (remaining : UInt32) :
    TaskGraph.claim (⟨#[⟨spec, UInt64.ofNat (k + 1), remaining, full⟩], 0⟩ : TaskGraph Unit) ⟨0⟩ 1 =
      .ok (UInt32.ofNat (k + 1), ⟨#[⟨spec, UInt64.ofNat (k + 1 + 1), remaining, full⟩], 0⟩) := by
  have hlt : k + 1 < 2 ^ 32 := hk.trans full.toNat_lt
  have hclaimed : (UInt64.ofNat (k + 1)).toNat < Word.size32 := by
    rw [UInt64.toNat_ofNat_of_lt' (hlt.trans (by decide))]
    exact hlt
  have hbase : (UInt64.ofNat (k + 1)).toUInt32 = UInt32.ofNat (k + 1) := UInt64.toUInt32_ofNat' ..
  have hnext : UInt64.ofNat (k + 1) + (1 : UInt32).toUInt64 = UInt64.ofNat (k + 1 + 1) := by
    rw [UInt64.ofNat_add (k + 1)]
    rfl
  have hnode : TaskGraph.node (⟨#[⟨spec, UInt64.ofNat (k + 1), remaining, full⟩], 0⟩ :
      TaskGraph Unit) ⟨0⟩ = .ok ⟨spec, UInt64.ofNat (k + 1), remaining, full⟩ := rfl
  simp only [TaskGraph.claim, hnode, bind, Except.bind, hclaimed, if_true, hbase, hnext]
  rfl

/-- The offsets in front of the last one. -/
theorem leads_graphAt {k : Nat} (hk : k < full.toNat) :
    Leads config.launch Sample.dispatcher launch
      (sharing (UInt32.ofNat k) (2 + 3 * k) (graphAt k) opened) := by
  induction k with
  | zero => exact leads_start
  | succ k ih =>
      have hbase : ∀ {i : Nat}, i < full.toNat → UInt32.ofNat i < full := by
        intro i hi
        rw [UInt32.lt_iff_toNat_lt, UInt32.toNat_ofNat_of_lt' (hi.trans full.toNat_lt)]
        exact hi
      have hlt := Nat.lt_of_succ_lt hk
      exact (ih hlt).trans <| (leads_pass (hbase hlt) rfl (report_graphAt hk _ opened _)
        (claim_graphAt hk _) rfl rfl).trans <| leads_again (hbase hk) rfl

/-- The node is done, and the last claim has been answered with the base that is none. -/
def spent : LaunchState Unit :=
  reading noWork (2 + 3 * (full.toNat - 1) + 3) ⟨#[⟨spec, 0x100000000, 0, full⟩], 1⟩
    (opened.noteAll [⟨held.mark .nodeFinish, ⟨0, 0⟩⟩])

theorem leads_spent : Leads config.launch Sample.dispatcher launch spent := by
  have hlast : graphAt (full.toNat - 1) = ⟨#[⟨spec, 0xFFFFFFFF, 1, full⟩], 0⟩ := rfl
  have hclaims := leads_graphAt (k := full.toNat - 1) (by decide)
  rw [hlast] at hclaims
  exact hclaims.trans <| leads_pass (by decide) rfl rfl rfl rfl rfl

/-- The block leaves. -/
def finish : List Nat := [0, 1, 0, 1, 0, 0, 0, 0, 0, 1, 0, 0, 1]

end Saturation

/-- A run of an accepted engine, with a trace that drops no record, in which a block starts a
node and never notes that it has left it: the starts and ends of its nodes do not alternate. -/
theorem full_count_hides_wait :
    Saturation.engine.IsAccepted ∧ Saturation.engine.trace.enabled = true ∧
    ∃ s₀ schedule notes, Saturation.engine.launch? = .ok s₀ ∧
      let c := Saturation.engine.config.launch
      let s := follow c Saturation.engine.dispatcher schedule s₀
      (∀ g < c.numGroups, s.phase g = .exited) ∧
      keepsEvents c Saturation.engine.dispatcher schedule s₀ = true ∧
      s.trace.Shows (.calibration :: notes) ∧
      TraceNote.blockMarks 0 notes =
        [⟨.blockStart, ⟨0⟩, ⟨0⟩, 0xFFFFFFFF⟩, ⟨.blockExit, ⟨1⟩, ⟨0⟩, 0⟩] ∧
      ¬ ∃ held : List Pickup, TraceNote.blockMarks 0 notes =
        held.flatMap (fun p => [p.mark .blockStart, p.mark .blockWait]) ++ [.exit ⟨1⟩] := by
  obtain ⟨schedule, hfollow, hkept⟩ := Saturation.leads_spent
  have hfinish : keepsEvents Saturation.config.launch Sample.dispatcher Saturation.finish
      Saturation.spent = true := by
    decide +kernel
  have hs : follow Saturation.engine.config.launch Saturation.engine.dispatcher
      (schedule ++ Saturation.finish) Saturation.launch =
      follow Saturation.config.launch Sample.dispatcher Saturation.finish Saturation.spent := by
    rw [← hfollow]
    exact follow_append ..
  rw [← hfollow] at hfinish
  refine ⟨Saturation.isAccepted_engine, rfl, Saturation.launch, schedule ++ Saturation.finish,
    [⟨Saturation.held.mark .nodeStart, .first⟩, ⟨Saturation.held.mark .blockStart, ⟨0, 0⟩⟩,
      ⟨Saturation.held.mark .nodeFinish, ⟨0, 0⟩⟩, ⟨.exit ⟨1⟩, ⟨0, 0⟩⟩], rfl, ?_⟩
  intro c s
  have hs : s = _ := hs
  rw [hs]
  have hblock : TraceNote.blockMarks 0
      [⟨Saturation.held.mark .nodeStart, .first⟩, ⟨Saturation.held.mark .blockStart, ⟨0, 0⟩⟩,
        ⟨Saturation.held.mark .nodeFinish, ⟨0, 0⟩⟩, ⟨.exit ⟨1⟩, ⟨0, 0⟩⟩] =
      [⟨.blockStart, ⟨0⟩, ⟨0⟩, 0xFFFFFFFF⟩, ⟨.blockExit, ⟨1⟩, ⟨0⟩, 0⟩] := by
    decide +kernel
  refine ⟨by decide +kernel, keepsEvents_append hkept hfinish, ?_, hblock, ?_⟩
  · unfold DeviceTrace.Shows
    decide +kernel
  · rw [hblock]
    rintro ⟨picked, hmarks⟩
    cases picked with
    | nil => exact absurd (congrArg List.length hmarks) (by decide)
    | cons p later =>
        -- The second record would be a wait.
        rw [List.flatMap_cons] at hmarks
        have hsecond := congrArg (·[1]?.map Mark.event) hmarks
        simp [Pickup.mark] at hsecond

end Engine
end Lockstep
