import Lockstep.Proofs.Engine.Accepted
import Lockstep.Proofs.Launch.Faults

/-!
# Only counts fault

The checks of an accepted engine and the accounts of its runs together leave one fault
that the groups can run into on their own: a dynamic count that is no 32-bit count.
-/

namespace Lockstep
namespace Engine

open LaunchState

variable {η : Type} {e : Engine η} {s₀ : LaunchState η}

theorem IsAccepted.counted (he : e.IsAccepted) : e.graph.Counted := by
  obtain ⟨-, -, hchecked⟩ := he.checks
  exact fun spec hspec => (hchecked spec hspec).counted

theorem IsAccepted.registered_of_specs (he : e.IsAccepted) {graph : TaskGraph η}
    (hspecs : e.graph.SameSpecs graph) {id : NodeId} {node : Node η}
    (hnode : graph.node id = .ok node) :
    ∃ invocation, e.dispatcher.get? node.spec.func = some invocation := by
  obtain ⟨old, hold, hspec⟩ := hspecs.exists_old (TaskGraph.getElem?_of_node hnode)
  rw [← hspec]
  exact he.registered (TaskGraph.node_eq_ok hold)

/-- Along every schedule of a run whose invocations return: threads that have run are divided
without remainder by the threads per invocation of their node; a report is of no more than
remains, and of the node at the cursor unless it is of nothing; the dispatcher has the
function of all work in hand, and every dynamic node has an accessor.  A group that has
faulted has done so in a step in which the accessor of a dynamic node gave a number that is
no 32-bit count. -/
theorem only_counts_fault (he : e.IsAccepted) (hs₀ : e.launch? = .ok s₀)
    (hreturns : ∀ invocation ∈ e.dispatcher.funcs, ∀ context data offset device,
      (invocation context data offset device).1 = .ok ()) (schedule : List Nat) :
    let c := e.config.launch
    let s := follow c e.dispatcher schedule s₀
    (∀ g p threads, s.divided? c g = some (p, threads) →
      ∃ node, e.graph.node p.node = .ok node ∧
        p.threadsPerInvocation = node.spec.threadsPerInvocation ∧
        node.spec.threadsPerInvocation.toNat ∣ threads.toNat) ∧
    (∀ g id finished, s.phase g = .report id finished →
      finished.toNat ≤ s.graph.remaining id.index ∧
        (0 < finished.toNat → id.index = s.graph.cursor.toNat)) ∧
    (∀ g pending executed, s.phase g = .execute pending executed →
      ∀ w ∈ pending.map Prod.snd, ∃ invocation, e.dispatcher.get? w.func = some invocation) ∧
    (∀ spec ∈ s.graph.specs, spec.isDynamic = true → ∃ count, spec.data.count = some count) ∧
    ∀ g fault, (s.phase g).raised? = some fault →
      ∃ before after, schedule = before ++ g :: after ∧
        e.graph.BadCount (follow c e.dispatcher before s₀).device.shared fault := by
  intro c s
  obtain ⟨stage, h⟩ := he.reached hs₀ schedule
  have hlive : ∀ {g q}, s.phase g = q → q.isApart = true → q ≠ .init →
      Live c s stage (ledger c e.dispatcher schedule s₀ .empty) := by
    rintro g q rfl hapart hbegun
    exact h.onCourse.live h.coherent hapart hbegun
  refine ⟨fun g p threads hdivided => ?_, fun g id finished hphase => ?_,
    fun g pending executed hphase w hw => ?_, fun spec hspec hdynamic => ?_,
    fun g fault hraised => ?_⟩
  · obtain ⟨hapart, hbegun⟩ := isApart_of_divided? hdivided
    obtain ⟨hi, hcached, hdvd⟩ := (hlive rfl hapart hbegun).divided h.valid h.coherent hdivided
    rw [h.specs.numNodes] at hi
    obtain ⟨node, hnode⟩ := TaskGraph.exists_node (hi.trans_le e.graph.numNodes_le)
    have hthreads : p.threadsPerInvocation = node.spec.threadsPerInvocation := by
      rw [hcached, h.specs.threadsPerInvocation, TaskGraph.pickup, hnode]
    exact ⟨node, TaskGraph.node_eq_ok hnode, hthreads, hthreads ▸ hdvd⟩
  · have hlive := hlive hphase rfl (by simp)
    obtain ⟨-, hle⟩ := hlive.report_le h.valid h.coherent hphase
    exact ⟨hle, fun hpos => (hlive.balanced.ordered.settled.active _ (hpos.trans_le hle)).1⟩
  · obtain ⟨node, hnode, hfunc⟩ :=
      (hlive hphase rfl (by simp)).node_of_pending h.valid h.coherent hphase hw
    rw [← hfunc]
    exact he.registered_of_specs h.specs hnode
  · rw [h.specs.specs] at hspec
    exact Option.isSome_iff_exists.1 (he.counted spec hspec hdynamic)
  · have hcalm : ¬ (s₀.phase g).raised? = some fault := by
      obtain ⟨-, device, rfl⟩ := launch?_eq hs₀
      rw [raised?_initial]
      simp
    have hstep : ∀ before g',
        ((step c e.dispatcher g' (follow c e.dispatcher before s₀)).phase g).raised? = some fault →
        ((follow c e.dispatcher before s₀).phase g).raised? = some fault ∨
          g = g' ∧ Raises c e.dispatcher (follow c e.dispatcher before s₀) g' fault := by
      intro before g' hraised
      obtain ⟨_, h⟩ := he.reached hs₀ before
      exact h.onCourse.raises h.valid h.coherent (h.specs.counted he.counted)
        (fun _ _ => he.registered_of_specs h.specs) hraised
    obtain ⟨before, _, after, rfl, rfl, hraises⟩ := exists_step
      (P := fun s => (s.phase g).raised? = some fault)
      (R := fun s g' => g = g' ∧ Raises c e.dispatcher s g' fault) hcalm hstep schedule hraised
    obtain ⟨_, hbefore⟩ := he.reached hs₀ before
    refine ⟨before, after, rfl, ?_⟩
    cases hraises with
    | invocation hphase hget hfault =>
        rw [hreturns _ (Array.mem_of_getElem? hget)] at hfault
        contradiction
    | count _ hbad => exact hbefore.specs.badCount hbad

namespace Sample

/-- The accessor of the second node gives a number that is no count. -/
def wrongGraph : TaskGraph Unit :=
  .ofSpecs [.fixed ⟨0⟩ 2, .dynamic ⟨0⟩ (.withCount .empty fun _ => -1)]

def wrongEngine : Engine Unit :=
  ((Engine.new config shared wrongGraph dispatcher).toOption.bind Except.toOption).get rfl

def wrongLaunch : LaunchState Unit := wrongEngine.launch?.toOption.get rfl

theorem isAccepted_wrongEngine : wrongEngine.IsAccepted :=
  ⟨shared, wrongGraph, wrongEngine, rfl, .refl _⟩

theorem launch?_wrongEngine : wrongEngine.launch? = .ok wrongLaunch := rfl

end Sample

theorem only_counts_fault_sample :
    let c := Sample.wrongEngine.config.launch
    let d := Sample.wrongEngine.dispatcher
    ((follow c d Sample.schedule Sample.wrongLaunch).phase 1).raised? =
        some (.invalidCount 1 (-1)) ∧
      ∃ before after, Sample.schedule = before ++ 1 :: after ∧
        Sample.wrongEngine.graph.BadCount
          (follow c d before Sample.wrongLaunch).device.shared (.invalidCount 1 (-1)) := by
  intro c d
  have hreturns : ∀ invocation ∈ Sample.wrongEngine.dispatcher.funcs,
      ∀ context data offset device, (invocation context data offset device).1 = .ok () := by
    intro invocation hmem context data offset device
    obtain rfl := Array.mem_singleton.1 hmem
    rfl
  obtain ⟨-, -, -, -, hfaults⟩ := only_counts_fault Sample.isAccepted_wrongEngine
    Sample.launch?_wrongEngine hreturns Sample.schedule
  have hraised : ((follow c d Sample.schedule Sample.wrongLaunch).phase 1).raised? =
      some (.invalidCount 1 (-1)) := by
    decide +kernel
  exact ⟨hraised, hfaults 1 _ hraised⟩

end Engine
end Lockstep
