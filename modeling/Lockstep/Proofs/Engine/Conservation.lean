import Lockstep.Proofs.Engine.Accepted
import Lockstep.Proofs.Launch.Outstanding

/-!
# No work is stranded

Between two steps of a run, what remains of the current node is accounted for: it has
not been claimed, or some group holds it.
-/

namespace Lockstep
namespace Engine

open LaunchState

variable {η : Type} {e : Engine η} {s₀ : LaunchState η}

/-- Once the run has started and unless a group has faulted: of the current node something
remains, as many invocations as there are offsets in front of its total that have not been
claimed or that some group holds, which are those claimed and not reported.  When a group
idles over the current node, all of its offsets have been claimed, and a group of another
block holds one. -/
theorem remaining_is_outstanding (he : e.IsAccepted) (hs₀ : e.launch? = .ok s₀)
    (schedule : List Nat) :
    let c := e.config.launch
    let s := follow c e.dispatcher schedule s₀
    let l := ledger c e.dispatcher schedule s₀ .empty
    let k := s.graph.cursor.toNat
    s.phase 0 ≠ .init → ¬ s.IsAborted → k < s.graph.numNodes →
    0 < s.graph.remaining k ∧
    s.graph.remaining k =
      (s.graph.total k - s.graph.claimed k) + (heldOffsets c l k (s.graph.total k)).length ∧
    (∀ o < s.graph.total k, (∃ g < c.numGroups, holds l g k o = true) ↔
      o < s.graph.claimed k ∧ isReported s.graph l k o = false) ∧
    ∀ g < c.numGroups, s.phase g = .idle →
      (s.block (c.blockOf g)).pickup.node.index = k →
      s.graph.total k ≤ s.graph.claimed k ∧
      ∃ g' < c.numGroups, c.blockOf g' ≠ c.blockOf g ∧
        ∃ o < s.graph.total k, holds l g' k o = true := by
  intro c s l k hbegun hcalm hk
  obtain ⟨stage, h⟩ := he.reached hs₀ schedule
  have hgone : ∀ g, (s.phase g).isGone = false := fun g =>
    eq_false_of_ne_true fun hgone => hcalm (h.contained.isAborted hgone)
  have hlive : Live c s stage l := by
    rcases h.onCourse with hquiet | hlive
    · rcases hquiet.first with hinit | hfirst
      · exact absurd hinit hbegun
      · exact absurd (hfirst.symm.trans (hgone 0)) (by decide)
    · exact hlive
  have hpos : 0 < s.graph.threads k := (hlive.tiles k).pos
  have hremaining : 0 < s.graph.remaining k := hlive.current hgone hk
  have heq := hlive.balanced.remaining_eq hk hpos
  refine ⟨hremaining, heq, fun o ho => hlive.balanced.held_iff hk hpos ho, ?_⟩
  intro g hg hidle hnode
  obtain ⟨hspent, hnone⟩ := hlive.idle h.valid h.coherent hg hidle hnode hk
  refine ⟨hspent, ?_⟩
  -- Something remains and nothing is unclaimed, so something is held, but not by this block.
  have hheld : heldOffsets c l k (s.graph.total k) ≠ [] := by
    intro hnil
    rw [heq, hnil, Nat.sub_eq_zero_of_le hspent] at hremaining
    exact Nat.lt_irrefl 0 hremaining
  obtain ⟨o, hmem⟩ := List.exists_mem_of_ne_nil _ hheld
  obtain ⟨ho, hany⟩ := List.mem_filter.1 hmem
  obtain ⟨g', hg', hholds⟩ := List.any_eq_true.1 hany
  refine ⟨g', List.mem_range.1 hg', fun hblock => ?_, o, List.mem_range.1 ho, hholds⟩
  rw [hnone g' hblock o] at hholds
  contradiction

theorem remaining_is_outstanding_sample :
    ∃ s l, s = follow Sample.engine.config.launch Sample.engine.dispatcher Sample.pause
        Sample.launch ∧
      l = ledger Sample.engine.config.launch Sample.engine.dispatcher Sample.pause Sample.launch
        .empty ∧
      s.phase 1 = .idle ∧ 0 < s.graph.remaining 0 ∧
      s.graph.remaining 0 = (s.graph.total 0 - s.graph.claimed 0) +
        (heldOffsets Sample.engine.config.launch l 0 (s.graph.total 0)).length ∧
      ∃ g' < Sample.engine.config.launch.numGroups, Sample.engine.config.launch.blockOf g' ≠
        Sample.engine.config.launch.blockOf 1 ∧ ∃ o < s.graph.total 0, holds l g' 0 o = true := by
  have h := remaining_is_outstanding Sample.isAccepted_engine Sample.launch?_engine Sample.pause
    (by decide +kernel) (not_isAborted (by decide +kernel)) (by decide +kernel)
  obtain ⟨s, hs⟩ : ∃ s, s = follow Sample.engine.config.launch Sample.engine.dispatcher Sample.pause
    Sample.launch := ⟨_, rfl⟩
  have hidle : s.phase 1 = .idle := by
    rw [hs]
    decide +kernel
  have hcursor : s.graph.cursor.toNat = 0 := by
    rw [hs]
    decide +kernel
  have hnode : (s.block 1).pickup.node.index = 0 := by
    rw [hs]
    decide +kernel
  rw [← hs, hcursor] at h
  obtain ⟨hpos, heq, -, hwaits⟩ := h
  obtain ⟨-, hholds⟩ := hwaits 1 (by decide) hidle hnode
  exact ⟨s, _, hs, rfl, hidle, hpos, heq, hholds⟩

end Engine
end Lockstep
