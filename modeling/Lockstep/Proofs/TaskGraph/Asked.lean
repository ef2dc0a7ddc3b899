import Lockstep.Proofs.TaskGraph.Order

/-!
# Counts asked for

A graph asks for the counts of its dynamic nodes in order and for each of them once.  It
stops at the node that becomes current, and when it goes on all nodes up to that one are
done.
-/

namespace Lockstep
namespace TaskGraph

variable {η : Type} {g g' : TaskGraph η} {log : List Nat}

/-- The counts that have been asked for are those of the dynamic nodes in front of an index,
which is next to the cursor as long as the graph can go on. -/
def Asked (g : TaskGraph η) (log : List Nat) : Prop :=
  ∃ m ≤ g.numNodes, log = (List.range m).filter g.isCounted ∧
    (0 < g.remaining g.cursor.toNat ∨ g.numNodes ≤ g.cursor.toNat →
      m = min (g.cursor.toNat + 1) g.numNodes)

theorem Reported.lt_of_mem {i n j : Nat} {ok : Bool} {asks : List Nat}
    (h : Reported g i n ok g' asks) (hg : Ordered g) (hi : i ≤ g.cursor.toNat)
    (hle : n ≤ g.remaining i) (hj : j ∈ asks) : g.cursor.toNat < j := by
  rcases h.asked hg hi hle with ⟨rfl, -⟩ | ⟨rfl, -, -, m, -, -, rfl, -⟩
  · contradiction
  · exact (List.mem_range'_1.1 (List.mem_filter.1 hj).1).1

namespace Asked

theorem nodup (h : Asked g log) : log.Nodup := by
  obtain ⟨m, -, rfl, -⟩ := h
  exact List.nodup_range.filter _

/-- When all nodes are done, all counts have been asked for. -/
theorem eq_all (h : Asked g log) (hdone : g.numNodes ≤ g.cursor.toNat) :
    log = (List.range g.numNodes).filter g.isCounted := by
  obtain ⟨m, -, rfl, hm⟩ := h
  rw [hm (.inr hdone), Nat.min_eq_right (hdone.trans (Nat.le_succ _))]

theorem remaining_eq_zero (h : Asked g log) (hg : Ordered g) {j k : Nat} (hj : j ∈ log)
    (hk : k < j) : g.remaining k = 0 := by
  obtain ⟨m, hN, rfl, hm⟩ := h
  have hj := List.mem_range.1 (List.mem_filter.1 hj).1
  rcases Nat.lt_trichotomy k g.cursor.toNat with hlt | heq | hgt
  · exact hg.behind k hlt
  · -- At the cursor the graph would have stopped.
    by_contra hne
    rw [heq] at hne
    have hstop := hm (.inl (Nat.pos_of_ne_zero hne))
    omega
  · exact (hg.front k (.inl hgt)).2.1

theorem of_begun {shared : Shared η} {trace trace' : DeviceTrace}
    (h : g.init shared trace = (.ok (), g', trace')) : Asked g' (g.rewound.askedFrom shared 0) := by
  have hspecs := sameSpecs_init h
  have hcounted : g'.isCounted = g.isCounted := funext hspecs.isCounted
  rcases init_cases g shared trace with ⟨next, trace'', heq, -, hasked⟩ | ⟨fault, _, _, heq, -⟩
  · rw [h] at heq
    obtain ⟨rfl, -⟩ := Prod.mk.inj (Prod.mk.inj heq).2
    refine ⟨min (g'.cursor.toNat + 1) g.numNodes, ?_, ?_, fun _ => ?_⟩
    · exact hspecs.numNodes ▸ Nat.min_le_right _ _
    · rw [hasked, hcounted]
    · rw [hspecs.numNodes]
  · rw [h] at heq
    exact absurd heq (by simp)

theorem claim {id : NodeId} {batch base : UInt32} (h : Asked g log)
    (hclaim : Claim g id batch base g') : Asked g' log := by
  have hcounted : g'.isCounted = g.isCounted := funext hclaim.specs.isCounted
  unfold Asked
  rw [hclaim.specs.numNodes, hclaim.cursor, hclaim.remaining, hcounted]
  exact h

theorem report {i n : Nat} {ok : Bool} {asks : List Nat} (h : Asked g log) (hg : Ordered g)
    (hi : i ≤ g.cursor.toNat) (hle : n ≤ g.remaining i) (hreport : Reported g i n ok g' asks) :
    Asked g' (log ++ asks) := by
  have hnodes := hreport.specs.numNodes
  have hcounted : g'.isCounted = g.isCounted := funext hreport.specs.isCounted
  obtain ⟨m, hN, rfl, hm⟩ := h
  rcases hreport.asked hg hi hle with ⟨rfl, hcursor⟩ | ⟨rfl, hpos, -, m', hN', hm', rfl, hopen⟩
  · have hremaining := (hreport.upto hg hi hle (Nat.le_refl _)).2.2
    refine ⟨m, hnodes ▸ hN, by rw [List.append_nil, hcounted], ?_⟩
    rw [hcursor, hnodes, hremaining]
    intro hopen
    refine hm (hopen.imp_left fun hpos => ?_)
    split at hpos
    · rename_i heq
      rw [heq]
      omega
    · exact hpos
  · -- The search goes on where the last one stopped.
    have hstop : m = g.cursor.toNat + 1 := by
      rw [hm (.inl hpos)]
      omega
    refine ⟨m', hnodes ▸ hN', ?_, ?_⟩
    · have happend := @List.range'_append_1 0 (g.cursor.toNat + 1) (m' - (g.cursor.toNat + 1))
      rw [Nat.zero_add, Nat.add_sub_of_le hm'] at happend
      rw [hcounted, ← List.filter_append, hstop, List.range_eq_range', List.range_eq_range',
        happend]
    · rw [hnodes]
      exact hopen

end Asked
end TaskGraph
end Lockstep
