import Lockstep.Proofs.TaskGraph.Order

/-!
# Counts that end a run

A graph whose dynamic nodes all have accessors faults only over a number that one of them
gives.  This holds of the start of a run, and of any report of no more than remains.
-/

namespace Lockstep
namespace TaskGraph

variable {η : Type} {g g' : TaskGraph η} {shared : Shared η} {fault : Fault}

/-- Whether all dynamic nodes have an accessor for their count. -/
def Counted (g : TaskGraph η) : Prop :=
  ∀ spec ∈ g.specs, spec.isDynamic = true → spec.data.hasCount = true

/-- The fault that follows when the accessor of a dynamic node gives a number that is no
32-bit count. -/
def BadCount (g : TaskGraph η) (shared : Shared η) (fault : Fault) : Prop :=
  ∃ j node n, j < g.numNodes ∧ g.nodes[j]? = some node ∧ node.spec.isDynamic = true ∧
    node.spec.data.dynamicCount shared = some n ∧ (n < 0 ∨ 2 ^ 32 ≤ n) ∧
    fault = .invalidCount (UInt32.ofNat j) n

theorem SameSpecs.counted (h : SameSpecs g g') (hcounted : g.Counted) : g'.Counted := by
  rwa [Counted, h.specs]

theorem SameSpecs.badCount (h : SameSpecs g g') (hbad : g'.BadCount shared fault) :
    g.BadCount shared fault := by
  obtain ⟨j, node, n, hj, hnode, hdynamic, hcount, hrange, rfl⟩ := hbad
  obtain ⟨old, hold, hspec⟩ := h.exists_old hnode
  rw [h.numNodes] at hj
  rw [← hspec] at hdynamic hcount
  exact ⟨j, old, n, hj, hold, hdynamic, hcount, hrange, rfl⟩

theorem resolve_error {spec : NodeSpec η} {id : NodeId} (h : spec.resolve id shared = .error fault)
    (hcounted : spec.isDynamic = true → spec.data.hasCount = true) :
    spec.isDynamic = true ∧ ∃ n, spec.data.dynamicCount shared = some n ∧
      (n < 0 ∨ 2 ^ 32 ≤ n) ∧ fault = .invalidCount id.raw n := by
  unfold NodeSpec.resolve at h
  by_cases hdynamic : spec.isDynamic = true
  · rw [if_pos hdynamic] at h
    refine ⟨hdynamic, ?_⟩
    cases hcount : spec.data.dynamicCount shared with
    | none =>
        have hhas := hcounted hdynamic
        simp only [NodeData.dynamicCount, Option.map_eq_none_iff] at hcount
        simp [NodeData.hasCount, hcount] at hhas
    | some n =>
        simp only [hcount] at h
        split at h
        · contradiction
        · rename_i hrange
          refine ⟨n, rfl, ?_, (Except.error.inj h).symm⟩
          have hsize : ((Word.size32 : Nat) : Int) = 2 ^ 32 := rfl
          omega
  · rw [if_neg hdynamic] at h
    contradiction

theorem scan_error {stop index : Nat} {nodes tail : List (Node η)}
    (h : scan shared stop index nodes = (.error fault, tail))
    (hcounted : ∀ node ∈ nodes, node.spec.isDynamic = true → node.spec.data.hasCount = true) :
    ∃ k node n, index + k < stop ∧ nodes[k]? = some node ∧ node.spec.isDynamic = true ∧
      node.spec.data.dynamicCount shared = some n ∧ (n < 0 ∨ 2 ^ 32 ≤ n) ∧
      fault = .invalidCount (UInt32.ofNat (index + k)) n := by
  induction nodes generalizing index tail with
  | nil => simp [scan] at h
  | cons node rest ih =>
      rw [scan] at h
      split at h
      · simp at h
      rename_i hstop
      cases hresolve : node.spec.resolve ⟨UInt32.ofNat index⟩ shared with
      | error fault' =>
          simp only [hresolve, Prod.mk.injEq, Except.error.injEq] at h
          obtain ⟨rfl, -⟩ := h
          obtain ⟨hdynamic, n, hcount, hrange, rfl⟩ :=
            resolve_error hresolve (hcounted node (List.mem_cons_self ..))
          exact ⟨0, node, n, Nat.lt_of_not_le hstop, rfl, hdynamic, hcount, hrange, rfl⟩
      | ok count =>
          simp only [hresolve] at h
          split at h
          · rcases hrest : scan shared stop (index + 1) rest with ⟨found, later⟩
            simp only [hrest, Prod.mk.injEq] at h
            obtain ⟨rfl, -⟩ := h
            obtain ⟨k, other, n, hk, hother, hbad⟩ :=
              ih hrest fun other hother => hcounted other (List.mem_cons_of_mem _ hother)
            rw [Nat.add_right_comm, Nat.add_assoc] at hk hbad
            exact ⟨k + 1, other, n, hk, hother, hbad⟩
          · simp at h

theorem advanceFrom_error {trace trace' : DeviceTrace} {origin : TraceOrigin} {start : Nat}
    (hcounted : g.Counted)
    (h : g.advanceFrom shared trace origin start = (.error fault, g', trace')) :
    g.BadCount shared fault := by
  rcases hscan : scan shared g.numNodes start (g.nodes.toList.drop start) with ⟨_ | _ | _, tail⟩
  · simp only [advanceFrom, hscan, Prod.mk.injEq, Except.error.injEq] at h
    obtain ⟨rfl, -⟩ := h
    obtain ⟨k, node, n, hk, hnode, hbad⟩ := scan_error hscan fun node hmem =>
      hcounted node.spec (List.mem_map_of_mem (List.mem_of_mem_drop hmem))
    rw [getElem?_drop_nodes] at hnode
    exact ⟨start + k, node, n, hk, hnode, hbad⟩
  · simp [advanceFrom, hscan] at h
  · simp [advanceFrom, hscan] at h

theorem init_error {trace trace' : DeviceTrace} (hcounted : g.Counted)
    (h : g.init shared trace = (.error fault, g', trace')) : g.BadCount shared fault := by
  have hspecs := sameSpecs_rewound g
  rw [init_eq] at h
  exact hspecs.badCount (advanceFrom_error (hspecs.counted hcounted) h)

/-- A report of no more than remains faults only over a count. -/
theorem report_error {trace trace' : DeviceTrace} {id : NodeId} {finished : UInt32}
    {origin : TraceOrigin} (hcounted : g.Counted) (hid : id.index < g.nodes.size)
    (hle : finished.toNat ≤ g.remaining id.index)
    (h : g.report shared trace id finished origin = (.error fault, g', trace')) :
    g.BadCount shared fault := by
  rcases Nat.eq_zero_or_pos finished.toNat with hzero | hpos
  · obtain rfl : finished = 0 := UInt32.toNat_inj.1 hzero
    rw [(g.report_zero shared trace id origin).1] at h
    exact absurd (Prod.mk.inj h).1 (by simp)
  obtain ⟨low, hlow, hsome, hall⟩ := g.report_of_le shared trace id origin hid hpos hle
  rcases Nat.lt_or_eq_of_le hle with hlt | heq
  · rw [(hsome hlt).1] at h
    exact absurd (Prod.mk.inj h).1 (by simp)
  · obtain ⟨⟨node, -, hreport⟩, -⟩ := hall heq
    generalize trace.record .nodeFinish node.spec.func node.total id origin = trace'' at hreport
    rw [hreport] at h
    rcases hadvance : low.advanceFrom shared trace'' origin (id.index + 1) with ⟨_ | _, next, last⟩
    · simp only [hadvance, Except.map, Prod.mk.injEq, Except.error.injEq] at h
      obtain ⟨rfl, -⟩ := h
      exact hlow.specs.badCount (advanceFrom_error (hlow.specs.counted hcounted) hadvance)
    · simp [hadvance, Except.map] at h

end TaskGraph
end Lockstep
