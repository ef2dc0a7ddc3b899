import Lockstep.Proofs.Storage.RowCounts
import Lockstep.Proofs.TaskGraph.Progress

/-!
# Dynamic counts

A search for work asks a dynamic node for its count and stores it as the total of the node, or
ends in a fault.  Main statement: where the count is a number of rows, the total is that number
exactly, and a number that no total can hold is fatal.
-/

namespace Lockstep
namespace TaskGraph

variable {η : Type} {g : TaskGraph η} {shared : Shared η} {node : Node η} {start i : Nat}

/-- What becomes of a node that is asked: its total is its count, or the search ends at it. -/
inductive Told (shared : Shared η) (i : Nat) (node : Node η) (node' : Node η) {α : Type} :
    Except Fault α → Prop
  | total {result : Except Fault α} (hspec : node'.spec = node.spec)
      (hresolve : node.spec.resolve ⟨UInt32.ofNat i⟩ shared = .ok node'.total) :
      Told shared i node node' result
  | fatal {fault : Fault} (hsame : node' = node)
      (hresolve : node.spec.resolve ⟨UInt32.ofNat i⟩ shared = .error fault) :
      Told shared i node node' (.error fault)

theorem scan_asked {stop index : Nat} {nodes : List (Node η)}
    (h : i ∈ asked shared stop index nodes) :
    ∃ k node node', i = index + k ∧ nodes[k]? = some node ∧ node.spec.isDynamic = true ∧
      (scan shared stop index nodes).2[k]? = some node' ∧
      Told shared i node node' (scan shared stop index nodes).1 := by
  induction nodes generalizing index with
  | nil => contradiction
  | cons node rest ih =>
      unfold asked at h
      unfold scan
      by_cases hstop : stop ≤ index
      · rw [if_pos hstop] at h
        contradiction
      · rw [if_neg hstop] at h ⊢
        rcases List.mem_append.1 h with hhere | hlater
        · -- The search asks this node itself.
          have hboth : (node.spec.isDynamic && node.spec.data.hasCount) = true := by
            by_contra hnot
            rw [if_neg hnot] at hhere
            contradiction
          rw [if_pos hboth] at hhere
          obtain rfl := List.mem_singleton.1 hhere
          obtain ⟨hdynamic, -⟩ := Bool.and_eq_true_iff.1 hboth
          cases hresolve : node.spec.resolve ⟨UInt32.ofNat i⟩ shared with
          | error fault => exact ⟨0, node, node, rfl, rfl, hdynamic, rfl, .fatal rfl hresolve⟩
          | ok count =>
              by_cases hzero : count = 0
              · subst hzero
                exact ⟨0, node, node.skipped, rfl, rfl, hdynamic, rfl, .total rfl hresolve⟩
              · simp only [if_neg hzero]
                exact ⟨0, node, node.started count, rfl, rfl, hdynamic, rfl, .total rfl hresolve⟩
        · -- The search passes this node over.
          cases hresolve : node.spec.resolve ⟨UInt32.ofNat index⟩ shared with
          | error fault =>
              rw [hresolve] at hlater
              contradiction
          | ok count =>
              rw [hresolve] at hlater
              by_cases hzero : count = 0
              · simp only [if_pos hzero] at hlater ⊢
                obtain ⟨k, asked, asked', hi, hasked, hdynamic, hasked', htold⟩ := ih hlater
                exact ⟨k + 1, asked, asked', by omega, hasked, hdynamic, hasked', htold⟩
              · simp only [if_neg hzero] at hlater
                contradiction

theorem advanceFrom_asked (trace : DeviceTrace) (origin : TraceOrigin)
    (hnode : g.nodes[i]? = some node) (h : i ∈ g.askedFrom shared start) :
    node.spec.isDynamic = true ∧ ∃ node',
      (g.advanceFrom shared trace origin start).2.1.nodes[i]? = some node' ∧
      Told shared i node node' (g.advanceFrom shared trace origin start).1 := by
  rw [askedFrom_eq] at h
  obtain ⟨k, old, node', rfl, hold, hdynamic, hnode', htold⟩ := scan_asked h
  rw [getElem?_drop_nodes, hnode] at hold
  obtain rfl := Option.some.inj hold
  obtain ⟨hlt, -⟩ := Array.getElem?_eq_some_iff.1 hnode
  have hget := fun tail => getElem?_take_append g (by omega : start ≤ g.nodes.size) tail k
  refine ⟨hdynamic, node', ?_⟩
  unfold advanceFrom
  generalize scan shared g.numNodes start (g.nodes.toList.drop start) = outcome at hnode' htold ⊢
  obtain ⟨found, tail⟩ := outcome
  cases htold with
  | total hspec hresolve =>
      rcases found with fault | _ | s <;> exact ⟨(hget tail).trans hnode', .total hspec hresolve⟩
  | fatal hsame hresolve => exact ⟨(hget tail).trans hnode', .fatal hsame hresolve⟩

/-- The number that an accessor gives becomes the total, or it is fatal. -/
theorem advanceFrom_count (trace : DeviceTrace) (origin : TraceOrigin)
    (hnode : g.nodes[i]? = some node) (h : i ∈ g.askedFrom shared start) {n : Int}
    (hcount : node.spec.data.dynamicCount shared = some n) :
    let (result, g', _) := g.advanceFrom shared trace origin start
    (∀ count : Nat, n = count → count < 2 ^ 32 → g'.total i = count) ∧
      (n < 0 ∨ 2 ^ 32 ≤ n →
        result = .error (.invalidCount (UInt32.ofNat i) n) ∧ g'.total i = g.total i) := by
  obtain ⟨hdynamic, node', hnode', htold⟩ := advanceFrom_asked trace origin hnode h
  have hresolve : node.spec.resolve ⟨UInt32.ofNat i⟩ shared =
      if 0 ≤ n ∧ n < Word.size32 then .ok (UInt32.ofNat n.toNat)
      else .error (.invalidCount (UInt32.ofNat i) n) := by
    simp only [NodeSpec.resolve, if_pos hdynamic, hcount]
  have hsize : ((Word.size32 : Nat) : Int) = 2 ^ 32 := rfl
  generalize g.advanceFrom shared trace origin start = outcome at hnode' htold ⊢
  obtain ⟨result, g', trace'⟩ := outcome
  have htotal := total_of_getElem? hnode'
  have htotal₀ := total_of_getElem? hnode
  refine ⟨fun count heq hlt => ?_, fun hbad => ?_⟩
  · have hrange : 0 ≤ n ∧ n < Word.size32 := by omega
    rw [if_pos hrange, heq, Int.toNat_natCast] at hresolve
    cases htold with
    | total _ htold =>
        have hcount := Except.ok.inj (hresolve.symm.trans htold)
        rw [htotal, ← hcount, UInt32.toNat_ofNat_of_lt' hlt]
    | fatal _ htold => exact absurd (hresolve.symm.trans htold) (by simp)
  · have hrange : ¬ (0 ≤ n ∧ n < Word.size32) := by omega
    rw [if_neg hrange] at hresolve
    cases htold with
    | total _ htold => exact absurd (hresolve.symm.trans htold) (by simp)
    | fatal hsame htold =>
        obtain rfl := Except.error.inj (hresolve.symm.trans htold)
        exact ⟨rfl, by rw [htotal, hsame, htotal₀]⟩

/-- For every storage that can be reached together with a query reference of its own, and every
search for work that asks a node for its count.  If the node counts the rows of an archetype,
its total becomes their number, and the search faults when there is no such archetype.  If it
counts the rows of a query, its total becomes the sum of the rows of the archetypes that the
query matches, each taken once; the search faults when the query is not resolved, and also when
the sum is more than 32 bits hold.  The sum itself always fits in 64 bits.  A search that faults
here leaves the total as it was. -/
theorem dynamic_counts_exact {config : StateConfig} {s : Storage} {ref : QueryRef}
    (hreachable : s.ReachableWith config ref) (hstorage : shared.storage = s)
    (hnode : g.nodes[i]? = some node) (hasked : i ∈ g.askedFrom shared start)
    (trace : DeviceTrace) (origin : TraceOrigin) :
    let (result, g', _) := g.advanceFrom shared trace origin start
    let Fatal := fun n : Int =>
      result = .error (.invalidCount (UInt32.ofNat i) n) ∧ g'.total i = g.total i
    (∀ data a, node.spec.data = .withArchetypeRows data a →
      (∀ archetype, s.archetype a = .ok archetype → g'.total i = archetype.numRows) ∧
      (∀ e, s.archetype a = .error e → Fatal (-1))) ∧
    (∀ refOf, node.spec.data = .queryRows refOf → refOf shared.host = ref →
      (ref.isResolved = false → Fatal (-1)) ∧
      (ref.isResolved = true →
        ∃ (found : List QueryMatch) (first : Storage) (components : List ComponentId),
          s.queryMatches ref = .ok found ∧ Exact components first.archetypes.toList found ∧
          first.Extends s ∧
          let matched := (found.map QueryMatch.archetype).toFinset
          let sum := ∑ j ∈ matched, s.rowsAt j
          (∀ j ∈ matched, j < s.archetypes.size) ∧ s.queryRowCount ref = .ok sum ∧
          sum < 2 ^ 64 ∧ (sum < 2 ^ 32 → g'.total i = sum) ∧
          (2 ^ 32 ≤ sum → Fatal (if sum < 2 ^ 63 then sum else -1)))) := by
  subst hstorage
  have hlimited := hreachable.limited
  have hcounts := fun n => @advanceFrom_count η g shared node start i trace origin hnode hasked n
  generalize g.advanceFrom shared trace origin start = outcome at hcounts ⊢
  obtain ⟨result, g', trace'⟩ := outcome
  refine ⟨fun data a hdata => ⟨fun archetype ha => ?_, fun e he => ?_⟩,
    fun refOf hdata href => ⟨fun hunresolved => ?_, fun hresolved => ?_⟩⟩
  · have hcount : node.spec.data.dynamicCount shared = some (archetype.numRows : Int) := by
      simp [hdata, NodeData.withArchetypeRows, NodeData.withCount, NodeData.dynamicCount,
        Storage.numRows, ha, bind, Except.bind, pure, Except.pure]
    have hrows := hlimited.rowsAt_lt a.index
    rw [Storage.rowsAt, Storage.archetype_eq_ok.1 ha] at hrows
    exact (hcounts _ hcount).1 _ rfl hrows
  · have hcount : node.spec.data.dynamicCount shared = some (-1) := by
      simp [hdata, NodeData.withArchetypeRows, NodeData.withCount, NodeData.dynamicCount,
        Storage.numRows, he, bind, Except.bind]
    exact (hcounts _ hcount).2 (.inl (by decide))
  · have hcount : node.spec.data.dynamicCount shared = some (-1) := by
      simp [hdata, NodeData.queryRows, NodeData.withCount, NodeData.dynamicCount, href,
        Storage.queryRowCount_unresolved hunresolved]
    exact (hcounts _ hcount).2 (.inl (by decide))
  · obtain ⟨found, first, components, hfound, hexact, hextends⟩ := hreachable.matches hresolved
    have hrows := Storage.queryRowCount_eq hfound hexact.nodup
    have hinside := hexact.lt_size hextends
    have hsum := hlimited.sum_rowsAt_lt hinside
    refine ⟨found, first, components, hfound, hexact, hextends, ?_⟩
    intro matched sum
    have hcount : node.spec.data.dynamicCount shared =
        some (if sum < 2 ^ 63 then (sum : Int) else -1) := by
      simp only [hdata, NodeData.queryRows, NodeData.withCount, NodeData.dynamicCount, href, hrows,
        Option.map_some]
      rfl
    refine ⟨hinside, hrows, hsum, fun hlt => ?_, fun hle => ?_⟩
    · exact (hcounts _ hcount).1 sum (if_pos (by omega)) hlt
    · refine (hcounts _ hcount).2 ?_
      split
      · exact .inr (by exact_mod_cast hle)
      · exact .inl (by decide)

namespace RowSums

def config : StateConfig where
  numWorlds := 1
  maxRowsPerTable := 4
  maxComponents := 2
  maxArchetypes := 3
  maxArchetypeComponents := 0
  maxQueryData := 4
  maxEntities := 1

def storage : Storage := ⟨config, .builtins 2, #[], #[], .empty 4, .empty 1⟩

theorem storage_eq : Storage.new config = .ok storage := rfl

/-- Three archetypes, the second of which stays empty. -/
def laidOut : Storage :=
  storage.after [.registerArchetype [], .registerArchetype [], .registerArchetype [],
    .allocRows ⟨0⟩ 3, .allocRows ⟨2⟩ 1]

def request : Except StorageError Unit × QueryRef × Storage := laidOut.makeQuery [] .unresolved

/-- Rows that come after the request are counted as well. -/
def grown : Storage := (request.2.2.perform (.allocRows ⟨2⟩ 2)).2

theorem reachable : grown.ReachableWith config request.2.1 :=
  .call (.request (.call (.call (.call (.call (.call (.new storage_eq) _) _) _) _) _) _) _

/-- The first node has nothing to do. -/
def graph : TaskGraph QueryRef :=
  .ofSpecs [.dynamic ⟨0⟩ (.withArchetypeRows .empty ⟨1⟩), .dynamic ⟨1⟩ (.queryRows id)]

def counted : Shared QueryRef := ⟨grown, request.2.1⟩

end RowSums

theorem dynamic_counts_exact_sample :
    RowSums.grown.ReachableWith RowSums.config RowSums.request.2.1 ∧
      1 ∈ RowSums.graph.askedFrom RowSums.counted 0 ∧
      (RowSums.graph.advanceFrom RowSums.counted .disabled .first 0).2.1.total 1 = 6 := by
  have hnode : RowSums.graph.nodes[1]? = some (Node.idle (.dynamic ⟨1⟩ (.queryRows id))) := rfl
  have hasked : 1 ∈ RowSums.graph.askedFrom RowSums.counted 0 := by decide +kernel
  obtain ⟨-, hquery⟩ := dynamic_counts_exact RowSums.reachable rfl hnode hasked .disabled .first
  obtain ⟨found, first, components, -, -, -, -, hsum, -, htotal, -⟩ :=
    (hquery id rfl rfl).2 (by decide +kernel)
  have hrows : (RowSums.grown.queryRowCount RowSums.request.2.1).toOption = some 6 := by
    decide +kernel
  rw [hsum] at hrows
  have hsix := Option.some.inj hrows
  rw [hsix] at htotal
  exact ⟨RowSums.reachable, hasked, htotal (by decide)⟩

end TaskGraph
end Lockstep
