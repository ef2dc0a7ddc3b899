import Lockstep.Proofs.TaskGraph.Noted
import Lockstep.TaskGraph.Path

/-!
# The end of a search

The counts of the nodes decide how a search for work ends.  It passes over the nodes that
count zero.  The first other one is started if it has a count, and ends the run if it has none.
-/

namespace Lockstep

variable {η : Type}

namespace NodeSpec

variable {s : NodeSpec η} {id : NodeId} {shared : Shared η}

theorem resolve_eq (s : NodeSpec η) (id : NodeId) (shared : Shared η) :
    (∃ count, s.resolve id shared = .ok count ∧ s.countIn shared = some (count.toNat : Int)) ∨
      s.resolve id shared = .error (countFault id (s.countIn shared)) ∧
        ¬ IsCount (s.countIn shared) := by
  unfold resolve countIn
  by_cases hdynamic : s.isDynamic = true
  · simp only [if_pos hdynamic]
    cases hcount : s.data.dynamicCount shared with
    | none =>
        refine .inr ⟨rfl, ?_⟩
        rintro ⟨count, hcount⟩
        contradiction
    | some n =>
        by_cases hrange : 0 ≤ n ∧ n < Word.size32
        · have hlt : n.toNat < 2 ^ 32 := (Int.toNat_lt hrange.1).2 hrange.2
          refine .inl ⟨UInt32.ofNat n.toNat, if_pos hrange, ?_⟩
          rw [UInt32.toNat_ofNat_of_lt' hlt, Int.toNat_of_nonneg hrange.1]
        · refine .inr ⟨if_neg hrange, ?_⟩
          rintro ⟨count, hcount⟩
          apply hrange
          have hlt : count.toNat < Word.size32 := count.toNat_lt
          obtain rfl := Option.some.inj hcount
          omega
  · simp only [if_neg hdynamic]
    exact .inl ⟨s.fixedCount, rfl, rfl⟩

theorem countIn_of_resolve {count : UInt32} (h : s.resolve id shared = .ok count) :
    s.countIn shared = some (count.toNat : Int) := by
  rcases s.resolve_eq id shared with ⟨count', hresolve, hcount⟩ | ⟨hresolve, -⟩
  · obtain rfl := Except.ok.inj (h.symm.trans hresolve)
    exact hcount
  · rw [h] at hresolve
    contradiction

theorem not_isCount_of_resolve {fault : Fault} (h : s.resolve id shared = .error fault) :
    ¬ IsCount (s.countIn shared) ∧ fault = countFault id (s.countIn shared) := by
  rcases s.resolve_eq id shared with ⟨count, hresolve, -⟩ | ⟨hresolve, hnot⟩
  · rw [h] at hresolve
    contradiction
  · exact ⟨hnot, Except.error.inj (h.symm.trans hresolve)⟩

end NodeSpec

namespace TaskGraph

variable {g g' : TaskGraph η} {shared : Shared η} {trace trace' : DeviceTrace}
  {origin : TraceOrigin} {start last : Nat}

theorem countIn_of_node {i : Nat} {node : Node η} (h : g.nodes[i]? = some node) :
    g.countIn shared i = node.spec.countIn shared := by
  rw [countIn, h, Option.bind_some]

theorem SameSpecs.countIn (h : SameSpecs g g') (shared : Shared η) (i : Nat) :
    g'.countIn shared i = g.countIn shared i := by
  have hspec := h.spec i
  unfold TaskGraph.countIn
  cases h₁ : g.nodes[i]? <;> cases h₂ : g'.nodes[i]? <;> simp_all

namespace Reaches

theorem congr (hspecs : SameSpecs g g') (h : g'.Reaches shared start last) :
    g.Reaches shared start last := by
  refine ⟨h.start_le, hspecs.numNodes ▸ h.last_le, fun i hi hlt => ?_, fun hlt => ?_⟩
  · rw [← hspecs.countIn]
    exact h.empty i hi hlt
  · rw [← hspecs.countIn]
    exact h.work (hspecs.numNodes.symm ▸ hlt)

/-- The counts leave a search no choice. -/
theorem unique {last' : Nat} (h : g.Reaches shared start last) (h' : g.Reaches shared start last') :
    last = last' := by
  have hle : ∀ {a b : Nat}, g.Reaches shared start a → g.Reaches shared start b → a ≤ b := by
    intro a b ha hb
    by_contra hlt
    have hlt := Nat.lt_of_not_le hlt
    exact hb.work (hlt.trans_le ha.last_le) (ha.empty b hb.start_le hlt)
  exact Nat.le_antisymm (hle h h') (hle h' h)

end Reaches

/-- What a search that stops at `last` answers there, and what it notes. -/
inductive Outcome (g : TaskGraph η) (shared : Shared η) (origin : TraceOrigin) (last : Nat)
    (g' : TaskGraph η) : Except Fault Unit → List TraceNote → Prop where
  | starts (hlast : last < g.numNodes) (hcount : g.countIn shared last = some (g'.total last : Int))
      (hpos : 0 < g'.total last) (hcursor : g'.cursor.toNat = last)
      (hremaining : g'.remaining last = g'.total last) (hclaimed : g'.claimed last = 0) :
      Outcome g shared origin last g' (.ok ()) [⟨(g'.pickup last).mark .nodeStart, origin⟩]
  | ends (hlast : last = g.numNodes) (hcursor : g'.cursor.toNat = last) :
      Outcome g shared origin last g' (.ok ()) []
  | faults (hlast : last < g.numNodes) (hcount : ¬ IsCount (g.countIn shared last))
      (hcursor : g'.cursor = g.cursor) (htotal : g'.total last = 0)
      (hremaining : g'.remaining last = 0) :
      Outcome g shared origin last g'
        (.error (countFault ⟨UInt32.ofNat last⟩ (g.countIn shared last))) []

/-- A search for work from `start` on: it goes to the node where the counts stop it, and of the
other nodes it starts none. -/
structure Search (g : TaskGraph η) (shared : Shared η) (origin : TraceOrigin) (start last : Nat)
    (g' : TaskGraph η) (result : Except Fault Unit) (notes : List TraceNote) : Prop where
  reaches : g.Reaches shared start last
  idle : ∀ i, start ≤ i → i ≠ last → g'.total i = 0 ∧ g'.remaining i = 0
  outcome : Outcome g shared origin last g' result notes

theorem ResolvedIn.countIn {i : Nat} (h : g.ResolvedIn shared i) (hi : i < g.numNodes) :
    g.countIn shared i = some (g.total i : Int) := by
  obtain ⟨node, hnode⟩ := exists_node (hi.trans_le g.numNodes_le)
  have hcount := NodeSpec.countIn_of_resolve (h node hnode)
  rw [countIn_of_node hnode, hcount, total_of_getElem? hnode]

theorem search_advanceFrom (g : TaskGraph η) (shared : Shared η) (trace : DeviceTrace)
    (origin : TraceOrigin) {start : Nat} (hstart : start ≤ g.numNodes)
    (hidle : ∀ i, start ≤ i → g.total i = 0 ∧ g.remaining i = 0) :
    ∃ result g' last notes,
      g.advanceFrom shared trace origin start = (result, g', trace.noteAll notes) ∧
      SameSpecs g g' ∧ Search g shared origin start last g' result notes ∧
      ∀ i < start, g'.pickup i = g.pickup i := by
  rcases advanceFrom_cases g shared trace origin hstart fun i hi => (hidle i hi).1 with
    ⟨g', trace', last, hadvance, hadvanced, hresolved, -⟩ |
    ⟨fault, last, node, hadvance, hle, hlast, hresolved, hnode, hresolve, -⟩
  · have hstart' := hadvanced.start_le
    have hlast := hadvanced.last_le
    have htotal : ∀ i, i ≠ last ∨ last = g.numNodes → g'.total i = g.total i :=
      fun i hi => total_congr (hadvanced.pickup i hi)
    have hcount : ∀ i, start ≤ i → i ≤ last → i < g.numNodes →
        g.countIn shared i = some (g'.total i : Int) := by
      intro i hi hle hN
      rw [← hadvanced.specs.countIn]
      exact (hresolved i hi hle hN).countIn (hadvanced.specs.numNodes.symm ▸ hN)
    refine ⟨.ok (), g', last, g'.openingNotes origin, ?_, hadvanced.specs, ⟨?_, ?_, ?_⟩,
      fun i hi => hadvanced.pickup i (.inl (by omega))⟩
    · rw [hadvance, advanceFrom_trace hadvance hstart]
    · refine ⟨hstart', hlast, fun i hi hlt => ?_, fun hlt => ?_⟩
      · rw [hcount i hi hlt.le (by omega), htotal i (.inl hlt.ne), (hidle i hi).1]
        rfl
      · have hpos := (hadvanced.fresh hlt).1
        rw [hcount last hstart' (Nat.le_refl _) hlt]
        intro hzero
        have hzero := Option.some.inj hzero
        omega
    · intro i hi hne
      rw [htotal i (.inl hne), hadvanced.remaining i (.inl hne)]
      exact hidle i hi
    · unfold openingNotes currentMarks
      rw [hadvanced.specs.numNodes, hadvanced.cursor]
      rcases Nat.lt_or_eq_of_le hlast with hlt | heq
      · obtain ⟨hpos, hremaining, hclaimed⟩ := hadvanced.fresh hlt
        rw [if_pos hlt]
        exact .starts hlt (hcount last hstart' (Nat.le_refl _) hlt) hpos hadvanced.cursor
          hremaining hclaimed
      · rw [if_neg heq.not_lt]
        exact .ends heq hadvanced.cursor
  · obtain ⟨hnot, rfl⟩ := NodeSpec.not_isCount_of_resolve hresolve
    rw [← countIn_of_node hnode] at hadvance hnot
    refine ⟨_, g, last, [], hadvance, .refl g, ⟨⟨hle, hlast.le, fun i hi hlt => ?_, fun _ => ?_⟩,
      fun i hi _ => hidle i hi, .faults hlast hnot rfl (hidle last hle).1 (hidle last hle).2⟩,
      fun _ _ => rfl⟩
    · rw [(hresolved i hi hlt).countIn (hlt.trans hlast), (hidle i hi).1]
      rfl
    · intro hzero
      rw [hzero] at hnot
      exact hnot ⟨0, rfl⟩

end TaskGraph
end Lockstep
