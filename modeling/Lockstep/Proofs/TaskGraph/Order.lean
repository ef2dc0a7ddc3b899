import Lockstep.Proofs.TaskGraph.Progress

/-!
# The order of the nodes

A graph in use works its nodes off in order.  Behind the cursor nothing remains, in
front of it nothing has begun, and claims and reports keep it that way.
-/

namespace Lockstep
namespace TaskGraph

variable {η : Type}

/-- A graph in use: nodes in front of the cursor are done and those behind it untouched. -/
structure Ordered (g : TaskGraph η) : Prop where
  cursor_le : g.cursor.toNat ≤ g.numNodes
  behind : ∀ i < g.cursor.toNat, g.remaining i = 0
  front : ∀ i, g.cursor.toNat < i ∨ g.numNodes ≤ i →
    g.total i = 0 ∧ g.remaining i = 0 ∧ g.claimed i = 0

/-- What a graph in use never takes back. -/
structure Grows (g g' : TaskGraph η) : Prop where
  specs : SameSpecs g g'
  cursor_le : g.cursor.toNat ≤ g'.cursor.toNat
  pickup : ∀ i ≤ g.cursor.toNat, g'.pickup i = g.pickup i
  claimed_le : ∀ i ≤ g.cursor.toNat, g.claimed i ≤ g'.claimed i

theorem Grows.refl (g : TaskGraph η) : Grows g g :=
  ⟨.refl g, Nat.le_refl _, fun _ _ => rfl, fun _ _ => Nat.le_refl _⟩

theorem Grows.total {g g' : TaskGraph η} (h : Grows g g') {i : Nat} (hi : i ≤ g.cursor.toNat) :
    g'.total i = g.total i :=
  total_congr (h.pickup i hi)

theorem IsResolved.congr {g g' : TaskGraph η} {i : Nat} (h : g.IsResolved i)
    (hspecs : SameSpecs g g') (hpickup : g'.pickup i = g.pickup i) : g'.IsResolved i := by
  intro node hnode
  obtain ⟨old, hold, hspec⟩ := hspecs.exists_old hnode
  obtain ⟨shared, hresolve⟩ := h old hold
  have htotal : node.total = old.total := by
    have htotal := congrArg Pickup.total hpickup
    simpa only [TaskGraph.pickup, hnode, hold] using htotal
  exact ⟨shared, by rw [← hspec, htotal, hresolve]⟩

/-- What a graph is like when a run has just started. -/
structure Begun (g : TaskGraph η) : Prop where
  ordered : Ordered g
  untouched : ∀ i, g.claimed i = 0 ∧ g.remaining i = g.total i
  current : g.cursor.toNat < g.numNodes → 0 < g.remaining g.cursor.toNat
  resolved : ∀ i ≤ g.cursor.toNat, i < g.numNodes → g.IsResolved i

theorem Advanced.begun {g g' : TaskGraph η} {last : Nat} (h : Advanced g.rewound 0 last g') :
    Begun g' := by
  have hlast := h.last_le
  have hnodes := h.specs.numNodes
  have hzero : ∀ i, i ≠ last ∨ last = g.rewound.numNodes →
      g'.total i = 0 ∧ g'.remaining i = 0 ∧ g'.claimed i = 0 := by
    intro i hi
    rw [total, h.pickup i hi, h.remaining i hi, h.claimed i hi]
    exact ⟨total_rewound g i, remaining_rewound g i, claimed_rewound g i⟩
  refine ⟨⟨?_, fun i hi => ?_, fun i hi => ?_⟩, fun i => ?_, ?_, ?_⟩
  · rw [h.cursor, hnodes]
    exact hlast
  · rw [h.cursor] at hi
    exact (hzero i (.inl hi.ne)).2.1
  · rw [h.cursor, hnodes] at hi
    exact hzero i (by omega)
  · by_cases hi : i ≠ last ∨ last = g.rewound.numNodes
    · obtain ⟨htotal, hremaining, hclaimed⟩ := hzero i hi
      exact ⟨hclaimed, hremaining.trans htotal.symm⟩
    · obtain ⟨-, hremaining, hclaimed⟩ := h.fresh (by omega)
      obtain rfl : i = last := by omega
      exact ⟨hclaimed, hremaining⟩
  · rw [h.cursor, hnodes]
    intro hlt
    obtain ⟨hpos, hremaining, -⟩ := h.fresh hlt
    rwa [hremaining]
  · rw [h.cursor, hnodes]
    exact fun i hi hN => h.resolved i (Nat.zero_le i) hi hN

theorem init_cases (g : TaskGraph η) (shared : Shared η) (trace : DeviceTrace) :
    (∃ g' trace', g.init shared trace = (.ok (), g', trace') ∧ Begun g' ∧
      g.rewound.askedFrom shared 0 =
        (List.range (min (g'.cursor.toNat + 1) g.numNodes)).filter g.isCounted) ∨
    ∃ fault trace' j, g.init shared trace = (.error fault, g.rewound, trace') ∧ j < g.numNodes ∧
      g.rewound.askedFrom shared 0 = (List.range (j + 1)).filter g.isCounted := by
  have hsame := g.sameSpecs_rewound
  have hcounted : g.rewound.isCounted = g.isCounted := funext hsame.isCounted
  rw [init_eq]
  rcases advanceFrom_cases g.rewound shared trace.reset .first (Nat.zero_le _)
      fun i _ => total_rewound g i with
    ⟨g', trace', last, heq, hadvanced, -, hasked⟩ | ⟨fault, j, -, heq, -, hj, -, -, -, hasked⟩
  · refine .inl ⟨g', trace', heq, hadvanced.begun, ?_⟩
    rw [hasked, hcounted, hsame.numNodes, Nat.sub_zero, List.range_eq_range', hadvanced.cursor]
  · refine .inr ⟨fault, _, j, heq, hsame.numNodes ▸ hj, ?_⟩
    rw [hasked, hcounted, Nat.sub_zero, List.range_eq_range']

theorem begun_of_init {g g' : TaskGraph η} {shared : Shared η} {trace trace' : DeviceTrace}
    (h : g.init shared trace = (.ok (), g', trace')) : Begun g' := by
  rcases init_cases g shared trace with ⟨next, trace'', heq, hbegun, -⟩ | ⟨fault, _, _, heq, -⟩
  · rw [h] at heq
    obtain ⟨rfl, -⟩ := Prod.mk.inj (Prod.mk.inj heq).2
    exact hbegun
  · rw [h] at heq
    exact absurd heq (by simp)

section Claims

variable {g g' : TaskGraph η} {id : NodeId} {batch base : UInt32}

theorem claim_cases (h : g.claim id batch = .ok (base, g')) :
    id.index < g.nodes.size ∧ Claim g id batch base g' := by
  have hlt : id.index < g.nodes.size := by
    by_contra hle
    have hnone : g.nodes[id.index]? = none := Array.getElem?_eq_none (Nat.le_of_not_lt hle)
    simp [claim, TaskGraph.node, hnone, bind, Except.bind] at h
  obtain ⟨base', next, heq, hclaim⟩ := claim_of_lt g id batch hlt
  rw [h] at heq
  obtain ⟨rfl, rfl⟩ := Prod.mk.inj (Except.ok.inj heq)
  exact ⟨hlt, hclaim⟩

namespace Claim

variable (h : Claim g id batch base g')
include h

theorem claimed_cases (i : Nat) :
    (i = id.index ∧ g'.claimed i ≤ g.claimed i + batch.toNat) ∨ g'.claimed i ≤ g.claimed i := by
  rw [h.claimed]
  by_cases hi : i = id.index
  · rw [if_pos hi, hi]
    exact .inl ⟨rfl, Nat.mod_le _ _⟩
  · rw [if_neg hi]
    exact .inr (Nat.le_refl _)

variable (hroom : g.claimed id.index + batch.toNat < 2 ^ 64)
include hroom

theorem claimed_eq (i : Nat) :
    g'.claimed i = g.claimed i + (if i = id.index then batch.toNat else 0) := by
  rw [h.claimed]
  split
  · rename_i hi
    rw [hi, Nat.mod_eq_of_lt hroom]
  · rfl

theorem grows : Grows g g' := by
  refine ⟨h.specs, h.cursor ▸ Nat.le_refl _, fun i _ => h.pickup i, fun i _ => ?_⟩
  rw [h.claimed_eq hroom]
  exact Nat.le_add_right _ _

theorem ordered (hg : Ordered g) (hid : id.index ≤ g.cursor.toNat) (hN : id.index < g.numNodes) :
    Ordered g' := by
  refine ⟨?_, fun i hi => ?_, fun i hi => ?_⟩
  · rw [h.cursor, h.specs.numNodes]
    exact hg.cursor_le
  · rw [h.cursor] at hi
    rw [h.remaining, hg.behind i hi]
  · rw [h.cursor, h.specs.numNodes] at hi
    obtain ⟨htotal, hremaining, hclaimed⟩ := hg.front i hi
    have hne : i ≠ id.index := by omega
    rw [total, h.pickup, h.remaining, h.claimed_eq hroom, if_neg hne]
    exact ⟨htotal, hremaining, hclaimed⟩

end Claim
end Claims

/-! ## Reports -/

/-- What a report of `n` invocations of the node at an index does, whether it ends well,
and the nodes whose counts it asks for. -/
inductive Reported (g : TaskGraph η) (i n : Nat) : Bool → TaskGraph η → List Nat → Prop where
  | nothing (hn : n = 0) : Reported g i n true g []
  | lowers (hn : 0 < n) (hlt : n < g.remaining i) {g' : TaskGraph η} (h : Lowered g i n g') :
      Reported g i n true g' []
  | retires (low : TaskGraph η) (last : Nat) (hn : 0 < n) (hall : n = g.remaining i)
      {g' : TaskGraph η} (h : Lowered g i n low) (hadvanced : Advanced low (i + 1) last g') :
      Reported g i n true g'
        ((List.range' (i + 1) (min (last + 1) g.numNodes - (i + 1))).filter g.isCounted)
  | stalls (hn : 0 < n) (hall : n = g.remaining i) {g' : TaskGraph η} (h : Lowered g i n g')
      {j : Nat} (hij : i < j) (hj : j < g.numNodes) :
      Reported g i n false g' ((List.range' (i + 1) (j - i)).filter g.isCounted)

section Reports

variable {g g' : TaskGraph η}

theorem Ordered.eq_cursor (hg : Ordered g) {i n : Nat} (hi : i ≤ g.cursor.toNat) (hn : 0 < n)
    (hle : n ≤ g.remaining i) : i = g.cursor.toNat := by
  rcases Nat.lt_or_eq_of_le hi with hlt | heq
  · rw [hg.behind i hlt] at hle
    omega
  · exact heq

/-- Only the node at the cursor has anything left, and no node behind it has a total. -/
structure Settled (g : TaskGraph η) : Prop where
  cursor_le : g.cursor.toNat ≤ g.numNodes
  active : ∀ i, 0 < g.remaining i → i = g.cursor.toNat ∧ i < g.numNodes
  front : ∀ i, g.cursor.toNat < i ∨ g.numNodes ≤ i → g.total i = 0

theorem Ordered.settled (hg : Ordered g) : Settled g := by
  refine ⟨hg.cursor_le, fun i hi => ?_, fun i hi => (hg.front i hi).1⟩
  have hnot_front : ¬ (g.cursor.toNat < i ∨ g.numNodes ≤ i) := fun h => by
    rw [(hg.front i h).2.1] at hi
    exact Nat.lt_irrefl 0 hi
  have hnot_behind : ¬ i < g.cursor.toNat := fun h => by
    rw [hg.behind i h] at hi
    exact Nat.lt_irrefl 0 hi
  omega

theorem Settled.report (hg : Settled g) (shared : Shared η) (trace : DeviceTrace) {id : NodeId}
    {finished : UInt32} (origin : TraceOrigin) (hle : finished.toNat ≤ g.remaining id.index) :
    ∃ result g' trace', g.report shared trace id finished origin = (result, g', trace') ∧
      Reported g id.index finished.toNat result.isOk g' (g.askedBy shared id finished) := by
  rcases Nat.eq_zero_or_pos finished.toNat with hzero | hpos
  · obtain rfl : finished = 0 := UInt32.toNat_inj.1 hzero
    obtain ⟨hreport, hasked⟩ := g.report_zero shared trace id origin
    exact ⟨_, _, _, hreport, hasked ▸ .nothing hzero⟩
  obtain ⟨hcursor, hN⟩ := hg.active id.index (hpos.trans_le hle)
  obtain ⟨low, hlow, hsome, hall⟩ :=
    g.report_of_le shared trace id origin (hN.trans_le g.numNodes_le) hpos hle
  rcases Nat.lt_or_eq_of_le hle with hlt | heq
  · obtain ⟨hreport, hasked⟩ := hsome hlt
    exact ⟨_, _, _, hreport, hasked ▸ .lowers hpos hlt hlow⟩
  obtain ⟨⟨node, -, hreport⟩, hasked⟩ := hall heq
  generalize trace.record .nodeFinish node.spec.func node.total id origin = trace' at hreport
  have hcounted : low.isCounted = g.isCounted := funext hlow.specs.isCounted
  have hnodes := hlow.specs.numNodes
  rw [hreport, hasked]
  rcases advanceFrom_cases low shared trace' origin
      (show id.index + 1 ≤ low.numNodes by omega)
      fun i hi => by
        rw [total_congr (hlow.pickup i)]
        exact hg.front i (.inl (by omega)) with
    ⟨g', trace'', last, hadvance, hadvanced, -, hasked⟩ |
    ⟨fault, j, -, hadvance, hij, hj, -, -, -, hasked⟩
  · refine ⟨_, _, _, by rw [hadvance], ?_⟩
    rw [hasked, hcounted, hnodes]
    exact .retires low last hpos heq hlow hadvanced
  · refine ⟨_, _, _, by rw [hadvance], ?_⟩
    rw [hasked, hcounted, show j + 1 - (id.index + 1) = j - id.index by omega]
    exact .stalls hpos heq hlow hij (hnodes ▸ hj)

namespace Reported

variable {i n : Nat} {ok : Bool} {asks : List Nat} (h : Reported g i n ok g' asks)
include h

theorem specs : SameSpecs g g' := by
  cases h with
  | nothing => exact .refl g
  | lowers _ _ h | stalls _ _ h => exact h.specs
  | retires _ _ _ _ h hadvanced => exact h.specs.trans hadvanced.specs

theorem claimed_le (j : Nat) : g'.claimed j ≤ g.claimed j := by
  cases h with
  | nothing => exact Nat.le_refl _
  | lowers _ _ h | stalls _ _ h => exact (h.claimed j).le
  | retires low last _ _ h hadvanced =>
      by_cases hj : j ≠ last ∨ last = low.numNodes
      · rw [hadvanced.claimed j hj, h.claimed]
      · have hlast := hadvanced.last_le
        obtain ⟨-, -, hclaimed⟩ := hadvanced.fresh (by omega)
        obtain rfl : j = last := by omega
        rw [hclaimed]
        exact Nat.zero_le _

variable (hg : Ordered g) (hi : i ≤ g.cursor.toNat)
include hg hi

theorem front {j : Nat} (hj : g.cursor.toNat < j) :
    g'.claimed j = 0 ∧ g'.remaining j = g'.total j := by
  obtain ⟨htotal, hremaining, hclaimed⟩ := hg.front j (.inl hj)
  cases h with
  | nothing => exact ⟨hclaimed, hremaining.trans htotal.symm⟩
  | lowers _ _ h | stalls _ _ h =>
      rw [h.claimed, h.remaining, if_neg (by omega), total, h.pickup]
      exact ⟨hclaimed, hremaining.trans htotal.symm⟩
  | retires low last _ _ h hadvanced =>
      by_cases hne : j ≠ last ∨ last = low.numNodes
      · rw [hadvanced.claimed j hne, hadvanced.remaining j hne, total, hadvanced.pickup j hne,
          h.claimed, h.remaining, if_neg (by omega), h.pickup]
        exact ⟨hclaimed, hremaining.trans htotal.symm⟩
      · have hlast := hadvanced.last_le
        obtain ⟨-, hremaining, hclaimed⟩ := hadvanced.fresh (by omega)
        obtain rfl : j = last := by omega
        exact ⟨hclaimed, hremaining⟩

variable (hle : n ≤ g.remaining i)
include hle

theorem upto {j : Nat} (hj : j ≤ g.cursor.toNat) :
    g'.pickup j = g.pickup j ∧ g'.claimed j = g.claimed j ∧
      g'.remaining j = if j = i then g.remaining i - n else g.remaining j := by
  cases h with
  | nothing hn =>
      refine ⟨rfl, rfl, ?_⟩
      split
      · rename_i hj
        rw [hj, hn, Nat.sub_zero]
      · rfl
  | lowers _ _ h | stalls _ _ h => exact ⟨h.pickup j, h.claimed j, h.remaining j⟩
  | retires low last hn _ h hadvanced =>
      have hcursor := hg.eq_cursor hi hn hle
      have hstart := hadvanced.start_le
      have hne : j ≠ last ∨ last = low.numNodes := .inl (by omega)
      rw [hadvanced.pickup j hne, hadvanced.claimed j hne, hadvanced.remaining j hne]
      exact ⟨h.pickup j, h.claimed j, h.remaining j⟩

theorem cursor_le : g.cursor.toNat ≤ g'.cursor.toNat := by
  cases h with
  | nothing => exact Nat.le_refl _
  | lowers _ _ h | stalls _ _ h => exact h.cursor ▸ Nat.le_refl _
  | retires _ _ hn _ _ hadvanced =>
      rw [hadvanced.cursor, ← hg.eq_cursor hi hn hle]
      exact (Nat.le_succ _).trans hadvanced.start_le

theorem grows : Grows g g' :=
  ⟨h.specs, h.cursor_le hg hi hle, fun _ hj => (h.upto hg hi hle hj).1,
    fun _ hj => (h.upto hg hi hle hj).2.1.ge⟩

theorem ordered : Ordered g' := by
  cases h with
  | nothing => exact hg
  | lowers _ _ h | stalls _ _ h =>
      refine ⟨?_, fun j hj => ?_, fun j hj => ?_⟩
      · rw [h.cursor, h.specs.numNodes]
        exact hg.cursor_le
      · rw [h.cursor] at hj
        rw [h.remaining]
        split
        · rename_i hji
          rw [← hji, hg.behind j hj, Nat.zero_sub]
        · exact hg.behind j hj
      · rw [h.cursor, h.specs.numNodes] at hj
        obtain ⟨htotal, hremaining, hclaimed⟩ := hg.front j hj
        rw [total, h.pickup, h.claimed, h.remaining]
        refine ⟨htotal, ?_, hclaimed⟩
        split
        · rename_i hji
          rw [← hji, hremaining, Nat.zero_sub]
        · exact hremaining
  | retires low last hn hall h hadvanced =>
      have hcursor := hg.eq_cursor hi hn hle
      have hlast := hadvanced.last_le
      have hnodes := hadvanced.specs.numNodes
      have hnodes' := h.specs.numNodes
      have hstart := hadvanced.start_le
      refine ⟨?_, fun j hj => ?_, fun j hj => ?_⟩
      · rw [hadvanced.cursor, hnodes]
        exact hlast
      · rw [hadvanced.cursor] at hj
        rw [hadvanced.remaining j (.inl hj.ne), h.remaining]
        split
        · omega
        · rcases Nat.lt_or_ge j g.cursor.toNat with hlt | hge
          · exact hg.behind j hlt
          · exact (hg.front j (.inl (by omega))).2.1
      · rw [hadvanced.cursor, hnodes] at hj
        have hne : j ≠ last ∨ last = low.numNodes := by omega
        obtain ⟨htotal, hremaining, hclaimed⟩ := hg.front j (by omega)
        rw [total, hadvanced.pickup j hne, hadvanced.claimed j hne, hadvanced.remaining j hne,
          h.pickup, h.claimed, h.remaining, if_neg (by omega)]
        exact ⟨htotal, hremaining, hclaimed⟩

theorem current (hok : ok = true)
    (hcurrent : g.cursor.toNat < g.numNodes → 0 < g.remaining g.cursor.toNat) :
    g'.cursor.toNat < g'.numNodes → 0 < g'.remaining g'.cursor.toNat := by
  cases h with
  | nothing => exact hcurrent
  | lowers hn hlt h =>
      intro _
      rw [h.cursor, h.remaining, hg.eq_cursor hi hn hle, if_pos rfl, ← hg.eq_cursor hi hn hle]
      omega
  | retires _ _ _ _ _ hadvanced =>
      rw [hadvanced.cursor, hadvanced.specs.numNodes]
      intro hlast
      obtain ⟨hpos, hremaining, -⟩ := hadvanced.fresh hlast
      rwa [hremaining]
  | stalls => contradiction

theorem resolved (hresolved : ∀ j ≤ g.cursor.toNat, j < g.numNodes → g.IsResolved j) :
    ∀ j ≤ g'.cursor.toNat, j < g'.numNodes → g'.IsResolved j := by
  intro j hj hN
  rw [h.specs.numNodes] at hN
  rcases Nat.lt_or_ge g.cursor.toNat j with hcursor | hcursor
  · cases h with
    | nothing => omega
    | lowers _ _ h | stalls _ _ h =>
        rw [h.cursor] at hj
        omega
    | retires low last _ _ h hadvanced =>
        rw [hadvanced.cursor] at hj
        exact hadvanced.resolved j (by omega) hj (h.specs.numNodes ▸ hN)
  · exact (hresolved j hcursor hN).congr h.specs (h.upto hg hi hle hcursor).1

/-- A report asks for the counts of the nodes in front of the cursor that it passes, and
only when it retires the node at the cursor. -/
theorem asked :
    asks = [] ∧ g'.cursor = g.cursor ∨
    i = g.cursor.toNat ∧ 0 < g.remaining i ∧ g'.remaining i = 0 ∧ ∃ m ≤ g.numNodes, i < m ∧
      asks = (List.range' (i + 1) (m - (i + 1))).filter g.isCounted ∧
      (0 < g'.remaining g'.cursor.toNat ∨ g.numNodes ≤ g'.cursor.toNat →
        m = min (g'.cursor.toNat + 1) g.numNodes) := by
  have hupto := (h.upto hg hi hle hi).2.2
  rw [if_pos rfl] at hupto
  cases h with
  | nothing => exact .inl ⟨rfl, rfl⟩
  | lowers _ _ h => exact .inl ⟨rfl, h.cursor⟩
  | retires low last hn hall h hadvanced =>
      have hnodes := h.specs.numNodes
      have hlast := hadvanced.last_le
      have hstart := hadvanced.start_le
      refine .inr ⟨hg.eq_cursor hi hn hle, hall ▸ hn, by omega, min (last + 1) g.numNodes,
        Nat.min_le_right _ _, by omega, rfl, fun _ => ?_⟩
      rw [hadvanced.cursor]
  | @stalls hn hall _ h j hij hj =>
      have hcursor := hg.eq_cursor hi hn hle
      refine .inr ⟨hcursor, hall ▸ hn, by omega, j + 1, hj, by omega, ?_, fun hopen => ?_⟩
      · rw [Nat.add_sub_add_right]
      · rw [h.cursor, ← hcursor] at hopen
        omega

end Reported
end Reports

end TaskGraph
end Lockstep
