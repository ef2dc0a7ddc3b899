import Lockstep.Proofs.TaskGraph.Order
import Lockstep.TaskGraph.History
import Mathlib.Algebra.Order.BigOperators.Group.List
import Mathlib.Order.Interval.Finset.Nat

/-!
# The partition of the offsets

A node that is made current has all its offsets to give.  Its claims are granted one run of
offsets after another, each where the last one ended, so that the runs are disjoint and
leave no gap.  The claim counter is wider than an offset: past the last offset it goes on
counting, and what is answered from there on lies past every total.
-/

namespace Lockstep
namespace Grant

/-- The offsets below the total that a claim was granted. -/
def offsets (a : Grant) (total : Nat) : Finset Nat :=
  Finset.Ico a.base.toNat (min (a.base.toNat + a.batch.toNat) total)

theorem mem_offsets {a : Grant} {total o : Nat} :
    o ∈ a.offsets total ↔ a.base.toNat ≤ o ∧ o < a.base.toNat + a.batch.toNat ∧ o < total := by
  rw [offsets, Finset.mem_Ico, lt_min_iff]

/-- How much was asked for in all. -/
def sum (grants : List Grant) : Nat := (grants.map (·.batch.toNat)).sum

@[simp] theorem sum_nil : sum [] = 0 := rfl

@[simp] theorem sum_cons (a : Grant) (grants : List Grant) :
    sum (a :: grants) = a.batch.toNat + sum grants := List.sum_cons

/-- Each grant starts where the last one ended, as far as a 32-bit word can tell. -/
def Consecutive : (start : Nat) → (grants : List Grant) → Prop
  | _, [] => True
  | start, a :: grants =>
      a.base.toNat = min start (2 ^ 32 - 1) ∧ Consecutive (start + a.batch.toNat) grants

section Consecutive

variable {start total : Nat} {a : Grant} {grants : List Grant}

/-- Below the total a base is exact. -/
theorem mem_offsets_of_base (hbase : a.base.toNat = min start (2 ^ 32 - 1))
    (htotal : total < 2 ^ 32) {o : Nat} :
    o ∈ a.offsets total ↔ start ≤ o ∧ o < start + a.batch.toNat ∧ o < total := by
  rw [mem_offsets, hbase]
  omega

theorem Consecutive.mem_offsets (h : Consecutive start grants) (htotal : total < 2 ^ 32) {o : Nat} :
    (∃ a ∈ grants, o ∈ a.offsets total) ↔ start ≤ o ∧ o < min (start + sum grants) total := by
  induction grants generalizing start with
  | nil =>
      refine iff_of_false (by simp) ?_
      rw [sum_nil]
      omega
  | cons a grants ih =>
      obtain ⟨hbase, hrest⟩ := h
      rw [List.exists_mem_cons_iff, mem_offsets_of_base hbase htotal, ih hrest, sum_cons]
      omega

theorem Consecutive.disjoint (h : Consecutive start grants) (htotal : total < 2 ^ 32) :
    grants.Pairwise fun a b => Disjoint (a.offsets total) (b.offsets total) := by
  induction grants generalizing start with
  | nil => exact .nil
  | cons a grants ih =>
      obtain ⟨hbase, hrest⟩ := h
      refine .cons (fun b hb => Finset.disjoint_left.2 fun o hoa hob => ?_) (ih hrest)
      obtain ⟨-, hlt, -⟩ := (mem_offsets_of_base hbase htotal).1 hoa
      obtain ⟨hle, -⟩ := (hrest.mem_offsets htotal).1 ⟨b, hb, hob⟩
      exact absurd hlt (Nat.not_lt.2 hle)

/-- Once everything has been asked for, bases lie past the total. -/
theorem Consecutive.total_le_base {before later : List Grant}
    (h : Consecutive start (before ++ a :: later)) (htotal : total < 2 ^ 32)
    (hspent : total ≤ start + sum before) : total ≤ a.base.toNat := by
  induction before generalizing start with
  | nil =>
      rw [h.1]
      rw [sum_nil] at hspent
      omega
  | cons b before ih =>
      apply ih h.2
      rwa [Nat.add_assoc, ← sum_cons]

end Consecutive
end Grant

theorem sum_toNat_le (batches : List UInt32) :
    (batches.map UInt32.toNat).sum ≤ batches.length * (2 ^ 32 - 1) := by
  have hle : ∀ n ∈ batches.map UInt32.toNat, n ≤ 2 ^ 32 - 1 := by
    intro n hn
    obtain ⟨batch, -, rfl⟩ := List.mem_map.1 hn
    exact Nat.le_sub_one_of_lt batch.toNat_lt
  simpa using List.sum_le_card_nsmul _ _ hle

namespace TaskGraph

variable {η : Type} {g g' : TaskGraph η} {k : Nat}

/-- The node at the cursor has just been made current, by the start of a run or by the report
that retired a node before it. -/
inductive MadeCurrent (g : TaskGraph η) : Prop
  | init {g₀ : TaskGraph η} {shared : Shared η} {trace trace' : DeviceTrace}
      (hinit : g₀.init shared trace = (.ok (), g, trace')) (hopen : g.cursor.toNat < g.numNodes)
  | retired {g₀ : TaskGraph η} {shared : Shared η} {trace trace' : DeviceTrace} {id : NodeId}
      {finished : UInt32} {origin : TraceOrigin}
      (hreport : g₀.report shared trace id finished origin = (.ok true, g, trace'))
      (hbehind : id.index < g.cursor.toNat) (hopen : g.cursor.toNat < g.numNodes)

/-- A search for work leaves the nodes before its start alone. -/
theorem claimed_advanceFrom (g : TaskGraph η) (shared : Shared η) (trace : DeviceTrace)
    (origin : TraceOrigin) {start i : Nat} (hi : i < start) (hsize : i < g.nodes.size) :
    (g.advanceFrom shared trace origin start).2.1.claimed i = g.claimed i := by
  have hkeep : ∀ tail : List (Node η),
      (g.nodes.toList.take start ++ tail).toArray[i]? = g.nodes[i]? := by
    intro tail
    rw [List.getElem?_toArray, List.getElem?_append_left (by simp; omega),
      List.getElem?_take_of_lt hi, Array.getElem?_toList]
  unfold advanceFrom
  rcases scan shared g.numNodes start (g.nodes.toList.drop start) with ⟨_ | _ | _, tail⟩ <;>
    simp only [claimed, hkeep]

theorem claimed_of_advanceFrom {shared : Shared η} {trace trace' : DeviceTrace}
    {origin : TraceOrigin} {start : Nat}
    (h : g.advanceFrom shared trace origin start = (.ok (), g', trace'))
    (hstart : start ≤ g'.cursor.toNat) (hopen : g'.cursor.toNat < g'.numNodes) :
    g'.claimed g'.cursor.toNat = 0 := by
  have hsame := sameSpecs_advanceFrom g shared trace origin start
  rw [h] at hsame
  rw [hsame.numNodes] at hopen
  rcases advanceFrom_ok h (hstart.trans hopen.le) with ⟨hdone, -⟩ | ⟨node, count, -, hnode, -⟩
  · exact absurd hdone hopen.ne
  · simp only [claimed, hnode]
    rfl

theorem MadeCurrent.claimed_eq_zero (h : g.MadeCurrent) : g.claimed g.cursor.toNat = 0 := by
  cases h with
  | init hinit hopen => exact claimed_of_advanceFrom hinit (Nat.zero_le _) hopen
  | retired hreport hbehind hopen =>
      rcases report_ok hreport with ⟨hfalse, -⟩ | ⟨-, -, -, _, _, -, -, hadvance⟩
      · contradiction
      · exact claimed_of_advanceFrom hadvance hbehind hopen

theorem MadeCurrent.lt_size (h : g.MadeCurrent) : g.cursor.toNat < g.nodes.size := by
  cases h with
  | init _ hopen => exact hopen.trans_le g.numNodes_le
  | retired _ _ hopen => exact hopen.trans_le g.numNodes_le

/-! ## The claims of a node -/

theorem claimed_report (g : TaskGraph η) (shared : Shared η) (trace : DeviceTrace) {id : NodeId}
    {finished : UInt32} (origin : TraceOrigin) (hk : k < g.nodes.size)
    (hlate : finished ≠ 0 → k ≤ id.index) :
    (g.report shared trace id finished origin).2.1.claimed k = g.claimed k := by
  unfold report
  split
  · rfl
  rename_i hfinished
  split
  · rfl
  · rename_i node hnode
    have hput : ∀ remaining,
        (g.put id.index { node with remaining }).claimed k = g.claimed k := by
      intro remaining
      rw [claimed_put (getElem?_of_node hnode)]
      split
      · rename_i hid
        rw [hid, claimed, getElem?_of_node hnode]
      · rfl
    have hsize : ∀ remaining, k < (g.put id.index { node with remaining }).nodes.size := by
      intro remaining
      rwa [put, Array.size_setIfInBounds]
    dsimp only
    split
    · exact hput _
    · split
      · exact hput _
      · exact (claimed_advanceFrom _ shared _ origin (Nat.lt_succ_of_le (hlate hfinished))
          (hsize _)).trans (hput _)

/-- A claim of a node is granted the offsets behind those that have been claimed. -/
theorem perform_claim (hk : k < g.nodes.size) {call : GraphCall η} {batch : UInt32}
    (hbatch : call.batch? k = some batch) (hroom : g.claimed k + batch.toNat < 2 ^ 64) :
    ∃ base, GraphExchange.grant? k ⟨call, (g.perform call).1⟩ = some ⟨base, batch⟩ ∧
      base.toNat = min (g.claimed k) (2 ^ 32 - 1) ∧
      (g.perform call).2.claimed k = g.claimed k + batch.toNat := by
  cases call with
  | claim id batch' =>
      obtain ⟨rfl, rfl⟩ : id.index = k ∧ batch' = batch := by
        simpa [GraphCall.batch?] using hbatch
      obtain ⟨base, next, hclaim, hdone⟩ := claim_of_lt g id batch' hk
      refine ⟨base, ?_, hdone.base_eq, ?_⟩
      · simp only [perform, hclaim, GraphExchange.grant?, if_true]
      · simp only [perform, hclaim]
        rw [hdone.claimed_eq hroom, if_pos rfl]
  | report => exact absurd hbatch (by simp [GraphCall.batch?])

/-- What other calls do leaves the claims of a node alone. -/
theorem perform_other (hk : k < g.nodes.size) {call : GraphCall η} (hbatch : call.batch? k = none)
    (hcall : call.reportsBefore k = false) :
    GraphExchange.grant? k ⟨call, (g.perform call).1⟩ = none ∧
      (g.perform call).2.claimed k = g.claimed k := by
  cases call with
  | claim id batch =>
      have hne : id.index ≠ k := by
        simpa [GraphCall.batch?] using hbatch
      cases hclaim : g.claim id batch with
      | error fault => simp only [perform, hclaim, GraphExchange.grant?, and_self]
      | ok result =>
          obtain ⟨base, next⟩ := result
          simp only [perform, hclaim, GraphExchange.grant?, if_neg hne, true_and]
          rw [(claim_cases hclaim).2.claimed, if_neg hne.symm]
  | report shared trace id finished origin =>
      refine ⟨rfl, g.claimed_report shared trace origin hk fun hfinished => ?_⟩
      simpa [GraphCall.reportsBefore, hfinished] using hcall

/-- All claims of a node are granted, each where the last one ended. -/
theorem grants_of_exchanges (calls : List (GraphCall η)) (hk : k < g.nodes.size)
    (hcalls : ∀ call ∈ calls, call.reportsBefore k = false)
    (hroom : g.claimed k + ((GraphCall.batchesOf k calls).map UInt32.toNat).sum < 2 ^ 64) :
    (grantsOf k (g.exchanges calls)).map Grant.batch = GraphCall.batchesOf k calls ∧
      Grant.Consecutive (g.claimed k) (grantsOf k (g.exchanges calls)) := by
  induction calls generalizing g with
  | nil => exact ⟨rfl, trivial⟩
  | cons call calls ih =>
      have hsize : k < (g.perform call).2.nodes.size := hk.trans_eq (g.sameSpecs_perform call).size.symm
      have hlater : ∀ call ∈ calls, call.reportsBefore k = false :=
        fun call hcall => hcalls call (List.mem_cons_of_mem _ hcall)
      rw [exchanges, grantsOf, GraphCall.batchesOf, List.filterMap_cons, List.filterMap_cons]
      rw [GraphCall.batchesOf, List.filterMap_cons] at hroom
      cases hbatch : call.batch? k with
      | none =>
          obtain ⟨hgrant, hclaimed⟩ := perform_other hk hbatch (hcalls call (List.mem_cons_self ..))
          rw [hbatch] at hroom
          rw [hgrant, ← hclaimed]
          exact ih hsize hlater (hclaimed ▸ hroom)
      | some batch =>
          rw [hbatch, List.map_cons, List.sum_cons, ← Nat.add_assoc] at hroom
          obtain ⟨base, hgrant, hbase, hclaimed⟩ := perform_claim hk hbatch (by omega)
          rw [← hclaimed] at hroom
          obtain ⟨hbatches, hgrants⟩ := ih hsize hlater hroom
          rw [hgrant]
          refine ⟨congrArg (batch :: ·) hbatches, hbase, ?_⟩
          rw [← hclaimed]
          exact hgrants

/-- From the moment when a node is made current, and as long as no node before it is reported,
each of its claims is answered.  The offsets granted are disjoint, they are the first ones
as far as claims and the total go, and once all have been asked for, the base of every
later claim lies past the total. -/
theorem claims_partition (hg : g.MadeCurrent) (calls : List (GraphCall η))
    (hcalls : ∀ call ∈ calls, call.reportsBefore g.cursor.toNat = false)
    (hfew : (GraphCall.batchesOf g.cursor.toNat calls).length < 2 ^ 32) :
    let k := g.cursor.toNat
    let total := g.total k
    let grants := grantsOf k (g.exchanges calls)
    grants.map Grant.batch = GraphCall.batchesOf k calls ∧
    grants.Pairwise (fun a b => Disjoint (a.offsets total) (b.offsets total)) ∧
    (∀ o, (∃ a ∈ grants, o ∈ a.offsets total) ↔ o < min (Grant.sum grants) total) ∧
    ∀ before a later, grants = before ++ a :: later → total ≤ Grant.sum before →
      total ≤ a.base.toNat := by
  intro k total grants
  have hclaimed : g.claimed k = 0 := hg.claimed_eq_zero
  have htotal : total < 2 ^ 32 := g.total_lt k
  have hroom : g.claimed k + ((GraphCall.batchesOf k calls).map UInt32.toNat).sum < 2 ^ 64 := by
    have hsum := sum_toNat_le (GraphCall.batchesOf k calls)
    have hfew : (GraphCall.batchesOf k calls).length < 2 ^ 32 := hfew
    omega
  obtain ⟨hbatches, hgrants⟩ := grants_of_exchanges calls hg.lt_size hcalls hroom
  rw [hclaimed] at hgrants
  refine ⟨hbatches, hgrants.disjoint htotal, fun o => ?_, fun before a later hsplit hspent => ?_⟩
  · simpa using hgrants.mem_offsets htotal (o := o)
  · rw [show grantsOf k (g.exchanges calls) = before ++ a :: later from hsplit] at hgrants
    exact hgrants.total_le_base htotal (by rwa [Nat.zero_add])

namespace Dealing

def graph : TaskGraph Unit := .ofSpecs [.fixed ⟨0⟩ 3, .fixed ⟨0⟩ 4294967295]

def shared : Shared Unit := ⟨⟨.default, .builtins 2, #[], #[], .empty 0, .empty 0⟩, ()⟩

def trace : DeviceTrace := .ofConfig ⟨false, 0⟩

def opened : TaskGraph Unit :=
  ((graph.init shared trace).2.1.report shared trace ⟨0⟩ 3 .first).2.1

theorem madeCurrent_opened : opened.MadeCurrent := by
  have hreport : (graph.init shared trace).2.1.report shared trace ⟨0⟩ 3 .first =
      (.ok true, opened,
        ((graph.init shared trace).2.1.report shared trace ⟨0⟩ 3 .first).2.2) := by
    have hok : ((graph.init shared trace).2.1.report shared trace ⟨0⟩ 3 .first).1 = .ok true := by
      decide +kernel
    exact Prod.ext hok rfl
  exact .retired hreport (by decide +kernel) (by decide +kernel)

def calls : List (GraphCall Unit) :=
  [.claim ⟨1⟩ 4294967294, .claim ⟨1⟩ 0, .report shared trace ⟨1⟩ 5 .first, .claim ⟨1⟩ 4,
    .claim ⟨1⟩ 7]

def grants : List Grant :=
  [⟨0, 4294967294⟩, ⟨4294967294, 0⟩, ⟨4294967294, 4⟩, ⟨4294967295, 7⟩]

theorem grants_eq : grantsOf opened.cursor.toNat (opened.exchanges calls) = grants := by
  decide +kernel

end Dealing

theorem claims_partition_sample :
    Dealing.grants.Pairwise
        (fun a b => Disjoint (a.offsets 4294967295) (b.offsets 4294967295)) ∧
      ∀ o, (∃ a ∈ Dealing.grants, o ∈ a.offsets 4294967295) ↔ o < 4294967295 := by
  obtain ⟨-, hdisjoint, hunion, -⟩ := claims_partition Dealing.madeCurrent_opened Dealing.calls
    (by decide +kernel) (by decide +kernel)
  have htotal : Dealing.opened.total Dealing.opened.cursor.toNat = 4294967295 := by
    decide +kernel
  rw [Dealing.grants_eq, htotal] at hdisjoint hunion
  exact ⟨hdisjoint, hunion⟩

end TaskGraph
end Lockstep
