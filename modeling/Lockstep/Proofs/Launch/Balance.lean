import Lockstep.Proofs.Launch.Posting
import Lockstep.Proofs.TaskGraph.Dealt

/-!
# The balance of a launch

All work dealt out is either reported or in the hands of some group, and the remaining
counts of the graph tell how much of it is missing.  Every entry of the ledger keeps the
balance.
-/

namespace Lockstep

def countOf (i : Nat) (m : Multiset Work) : Nat := m.countP (·.isOf i)

theorem countOf_coe (i : Nat) (works : List Work) :
    countOf i works = works.countP (Work.isOf i) := by
  simp [countOf]

theorem countOf_add (i : Nat) (m m' : Multiset Work) :
    countOf i (m + m') = countOf i m + countOf i m' :=
  Multiset.countP_add ..

namespace LaunchState

variable {η : Type} {c : LaunchConfig} {s : LaunchState η} {g : Nat} {graph graph' : TaskGraph η}
  {l l' : Ledger} {pickup : Pickup} {p : Phase}

def returnedWork (c : LaunchConfig) (l : Ledger) : Multiset Work :=
  l.reported + pooled (List.range c.numGroups) l.ran

def claimedWork (c : LaunchConfig) (l : Ledger) : Multiset Work :=
  returnedWork c l + pooled (List.range c.numGroups) l.left

/-- What holds between the graph and the ledger. -/
structure Balanced (c : LaunchConfig) (graph : TaskGraph η) (l : Ledger) : Prop where
  ordered : graph.Ordered
  due : ∀ i < graph.numNodes, countOf i l.reported +
    graph.remaining i * graph.threads i = graph.total i * graph.threads i
  /-- Invocations are reported with all their threads. -/
  whole : ∀ i < graph.numNodes, ∀ o t t', t' < graph.threads i →
    (graph.pickup i).unit o t ∈ l.reported → (graph.pickup i).unit o t' ∈ l.reported
  balance : claimedWork c l = pooled (List.range graph.numNodes) graph.dealt

theorem Balanced.of_begun (h : graph.Begun) : Balanced c graph .empty := by
  refine ⟨h.ordered, fun i _ => ?_, fun i _ o t t' _ hmem => absurd hmem List.not_mem_nil, ?_⟩
  · rw [(h.untouched i).2, countOf_coe, Ledger.empty, List.countP_nil, Nat.zero_add]
  · have hdealt : ∀ i ∈ List.range graph.numNodes, graph.dealt i = [] := fun i _ =>
      TaskGraph.dealt_eq_nil (.inr (h.untouched i).1)
    have hnone : pooled (List.range c.numGroups) (fun _ => []) = 0 :=
      pooled_eq_zero fun _ _ => rfl
    rw [pooled_eq_zero hdealt, claimedWork, returnedWork, Ledger.empty, hnone]
    rfl

theorem Balanced.nodup (h : Balanced c graph l) : (claimedWork c l).Nodup := by
  rw [h.balance]
  exact Multiset.coe_nodup.2 (graph.nodup_dealt graph.numNodes_lt.le)

theorem Balanced.countOf_claimedWork (h : Balanced c graph l) {i : Nat} (hi : i < graph.numNodes) :
    countOf i (claimedWork c l) =
      min (graph.claimed i) (graph.total i) * graph.threads i := by
  rw [h.balance, pooled, countOf_coe, graph.countP_dealt graph.numNodes_lt.le, if_pos hi]

theorem Balanced.report_le (h : Balanced c graph l) {i : Nat} (hi : i < graph.numNodes)
    {groups : List Nat} (hnodup : groups.Nodup) (hsub : groups ⊆ List.range c.numGroups)
    (hpos : 0 < graph.threads i) {lo hi' : Nat}
    (hran : groups.flatMap l.ran = (graph.pickup i).span lo hi') :
    hi' - lo ≤ graph.remaining i := by
  have hall := h.countOf_claimedWork hi
  have hdue := h.due i hi
  have hgroups : countOf i (pooled groups l.ran) = (hi' - lo) * graph.threads i := by
    rw [pooled, hran, countOf_coe, graph.countP_span (hi.trans graph.numNodes_lt), if_pos rfl]
  rw [claimedWork, returnedWork, countOf_add, countOf_add,
    pooled_split List.nodup_range hnodup hsub l.ran,
    countOf_add, hgroups] at hall
  have hmin := Nat.mul_le_mul_right (graph.threads i)
    (Nat.min_le_right (graph.claimed i) (graph.total i))
  refine Nat.le_of_mul_le_mul_right ?_ hpos
  omega

theorem Balanced.of_perm (h : Balanced c graph l) (hreported : l'.reported = l.reported)
    (hwork : claimedWork c l' = claimedWork c l) : Balanced c graph l' :=
  ⟨h.ordered, hreported ▸ h.due, hreported ▸ h.whole, hwork.trans h.balance⟩

theorem returnedWork_finish (hg : g < c.numGroups) (l : Ledger) (work : Work) :
    returnedWork c (l.finish g work) = returnedWork c l + {work} := by
  have hone : [g] ⊆ List.range c.numGroups := by simpa using hg
  have hran := pooled_change List.nodup_range (List.nodup_singleton g) hone
    (show ∀ g' ∉ [g], (l.finish g work).ran g' = l.ran g' from fun g' hg' => by
      simp_all [Ledger.finish])
  simp only [pooled_singleton, Ledger.finish, Function.update_self] at hran
  rw [← Multiset.coe_add, Multiset.coe_singleton] at hran
  have hran' : pooled (List.range c.numGroups) (l.finish g work).ran =
      pooled (List.range c.numGroups) l.ran + {work} := by
    apply add_right_cancel (b := (l.ran g : Multiset Work))
    apply hran.trans
    abel
  rw [returnedWork, returnedWork, hran', Ledger.reported_finish, add_assoc]

theorem claimedWork_finish {work : Work} (hg : g < c.numGroups) (hmem : work ∈ l.left g) :
    claimedWork c (l.finish g work) = claimedWork c l := by
  have hone : [g] ⊆ List.range c.numGroups := by simpa using hg
  have hleft := pooled_change List.nodup_range (List.nodup_singleton g) hone
    (show ∀ g' ∉ [g], (l.finish g work).left g' = l.left g' from fun g' hg' => by
      simp_all [Ledger.finish])
  have hone' : (l.left g : Multiset Work) = {work} + ((l.left g).erase work : List Work) :=
    Multiset.coe_eq_coe.2 (List.perm_cons_erase hmem)
  simp only [pooled_singleton, Ledger.finish, Function.update_self] at hleft
  rw [hone'] at hleft
  have hleft' : pooled (List.range c.numGroups) (l.finish g work).left + {work} =
      pooled (List.range c.numGroups) l.left := by
    apply add_right_cancel (b := ((l.left g).erase work : Multiset Work))
    apply Eq.trans _ hleft
    simp only [Ledger.finish]
    abel
  rw [claimedWork, claimedWork, returnedWork_finish hg, ← hleft']
  abel

theorem claimedWork_deal {groups : List Nat} {share : Nat → List Work} (hnodup : groups.Nodup)
    (hsub : groups ⊆ List.range c.numGroups) (hleft : ∀ g ∈ groups, l.left g = []) :
    claimedWork c (l.deal groups share) = claimedWork c l + groups.flatMap share := by
  have hchange := pooled_change List.nodup_range hnodup hsub
    (show ∀ g ∉ groups, (l.deal groups share).left g = l.left g from fun g hg => by simp [hg])
  have hold : pooled groups l.left = 0 := pooled_eq_zero hleft
  have hnew : pooled groups (l.deal groups share).left = groups.flatMap share := by
    rw [pooled_congr fun g hg => by rw [Ledger.left_deal, if_pos hg], pooled]
  rw [hold, add_zero, hnew] at hchange
  rw [claimedWork, claimedWork, hchange, ← add_assoc]
  rfl

theorem returnedWork_settle {groups : List Nat} (hnodup : groups.Nodup)
    (hsub : groups ⊆ List.range c.numGroups) :
    returnedWork c (l.settle groups) = returnedWork c l := by
  have hchange := pooled_change List.nodup_range hnodup hsub
    (show ∀ g ∉ groups, (l.settle groups).ran g = l.ran g from fun g hg => by simp [hg])
  have hnew : pooled groups (l.settle groups).ran = 0 :=
    pooled_eq_zero fun g hg => by rw [Ledger.ran_settle, if_pos hg]
  rw [hnew, add_zero] at hchange
  rw [returnedWork, returnedWork, ← hchange]
  simp only [Ledger.settle, ← Multiset.coe_add, pooled]
  abel

theorem Balanced.claim {groups : List Nat} {share : Nat → List Work} {id : NodeId}
    {batch base : UInt32} (h : Balanced c graph l) (hid : id.index ≤ graph.cursor.toNat)
    (hnode : id.index < graph.numNodes) (hclaim : TaskGraph.Claim graph id batch base graph')
    (hroom : graph.claimed id.index + batch.toNat < 2 ^ 64) (hnodup : groups.Nodup)
    (hsub : groups ⊆ List.range c.numGroups) (hleft : ∀ g ∈ groups, l.left g = [])
    (hshare : groups.flatMap share = (graph.pickup id.index).span
      (min base.toNat (graph.total id.index))
      (min (base.toNat + batch.toNat) (graph.total id.index))) :
    Balanced c graph' (l.deal groups share) := by
  have hnodes := hclaim.specs.numNodes
  have hthreads := hclaim.specs.threads
  refine ⟨hclaim.ordered hroom h.ordered hid hnode, ?_, ?_, ?_⟩
  · intro i hi
    rw [hnodes] at hi
    rw [TaskGraph.total, hclaim.pickup, hclaim.remaining, hthreads]
    exact h.due i hi
  · intro i hi
    rw [hnodes] at hi
    rw [hclaim.pickup, hthreads]
    exact h.whole i hi
  · have hone : [id.index] ⊆ List.range graph.numNodes := by simpa using hnode
    have hchange := pooled_change List.nodup_range (List.nodup_singleton _) hone
      (show ∀ i ∉ [id.index], graph'.dealt i = graph.dealt i from fun i hi => by
        rw [hclaim.dealt hroom, if_neg (by simpa using hi), List.append_nil])
    rw [pooled_singleton, pooled_singleton, hclaim.dealt hroom, if_pos rfl, ← hshare,
      ← Multiset.coe_add, ← add_assoc, add_right_comm] at hchange
    rw [claimedWork_deal hnodup hsub hleft, h.balance, hnodes]
    exact (add_right_cancel hchange).symm

theorem Balanced.report {groups : List Nat} {i n lo hi : Nat} {ok : Bool} {asks : List Nat}
    (h : Balanced c graph l) (hid : i ≤ graph.cursor.toNat) (hnode : i < graph.numNodes)
    (hreported : TaskGraph.Reported graph i n ok graph' asks) (hle : n ≤ graph.remaining i)
    (hn : n = hi - lo) (hnodup : groups.Nodup) (hsub : groups ⊆ List.range c.numGroups)
    (hran : groups.flatMap l.ran = (graph.pickup i).span lo hi) :
    Balanced c graph' (l.settle groups) := by
  have hnodes := hreported.specs.numNodes
  have hthreads := hreported.specs.threads
  have hunit := hreported.specs.unit
  have hreports : (l.settle groups).reported = l.reported ++ (graph.pickup i).span lo hi := by
    rw [← hran]
    rfl
  refine ⟨hreported.ordered h.ordered hid hle, ?_, ?_, ?_⟩
  · intro j hj
    rw [hnodes] at hj
    have hdue := h.due j hj
    rw [hreports, hthreads, countOf_coe, List.countP_append, ← countOf_coe,
      graph.countP_span (hnode.trans graph.numNodes_lt)]
    rcases Nat.lt_or_ge graph.cursor.toNat j with hcursor | hcursor
    · -- Nothing has been reported of a node that has only just been started.
      obtain ⟨htotal, hremaining, -⟩ := h.ordered.front j (.inl hcursor)
      rw [htotal, hremaining, Nat.zero_mul, Nat.add_zero] at hdue
      rw [(hreported.front h.ordered hid hcursor).2, hdue, if_neg (by omega), Nat.zero_add]
    · obtain ⟨hpickup, -, hremaining⟩ := hreported.upto h.ordered hid hle hcursor
      rw [TaskGraph.total, hpickup, hremaining]
      change _ = graph.total j * _
      by_cases hij : i = j
      · subst hij
        rw [if_pos rfl, if_pos rfl, ← hn, Nat.sub_mul]
        have hmul := Nat.mul_le_mul_right (graph.threads i) hle
        omega
      · rw [if_neg hij, if_neg (Ne.symm hij), Nat.add_zero, hdue]
  · intro j hj o t t' ht' hmem
    rw [hnodes] at hj
    rw [hthreads] at ht'
    rw [hreports, hunit, List.mem_append] at hmem ⊢
    rcases hmem with hmem | hmem
    · exact .inl (h.whole j hj o t t' ht' hmem)
    · have hof : ((graph.pickup j).unit o t).isOf i = true := by
        obtain ⟨o', t'', -, -, -, hunit'⟩ := Pickup.mem_span.1 hmem
        rw [hunit', graph.isOf_unit (hnode.trans graph.numNodes_lt), decide_eq_true rfl]
      rw [graph.isOf_unit (hj.trans graph.numNodes_lt)] at hof
      obtain rfl := of_decide_eq_true hof
      exact .inr (Pickup.unit_mem_span hmem ht')
  · have hdealt : graph'.dealt = graph.dealt := funext (hreported.dealt h.ordered hid hle)
    rw [hnodes, hdealt, ← h.balance, claimedWork, returnedWork_settle hnodup hsub]
    rfl

/-! ## Moves -/

/-- What a report is about has been claimed, so that the graph takes note of it. -/
theorem Balanced.reported {groups : List Nat} {finished : UInt32} {result : Except Fault Bool}
    {trace : DeviceTrace} {lo hi : Nat} (h : Balanced c s.graph l)
    (hnode : pickup.node.index < s.graph.numNodes)
    (hcached : pickup = s.graph.pickup pickup.node.index)
    (hpos : 0 < pickup.threads) (hnodup : groups.Nodup) (hsub : groups ⊆ List.range c.numGroups)
    (hreport : s.graph.report s.device.shared s.trace pickup.node finished (c.originOf g) =
      (result, graph, trace))
    (hran : groups.flatMap l.ran = pickup.span lo hi) (hfinished : finished.toNat = hi - lo) :
    finished.toNat ≤ s.graph.remaining pickup.node.index ∧
      TaskGraph.Reported s.graph pickup.node.index finished.toNat result.isOk graph
        (s.graph.askedBy s.device.shared pickup.node finished) := by
  have hle : finished.toNat ≤ s.graph.remaining pickup.node.index := by
    rw [hfinished]
    refine h.report_le hnode hnodup hsub ?_ ((hran.trans (by rw [← hcached])))
    rw [TaskGraph.threads, ← hcached]
    exact hpos
  obtain ⟨result', graph', trace', hreport', hreported⟩ :=
    h.ordered.settled.report s.device.shared s.trace (c.originOf g) hle
  rw [hreport] at hreport'
  obtain ⟨rfl, rfl, -⟩ : result = result' ∧ graph = graph' ∧ trace = trace' := by
    simpa using hreport'
  exact ⟨hle, hreported⟩

/-- What an entry of the ledger leaves behind. -/
structure Posted (c : LaunchConfig) (s : LaunchState η) (g : Nat) (p : Phase)
    (graph : TaskGraph η) (l' : Ledger) : Prop where
  balanced : Balanced c graph l'
  grows : s.graph.Grows graph
  claimed_le : (∃ node n, s.phase g = .report node n) → ∀ i, graph.claimed i ≤ s.graph.claimed i
  resolved : (∀ i ≤ s.graph.cursor.toNat, i < s.graph.numNodes → s.graph.IsResolved i) →
    ∀ i ≤ graph.cursor.toNat, i < graph.numNodes → graph.IsResolved i
  current : p.isGone = false →
    (s.graph.cursor.toNat < s.graph.numNodes → 0 < s.graph.remaining s.graph.cursor.toNat) →
    graph.cursor.toNat < graph.numNodes → 0 < graph.remaining graph.cursor.toNat

theorem Posts.posted (hposts : Posts c s g pickup l p graph l') (hg : g < c.numGroups)
    (hsub : c.party (some (c.blockOf g)) ⊆ List.range c.numGroups) (h : Balanced c s.graph l)
    (hcached : pickup.node.index < s.graph.numNodes →
      pickup = s.graph.pickup pickup.node.index ∧ pickup.node.index ≤ s.graph.cursor.toNat)
    (hroom : ∀ i, s.graph.claimed i + c.groupsPerBlock.toNat * c.lanesPerGroup.toNat < 2 ^ 64)
    (hpos : 0 < pickup.threads) : Posted c s g p graph l' := by
  cases hposts with
  | nothing => exact ⟨h, .refl _, fun _ _ => Nat.le_refl _, id, fun _ => id⟩
  | finishes _ hmem =>
      exact ⟨h.of_perm rfl (claimedWork_finish hg hmem), .refl _, fun _ _ => Nat.le_refl _, id,
        fun _ => id⟩
  | loses => exact ⟨h.of_perm rfl rfl, .refl _, fun _ _ => Nat.le_refl _, id, fun _ => id⟩
  | claims _ hreport hnodup hsub' hnode hclaim hbatch hleft hshare =>
      obtain ⟨hcached, hcursor⟩ := hcached hnode
      have hroom := (Nat.add_le_add_left hbatch _).trans_lt (hroom pickup.node.index)
      refine ⟨h.claim hcursor hnode hclaim hroom hnodup (List.Subset.trans hsub' hsub) hleft ?_,
        hclaim.grows hroom, fun ⟨node, n, hcase⟩ => absurd hcase (hreport node n), ?_, ?_⟩
      · rw [hshare, TaskGraph.total, ← hcached]
      · intro hresolved i hi hN
        rw [hclaim.cursor] at hi
        rw [hclaim.specs.numNodes] at hN
        exact (hresolved i hi hN).congr hclaim.specs (hclaim.pickup i)
      · intro _ hcurrent
        rw [hclaim.cursor, hclaim.specs.numNodes, hclaim.remaining]
        exact hcurrent
  | reports _ hnodup hsub' hnode hreport hran hfinished hgone =>
      obtain ⟨hcached, hcursor⟩ := hcached hnode
      have hsub := List.Subset.trans hsub' hsub
      obtain ⟨hle, hreported⟩ := h.reported hnode hcached hpos hnodup hsub hreport hran
        hfinished
      refine ⟨h.report hcursor hnode hreported hle hfinished hnodup hsub ?_,
        hreported.grows h.ordered hcursor hle, fun _ => hreported.claimed_le,
        hreported.resolved h.ordered hcursor hle, fun hstays => ?_⟩
      · rw [hran, ← hcached]
      · apply hreported.current h.ordered hcursor hle
        by_contra hfault
        rw [hgone (eq_false_of_ne_true hfault)] at hstays
        exact absurd hstays (by decide)

end LaunchState
end Lockstep
