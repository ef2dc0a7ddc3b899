import Lockstep.Proofs.Launch.Holding
import Lockstep.Proofs.TaskGraph.Order

/-!
# Entries of the ledger

A move makes at most one entry in the ledger, and what it does to the graph agrees with
the entry: a claim deals out just the offsets that it takes, and a report settles as
many invocations as it tells the graph.
-/

namespace Lockstep
namespace LaunchState

open Stage

variable {η : Type} {c : LaunchConfig} {d : Dispatcher η} {s : LaunchState η} {g : Nat}
  {l : Ledger} {place : Nat → Phase} {σ σ' : Stage} {q p : Phase} {block' : BlockState}
  {graph : TaskGraph η}

/-- The entry that a group of a block with this pickup makes when it goes on to the place
`p`, and the graph that it leaves. -/
inductive Posts (c : LaunchConfig) (s : LaunchState η) (g : Nat) (pickup : Pickup) (l : Ledger)
    (p : Phase) : TaskGraph η → Ledger → Prop where
  | nothing (hwork : (s.phase g).work? = none) (hreport : ∀ node n, s.phase g ≠ .report node n) :
      Posts c s g pickup l p s.graph l
  | finishes {work : Work} (hwork : (s.phase g).work? = some work) (hmem : work ∈ l.left g) :
      Posts c s g pickup l p s.graph (l.finish g work)
  | loses {work : Work} (hwork : (s.phase g).work? = some work) (hmem : work ∈ l.left g)
      (hlost : l.lost g = []) : Posts c s g pickup l p s.graph (l.lose g work)
  | claims {groups : List Nat} {share : Nat → List Work} {batch base : UInt32}
      {graph : TaskGraph η} (hwork : (s.phase g).work? = none)
      (hreport : ∀ node n, s.phase g ≠ .report node n)
      (hnodup : groups.Nodup) (hsub : groups ⊆ c.party (some (c.blockOf g)))
      (hnode : pickup.node.index < s.graph.numNodes)
      (hclaim : TaskGraph.Claim s.graph pickup.node batch base graph)
      (hbatch : batch.toNat ≤ c.groupsPerBlock.toNat * c.lanesPerGroup.toNat)
      (hleft : ∀ g' ∈ groups, l.left g' = [])
      (hshare : groups.flatMap share = pickup.span (min base.toNat pickup.total.toNat)
        (min (base.toNat + batch.toNat) pickup.total.toNat)) :
      Posts c s g pickup l p graph (l.deal groups share)
  | reports {groups : List Nat} {finished : UInt32} {result : Except Fault Bool}
      {graph : TaskGraph η} {trace : DeviceTrace} {lo hi : Nat}
      (hphase : s.phase g = .report pickup.node finished)
      (hnodup : groups.Nodup) (hsub : groups ⊆ c.party (some (c.blockOf g)))
      (hnode : pickup.node.index < s.graph.numNodes)
      (hreport : s.graph.report s.device.shared s.trace pickup.node finished (c.originOf g) =
        (result, graph, trace))
      (hran : groups.flatMap l.ran = pickup.span lo hi) (hfinished : finished.toNat = hi - lo)
      (hgone : result.isOk = false → p.isGone = true) :
      Posts c s g pickup l p graph (l.settle groups)

theorem Posts.other {pickup : Pickup} {l' : Ledger} {g' : Nat}
    (h : Posts c s g pickup l p graph l') (hpos : 0 < c.groupsPerBlock.toNat)
    (hblock : c.blockOf g' ≠ c.blockOf g) :
    l'.ran g' = l.ran g' ∧ l'.left g' = l.left g' ∧ l'.lost g' = l.lost g' := by
  have hne : g' ≠ g := fun heq => hblock (by rw [heq])
  cases h with
  | nothing => exact ⟨rfl, rfl, rfl⟩
  | finishes | loses => simp [Ledger.finish, Ledger.lose, hne]
  | claims _ _ _ hsub | reports _ _ hsub =>
      have hnot : g' ∉ _ := fun hmem => hblock ((LaunchConfig.mem_party_some hpos).1 (hsub hmem))
      simp [hnot]

theorem eq_of_mul_threads {pickup : Pickup} {n lo hi : Nat} (hpos : 0 < pickup.threads)
    (h : n * pickup.threads = (pickup.span lo hi).length) : n = hi - lo := by
  rw [Pickup.length_span] at h
  exact Nat.eq_of_mul_eq_mul_right hpos h

/-- The entry of a move. -/
theorem Turn.posts (hc : c.Valid)
    (hturn : Turn c g s (s.block (c.blockOf g)) σ q σ' p block' graph)
    (hphase : s.phase g = q) (hm : Moved c g p block' graph s (step c d g s)) (hbegun : q ≠ .init)
    (hfits : σ.Fits s.graph.numNodes c.lanesPerGroup (s.block (c.blockOf g)).pickup
      (s.block (c.blockOf g)).base)
    (h : Held c (c.blockOf g) σ (s.block (c.blockOf g)) place l) (hplace : place g = q) :
    Posts c s g (s.block (c.blockOf g)).pickup l p graph (nextLedger c d s g l) := by
  have hmem : g ∈ c.party (some (c.blockOf g)) :=
    (LaunchConfig.mem_party_some hc.groups_pos).2 rfl
  have hone : [g] ⊆ c.party (some (c.blockOf g)) := by simpa using hmem
  have hholding := h.holding g hmem
  rw [hplace] at hholding
  have hnow : (step c d g s).phase g = p := by rw [hm.phase, if_pos rfl]
  have hpos : 0 < (s.block (c.blockOf g)).pickup.threads := h.tiles.pos
  obtain ⟨hblock, hgroup, hlanes⟩ :=
    LaunchConfig.batch_le hc (s.block (c.blockOf g)).pickup.threadsPerInvocation
  cases hturn with
  | init | initFault => exact absurd rfl hbegun
  | narrowExecute | wideExecute =>
      rw [nextLedger_execute hphase hnow]
      obtain ⟨⟨hleft, -⟩, -⟩ := hholding
      exact .finishes (by rw [hphase]; rfl) (by rw [hleft]; exact List.mem_cons_self ..)
  | narrowFault | wideFault =>
      rw [nextLedger_fault hphase hnow]
      obtain ⟨⟨hleft, -, -, hlost⟩, -⟩ := hholding
      exact .loses (by rw [hphase]; rfl) (by rw [hleft]; exact List.mem_cons_self ..) hlost
  | narrowSpent hclaim _ | narrowClaim hclaim _ =>
      rw [nextLedger_claimForGroup hphase hclaim]
      obtain ⟨⟨-, hleft, -⟩, -⟩ := hholding
      refine .claims (by rw [hphase]; rfl) (by simp [hphase]) (List.nodup_singleton g) hone
        hfits.2.2 (TaskGraph.claim_cases hclaim).2 (hgroup.trans hlanes)
        (by simpa using hleft) ?_
      rw [List.flatMap_singleton, ownShare_eq_span h.tiles hfits.2.1]
  | searchClaim _ hnode hclaim =>
      rw [nextLedger_claim (.inr hphase) hclaim]
      exact .claims (by rw [hphase]; rfl) (by simp [hphase]) (LaunchConfig.party_nodup _)
        (List.Subset.refl _) hnode (TaskGraph.claim_cases hclaim).2 hblock
        (fun g' hmem' => (h.holding g' hmem').2.1) (flatMap_share_eq_span hc h.tiles _ _)
  | claim _ hclaim =>
      rw [nextLedger_claim (.inl hphase) hclaim]
      exact .claims (by rw [hphase]; rfl) (by simp [hphase]) (LaunchConfig.party_nodup _)
        (List.Subset.refl _) hfits.2.2 (TaskGraph.claim_cases hclaim).2 hblock
        (fun g' hmem' => (h.holding g' hmem').2.1) (flatMap_share_eq_span hc h.tiles _ _)
  | narrowReport hreport | narrowReportFault hreport =>
      rw [nextLedger_report hphase, if_neg hfits.2.1]
      obtain ⟨⟨hleft, hcount, -⟩, lo, hi, hspan⟩ := hholding
      rw [hleft, List.append_nil] at hspan
      rw [hspan] at hcount
      exact .reports hphase (List.nodup_singleton g) hone hfits.2.2 hreport (by simpa using hspan)
        (eq_of_mul_threads hpos hcount) (by simp [Except.isOk, Except.toBool, Phase.isGone])
  | collectReport hleader hreport | collectReportFault hleader hreport =>
      rw [nextLedger_report hphase, if_pos hfits.2.1]
      have htallied := h.tallied
      simp only [Tallied, LaunchConfig.groupAt_of_isLeader hleader, hplace] at htallied
      have hspan := flatMap_share_eq_span hc h.tiles (s.block (c.blockOf g)).base (c.blockOf g)
      rw [hspan] at htallied
      refine .reports hphase (LaunchConfig.party_nodup _) (List.Subset.refl _) hfits.2.2 hreport ?_
        (eq_of_mul_threads hpos htallied.2) (by simp [Except.isOk, Except.toBool, Phase.isGone])
      rw [← hspan]
      exact List.flatMap_congr fun g' hmem' => (h.holding g' hmem').1
  | _ =>
      rw [nextLedger_same hphase rfl]
      exact .nothing (by rw [hphase]; rfl) (by simp [hphase])

end LaunchState
end Lockstep
