import Lockstep.Proofs.Lane.Mask
import Lockstep.Proofs.Launch.Ledger

/-!
# Shares

The shares of the groups that serve a claim together make up the claim.  A group that
serves a claim alone, or a narrow claim of its block, gets whole invocations.
-/

namespace Lockstep

/-- The threads of an invocation tile a group, or else a block. -/
structure LaunchConfig.Tiles (c : LaunchConfig) (threads : UInt32) : Prop where
  pos : 0 < threads.toNat
  narrow : ¬ c.lanesPerGroup < threads → threads.toNat ∣ c.lanesPerGroup.toNat
  wide : threads.toNat ∣ c.groupsPerBlock.toNat * c.lanesPerGroup.toNat

namespace LaunchState

variable {c : LaunchConfig} {p : Pickup} {base : UInt32}

theorem ownShare_eq_deal (p : Pickup) (base : UInt32) :
    ownShare c p base = p.deal base.toNat 0 c.lanesPerGroup.toNat := by
  have hlanes : c.lanesPerGroup.toNat < 2 ^ 32 := c.lanesPerGroup.toNat_lt
  rw [ownShare, Pickup.assign_map_snd _ _ _ _ (by simpa using hlanes)]
  rfl

theorem ownShare_eq_nil (h : p.total ≤ base) : ownShare c p base = [] := by
  rw [ownShare_eq_deal, Pickup.deal_eq_nil _ (UInt32.le_iff_toNat_le.1 h)]

theorem ownShare_eq_span (htiles : c.Tiles p.threadsPerInvocation)
    (hnarrow : ¬ c.lanesPerGroup < p.threadsPerInvocation) (base : UInt32) :
    ownShare c p base = p.span (min base.toNat p.total.toNat)
      (min (base.toNat + (c.lanesPerGroup / p.threadsPerInvocation).toNat) p.total.toNat) := by
  have hmul := Nat.mul_div_cancel' (htiles.narrow hnarrow)
  have hspan := p.deal_eq_span htiles.pos base.toNat 0
    (c.lanesPerGroup / p.threadsPerInvocation).toNat
  rw [UInt32.toNat_div] at hspan ⊢
  rw [ownShare_eq_deal]
  simpa only [Pickup.threads, Nat.mul_zero, Nat.add_zero, hmul] using hspan

section Shares

variable (hc : c.Valid)
include hc

theorem rank_add_le (g : Nat) :
    c.rankOf g * c.lanesPerGroup.toNat + c.lanesPerGroup.toNat ≤
      c.groupsPerBlock.toNat * c.lanesPerGroup.toNat := by
  rw [← Nat.succ_mul]
  exact Nat.mul_le_mul_right _ (LaunchConfig.rankOf_lt hc.groups_pos g)

theorem share_eq_deal (p : Pickup) (base : UInt32) (g : Nat) :
    share c p base g =
      p.deal base.toNat (c.rankOf g * c.lanesPerGroup.toNat) c.lanesPerGroup.toNat := by
  have hfirst := LaunchConfig.firstThread_toNat hc g
  rw [share, Pickup.assign_map_snd, hfirst]
  rw [hfirst]
  exact (rank_add_le hc g).trans_lt hc.width_lt

theorem share_eq_nil (h : p.total ≤ base) (g : Nat) : share c p base g = [] := by
  rw [share_eq_deal hc, Pickup.deal_eq_nil _ (UInt32.le_iff_toNat_le.1 h)]

theorem share_eq_span (htiles : c.Tiles p.threadsPerInvocation)
    (hnarrow : ¬ c.lanesPerGroup < p.threadsPerInvocation) (base : UInt32) (g : Nat) :
    ∃ lo hi, share c p base g = p.span lo hi := by
  obtain ⟨m, hm⟩ := htiles.narrow hnarrow
  rw [share_eq_deal hc, hm, Nat.mul_left_comm]
  exact ⟨_, _, p.deal_eq_span htiles.pos base.toNat (c.rankOf g * m) m⟩

/-- The groups of a block share out a claim of the whole block. -/
theorem flatMap_share (p : Pickup) (base : UInt32) (b : Nat) :
    (c.party (some b)).flatMap (share c p base) =
      p.deal base.toNat 0 (c.groupsPerBlock.toNat * c.lanesPerGroup.toNat) := by
  have hgo : ∀ m ≤ c.groupsPerBlock.toNat,
      (List.range' (c.groupAt b 0) m).flatMap (share c p base) =
        p.deal base.toNat 0 (m * c.lanesPerGroup.toNat) := by
    intro m
    induction m with
    | zero => simp [Pickup.deal]
    | succ m ih =>
        intro hm
        have hrank : c.rankOf (c.groupAt b 0 + m) = m := by
          rw [show c.groupAt b 0 + m = c.groupAt b m by simp [LaunchConfig.groupAt],
            LaunchConfig.rankOf_groupAt b hm]
        rw [List.range'_1_concat, List.flatMap_append, ih (Nat.le_of_succ_le hm), Nat.succ_mul,
          Pickup.deal_append, Nat.zero_add, List.flatMap_singleton, share_eq_deal hc, hrank]
  exact hgo _ le_rfl

theorem flatMap_share_eq_span (htiles : c.Tiles p.threadsPerInvocation) (base : UInt32) (b : Nat) :
    (c.party (some b)).flatMap (share c p base) = p.span (min base.toNat p.total.toNat)
      (min (base.toNat + (c.blockWidth / p.threadsPerInvocation).toNat) p.total.toNat) := by
  have hmul := Nat.mul_div_cancel' htiles.wide
  have hspan := p.deal_eq_span htiles.pos base.toNat 0
    (c.blockWidth / p.threadsPerInvocation).toNat
  rw [UInt32.toNat_div, LaunchConfig.blockWidth_toNat hc] at hspan ⊢
  rw [flatMap_share hc]
  simpa only [Pickup.threads, Nat.mul_zero, Nat.add_zero, hmul] using hspan

theorem length_share_le (p : Pickup) (base : UInt32) (g : Nat) :
    (share c p base g).length ≤ c.lanesPerGroup.toNat := by
  rw [share_eq_deal hc, Pickup.deal]
  exact (List.length_filterMap_le _ _).trans (by simp)

end Shares

end LaunchState
end Lockstep
