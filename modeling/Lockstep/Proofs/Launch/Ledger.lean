import Lockstep.Launch.History
import Lockstep.Proofs.Launch.Turn
import Lockstep.Proofs.Lane.Deal
import Mathlib.Algebra.Order.Group.Multiset
import Mathlib.Data.List.Flatten
import Mathlib.Tactic.Abel

/-!
# Ledgers

A ledger keeps account of the work of a launch along a schedule: what has been dealt to
each group and not returned yet, what has returned, what has been reported, and what
ended in a fault.  It only watches the launch; no step depends on it.
-/

namespace Lockstep

/-- Where the work stands that a launch has claimed.  It is `reported`, or it belongs to a
group, which `ran` it since its last report or has it `left`; what a group `lost`, which
ended in a fault, stays among what it has left. -/
structure Ledger where
  reported : List Work
  ran : Nat → List Work
  left : Nat → List Work
  lost : Nat → List Work

namespace Ledger

def empty : Ledger := ⟨[], fun _ => [], fun _ => [], fun _ => []⟩

def hand (l : Ledger) (g : Nat) : List Work := l.ran g ++ l.left g

def deal (l : Ledger) (groups : List Nat) (share : Nat → List Work) : Ledger :=
  { l with left := fun g => if g ∈ groups then share g else l.left g }

def finish (l : Ledger) (g : Nat) (work : Work) : Ledger :=
  { l with
    ran := Function.update l.ran g (l.ran g ++ [work])
    left := Function.update l.left g ((l.left g).erase work) }

def lose (l : Ledger) (g : Nat) (work : Work) : Ledger :=
  { l with lost := Function.update l.lost g [work] }

def settle (l : Ledger) (groups : List Nat) : Ledger :=
  { l with
    reported := l.reported ++ groups.flatMap l.ran
    ran := fun g => if g ∈ groups then [] else l.ran g }

section Entries

variable (l : Ledger) (groups : List Nat) (share : Nat → List Work) (g : Nat) (work : Work)

@[simp] theorem reported_deal : (l.deal groups share).reported = l.reported := rfl

@[simp] theorem ran_deal : (l.deal groups share).ran = l.ran := rfl

@[simp] theorem lost_deal : (l.deal groups share).lost = l.lost := rfl

@[simp] theorem left_deal :
    (l.deal groups share).left g = if g ∈ groups then share g else l.left g := rfl

@[simp] theorem reported_finish : (l.finish g work).reported = l.reported := rfl

@[simp] theorem lost_finish : (l.finish g work).lost = l.lost := rfl

@[simp] theorem reported_lose : (l.lose g work).reported = l.reported := rfl

@[simp] theorem ran_lose : (l.lose g work).ran = l.ran := rfl

@[simp] theorem left_lose : (l.lose g work).left = l.left := rfl

@[simp] theorem left_settle : (l.settle groups).left = l.left := rfl

@[simp] theorem lost_settle : (l.settle groups).lost = l.lost := rfl

@[simp] theorem ran_settle : (l.settle groups).ran g = if g ∈ groups then [] else l.ran g := rfl

end Entries

end Ledger

def pooled (groups : List Nat) (f : Nat → List Work) : Multiset Work :=
  (groups.flatMap f : List Work)

section Pooled

variable {groups all : List Nat} {f f' : Nat → List Work}

@[simp] theorem pooled_singleton (g : Nat) (f : Nat → List Work) : pooled [g] f = f g := by
  simp [pooled]

theorem pooled_congr (h : ∀ g ∈ groups, f g = f' g) : pooled groups f = pooled groups f' := by
  unfold pooled
  rw [List.flatMap_congr h]

theorem pooled_eq_zero (h : ∀ g ∈ groups, f g = []) : pooled groups f = 0 := by
  rw [pooled, List.flatMap_eq_nil_iff.2 h]
  rfl

theorem pooled_le (h : ∀ g ∈ groups, (f g).Sublist (f' g)) :
    pooled groups f ≤ pooled groups f' := by
  unfold pooled
  exact Multiset.coe_le.2 (List.Sublist.flatMap_right groups h).subperm

theorem mem_pooled {w : Work} : w ∈ pooled groups f ↔ ∃ g ∈ groups, w ∈ f g := by
  simp [pooled]

theorem pooled_split (hall : all.Nodup) (hgroups : groups.Nodup) (hsub : groups ⊆ all)
    (f : Nat → List Work) :
    pooled all f = pooled groups f + pooled (all.filter (· ∉ groups)) f := by
  have hperm : (all.filter (· ∈ groups)).Perm groups := by
    apply (List.perm_ext_iff_of_nodup (hall.filter _) hgroups).2
    intro g
    simp only [List.mem_filter, decide_eq_true_eq, and_iff_right_iff_imp]
    exact fun hg => hsub hg
  have hsplit : (all.filter (· ∈ groups) ++ all.filter (· ∉ groups)).Perm all := by
    simpa using List.filter_append_perm (· ∈ groups) all
  unfold pooled
  rw [Multiset.coe_add, ← List.flatMap_append, Multiset.coe_eq_coe]
  exact (hsplit.symm.trans (hperm.append_right _)).flatMap_right f

/-- The work of some groups, of which those apart from `groups` keep theirs. -/
theorem pooled_change (hall : all.Nodup) (hgroups : groups.Nodup) (hsub : groups ⊆ all)
    (h : ∀ g ∉ groups, f' g = f g) :
    pooled all f' + pooled groups f = pooled all f + pooled groups f' := by
  have hrest : pooled (all.filter (· ∉ groups)) f' = pooled (all.filter (· ∉ groups)) f :=
    pooled_congr fun g hg => h g (by simpa using (List.mem_filter.1 hg).2)
  rw [pooled_split hall hgroups hsub f', pooled_split hall hgroups hsub f, hrest]
  abel

end Pooled

theorem sum_map_change {groups : List Nat} {g : Nat} {f f' : Nat → Nat} (hnodup : groups.Nodup)
    (hmem : g ∈ groups) (h : ∀ g' ∈ groups, g' ≠ g → f' g' = f g') :
    (groups.map f').sum + f g = (groups.map f).sum + f' g := by
  have hperm := List.perm_cons_erase hmem
  have hrest : (groups.erase g).map f' = (groups.erase g).map f := by
    apply List.map_congr_left
    intro g' hg'
    exact h g' (List.mem_of_mem_erase hg') ((hnodup.mem_erase_iff.1 hg').1)
  rw [(hperm.map f).sum_nat, (hperm.map f').sum_nat, List.map_cons, List.map_cons, List.sum_cons,
    List.sum_cons, hrest]
  omega

theorem sum_map_le {groups : List Nat} {f : Nat → Nat} {bound : Nat}
    (h : ∀ g ∈ groups, f g ≤ bound) : (groups.map f).sum ≤ groups.length * bound := by
  induction groups with
  | nil => simp
  | cons g groups ih =>
      have hg := h g (List.mem_cons_self ..)
      have hrest := ih fun g' hg' => h g' (List.mem_cons_of_mem _ hg')
      rw [List.map_cons, List.sum_cons, List.length_cons, Nat.succ_mul]
      omega

/-- The moves that a ledger takes note of. -/
def Phase.isPosting : Phase → Bool
  | .claimForGroup _ | .claimForBlock _ | .claimFirst _ | .execute (_ :: _) _ | .report .. => true
  | _ => false

namespace LaunchState

variable {η : Type} {c : LaunchConfig} {d : Dispatcher η} {s s' : LaunchState η} {g : Nat}

def share (c : LaunchConfig) (p : Pickup) (base : UInt32) (g : Nat) : List Work :=
  (p.assign base (c.firstThread g) c.lanesPerGroup).map Prod.snd

def ownShare (c : LaunchConfig) (p : Pickup) (base : UInt32) : List Work :=
  (p.assign base 0 c.lanesPerGroup).map Prod.snd

/-- The ledger after the next step of a group. -/
def nextLedger (c : LaunchConfig) (d : Dispatcher η) (s : LaunchState η) (g : Nat) (l : Ledger) :
    Ledger :=
  let b := c.blockOf g
  match s.phase g with
  | .claimForGroup held =>
      match s.graph.claim held.node (c.lanesPerGroup / held.threadsPerInvocation) with
      | .ok (base, _) => l.deal [g] fun _ => ownShare c held base
      | .error _ => l
  | .claimForBlock held | .claimFirst held =>
      match s.graph.claim held.node (c.blockWidth / held.threadsPerInvocation) with
      | .ok (base, _) => l.deal (c.party (some b)) (share c held base)
      | .error _ => l
  | .execute ((_, work) :: _) _ =>
      match (step c d g s).phase g with
      | .aborting .. => l.lose g work
      | _ => l.finish g work
  | .report .. =>
      if c.lanesPerGroup < (s.block b).pickup.threadsPerInvocation then
        l.settle (c.party (some b))
      else l.settle [g]
  | _ => l

def ledger (c : LaunchConfig) (d : Dispatcher η) : (schedule : List Nat) → LaunchState η →
    Ledger → Ledger
  | [], _, l => l
  | g :: schedule, s, l => ledger c d schedule (step c d g s) (nextLedger c d s g l)

end LaunchState
end Lockstep
