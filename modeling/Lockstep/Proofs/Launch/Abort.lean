import Lockstep.Proofs.Launch.Coherence

/-!
# Aborts

A group that faults releases the barriers one after another before it stops.  So no
group is sent home before another one has faulted, and once that one has stopped no
barrier holds anybody back.
-/

namespace Lockstep

def Phase.sent (blocks : Nat) : Phase → Option Nat
  | aborting _ n => some n
  | faulted _ => some (blocks + 2)
  | _ => none

namespace LaunchState

variable {η : Type} {c : LaunchConfig} {d : Dispatcher η} {s s' : LaunchState η} {g : Nat}

/-- The first `n` releases have been done. -/
structure Sent (s : LaunchState η) (n : Nat) : Prop where
  mark : 1 ≤ n → s.aborted = true
  start : 2 ≤ n → (s.gate none).aborted = true
  block : ∀ b, b + 2 < n → (s.gate (some b)).aborted = true

/-- Whether the launch, a gate or a group shows that a fault happened. -/
def IsTurned (c : LaunchConfig) (s : LaunchState η) : Prop :=
  s.aborted = true ∨ (∃ k, c.IsGate k ∧ (s.gate k).aborted = true) ∨ ∃ g, s.phase g = .released

/-- A launch shows a fault only when some group has faulted, and each group that faulted is
through with the releases that it counts. -/
structure Contained (c : LaunchConfig) (s : LaunchState η) : Prop where
  sent : ∀ g n, (s.phase g).sent c.numBlocks.toNat = some n → s.Sent n
  cause : s.IsTurned c → ∃ g n, (s.phase g).sent c.numBlocks.toNat = some n

namespace Contained

theorem of_quiet {p : Phase} (h : Contained c s)
    (hphase : ∀ g', s'.phase g' = if g' = g then p else s.phase g')
    (haborted : s'.aborted = s.aborted) (hgate : ∀ k, (s'.gate k).aborted = (s.gate k).aborted)
    (hold : (s.phase g).sent c.numBlocks.toNat = none)
    (hnew : ∀ n, p.sent c.numBlocks.toNat = some n → n = 0)
    (hreleased : p = .released → s.IsTurned c) : Contained c s' := by
  constructor
  · intro g' n hsent
    rw [hphase] at hsent
    split at hsent
    · obtain rfl := hnew n hsent
      exact ⟨fun h => by omega, fun h => by omega, fun b h => by omega⟩
    · have hsent := h.sent g' n hsent
      exact ⟨fun hn => haborted.trans (hsent.mark hn), fun hn => (hgate _).trans (hsent.start hn),
        fun b hb => (hgate _).trans (hsent.block b hb)⟩
  · intro hturned
    have hbefore : s.IsTurned c := by
      rcases hturned with h₁ | ⟨k, hk, h₁⟩ | ⟨g', h₁⟩
      · exact .inl (haborted.symm.trans h₁)
      · exact .inr (.inl ⟨k, hk, (hgate k).symm.trans h₁⟩)
      · rw [hphase] at h₁
        split at h₁
        · exact hreleased h₁
        · exact .inr (.inr ⟨g', h₁⟩)
    obtain ⟨g', n, hsent⟩ := h.cause hbefore
    have hne : g' ≠ g := by
      rintro rfl
      rw [hold] at hsent
      exact absurd hsent (by simp)
    exact ⟨g', n, by rw [hphase, if_neg hne, hsent]⟩

/-- A step that releases one more barrier on behalf of a group that faulted. -/
theorem of_release {p : Phase} {n : Nat} (h : Contained c s)
    (hphase : ∀ g', s'.phase g' = if g' = g then p else s.phase g')
    (haborted : s.aborted = true → s'.aborted = true)
    (hgate : ∀ k, (s.gate k).aborted = true → (s'.gate k).aborted = true)
    (hnew : p.sent c.numBlocks.toNat = some n) (hsent : s'.Sent n) : Contained c s' := by
  constructor
  · intro g' n' hsent'
    rw [hphase] at hsent'
    split at hsent'
    · rw [hnew] at hsent'
      exact Option.some.inj hsent' ▸ hsent
    · have hsent' := h.sent g' n' hsent'
      exact ⟨fun hn => haborted (hsent'.mark hn), fun hn => hgate _ (hsent'.start hn),
        fun b hb => hgate _ (hsent'.block b hb)⟩
  · intro _
    exact ⟨g, n, by rw [hphase, if_pos rfl, hnew]⟩

theorem of_moved {p : Phase} {block : BlockState} {graph : TaskGraph η} (h : Contained c s)
    (hm : Moved c g p block graph s s') (hold : (s.phase g).sent c.numBlocks.toNat = none)
    (hnew : ∀ n, p.sent c.numBlocks.toNat = some n → n = 0)
    (hreleased : p = .released → s.IsTurned c) : Contained c s' :=
  h.of_quiet hm.phase hm.aborted (fun k => by rw [hm.gate]) hold hnew hreleased

theorem of_met {p : Phase} {k : Option Nat} {barrier : Barrier} (h : Contained c s)
    (hm : Met c g p k barrier s s') (hbarrier : barrier.aborted = (s.gate k).aborted)
    (hold : (s.phase g).sent c.numBlocks.toNat = none)
    (hnew : p.sent c.numBlocks.toNat = none) (hreleased : p ≠ .released) : Contained c s' := by
  refine h.of_quiet hm.phase hm.aborted (fun k' => ?_) hold (fun n hn => ?_) fun hp =>
    absurd hp hreleased
  · rw [hm.gate]
    split
    · rename_i hk
      rw [hk, hbarrier]
    · rfl
  · rw [hnew] at hn
    exact absurd hn (by simp)

theorem step_aborting {fault : Fault} {n : Nat} (h : Contained c s)
    (hsize : s.blocks.size = c.numBlocks.toNat) (hphase : s.phase g = .aborting fault n)
    (hreleases : Releases c g fault s s' n) : Contained c s' := by
  have hsent : s.Sent n := h.sent g n (by rw [hphase]; rfl)
  have habort : ∀ (k : Option Nat) (n' : Nat),
      Met c g (.aborting fault n') k (s.gate k).abort s s' →
      ∀ k', (s.gate k').aborted = true ∨ k' = k →
        (s'.gate k').aborted = true := by
    intro k n' hm k' hk'
    rw [hm.gate]
    split
    · rfl
    · rename_i hne
      exact hk'.resolve_right hne
  cases hreleases with
  | mark hm =>
      refine h.of_release hm.phase (fun _ => hm.aborted) (fun k hk => ?_) rfl
        ⟨fun _ => hm.aborted, fun h => by omega, fun b h => by omega⟩
      rw [hm.gate]
      exact hk
  | start hm =>
      refine h.of_release hm.phase (fun hs => hm.aborted.trans hs)
        (fun k hk => habort none _ hm k (.inl hk)) rfl
        ⟨fun _ => hm.aborted.trans (hsent.mark (by omega)),
          fun _ => habort none _ hm none (.inr rfl), fun b h => by omega⟩
  | block b hb hm =>
      refine h.of_release hm.phase (fun hs => hm.aborted.trans hs)
        (fun k hk => habort (some b) _ hm k (.inl hk)) rfl
        ⟨fun _ => hm.aborted.trans (hsent.mark (by omega)),
          fun _ => habort (some b) _ hm none (.inl (hsent.start (by omega))), fun b' hb' => ?_⟩
      by_cases hlast : b' = b
      · exact habort (some b) _ hm (some b') (.inr (by rw [hlast]))
      · exact habort (some b) _ hm (some b') (.inl (hsent.block b' (by omega)))
  | done b hb hm =>
      refine h.of_release hm.phase (fun hs => hm.aborted.trans hs)
        (fun k hk => by rwa [hm.gate]) rfl
        ⟨fun _ => hm.aborted.trans (hsent.mark (by omega)), fun _ => ?_, fun b' hb' => ?_⟩
      · rw [hm.gate]
        exact hsent.start (by omega)
      · rw [hm.gate]
        exact hsent.block b' (by omega)

end Contained

theorem Move.sent {p q : Phase} {block block' : BlockState} {graph : TaskGraph η}
    (h : Move c g s block q p block' graph) (blocks : Nat) :
    q.sent blocks = none ∧ (∀ n, p.sent blocks = some n → n = 0) ∧
      (p = .released → s.aborted = true) := by
  cases h <;> simp_all [Phase.sent]

theorem afterSite_stays (blocks : Nat) (leader : Bool) (site : Site) :
    (afterSite leader site).sent blocks = none ∧ afterSite leader site ≠ .released := by
  cases site <;> cases leader <;> simp [afterSite, Phase.sent]

namespace Contained

theorem step (h : Contained c s) (hgroups : s.groups.size = c.numGroups)
    (hblocks : s.blocks.size = c.numBlocks.toNat) (g : Nat) : Contained c (step c d g s) := by
  cases stepped (d := d) hgroups hblocks g with
  | moves hg hphase _ hmove hm =>
      subst hphase
      obtain ⟨hold, hnew, hreleased⟩ := hmove.sent c.numBlocks.toNat
      exact h.of_moved hm hold hnew fun hp => .inl (hreleased hp)
  | @arrives site hg hphase harrives =>
      have hold : (s.phase g).sent c.numBlocks.toNat = none := by rw [hphase]; rfl
      obtain ⟨hafter, hreleased⟩ := afterSite_stays c.numBlocks.toNat (c.isLeader g) site
      cases harrives with
      | turnedAway haborted hm =>
          exact h.of_moved hm hold (by simp [Phase.sent]) fun _ =>
            .inr (.inl ⟨_, LaunchConfig.isGate_gate hg site, haborted⟩)
      | waits _ _ hm => exact h.of_met hm rfl hold rfl (by simp)
      | meets _ hm => exact h.of_met hm rfl hold hafter hreleased
  | @looks site n hg hphase hlooks =>
      have hold : (s.phase g).sent c.numBlocks.toNat = none := by rw [hphase]; rfl
      obtain ⟨hafter, hreleased⟩ := afterSite_stays c.numBlocks.toNat (c.isLeader g) site
      cases hlooks with
      | blocked _ _ hs => rwa [hs]
      | released _ hm =>
          exact h.of_moved hm hold (fun n hn => by simp [hafter] at hn) fun hp =>
            absurd hp hreleased
      | sentAway _ haborted hm =>
          exact h.of_moved hm hold (by simp [Phase.sent]) fun _ =>
            .inr (.inl ⟨_, LaunchConfig.isGate_gate hg site, haborted⟩)
  | releases _ hphase hreleases => exact h.step_aborting hblocks hphase hreleases
  | stays _ hs => rwa [hs]

theorem initial (graph : TaskGraph η) (device : Device η) (trace : DeviceTrace) :
    Contained c (.initial c graph device trace) := by
  have hphase : ∀ g, (LaunchState.initial c graph device trace).phase g = .init ∨
      (LaunchState.initial c graph device trace).phase g = .enter .start ∨
      (LaunchState.initial c graph device trace).phase g = .exited := by
    intro g
    by_cases hg : g < c.numGroups
    · by_cases h : g = 0
      · subst h
        simp [LaunchState.initial, phase, hg]
      · simp [LaunchState.initial, phase, hg, Ne.symm h]
    · simp [LaunchState.initial, phase, hg]
  constructor
  · intro g n hsent
    rcases hphase g with h | h | h <;> rw [h] at hsent <;> simp [Phase.sent] at hsent
  · rintro (h | ⟨k, hk, h⟩ | ⟨g, h⟩)
    · exact absurd h Bool.false_ne_true
    · cases k with
      | none => exact absurd h Bool.false_ne_true
      | some b =>
          have hb : b < c.numBlocks.toNat := hk
          simp [LaunchState.gate, LaunchState.block, LaunchState.initial, hb, BlockState.initial,
            Barrier.new] at h
    · rcases hphase g with h' | h' | h' <;> rw [h'] at h <;> simp at h

theorem follow {stage : Nat → Stage} (h : Contained c s) (hc : Coherent c s stage)
    (schedule : List Nat) : Contained c (follow c d schedule s) := by
  induction schedule generalizing s stage with
  | nil => exact h
  | cons g schedule ih => exact ih (h.step hc.groups_size hc.blocks_size g) (hc.step g)

end Contained
end LaunchState
end Lockstep
