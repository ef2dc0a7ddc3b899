import Lockstep.Launch.History
import Lockstep.Proofs.Launch.Move

/-!
# Frames

What a step leaves as it is: the number of groups and blocks, the places of all groups but
one, and the device unless an invocation runs.  A group that has faulted or has been sent
home never comes back.
-/

namespace Lockstep
namespace LaunchState

variable {η : Type} {c : LaunchConfig} {d : Dispatcher η} {s : LaunchState η} {g : Nat}
  {schedule : List Nat}

/-- The state has a place for every group and notes for every block. -/
structure Sized (c : LaunchConfig) (s : LaunchState η) : Prop where
  groups : s.groups.size = c.numGroups
  blocks : s.blocks.size = c.numBlocks.toNat

namespace Sized

/-- A step of one group leaves all others where they are. -/
theorem step_frame (h : Sized c s) (g : Nat) :
    Sized c (step c d g s) ∧ ∀ g' ≠ g, (step c d g s).phase g' = s.phase g' := by
  have of_phase : ∀ {s' : LaunchState η} {p : Phase}, s'.groups.size = s.groups.size →
      s'.blocks.size = s.blocks.size →
      (∀ g', s'.phase g' = if g' = g then p else s.phase g') →
      Sized c s' ∧ ∀ g' ≠ g, s'.phase g' = s.phase g' := fun hgroups hblocks hphase =>
    ⟨⟨hgroups.trans h.groups, hblocks.trans h.blocks⟩, fun g' hne => by rw [hphase, if_neg hne]⟩
  cases stepped (d := d) h.groups h.blocks g with
  | moves _ _ _ _ hm => exact of_phase hm.groups_size hm.blocks_size hm.phase
  | arrives _ _ harrives =>
      cases harrives with
      | turnedAway _ hm => exact of_phase hm.groups_size hm.blocks_size hm.phase
      | waits _ _ hm | meets _ hm => exact of_phase hm.groups_size hm.blocks_size hm.phase
  | looks _ _ hlooks =>
      cases hlooks with
      | blocked _ _ hs =>
          rw [hs]
          exact ⟨h, fun _ _ => rfl⟩
      | released _ hm | sentAway _ _ hm =>
          exact of_phase hm.groups_size hm.blocks_size hm.phase
  | releases _ _ hreleases =>
      cases hreleases with
      | mark hm | done _ _ hm => exact of_phase hm.groups_size hm.blocks_size hm.phase
      | start hm | block _ _ hm => exact of_phase hm.groups_size hm.blocks_size hm.phase
  | stays _ hs =>
      rw [hs]
      exact ⟨h, fun _ _ => rfl⟩

theorem phase_follow (h : Sized c s) (hg : g ∉ schedule) :
    (follow c d schedule s).phase g = s.phase g := by
  induction schedule generalizing s with
  | nil => rfl
  | cons g' schedule ih =>
      obtain ⟨hsized, hphase⟩ := h.step_frame (d := d) g'
      obtain ⟨hne, hg⟩ := not_or.1 (List.mem_cons.not.1 hg)
      rw [follow_cons, ih hsized hg, hphase g hne]

theorem isGone_step (h : Sized c s) (hgone : (s.phase g).isGone = true) (g' : Nat) :
    ((step c d g' s).phase g).isGone = true := by
  obtain ⟨-, hother⟩ := h.step_frame (d := d) g'
  by_cases hne : g = g'
  · subst hne
    cases stepped (d := d) h.groups h.blocks g with
    | @moves q _ _ _ _ hq hapart =>
        rw [hq] at hgone
        cases q <;> contradiction
    | arrives _ hq | looks _ hq =>
        rw [hq] at hgone
        contradiction
    | releases _ _ hreleases =>
        cases hreleases with
        | mark hm | done _ _ hm =>
            rw [hm.phase, if_pos rfl]
            rfl
        | start hm | block _ _ hm =>
            rw [hm.phase, if_pos rfl]
            rfl
    | stays _ hs => rwa [hs]
  · rwa [hother g hne]

theorem isGone_follow (h : Sized c s) (hgone : (s.phase g).isGone = true)
    (schedule : List Nat) : ((follow c d schedule s).phase g).isGone = true := by
  induction schedule generalizing s with
  | nil => exact hgone
  | cons g' schedule ih => exact ih (h.step_frame g').1 (h.isGone_step hgone g')

end Sized

/-- A step whose work the history lists is the invocation of that work, and then the group moves
on. -/
theorem step_of_work? {work : Work} (h : (s.phase g).work? = some work) :
    ∃ lane pending executed p, s.phase g = .execute ((lane, work) :: pending) executed ∧
      step c d g s = (invoke c d g lane work s).2.goto g p := by
  cases hphase : s.phase g with
  | execute pending executed =>
      rcases pending with - | ⟨⟨lane, work'⟩, pending⟩
      · rw [hphase] at h
        contradiction
      · rw [hphase] at h
        obtain rfl : work' = work := Option.some.inj h
        have hmoves : ∃ p, step c d g s = (invoke c d g lane work' s).2.goto g p := by
          simp only [step, hphase]
          split <;> exact ⟨_, rfl⟩
        obtain ⟨p, hstep⟩ := hmoves
        exact ⟨lane, pending, executed, p, rfl, hstep⟩
  | _ =>
      rw [hphase] at h
      contradiction

theorem invoke_congr {d' : Dispatcher η} {work : Work}
    (h : d'.get? work.func = d.get? work.func) (lane : UInt32) :
    invoke c d' g lane work s = invoke c d g lane work s := by
  simp only [invoke, h]

/-- A step looks up no function but that of the work which the history lists for it. -/
theorem step_congr {d' : Dispatcher η}
    (h : ∀ work, (s.phase g).work? = some work → d'.get? work.func = d.get? work.func) :
    step c d' g s = step c d g s := by
  cases hphase : s.phase g with
  | execute pending executed =>
      rcases pending with - | ⟨⟨lane, work⟩, pending⟩
      · simp only [step, hphase]
      · have hget := h work (by rw [hphase]; rfl)
        simp only [step, hphase, invoke_congr hget]
  | _ => simp only [step, hphase]

/-- A launch invokes the work of its history and no other: it does not depend on the functions
that its dispatcher has for the rest. -/
theorem follow_congr {d' : Dispatcher η}
    (h : ∀ work ∈ history c d schedule s, d'.get? work.func = d.get? work.func) :
    follow c d' schedule s = follow c d schedule s ∧
      history c d' schedule s = history c d schedule s := by
  induction schedule generalizing s with
  | nil => exact ⟨rfl, rfl⟩
  | cons g schedule ih =>
      obtain ⟨hnow, hlater⟩ := List.forall_mem_append.1 h
      have hstep : step c d' g s = step c d g s :=
        step_congr fun work hwork => hnow work (Option.mem_toList.2 hwork)
      obtain ⟨hfollow, hhistory⟩ := ih hlater
      rw [follow_cons, follow_cons, history, history, hstep, hfollow, hhistory]
      exact ⟨rfl, rfl⟩

theorem step_device (c : LaunchConfig) (d : Dispatcher η) (g : Nat) (s : LaunchState η) :
    (step c d g s).device =
      match s.phase g with
      | .execute ((lane, work) :: _) _ => (invoke c d g lane work s).2.device
      | _ => s.device := by
  cases hphase : s.phase g with
  | execute pending executed =>
      rcases pending with - | ⟨⟨lane, work⟩, pending⟩
      · simp only [step, hphase]
        rfl
      · have hwork : (s.phase g).work? = some work := by
          rw [hphase]
          rfl
        obtain ⟨lane', pending', executed', p, hphase', hstep⟩ :=
          step_of_work? (c := c) (d := d) hwork
        cases hphase.symm.trans hphase'
        rw [hstep]
        rfl
  | aborting fault n =>
      simp only [step, hphase]
      rcases n with _ | _ | b
      · rfl
      · rfl
      · simp only [releaseNext]
        split <;> rfl
  | enter site =>
      simp only [step, hphase]
      cases site <;> split <;> rfl
  | noteLeave =>
      simp only [step, hphase]
      split <;> rfl
  | _ =>
      simp only [step, hphase]
      repeat' split
      all_goals rfl

end LaunchState
end Lockstep
