import Lockstep.Proofs.Launch.Faults
import Lockstep.Proofs.Launch.Frame

/-!
# Ballots

A group runs the work of its lanes one after another, whatever the others do in between.
Unless an invocation faults it is done after one step for each lane and a last one, and its
ballot then names just the lanes that ran.
-/

namespace Lockstep
namespace LaunchState

variable {η : Type} {c : LaunchConfig} {d : Dispatcher η} {s : LaunchState η} {g g' : Nat}
  {schedule : List Nat}

/-- An invocation of the work `given` to a group faults on the way, and that ends the group. -/
def Fails (c : LaunchConfig) (d : Dispatcher η) (g : Nat) (given : List (UInt32 × Work))
    (schedule : List Nat) (s : LaunchState η) : Prop :=
  ((follow c d schedule s).phase g).isGone = true ∧
    ∃ before after lane work fault, schedule = before ++ g :: after ∧ (lane, work) ∈ given ∧
      (invoke c d g lane work (follow c d before s)).1 = .error fault

theorem Fails.cons {given given' : List (UInt32 × Work)} (hsub : given ⊆ given')
    (h : Fails c d g given schedule (step c d g' s)) :
    Fails c d g given' (g' :: schedule) s := by
  obtain ⟨hgone, before, after, lane, work, fault, rfl, hmem, herror⟩ := h
  exact ⟨hgone, g' :: before, after, lane, work, fault, rfl, hsub hmem, herror⟩

/-- The ballot of a group that still has to run `pending` adds just these lanes to those that
have run. -/
theorem Sized.ballot (h : Sized c s) {pending : List (UInt32 × Work)} {executed : LaneMask}
    (hphase : s.phase g = .execute pending executed) (hfresh : Fresh pending executed)
    (hsteps : schedule.count g = pending.length + 1) :
    Fails c d g pending schedule s ∨
      ∃ ballot, (follow c d schedule s).phase g = .tally ballot ∧
        ballot.count = executed.count + pending.length ∧
        ∀ lane, ballot.has lane = true ↔
          executed.has lane = true ∨ lane ∈ pending.map Prod.fst := by
  induction schedule generalizing s pending executed with
  | nil => simp at hsteps
  | cons g' schedule ih =>
      obtain ⟨hsized, hother⟩ := h.step_frame (d := d) g'
      by_cases hg' : g' = g
      · subst hg'
        rw [List.count_cons_self, Nat.add_right_cancel_iff] at hsteps
        cases stepped (d := d) h.groups h.blocks g' with
        | @moves q p block graph hg hq hapart hmove hm =>
            obtain rfl := hphase.symm.trans hq
            have hnow : (step c d g' s).phase g' = p := by rw [hm.phase, if_pos rfl]
            cases hmove with
            | executed =>
                have hkeep := hsized.phase_follow (d := d) (List.count_eq_zero.1 hsteps)
                exact .inr ⟨executed, hkeep.trans hnow, rfl, by simp⟩
            | @execute lane work pending _ executed' hset =>
                obtain ⟨hcount, hfresh'⟩ := hfresh.next hset
                have hhas := LaneMask.has_of_set (hfresh.lt lane (List.mem_cons_self ..)) hset
                rcases ih hsized hnow hfresh' hsteps with hfails | ⟨ballot, hend, hsum, hlanes⟩
                · exact .inl (hfails.cons (List.subset_cons_self ..))
                · refine .inr ⟨ballot, hend, ?_, fun other => ?_⟩
                  · rw [hsum, hcount, List.length_cons]
                    omega
                  · rw [hlanes, hhas]
                    simp [or_assoc, UInt32.toNat_inj]
            | executeFault =>
                have herror := step_execute (h.groups ▸ hg) hphase hfresh hnow
                have hgone := hsized.isGone_follow (d := d) (by rw [hnow]; rfl) schedule
                exact .inl ⟨hgone, [], schedule, _, _, _, rfl, List.mem_cons_self .., herror⟩
        | arrives _ hq | looks _ hq | releases _ hq =>
            rw [hphase] at hq
            contradiction
        | stays hq =>
            rw [hphase] at hq
            contradiction
      · rw [List.count_cons_of_ne hg'] at hsteps
        rcases ih hsized ((hother g (Ne.symm hg')).trans hphase) hfresh hsteps with
          hfails | hballot
        · exact .inl (hfails.cons (List.Subset.refl _))
        · exact .inr hballot

end LaunchState
end Lockstep
