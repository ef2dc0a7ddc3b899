import Lockstep.Proofs.Barrier.Standing

/-!
# The invariant of a crowd

Every step of a party, of an abort and of its notification keeps each party standing where its log
says, and the barrier counting those that wait in the present generation.
-/

namespace Lockstep

open CrowdEvent

namespace Crowd

variable {n i j g : Nat} {c : Crowd} {p p' : Party} {log events : List CrowdEvent} {b : Bool}

/-! ## The invariant -/

/-- What a crowd and its log have in common. -/
structure Told (n : Nat) (c : Crowd) (log : List CrowdEvent) : Prop where
  size : c.parties.size = n
  parties : c.barrier.parties = n
  short : c.barrier.arrived < n
  arrived : c.barrier.aborted = false →
    c.barrier.arrived = c.parties.countP (·.waitsIn c.barrier.generation)
  standing : ∀ i p, c.parties[i]? = some p → Standing c.barrier.generation c.barrier.aborted
    c.aborting (entries i log) (results i log) p

theorem told_start (hn : 0 < n) : Told n (start n) [] where
  size := Array.size_replicate
  parties := rfl
  short := hn
  arrived _ := by simp [start, Barrier.new, Party.waitsIn, Array.countP_replicate]
  standing i p hp := by
    obtain rfl : p = .away := by
      rw [start, Array.getElem?_replicate] at hp
      split at hp
      · exact (Option.some.inj hp).symm
      · contradiction
    exact .away 0 rfl rfl fun hne => absurd rfl hne

theorem countP_put (hp : c.parties[i]? = some p) (p' : Party) (g : Nat) :
    (c.put i p').parties.countP (·.waitsIn g) + (if p.waitsIn g then 1 else 0) =
      c.parties.countP (·.waitsIn g) + if p'.waitsIn g then 1 else 0 := by
  obtain ⟨hi, rfl⟩ := Array.getElem?_eq_some_iff.1 hp
  have hle := Array.boole_getElem_le_countP (p := (·.waitsIn g)) hi
  rw [put, Array.setIfInBounds_def, dif_pos hi, Array.countP_set hi]
  omega

namespace Told

variable (h : Told n c log)
include h

theorem exists_party (hi : i < n) : ∃ p, c.parties[i]? = some p ∧
    Standing c.barrier.generation c.barrier.aborted c.aborting (entries i log) (results i log) p := by
  have hp := Array.getElem?_eq_getElem (h.size.symm ▸ hi : i < c.parties.size)
  exact ⟨_, hp, h.standing i _ hp⟩

/-- One party changes its place, and perhaps counts as arrived from now on. -/
theorem put (hp : c.parties[i]? = some p) (hof : Of i events) {arrived : Nat}
    (hshort : arrived < n)
    (hcount : c.barrier.aborted = false →
      arrived + (if p.waitsIn c.barrier.generation then 1 else 0) =
        c.barrier.arrived + if p'.waitsIn c.barrier.generation then 1 else 0)
    (hstanding : Standing c.barrier.generation c.barrier.aborted c.aborting
      (entries i log + entries i events) (results i log ++ results i events) p') :
    Told n { c.put i p' with barrier := { c.barrier with arrived } } (log ++ events) where
  size := by rw [← h.size, Crowd.put, Array.size_setIfInBounds]
  parties := h.parties
  short := hshort
  arrived haborted := by
    have hput := countP_put hp p' c.barrier.generation
    have hadd := hcount haborted
    rw [h.arrived haborted] at hadd
    change arrived = (c.put i p').parties.countP (·.waitsIn c.barrier.generation)
    omega
  standing j q hq := by
    rw [entries_append, results_append]
    by_cases hj : j = i
    · subst hj
      obtain ⟨hi, -⟩ := Array.getElem?_eq_some_iff.1 hp
      rw [Crowd.put, Array.getElem?_setIfInBounds_self_of_lt hi, Option.some.injEq] at hq
      exact hq ▸ hstanding
    · rw [Crowd.put, Array.getElem?_setIfInBounds_ne (Ne.symm hj)] at hq
      rw [(hof j hj).1, (hof j hj).2, Nat.add_zero, List.append_nil]
      exact h.standing j q hq

/-- When the last party arrives, all others wait for it. -/
theorem others_wait (haborted : c.barrier.aborted = false)
    (hlast : c.barrier.arrived + 1 = c.barrier.parties) (hp : c.parties[i]? = some .away)
    {q : Party} (hq : c.parties[j]? = some q) (hj : j ≠ i) :
    ∃ b, q = .waiting c.barrier.generation b := by
  have hput := countP_put hp (.waiting c.barrier.generation false) c.barrier.generation
  simp only [Party.waitsIn, Bool.false_eq_true, if_false, BEq.rfl, if_true] at hput
  have hall : (c.put i (.waiting c.barrier.generation false)).parties.countP
      (·.waitsIn c.barrier.generation) =
        (c.put i (.waiting c.barrier.generation false)).parties.size := by
    rw [Crowd.put, Array.size_setIfInBounds, h.size, ← h.parties, ← hlast, h.arrived haborted]
    exact hput
  have hmem : q ∈ (c.put i (.waiting c.barrier.generation false)).parties := by
    apply Array.mem_of_getElem?
    rwa [Crowd.put, Array.getElem?_setIfInBounds_ne hj.symm]
  exact Party.waitsIn_iff.1 (Array.countP_eq_size.1 hall q hmem)

theorem refuse (haborted : c.barrier.aborted = true) (hp : c.parties[i]? = some .away) :
    Told n c (log ++ [.enters i, .leaves i .aborted]) := by
  have hsame : c.put i .away = c := by
    have hparties : c.parties.setIfInBounds i .away = c.parties := by
      obtain ⟨hi, hself⟩ := Array.getElem?_eq_some_iff.1 hp
      rw [Array.setIfInBounds_def, dif_pos hi, ← hself, Array.set_getElem_self]
    rw [Crowd.put, hparties]
  have hstanding := h.standing i .away hp
  rw [haborted] at hstanding
  rw [← hsame]
  refine h.put hp ((of_nil i).leaves .aborted).enters h.short (fun _ => rfl) ?_
  simpa [haborted] using hstanding.refuse

theorem arrive (haborted : c.barrier.aborted = false)
    (hearly : c.barrier.arrived + 1 ≠ c.barrier.parties) (hp : c.parties[i]? = some .away) :
    Told n { c.put i (.waiting c.barrier.generation false) with
      barrier := { c.barrier with arrived := c.barrier.arrived + 1 } } (log ++ [.enters i]) := by
  have hshort : c.barrier.arrived + 1 < n := by
    have hshort := h.short
    rw [h.parties] at hearly
    omega
  have hstanding := h.standing i .away hp
  rw [haborted] at hstanding
  refine h.put hp (of_nil i).enters hshort (fun _ => by simp [Party.waitsIn]) ?_
  simpa [haborted] using hstanding.arrive

theorem meet (haborted : c.barrier.aborted = false)
    (hlast : c.barrier.arrived + 1 = c.barrier.parties) (hp : c.parties[i]? = some .away) :
    Told n { c.notifyAll with
      barrier := { c.barrier with arrived := 0, generation := c.barrier.generation + 1 } }
      (log ++ [.enters i, .leaves i .released]) := by
  refine ⟨?_, h.parties, Nat.zero_lt_of_lt h.short, fun _ => ?_, fun j q hq => ?_⟩
  · rw [← h.size, notifyAll, Array.size_map]
  · change 0 = (c.parties.map Party.notify).countP (·.waitsIn (c.barrier.generation + 1))
    refine (Array.countP_eq_zero.2 fun q hq => ?_).symm
    obtain ⟨q, hmem, rfl⟩ := Array.mem_map.1 hq
    obtain ⟨j, hj⟩ := Array.mem_iff_getElem?.1 hmem
    by_cases hne : j = i
    · subst hne
      rw [Option.some.inj (hj.symm.trans hp)]
      exact Bool.false_ne_true
    · obtain ⟨b, rfl⟩ := h.others_wait haborted hlast hp hj hne
      simp [Party.notify, Party.waitsIn]
  · rw [notifyAll, Array.getElem?_map] at hq
    obtain ⟨q, hj, rfl⟩ := Option.map_eq_some_iff.1 hq
    by_cases hne : j = i
    · subst hne
      obtain rfl := Option.some.inj (hj.symm.trans hp)
      have hstanding := h.standing j .away hp
      rw [haborted] at hstanding
      simpa [haborted, notifyAll, Party.notify] using hstanding.meet
    · obtain ⟨b, rfl⟩ := h.others_wait haborted hlast hp hj hne
      obtain ⟨hnone, hnothing⟩ := ((of_nil i).leaves .released).enters j hne
      rw [entries_append, results_append, hnone, hnothing, Nat.add_zero, List.append_nil]
      exact (h.standing j _ hj).free

theorem leave (hover : c.barrier.generation ≠ g) (hp : c.parties[i]? = some (.waiting g b)) :
    Told n (c.put i .away) (log ++ [.leaves i .released]) := by
  refine h.put hp ((of_nil i).leaves .released) h.short (fun _ => ?_) ?_
  · simp [Party.waitsIn, hover.symm]
  · simpa using (h.standing i _ hp).leave hover

theorem turnAway (haborted : c.barrier.aborted = true)
    (hp : c.parties[i]? = some (.waiting c.barrier.generation b)) :
    Told n (c.put i .away) (log ++ [.leaves i .aborted]) := by
  have hstanding := h.standing i _ hp
  rw [haborted] at hstanding
  refine h.put hp ((of_nil i).leaves .aborted) h.short
    (fun hopen => absurd (hopen.symm.trans haborted) Bool.false_ne_true) ?_
  simpa [haborted] using hstanding.turnAway

theorem sleep (haborted : c.barrier.aborted = false)
    (hp : c.parties[i]? = some (.waiting c.barrier.generation b)) :
    Told n (c.put i (.waiting c.barrier.generation false)) (log ++ []) := by
  have hstanding := h.standing i _ hp
  rw [haborted] at hstanding
  refine h.put hp (of_nil i) h.short (fun _ => by simp [Party.waitsIn]) ?_
  simpa [haborted] using hstanding.sleep

theorem abort :
    Told n { c with barrier := c.barrier.abort, aborting := c.aborting + 1 } log where
  size := h.size
  parties := h.parties
  short := h.short
  arrived hopen := absurd hopen (by simp [Barrier.abort])
  standing j q hq := (h.standing j q hq).abort

theorem notify (aborting : Nat) : Told n { c.notifyAll with aborting } log where
  size := by rw [← h.size, notifyAll, Array.size_map]
  parties := h.parties
  short := h.short
  arrived haborted := by
    change c.barrier.arrived =
      (c.parties.map Party.notify).countP (·.waitsIn c.barrier.generation)
    rw [h.arrived haborted, Array.countP_map]
    exact Array.countP_congr fun q _ => by rw [Function.comp_apply, q.waitsIn_notify]
  standing j q hq := by
    rw [notifyAll, Array.getElem?_map] at hq
    obtain ⟨q, hj, rfl⟩ := Option.map_eq_some_iff.1 hq
    exact (h.standing j q hj).notify aborting

/-- One party's turn. -/
theorem turn (hp : c.parties[i]? = some p) :
    Told n (c.turn i p).2 (log ++ (c.turn i p).1) := by
  cases p with
  | away =>
      cases haborted : c.barrier.aborted with
      | true =>
          rw [turn_refused haborted]
          exact h.refuse haborted hp
      | false =>
          by_cases hlast : c.barrier.arrived + 1 = c.barrier.parties
          · rw [turn_last haborted hlast]
            exact h.meet haborted hlast hp
          · rw [turn_early haborted hlast]
            exact h.arrive haborted hlast hp
  | waiting g b =>
      by_cases hover : c.barrier.generation = g
      · subst hover
        cases haborted : c.barrier.aborted with
        | true =>
            rw [turn_aborted haborted]
            exact h.turnAway haborted hp
        | false =>
            rw [turn_blocked haborted]
            exact h.sleep haborted hp
      · rw [turn_over hover]
        exact h.leave hover hp

theorem step (m : CrowdMove) : Told n (c.step m) (log ++ c.events m) := by
  cases m with
  | party i =>
      unfold Crowd.step events
      cases hp : c.parties[i]? with
      | none =>
          simp only [move, hp, List.append_nil]
          exact h
      | some p =>
          rw [move_party hp]
          exact h.turn hp
  | abort => exact (List.append_nil log).symm ▸ h.abort
  | notify =>
      unfold Crowd.step events
      simp only [move, List.append_nil]
      split
      · exact h.notify _
      · exact h

theorem follow (moves : List CrowdMove) : Told n (c.follow moves) (log ++ c.log moves) := by
  induction moves generalizing c log with
  | nil => exact (List.append_nil log).symm ▸ h
  | cons m moves ih =>
      have hrest := ih (h.step m)
      rwa [List.append_assoc] at hrest

end Told
end Crowd
end Lockstep
