import Lockstep.Barrier.Crowd
import Mathlib.Data.List.Basic

/-!
# Where the parties at a barrier stand

What one party has done decides where it is.  Its waits were released, one in each generation, until
it was turned away; if it waits, then in the present generation, or in the last, not yet gone.
-/

namespace Lockstep

open CrowdEvent

namespace CrowdEvent

variable {i : Nat} {log : List CrowdEvent}

@[simp] theorem entries_nil (i : Nat) : entries i [] = 0 := rfl

@[simp] theorem results_nil (i : Nat) : results i [] = [] := rfl

@[simp] theorem entries_append (i : Nat) (log more : List CrowdEvent) :
    entries i (log ++ more) = entries i log + entries i more := List.count_append

@[simp] theorem results_append (i : Nat) (log more : List CrowdEvent) :
    results i (log ++ more) = results i log ++ results i more := List.filterMap_append

@[simp] theorem entries_enters_cons (i j : Nat) (log : List CrowdEvent) :
    entries i (enters j :: log) = entries i log + if j = i then 1 else 0 := by
  simp [entries, List.count_cons]

@[simp] theorem entries_leaves_cons (i j : Nat) (result : WaitEnd) (log : List CrowdEvent) :
    entries i (leaves j result :: log) = entries i log := by
  simp [entries]

@[simp] theorem results_enters_cons (i j : Nat) (log : List CrowdEvent) :
    results i (enters j :: log) = results i log := rfl

@[simp] theorem results_leaves_cons (i j : Nat) (result : WaitEnd) (log : List CrowdEvent) :
    results i (leaves j result :: log) =
      if j = i then result :: results i log else results i log := by
  by_cases h : j = i
  · simp only [results, List.filterMap_cons, result?, h, if_true]
  · simp only [results, List.filterMap_cons, result?, h, if_false]

/-- Whether events are those of one party. -/
def Of (i : Nat) (events : List CrowdEvent) : Prop :=
  ∀ j, j ≠ i → entries j events = 0 ∧ results j events = []

theorem of_nil (i : Nat) : Of i [] := fun _ _ => ⟨rfl, rfl⟩

theorem Of.enters (h : Of i log) : Of i (.enters i :: log) := by
  intro j hj
  rw [entries_enters_cons, if_neg hj.symm, results_enters_cons, Nat.add_zero]
  exact h j hj

theorem Of.leaves (h : Of i log) (result : WaitEnd) : Of i (.leaves i result :: log) := by
  intro j hj
  rw [entries_leaves_cons, results_leaves_cons, if_neg hj.symm]
  exact h j hj

end CrowdEvent

@[simp] theorem Party.waitsIn_notify (p : Party) (g : Nat) : p.notify.waitsIn g = p.waitsIn g := by
  cases p <;> rfl

theorem Barrier.aborted_arrive (b : Barrier) : b.arrive.2.aborted = b.aborted := by
  unfold arrive
  split_ifs <;> rfl

theorem Barrier.arrive_of_aborted {b : Barrier} (haborted : b.aborted = true) :
    b.arrive = (.aborted, b) := if_pos haborted

theorem Barrier.abort_of_aborted {b : Barrier} (haborted : b.aborted = true) : b.abort = b :=
  congrArg (Barrier.mk _ _ _) haborted.symm

theorem Party.waitsIn_iff {p : Party} {g : Nat} : p.waitsIn g = true ↔ ∃ b, p = .waiting g b := by
  cases p <;> simp [waitsIn]

namespace Crowd

variable {i g : Nat} {c : Crowd} {p : Party}

theorem turn_refused (haborted : c.barrier.aborted = true) (i : Nat) :
    c.turn i .away = ([.enters i, .leaves i .aborted], c) := by
  simp only [turn, Barrier.arrive, haborted, if_true]

theorem turn_last (haborted : c.barrier.aborted = false)
    (hlast : c.barrier.arrived + 1 = c.barrier.parties) (i : Nat) :
    c.turn i .away = ([.enters i, .leaves i .released], { c.notifyAll with
      barrier := { c.barrier with arrived := 0, generation := c.barrier.generation + 1 } }) := by
  simp only [turn, Barrier.arrive, haborted, Bool.false_eq_true, if_false, hlast, if_true]

theorem turn_early (haborted : c.barrier.aborted = false)
    (hearly : c.barrier.arrived + 1 ≠ c.barrier.parties) (i : Nat) :
    c.turn i .away = ([.enters i], { c.put i (.waiting c.barrier.generation false) with
      barrier := { c.barrier with arrived := c.barrier.arrived + 1 } }) := by
  simp only [turn, Barrier.arrive, haborted, Bool.false_eq_true, if_false, hearly]

theorem turn_over (hover : c.barrier.generation ≠ g) (i : Nat) (b : Bool) :
    c.turn i (.waiting g b) = ([.leaves i .released], c.put i .away) := by
  simp only [turn, Barrier.poll, ne_eq, hover, not_false_eq_true, if_true]

theorem turn_aborted (haborted : c.barrier.aborted = true) (i : Nat) (b : Bool) :
    c.turn i (.waiting c.barrier.generation b) = ([.leaves i .aborted], c.put i .away) := by
  simp only [turn, Barrier.poll, ne_eq, not_true_eq_false, if_false, haborted, if_true]

theorem turn_blocked (haborted : c.barrier.aborted = false) (i : Nat) (b : Bool) :
    c.turn i (.waiting c.barrier.generation b) =
      ([], c.put i (.waiting c.barrier.generation false)) := by
  simp only [turn, Barrier.poll, ne_eq, not_true_eq_false, if_false, haborted, Bool.false_eq_true]

theorem move_party (hp : c.parties[i]? = some p) : c.move (.party i) = c.turn i p := by
  simp only [move, hp]

/-! ## Where the parties stand -/

/-- Where a party stands at a barrier, by what it has done: its waits were released until it was
turned away, and if it waits, then in the present generation or, not yet gone, in the last. -/
inductive Standing (generation : Nat) (aborted : Bool) (aborting : Nat) (entered : Nat)
    (results : List WaitEnd) : Party → Prop where
  | away (refusals : Nat) (hentered : entered = generation + refusals)
      (hresults : results = List.replicate generation .released ++
        List.replicate refusals .aborted)
      (haborted : refusals ≠ 0 → aborted = true) :
      Standing generation aborted aborting entered results .away
  | waits (notified : Bool) (hentered : entered = generation + 1)
      (hresults : results = List.replicate generation .released)
      (hnotified : notified = false → aborted = true → 0 < aborting) :
      Standing generation aborted aborting entered results (.waiting generation notified)
  | freed (last : Nat) (hlast : last + 1 = generation) (hentered : entered = generation)
      (hresults : results = List.replicate last .released) :
      Standing generation aborted aborting entered results (.waiting last true)

namespace Standing

variable {generation aborting entered : Nat} {aborted : Bool} {results : List WaitEnd}

theorem generation_le (h : Standing generation aborted aborting entered results p) :
    generation ≤ entered := by
  cases h with
  | away refusals hentered => omega
  | waits notified hentered => omega
  | freed last hlast hentered => omega

theorem of_away (h : Standing generation false aborting entered results .away) :
    entered = generation ∧ results = List.replicate generation .released := by
  cases h with
  | away refusals hentered hresults haborted =>
      have hnone : refusals = 0 := by
        by_contra hsome
        exact Bool.false_ne_true (haborted hsome)
      subst hnone
      exact ⟨hentered, by simpa using hresults⟩

theorem of_present {b : Bool}
    (h : Standing generation aborted aborting entered results (.waiting generation b)) :
    entered = generation + 1 ∧ results = List.replicate generation .released ∧
      (b = false → aborted = true → 0 < aborting) := by
  cases h with
  | waits notified hentered hresults hnotified => exact ⟨hentered, hresults, hnotified⟩
  | freed last hlast => exact absurd hlast (Nat.succ_ne_self _)

theorem of_last {b : Bool} (h : Standing generation aborted aborting entered results (.waiting g b))
    (hlast : generation ≠ g) :
    g + 1 = generation ∧ entered = generation ∧ results = List.replicate g .released ∧
      b = true := by
  cases h with
  | waits => exact absurd rfl hlast
  | freed last hsucc hentered hresults => exact ⟨hsucc, hentered, hresults, rfl⟩

theorem entered_eq (h : Standing generation false aborting entered results p)
    (hwaits : p.waitsIn generation = false) : entered = generation := by
  cases p with
  | away => exact h.of_away.1
  | waiting g b => exact (h.of_last (beq_eq_false_iff_ne.1 hwaits).symm).2.1

/-- The waits that were released come before those that were turned away. -/
theorem exists_results (h : Standing generation aborted aborting entered results p) :
    ∃ released refused, results = List.replicate released .released ++
        List.replicate refused .aborted ∧
      released ≤ generation ∧ generation ≤ released + 1 ∧
      (refused ≠ 0 → released = generation) := by
  cases h with
  | away refusals hentered hresults =>
      exact ⟨generation, refusals, hresults, Nat.le_refl _, Nat.le_succ _, fun _ => rfl⟩
  | waits notified hentered hresults =>
      exact ⟨generation, 0, by simpa using hresults, Nat.le_refl _, Nat.le_succ _, fun _ => rfl⟩
  | freed last hlast hentered hresults =>
      exact ⟨last, 0, by simpa using hresults, by omega, by omega, fun hne => absurd rfl hne⟩

theorem released_iff (h : Standing generation aborted aborting entered results p)
    {result : WaitEnd} (hresult : results[g]? = some result) :
    result = .released ↔ g < generation := by
  obtain ⟨released, refused, rfl, hle, -, hrefused⟩ := h.exists_results
  rcases Nat.lt_or_ge g released with hlt | hge
  · rw [List.getElem?_append_left (by rwa [List.length_replicate])] at hresult
    have hmem := List.eq_of_mem_replicate (List.mem_of_getElem? hresult)
    exact iff_of_true hmem (Nat.lt_of_lt_of_le hlt hle)
  · rw [List.getElem?_append_right (by rwa [List.length_replicate])] at hresult
    have hmem := List.mem_of_getElem? hresult
    have hne : refused ≠ 0 := (List.mem_replicate.1 hmem).1
    rw [(List.mem_replicate.1 hmem).2, ← hrefused hne]
    exact iff_of_false (by simp) (Nat.not_lt.2 hge)

theorem count_released (h : Standing generation aborted aborting entered results p) :
    results.count .released ≤ generation ∧ generation ≤ results.count .released + 1 := by
  obtain ⟨released, refused, rfl, hle, hge, -⟩ := h.exists_results
  have hcount : (List.replicate released WaitEnd.released ++
      List.replicate refused WaitEnd.aborted).count WaitEnd.released = released := by
    simp [List.count_append, List.count_replicate]
  rw [hcount]
  exact ⟨hle, hge⟩

/-- A party is in a wait if it has begun more of them than have ended. -/
theorem length_results (h : Standing generation aborted aborting entered results p) :
    (p = .away ∧ results.length = entered) ∨
      ∃ notified, p = .waiting results.length notified ∧ entered = results.length + 1 := by
  cases h with
  | away refusals hentered hresults => exact .inl ⟨rfl, by simp [hresults, hentered]⟩
  | waits notified hentered hresults =>
      have hlength : results.length = generation := by simp [hresults]
      exact .inr ⟨notified, by rw [hlength], by rw [hlength, hentered]⟩
  | freed last hlast hentered hresults =>
      have hlength : results.length = last := by simp [hresults]
      exact .inr ⟨true, by rw [hlength], by rw [hlength, hentered, hlast]⟩

/-- It comes after an abort. -/
theorem refuse (h : Standing generation true aborting entered results .away) :
    Standing generation true aborting (entered + 1) (results ++ [.aborted]) .away := by
  cases h with
  | away refusals hentered hresults =>
      refine .away (refusals + 1) ?_ ?_ fun _ => rfl
      · rw [hentered, Nat.add_assoc]
      · rw [hresults, List.append_assoc, ← List.replicate_succ']

/-- It comes, and has to wait. -/
theorem arrive (h : Standing generation false aborting entered results .away) :
    Standing generation false aborting (entered + 1) results (.waiting generation false) := by
  obtain ⟨hentered, hresults⟩ := h.of_away
  exact .waits false (congrArg (· + 1) hentered) hresults fun _ haborted => absurd haborted (by simp)

/-- It comes as the last. -/
theorem meet (h : Standing generation false aborting entered results .away) :
    Standing (generation + 1) false aborting (entered + 1) (results ++ [.released]) .away := by
  obtain ⟨hentered, hresults⟩ := h.of_away
  refine .away 0 (congrArg (· + 1) hentered) ?_ fun hne => absurd rfl hne
  rw [hresults, List.replicate_zero, List.append_nil, List.replicate_succ']

/-- The last one comes while it waits. -/
theorem free {b : Bool}
    (h : Standing generation aborted aborting entered results (.waiting generation b)) :
    Standing (generation + 1) aborted aborting entered results (.waiting generation true) := by
  obtain ⟨hentered, hresults, -⟩ := h.of_present
  exact .freed generation rfl hentered hresults

/-- It looks, and its wait is over. -/
theorem leave {b : Bool} (h : Standing generation aborted aborting entered results (.waiting g b))
    (hover : generation ≠ g) :
    Standing generation aborted aborting entered (results ++ [.released]) .away := by
  obtain ⟨hlast, hentered, hresults, -⟩ := h.of_last hover
  refine .away 0 hentered ?_ fun hne => absurd rfl hne
  rw [hresults, ← hlast, List.replicate_zero, List.append_nil, List.replicate_succ']

/-- It looks after an abort. -/
theorem turnAway {b : Bool}
    (h : Standing generation true aborting entered results (.waiting generation b)) :
    Standing generation true aborting entered (results ++ [.aborted]) .away := by
  obtain ⟨hentered, hresults, -⟩ := h.of_present
  refine .away 1 hentered ?_ fun _ => rfl
  rw [hresults, List.replicate_one]

/-- It looks too early. -/
theorem sleep {b : Bool}
    (h : Standing generation false aborting entered results (.waiting generation b)) :
    Standing generation false aborting entered results (.waiting generation false) := by
  obtain ⟨hentered, hresults, -⟩ := h.of_present
  exact .waits false hentered hresults fun _ haborted => absurd haborted (by simp)

theorem notify (h : Standing generation aborted aborting entered results p) (aborting' : Nat) :
    Standing generation aborted aborting' entered results p.notify := by
  cases h with
  | away refusals hentered hresults haborted => exact .away refusals hentered hresults haborted
  | waits notified hentered hresults => exact .waits true hentered hresults (by simp)
  | freed last hlast hentered hresults => exact .freed last hlast hentered hresults

theorem abort (h : Standing generation aborted aborting entered results p) :
    Standing generation true (aborting + 1) entered results p := by
  cases h with
  | away refusals hentered hresults => exact .away refusals hentered hresults fun _ => rfl
  | waits notified hentered hresults =>
      exact .waits notified hentered hresults fun _ _ => Nat.succ_pos _
  | freed last hlast hentered hresults => exact .freed last hlast hentered hresults

end Standing
end Crowd
end Lockstep
