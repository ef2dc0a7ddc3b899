import Lockstep.Proofs.Barrier.Invariant
import Mathlib.Data.List.TakeWhile
import Mathlib.Data.UInt

/-!
# Meetings at a barrier

A wait is released when all parties have begun their wait of the same number, and only then.
After an abort the other waits are turned away.  No party goes on sleeping when its wait is
over: it has been notified, or an abort is about to notify it.
-/

namespace Lockstep

open CrowdEvent

namespace Crowd

variable {n i j g : Nat} {c : Crowd} {log : List CrowdEvent} {b : Bool}

namespace Told

variable (h : Told n c log)
include h

/-- The waits that all parties have begun are those of earlier generations. -/
theorem met_of_lt (hg : g < c.barrier.generation) : Met n log g := by
  intro j hj
  obtain ⟨p, -, hstanding⟩ := h.exists_party hj
  exact hg.trans_le hstanding.generation_le

theorem met_iff (haborted : c.barrier.aborted = false) :
    Met n log g ↔ g < c.barrier.generation := by
  refine ⟨fun hmet => ?_, h.met_of_lt⟩
  -- somebody has yet to come, and this party has begun no more waits than there were generations
  obtain ⟨p, hmem, hwaits⟩ : ∃ p ∈ c.parties, ¬ p.waitsIn c.barrier.generation = true := by
    by_contra hall
    push Not at hall
    have hcount := Array.countP_eq_size.2 hall
    rw [← h.arrived haborted, h.size] at hcount
    exact absurd hcount h.short.ne
  obtain ⟨i, hp⟩ := Array.mem_iff_getElem?.1 hmem
  obtain ⟨hi, -⟩ := Array.getElem?_eq_some_iff.1 hp
  have hstanding := h.standing i p hp
  rw [haborted] at hstanding
  have hmet := hmet i (h.size ▸ hi)
  rwa [hstanding.entered_eq (Bool.eq_false_iff.2 hwaits)] at hmet

theorem met_of_released (hi : i < n) (hresult : (results i log)[g]? = some .released) :
    Met n log g := by
  obtain ⟨p, -, hstanding⟩ := h.exists_party hi
  exact h.met_of_lt ((hstanding.released_iff hresult).1 rfl)

theorem meetings_le (hi : i < n) (hj : j < n) : meetings i log ≤ meetings j log + 1 := by
  obtain ⟨p, -, hp⟩ := h.exists_party hi
  obtain ⟨q, -, hq⟩ := h.exists_party hj
  exact hp.count_released.1.trans hq.count_released.2

/-- A party in a wait is in the present generation, and asleep only if nobody is to notify it, or
in the last, and awake. -/
theorem of_inside (hi : i < n) (hinside : Inside i log) :
    ∃ b, c.parties[i]? = some (.waiting (results i log).length b) ∧
      ((results i log).length = c.barrier.generation ∧
          (b = false → c.barrier.aborted = true → 0 < c.aborting) ∨
        (results i log).length + 1 = c.barrier.generation ∧ b = true) := by
  obtain ⟨p, hp, hstanding⟩ := h.exists_party hi
  rcases hstanding.length_results with ⟨-, hlength⟩ | ⟨b, hwaiting, -⟩
  · exact absurd hlength (Nat.ne_of_lt hinside)
  · rw [hwaiting] at hp hstanding
    refine ⟨b, hp, ?_⟩
    by_cases hpresent : c.barrier.generation = (results i log).length
    · rw [← hpresent] at hstanding
      exact .inl ⟨hpresent.symm, hstanding.of_present.2.2⟩
    · obtain ⟨hlast, -, -, hnotified⟩ := hstanding.of_last hpresent
      exact .inr ⟨hlast, hnotified⟩

theorem events_over (hi : i < n) (hinside : Inside i log)
    (hover : (results i log).length < c.barrier.generation) :
    c.events (.party i) = [.leaves i .released] := by
  obtain ⟨b, hp, -⟩ := h.of_inside hi hinside
  rw [events, move_party hp, turn_over hover.ne']

theorem events_aborted (hi : i < n) (hinside : Inside i log)
    (hnot : ¬ (results i log).length < c.barrier.generation) (haborted : c.barrier.aborted = true) :
    c.events (.party i) = [.leaves i .aborted] := by
  obtain ⟨b, hp, ⟨hlength, -⟩ | ⟨hlength, -⟩⟩ := h.of_inside hi hinside
  · rw [events, move_party hp, hlength, turn_aborted haborted]
  · omega

theorem events_blocked (hi : i < n) (hinside : Inside i log)
    (hnot : ¬ (results i log).length < c.barrier.generation) (haborted : c.barrier.aborted = false) :
    c.events (.party i) = [] := by
  obtain ⟨b, hp, ⟨hlength, -⟩ | ⟨hlength, -⟩⟩ := h.of_inside hi hinside
  · rw [events, move_party hp, hlength, turn_blocked haborted]
  · omega

theorem events_refused (hi : i < n) (houtside : ¬ Inside i log)
    (haborted : c.barrier.aborted = true) :
    c.events (.party i) = [.enters i, .leaves i .aborted] := by
  obtain ⟨p, hp, hstanding⟩ := h.exists_party hi
  rcases hstanding.length_results with ⟨rfl, -⟩ | ⟨b, -, hentered⟩
  · rw [events, move_party hp, turn_refused haborted]
  · exact absurd (Nat.lt_of_succ_le hentered.ge) houtside

/-- Nobody sleeps whose wait is over, save between the two steps of an abort. -/
theorem notified (hi : i < n) (hinside : Inside i log)
    (hover : (results i log).length < c.barrier.generation ∨
      c.barrier.aborted = true ∧ c.aborting = 0) :
    c.parties[i]? = some (.waiting (results i log).length true) := by
  obtain ⟨b, hp, ⟨hlength, hnotified⟩ | ⟨-, rfl⟩⟩ := h.of_inside hi hinside
  · cases b with
    | true => exact hp
    | false =>
        obtain hlt | ⟨haborted, hnone⟩ := hover
        · exact absurd hlength hlt.ne
        · exact absurd hnone (hnotified rfl haborted).ne'
  · exact hp

/-- A party is never so late that a generation counter of 64 bits, having come round, would
mislead it. -/
theorem word_eq_iff (hp : c.parties[i]? = some (.waiting g b)) :
    UInt64.ofNat c.barrier.generation = UInt64.ofNat g ↔ c.barrier.generation = g := by
  refine ⟨fun hword => ?_, fun heq => by rw [heq]⟩
  by_contra hne
  obtain ⟨hlast, -⟩ := (h.standing i _ hp).of_last hne
  have hmod := congrArg UInt64.toNat hword
  rw [UInt64.toNat_ofNat', UInt64.toNat_ofNat'] at hmod
  omega

end Told

/-! ## Before and after an abort -/

/-- What a step may do to the barrier. -/
theorem barrier_step (c : Crowd) (m : CrowdMove) :
    (c.step m).barrier = c.barrier ∨ (c.step m).barrier = c.barrier.arrive.2 ∨
      m = .abort ∧ (c.step m).barrier = c.barrier.abort := by
  cases m with
  | party i =>
      cases hp : c.parties[i]? with
      | none => exact .inl (by simp only [step, move, hp])
      | some p =>
          rw [step, move_party hp]
          cases p with
          | away =>
              refine .inr (.inl ?_)
              simp only [turn]
              split <;> simp only [*]
          | waiting g b =>
              refine .inl ?_
              simp only [turn]
              split <;> rfl
  | abort => exact .inr (.inr ⟨rfl, rfl⟩)
  | notify =>
      refine .inl ?_
      simp only [step, move]
      split <;> rfl

theorem aborted_step (c : Crowd) (m : CrowdMove) :
    (c.step m).barrier.aborted = true ↔ c.barrier.aborted = true ∨ m = .abort := by
  by_cases hm : m = .abort
  · subst hm
    exact iff_of_true rfl (.inr rfl)
  · rw [or_iff_left hm]
    rcases barrier_step c m with hsame | harrive | ⟨habort, -⟩
    · rw [hsame]
    · rw [harrive, Barrier.aborted_arrive]
    · exact absurd habort hm

/-- After an abort nothing changes the barrier any more. -/
theorem barrier_step_of_aborted (haborted : c.barrier.aborted = true) (m : CrowdMove) :
    (c.step m).barrier = c.barrier := by
  rcases barrier_step c m with hsame | harrive | ⟨-, habort⟩
  · exact hsame
  · rw [harrive, Barrier.arrive_of_aborted haborted]
  · rw [habort, Barrier.abort_of_aborted haborted]

theorem aborted_follow (c : Crowd) (moves : List CrowdMove) :
    (c.follow moves).barrier.aborted = true ↔ c.barrier.aborted = true ∨ .abort ∈ moves := by
  induction moves generalizing c with
  | nil => simp [follow]
  | cons m moves ih =>
      rw [List.mem_cons, ← or_assoc, eq_comm (a := CrowdMove.abort), ← aborted_step]
      exact ih (c.step m)

theorem barrier_follow (haborted : c.barrier.aborted = true) (moves : List CrowdMove) :
    (c.follow moves).barrier = c.barrier := by
  induction moves generalizing c with
  | nil => rfl
  | cons m moves ih =>
      have hsame := barrier_step_of_aborted haborted m
      exact (ih (hsame ▸ haborted)).trans hsame

/-- The generation stays what it was at the first abort. -/
theorem generation_follow (c : Crowd) (moves : List CrowdMove) :
    (c.follow moves).barrier.generation =
      (c.follow (moves.takeWhile (· ≠ .abort))).barrier.generation := by
  induction moves generalizing c with
  | nil => rfl
  | cons m moves ih =>
      by_cases hm : m = .abort
      · subst hm
        rw [List.takeWhile_cons_of_neg (by simp)]
        calc ((c.step .abort).follow moves).barrier.generation
            = (c.step .abort).barrier.generation := by rw [barrier_follow rfl]
          _ = c.barrier.generation := rfl
      · rw [List.takeWhile_cons_of_pos (by simpa using hm)]
        exact ih (c.step m)

/-- A wait meets the others if all parties have begun it before the first abort. -/
theorem met_calm_iff (hn : 0 < n) (moves : List CrowdMove) (g : Nat) :
    Met n ((start n).log (moves.takeWhile (· ≠ .abort))) g ↔
      g < ((start n).follow moves).barrier.generation := by
  have hcalm : ((start n).follow (moves.takeWhile (· ≠ .abort))).barrier.aborted = false := by
    refine Bool.eq_false_iff.2 fun haborted => ?_
    rcases (aborted_follow _ _).1 haborted with hstart | hmem
    · exact Bool.false_ne_true hstart
    · exact absurd (List.mem_takeWhile_imp hmem) (by simp)
  rw [generation_follow, ← ((told_start hn).follow _).met_iff hcalm, List.nil_append]

/-- Whatever the parties and those who abort do, in any order.  A wait is released only when all
parties have begun theirs of this number, and no party is two meetings ahead of another.  Until an
abort the barrier counts those who wait in the present generation, fewer than all.

`calm` is what happened before the first abort, and decides how a wait ends: it is released if all
had begun it by then, also when its party looks only after the abort, and turned away otherwise.
Whoever is in a wait that is over is awake, or about to be notified by an abort.  A wait begun
after an abort is turned away at once. -/
theorem waits_meet (hn : 0 < n) (moves : List CrowdMove) :
    let c := (start n).follow moves
    let log := (start n).log moves
    let calm := (start n).log (moves.takeWhile (· ≠ .abort))
    (∀ i < n, ∀ wait, (results i log)[wait]? = some .released → Met n log wait) ∧
    (∀ i < n, ∀ j < n, meetings i log ≤ meetings j log + 1) ∧
    (.abort ∉ moves → c.barrier.arrived = c.parties.countP (·.waitsIn c.barrier.generation)) ∧
    c.barrier.arrived < n ∧
    (∀ i < n, ∀ wait result, (results i log)[wait]? = some result →
      (result = .released ↔ Met n calm wait)) ∧
    (∀ i < n, Inside i log →
      let wait := (results i log).length
      (Met n calm wait → c.events (.party i) = [.leaves i .released]) ∧
      (¬ Met n calm wait → .abort ∈ moves → c.events (.party i) = [.leaves i .aborted]) ∧
      (¬ Met n calm wait → .abort ∉ moves → c.events (.party i) = []) ∧
      (Met n calm wait ∨ .abort ∈ moves ∧ c.aborting = 0 →
        c.parties[i]? = some (.waiting wait true))) ∧
    (.abort ∈ moves → ∀ i < n, ¬ Inside i log →
      c.events (.party i) = [.enters i, .leaves i .aborted]) ∧
    ∀ (i generation : Nat) (notified : Bool),
      c.parties[i]? = some (.waiting generation notified) →
      (UInt64.ofNat c.barrier.generation = UInt64.ofNat generation ↔
        c.barrier.generation = generation) := by
  intro c log calm
  have htold : Told n c log := (told_start hn).follow moves
  have hmet : ∀ wait, Met n calm wait ↔ wait < c.barrier.generation := met_calm_iff hn moves
  have habort : c.barrier.aborted = true ↔ .abort ∈ moves :=
    (aborted_follow _ _).trans (or_iff_right Bool.false_ne_true)
  have hopen : .abort ∉ moves → c.barrier.aborted = false := fun hnone =>
    Bool.eq_false_iff.2 fun haborted => hnone (habort.1 haborted)
  refine ⟨fun i hi wait => htold.met_of_released hi, fun i hi j hj => htold.meetings_le hi hj,
    fun hnone => htold.arrived (hopen hnone), htold.short, fun i hi wait result hresult => ?_,
    fun i hi hinside => ⟨fun hover => ?_, fun hnot hmem => ?_, fun hnot hnone => ?_,
      fun hover => ?_⟩,
    fun hmem i hi houtside => htold.events_refused hi houtside (habort.2 hmem),
    fun i generation notified hp => htold.word_eq_iff hp⟩
  · obtain ⟨p, -, hstanding⟩ := htold.exists_party hi
    rw [hmet]
    exact hstanding.released_iff hresult
  · exact htold.events_over hi hinside ((hmet _).1 hover)
  · exact htold.events_aborted hi hinside ((hmet _).not.1 hnot) (habort.2 hmem)
  · exact htold.events_blocked hi hinside ((hmet _).not.1 hnot) (hopen hnone)
  · rw [hmet, ← habort] at hover
    exact htold.notified hi hinside hover

namespace Sample

/-- The second of two parties is in its next wait before the first has looked. -/
def ahead : List CrowdMove := [.party 0, .party 1, .party 1]

/-- Both look after an abort, and then begin another wait. -/
def late : List CrowdMove := ahead ++ [.abort, .party 0, .party 1, .notify, .party 0]

end Sample

theorem waits_meet_sample :
    0 < 2 ∧ .abort ∉ Sample.ahead ∧ ((start 2).follow Sample.ahead).barrier.arrived = 1 ∧
      (let c := (start 2).follow (Sample.ahead ++ [.abort])
       c.events (.party 0) = [.leaves 0 .released] ∧ c.events (.party 1) = [.leaves 1 .aborted] ∧
         c.parties[0]? = some (.waiting 0 true) ∧ c.parties[1]? = some (.waiting 1 false)) ∧
      results 0 ((start 2).log Sample.late) = [.released, .aborted] ∧
      ¬ Met 2 ((start 2).log (Sample.late.takeWhile (· ≠ .abort))) 1 ∧
      ((start 2).follow Sample.late).events (.party 1) = [.enters 1, .leaves 1 .aborted] := by
  have hn : 0 < 2 := by decide
  have hnone : .abort ∉ Sample.ahead := by decide
  have hfirst : Inside 0 ((start 2).log (Sample.ahead ++ [.abort])) := by decide +kernel
  have hsecond : Inside 1 ((start 2).log (Sample.ahead ++ [.abort])) := by decide +kernel
  have hwait : (results 0 ((start 2).log (Sample.ahead ++ [.abort]))).length = 0 := by
    decide +kernel
  obtain ⟨-, -, hcount, -⟩ := waits_meet hn Sample.ahead
  obtain ⟨-, -, -, -, -, hinside, -⟩ := waits_meet hn (Sample.ahead ++ [.abort])
  obtain ⟨hreleased, -, -, hawake⟩ := hinside 0 (by decide) hfirst
  obtain ⟨-, haborted, -⟩ := hinside 1 (by decide) hsecond
  obtain ⟨-, -, -, -, hresults, -, hrefused, -⟩ := waits_meet hn Sample.late
  have hmet : Met 2
      ((start 2).log ((Sample.ahead ++ [CrowdMove.abort]).takeWhile (· ≠ CrowdMove.abort))) 0 := by
    decide +kernel
  rw [hwait] at hreleased hawake
  refine ⟨hn, hnone, (hcount hnone).trans (by decide +kernel),
    ⟨hreleased hmet, haborted (by decide +kernel) (by decide), hawake (.inl hmet),
      by decide +kernel⟩,
    by decide +kernel, fun hmet => ?_, hrefused (by decide) 1 (by decide) (by decide +kernel)⟩
  have hresult := (hresults 0 (by decide) 1 .aborted (by decide +kernel)).2 hmet
  exact absurd hresult (by decide)

end Crowd
end Lockstep
