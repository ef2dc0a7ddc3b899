import Lockstep.PrintBuffer.History
import Mathlib.Algebra.BigOperators.Group.List.Basic
import Mathlib.Algebra.Order.Ring.Nat
import Mathlib.Data.List.Forall2

/-!
# Balance of a print buffer

Each call moves messages from the buffer to the host, or a count of lost ones, and keeps the
two sums.  Main statement: what has been delivered and what is queued are the messages that
have been kept, and the losses that have been told and those still to tell are the messages
that have been refused, as long as the count of losses does not run over.
-/

namespace Lockstep

namespace Pushed

@[simp] theorem queued_concat_kept (log : List Pushed) (message : String) :
    queued (log ++ [⟨message, true⟩]) = queued log ++ [message] := by
  simp [queued]

@[simp] theorem queued_concat_refused (log : List Pushed) (message : String) :
    queued (log ++ [⟨message, false⟩]) = queued log := by
  simp [queued]

@[simp] theorem refused_concat_kept (log : List Pushed) (message : String) :
    refused (log ++ [⟨message, true⟩]) = refused log := by
  simp [refused]

@[simp] theorem refused_concat_refused (log : List Pushed) (message : String) :
    refused (log ++ [⟨message, false⟩]) = refused log + 1 := by
  simp [refused]

end Pushed

open Pushed

namespace PrintBuffer

variable {b : PrintBuffer} {log : List Pushed} {delivered : List String} {told : Nat}

/-- A warning tells how many messages were lost. -/
theorem warning?_inj {n k : UInt64} {capacity : UInt32}
    (h : warning? n capacity = warning? k capacity) : n = k := by
  unfold warning? at h
  split at h <;> split at h
  · rename_i hn hk
    rw [hn, hk]
  · contradiction
  · contradiction
  · have htext := Option.some.inj h
    simp only [String.append_left_inj, String.append_right_inj, toString] at htext
    have hdigits : Nat.toDigits 10 n.toNat = Nat.toDigits 10 k.toNat :=
      String.ofList_injective htext
    refine UInt64.toNat_inj.1 ?_
    rw [← Nat.ofDigitChars_toDigits (b := 10) (n := n.toNat) (by decide) (by decide), hdigits,
      Nat.ofDigitChars_toDigits (by decide) (by decide)]

/-- What the answer to a call tells of lost messages. -/
def lossIn (b : PrintBuffer) : PrintCall → UInt64
  | .drain | .flush | .takeDropped => b.dropped
  | .push _ | .takeMessages => 0

theorem reports_iff (b : PrintBuffer) (call : PrintCall) (lost : UInt64) :
    PrintExchange.Reports b.capacity ⟨call, (b.perform call).1⟩ lost ↔ lost = b.lossIn call := by
  cases call with
  | push | drain | takeMessages | takeDropped => exact Iff.rfl
  | flush =>
      change warning? b.dropped b.capacity = _ ↔ lost = b.dropped
      exact ⟨fun h => (warning?_inj h).symm, fun h => h ▸ rfl⟩

/-- Nothing is lost on the way between the pushes and the host, but for the laps of a count of
losses that has run over. -/
structure Balanced (b : PrintBuffer) (log : List Pushed) (delivered : List String) (told : Nat) :
    Prop where
  messages : delivered ++ b.messages.toList = queued log
  dropped : ∃ laps, told + b.dropped.toNat + laps * 2 ^ 64 = refused log
  fits : b.size ≤ b.capacity.toNat

theorem balanced_new (capacity : UInt32) : (new capacity).Balanced [] [] 0 :=
  ⟨rfl, ⟨0, rfl⟩, Nat.zero_le _⟩

/-- One more loss is counted, or the count runs over. -/
theorem exists_laps_succ (dropped : UInt64) : ∃ lap, (dropped + 1).toNat + lap * 2 ^ 64 =
    dropped.toNat + 1 := by
  have hlt := dropped.toNat_lt
  rw [UInt64.toNat_add, UInt64.toNat_one]
  exact ⟨(dropped.toNat + 1) / 2 ^ 64, by omega⟩

theorem capacity_perform (b : PrintBuffer) (call : PrintCall) :
    (b.perform call).2.capacity = b.capacity := by
  cases call with
  | push message =>
      simp only [perform, push]
      split <;> rfl
  | drain | flush | takeMessages | takeDropped => rfl

theorem Balanced.push (h : b.Balanced log delivered told) (message : String) :
    (b.push message).2.Balanced (log ++ [⟨message, (b.push message).1⟩]) delivered told := by
  unfold PrintBuffer.push
  split
  · rename_i hroom
    refine ⟨?_, by simpa using h.dropped, ?_⟩
    · rw [queued_concat_kept, ← h.messages, Array.toList_push, List.append_assoc]
    · simpa [size] using Nat.succ_le_of_lt hroom
  · obtain ⟨laps, hlaps⟩ := h.dropped
    obtain ⟨lap, hlap⟩ := exists_laps_succ b.dropped
    refine ⟨by simpa using h.messages, ⟨laps + lap, ?_⟩, h.fits⟩
    rw [refused_concat_refused, ← hlaps]
    dsimp only
    omega

theorem Balanced.takeMessages (h : b.Balanced log delivered told) :
    b.takeMessages.2.Balanced log (delivered ++ b.takeMessages.1) told :=
  ⟨by simpa [PrintBuffer.takeMessages] using h.messages, h.dropped, Nat.zero_le _⟩

theorem Balanced.takeDropped (h : b.Balanced log delivered told) :
    b.takeDropped.2.Balanced log delivered (told + b.takeDropped.1.toNat) :=
  ⟨h.messages, h.dropped, h.fits⟩

theorem Balanced.perform (h : b.Balanced log delivered told) (call : PrintCall) :
    (b.perform call).2.Balanced
      (log ++ (PrintExchange.pushed? ⟨call, (b.perform call).1⟩).toList)
      (delivered ++ PrintExchange.delivered ⟨call, (b.perform call).1⟩)
      (told + (b.lossIn call).toNat) := by
  cases call with
  | push message =>
      have hpush := h.push message
      rwa [← List.append_nil delivered] at hpush
  | drain | flush =>
      have hdrain := h.takeMessages.takeDropped
      rwa [← List.append_nil log] at hdrain
  | takeMessages =>
      have hhalf := h.takeMessages
      rwa [← List.append_nil log] at hhalf
  | takeDropped =>
      have hhalf := h.takeDropped
      rwa [← List.append_nil log, ← List.append_nil delivered] at hhalf

/-! ## Histories -/

/-- The losses that the answers of a history tell of. -/
def losses : PrintBuffer → (calls : List PrintCall) → List UInt64
  | _, [] => []
  | b, call :: calls => b.lossIn call :: losses (b.perform call).2 calls

theorem capacity_after (b : PrintBuffer) (calls : List PrintCall) :
    (b.after calls).capacity = b.capacity := by
  induction calls generalizing b with
  | nil => rfl
  | cons call calls ih => exact (ih _).trans (b.capacity_perform call)

theorem forall₂_reports_iff (b : PrintBuffer) (calls : List PrintCall) (counts : List UInt64) :
    List.Forall₂ (PrintExchange.Reports b.capacity) (b.exchanges calls) counts ↔
      counts = b.losses calls := by
  induction calls generalizing b counts with
  | nil => exact List.forall₂_nil_left_iff
  | cons call calls ih =>
      have hrest := ih (b.perform call).2
      rw [capacity_perform] at hrest
      rw [exchanges, losses, List.forall₂_cons_left_iff]
      constructor
      · rintro ⟨lost, rest, hlost, hcounts, rfl⟩
        rw [(b.reports_iff call lost).1 hlost, (hrest rest).1 hcounts]
      · rintro rfl
        exact ⟨_, _, (b.reports_iff call _).2 rfl, (hrest _).2 rfl, rfl⟩

theorem Balanced.after (h : b.Balanced log delivered told) (calls : List PrintCall) :
    (b.after calls).Balanced (log ++ (b.exchanges calls).filterMap PrintExchange.pushed?)
      (delivered ++ (b.exchanges calls).flatMap PrintExchange.delivered)
      (told + ((b.losses calls).map UInt64.toNat).sum) := by
  induction calls generalizing b log delivered told with
  | nil => simpa [after, exchanges, losses] using h
  | cons call calls ih =>
      have hrest := ih (h.perform call)
      rw [List.append_assoc, List.append_assoc, Nat.add_assoc] at hrest
      rw [exchanges, losses, List.flatMap_cons, List.map_cons, List.sum_cons]
      cases hpushed : PrintExchange.pushed? ⟨call, (b.perform call).1⟩ with
      | none =>
          rw [List.filterMap_cons_none hpushed]
          rwa [hpushed] at hrest
      | some pushed =>
          rw [List.filterMap_cons_some hpushed]
          rwa [hpushed] at hrest

theorem message_pushed? (b : PrintBuffer) (call : PrintCall) :
    (PrintExchange.pushed? ⟨call, (b.perform call).1⟩).map Pushed.message = call.message? := by
  cases call <;> rfl

/-- Every push is in the log. -/
theorem messages_exchanges (b : PrintBuffer) (calls : List PrintCall) :
    ((b.exchanges calls).filterMap PrintExchange.pushed?).map Pushed.message =
      calls.filterMap PrintCall.message? := by
  induction calls generalizing b with
  | nil => rfl
  | cons call calls ih =>
      have hfirst := b.message_pushed? call
      rw [exchanges, List.filterMap_cons, List.filterMap_cons, ← hfirst]
      cases PrintExchange.pushed? ⟨call, (b.perform call).1⟩ with
      | none => exact ih _
      | some pushed => exact congrArg _ (ih _)

theorem length_exchanges (b : PrintBuffer) (calls : List PrintCall) :
    (b.exchanges calls).length = calls.length := by
  induction calls generalizing b with
  | nil => rfl
  | cons call calls ih => exact congrArg _ (ih _)

theorem push_refused_iff (hfits : b.size ≤ b.capacity.toNat) (message : String) :
    (b.push message).1 = false ↔ b.size = b.capacity.toNat := by
  unfold push
  split <;> simp only [Bool.true_eq_false, true_iff, false_iff] <;> omega

/-- After any pushes, drains and flushes, and halves of drains in between: the messages that
have been delivered and those still queued are the ones that were kept, in the order of their
pushes.  A message is refused just when as many are queued as the buffer takes, and never are
there more.  The answers tell how many messages were lost, and what they have told and what is
still to tell are all that were refused, but for the laps of a count that has run over.  There
are none in less than 2 ^ 64 calls, since no more messages are refused than calls are made. -/
theorem nothing_lost_silently (capacity : UInt32) (calls : List PrintCall) :
    let b := (new capacity).after calls
    let history := (new capacity).exchanges calls
    let log := history.filterMap PrintExchange.pushed?
    log.map Pushed.message = calls.filterMap PrintCall.message? ∧
    history.flatMap PrintExchange.delivered ++ b.messages.toList = queued log ∧
    (∀ message, (b.push message).1 = false ↔ b.size = capacity.toNat) ∧
    b.size ≤ capacity.toNat ∧
    (∃ (counts : List UInt64) (laps : Nat),
      (∀ other, List.Forall₂ (PrintExchange.Reports capacity) history other ↔ other = counts) ∧
      (counts.map UInt64.toNat).sum + b.dropped.toNat + laps * 2 ^ 64 = refused log ∧
      (calls.length < 2 ^ 64 → laps = 0)) ∧
    refused log ≤ calls.length := by
  intro b history log
  have hcapacity : b.capacity = capacity := capacity_after _ calls
  have hbalanced := (balanced_new capacity).after calls
  have hfits := hbalanced.fits
  obtain ⟨laps, hlaps⟩ := hbalanced.dropped
  rw [Nat.zero_add] at hlaps
  have hrefused : refused log ≤ calls.length := by
    calc
      refused log ≤ log.length := List.countP_le_length
      _ ≤ history.length := List.length_filterMap_le _ _
      _ = calls.length := length_exchanges _ calls
  refine ⟨messages_exchanges _ calls, hbalanced.messages, fun message => ?_, hcapacity ▸ hfits,
    ⟨_, laps, forall₂_reports_iff (new capacity) calls, hlaps, fun hfew => ?_⟩, hrefused⟩
  · rw [← hcapacity]
    exact push_refused_iff hfits message
  · have hlog : refused log = _ := hlaps.symm
    omega

/-- Two drains cross: the second takes the message that was queued between the halves of the
first, and the first tells of the loss. -/
theorem nothing_lost_silently_sample :
    let calls : List PrintCall :=
      [.push "a", .push "b", .takeMessages, .push "c", .drain, .takeDropped]
    let history := (new 1).exchanges calls
    calls.length < 2 ^ 64 ∧ history.flatMap PrintExchange.delivered = ["a", "c"] ∧
      ∃ counts : List UInt64, List.Forall₂ (PrintExchange.Reports 1) history counts ∧
        (counts.map UInt64.toNat).sum = 1 := by
  intro calls history
  have hfew : calls.length < 2 ^ 64 := by decide
  obtain ⟨-, -, -, -, ⟨counts, laps, hcounts, hlosses, hlaps⟩, -⟩ := nothing_lost_silently 1 calls
  refine ⟨hfew, rfl, counts, (hcounts counts).2 rfl, ?_⟩
  rw [hlaps hfew] at hlosses
  exact hlosses

end PrintBuffer
end Lockstep
