import Lockstep.Proofs.TaskGraph.Order
import Lockstep.TaskGraph.History

/-!
# Retirement

Whatever is claimed and reported of a graph in use, and in whatever order, only the node
at the cursor has invocations left, and what is left of it is what has not been reported.
The report that completes a node's total is the only one that retires it.
-/

namespace Lockstep
namespace TaskGraph

variable {η : Type} {g g' : TaskGraph η} {history : List (GraphExchange η)}
  {e : GraphExchange η}

@[simp] theorem after_nil (g : TaskGraph η) : g.after [] = g := rfl

@[simp] theorem after_cons (g : TaskGraph η) (call : GraphCall η) (calls : List (GraphCall η)) :
    g.after (call :: calls) = (g.perform call).2.after calls := rfl

@[simp] theorem reportedOf_append (k : Nat) (history later : List (GraphExchange η)) :
    reportedOf k (history ++ later) = reportedOf k history + reportedOf k later := by
  induction history with
  | nil => exact (Nat.zero_add _).symm
  | cons e history ih => rw [List.cons_append, reportedOf, reportedOf, ih, Nat.add_assoc]

@[simp] theorem reportedOf_singleton (k : Nat) (e : GraphExchange η) :
    reportedOf k [e] = e.call.amountOf k := rfl

/-- A place in a history with one more entry is the last one, or was there before. -/
theorem split_concat {α : Type} {l before later : List α} {a b : α}
    (h : l ++ [a] = before ++ b :: later) :
    (before = l ∧ b = a ∧ later = []) ∨ ∃ rest, l = before ++ b :: rest ∧ later = rest ++ [a] := by
  rcases List.eq_nil_or_concat later with rfl | ⟨rest, last, rfl⟩
  · obtain ⟨hl, hab⟩ := List.append_inj' h rfl
    exact .inl ⟨hl.symm, (List.singleton_inj.1 hab).symm, rfl⟩
  · rw [List.concat_eq_append, ← List.cons_append, ← List.append_assoc] at h
    obtain ⟨hl, hab⟩ := List.append_inj' h rfl
    exact .inr ⟨rest, hl, by rw [List.concat_eq_append, List.singleton_inj.1 hab]⟩

theorem lt_size_of_remaining {i : Nat} (h : 0 < g.remaining i) : i < g.nodes.size := by
  by_contra hle
  rw [remaining, Array.getElem?_eq_none (Nat.le_of_not_lt hle)] at h
  exact Nat.lt_irrefl 0 h

/-- A report of more than remains is refused, and leaves the cursor where it is. -/
theorem report_of_lt (g : TaskGraph η) (shared : Shared η) (trace : DeviceTrace) (id : NodeId)
    (origin : TraceOrigin) {finished : UInt32} (hlt : g.remaining id.index < finished.toNat) :
    ∃ fault g', g.report shared trace id finished origin = (.error fault, g', trace) ∧
      g'.cursor = g.cursor := by
  have hfinished : finished ≠ 0 := by
    rintro rfl
    exact absurd hlt (Nat.not_lt_zero _)
  unfold report
  rw [if_neg hfinished]
  cases hnode : g.node id with
  | error fault => exact ⟨fault, g, rfl, rfl⟩
  | ok node =>
      have hover : node.remaining < finished := by
        rw [remaining, getElem?_of_node hnode] at hlt
        exact UInt32.lt_iff_toNat_lt.2 hlt
      dsimp only
      rw [if_pos hover]
      exact ⟨_, _, rfl, rfl⟩

section Answers

variable {shared : Shared η} {trace trace' : DeviceTrace} {id : NodeId} {finished : UInt32}
  {origin : TraceOrigin} {retired : Bool}

theorem le_remaining_of_report
    (h : g.report shared trace id finished origin = (.ok retired, g', trace')) :
    finished.toNat ≤ g.remaining id.index := by
  by_contra hlt
  obtain ⟨fault, next, heq, -⟩ := g.report_of_lt shared trace id origin (Nat.lt_of_not_le hlt)
  rw [h] at heq
  exact absurd heq (by simp)

theorem retired_iff (h : g.report shared trace id finished origin = (.ok retired, g', trace')) :
    retired = true ↔ 0 < finished.toNat ∧ finished.toNat = g.remaining id.index := by
  have hle := le_remaining_of_report h
  rcases Nat.eq_zero_or_pos finished.toNat with hzero | hpos
  · obtain rfl : finished = 0 := UInt32.toNat_inj.1 hzero
    rw [(g.report_zero shared trace id origin).1] at h
    obtain rfl : false = retired := Except.ok.inj (Prod.mk.inj h).1
    simp
  obtain ⟨low, -, hsome, hall⟩ :=
    g.report_of_le shared trace id origin (lt_size_of_remaining (hpos.trans_le hle)) hpos hle
  rcases Nat.lt_or_eq_of_le hle with hlt | heq
  · rw [(hsome hlt).1] at h
    obtain rfl : false = retired := Except.ok.inj (Prod.mk.inj h).1
    simp [hlt.ne]
  · obtain ⟨⟨node, -, hreport⟩, -⟩ := hall heq
    generalize trace.record .nodeFinish node.spec.func node.total id origin = trace'' at hreport
    rcases hsearch : low.advanceFrom shared trace'' origin (id.index + 1) with ⟨_ | _, next, last⟩
    · rw [hreport, hsearch] at h
      exact absurd (Prod.mk.inj h).1 (by simp [Except.map])
    · rw [hreport, hsearch] at h
      obtain rfl : true = retired := Except.ok.inj (Prod.mk.inj h).1
      exact iff_of_true rfl ⟨hpos, heq⟩

end Answers

section Retiring

variable {low : TaskGraph η} {i last : Nat} (hlow : Lowered g i (g.remaining i) low)
  (hadvanced : Advanced low (i + 1) last g')
include hlow hadvanced

theorem total_retired {k : Nat} (hk : k ≠ last ∨ last = low.numNodes) :
    g'.total k = g.total k :=
  (total_congr (hadvanced.pickup k hk)).trans (total_congr (hlow.pickup k))

theorem remaining_retired {k : Nat} (hk : k ≠ last ∨ last = low.numNodes) :
    g'.remaining k = if k = i then 0 else g.remaining k := by
  rw [hadvanced.remaining k hk, hlow.remaining, Nat.sub_self]

theorem Settled.retire (h : Settled g) (hpos : 0 < g.remaining i) : Settled g' := by
  obtain ⟨hi, hN⟩ := h.active i hpos
  have hstart := hadvanced.start_le
  have hlast := hadvanced.last_le
  have hnodes := hadvanced.specs.numNodes
  refine ⟨?_, fun k hk => ?_, fun k hk => ?_⟩
  · rw [hadvanced.cursor, hnodes]
    exact hlast
  · rw [hadvanced.cursor, hnodes]
    by_cases hne : k ≠ last ∨ last = low.numNodes
    · rw [remaining_retired hlow hadvanced hne] at hk
      split at hk
      · exact absurd hk (Nat.lt_irrefl 0)
      · rename_i hki
        exact absurd ((h.active k hk).1.trans hi.symm) hki
    · omega
  · rw [hadvanced.cursor, hnodes] at hk
    rw [total_retired hlow hadvanced (by omega)]
    exact h.front k (.inl (by omega))

end Retiring

/-! ## The account of a history -/

/-- What holds of a graph after a history of claims and reports without a fault. -/
structure Accounts (g : TaskGraph η) (history : List (GraphExchange η)) : Prop where
  settled : Settled g
  current : g.cursor.toNat < g.numNodes → 0 < g.remaining g.cursor.toNat
  due : ∀ k, g.remaining k + reportedOf k history = g.total k
  retirers : ∀ k, history.countP (·.retires k) =
    if k < g.cursor.toNat ∧ 0 < g.total k then 1 else 0
  complete : ∀ k before e later, history = before ++ e :: later → e.retires k = true →
    reportedOf k (before ++ [e]) = g.total k

namespace Accounts

theorem of_begun (h : Begun g) : Accounts g [] := by
  refine ⟨h.ordered.settled, h.current, fun k => (h.untouched k).2, fun k => ?_, ?_⟩
  · rw [List.countP_nil, if_neg]
    rintro ⟨hk, htotal⟩
    rw [← (h.untouched k).2, h.ordered.behind k hk] at htotal
    exact Nat.lt_irrefl 0 htotal
  · intro k before e later heq
    simp at heq

/-- Only nodes behind the cursor have been retired. -/
theorem lt_cursor (h : Accounts g history) {k : Nat} (he : e ∈ history)
    (hretires : e.retires k = true) : k < g.cursor.toNat := by
  have hcount : 0 < history.countP (·.retires k) := List.countP_pos_iff.2 ⟨e, he, hretires⟩
  rw [h.retirers] at hcount
  split at hcount
  · rename_i hk
    exact hk.1
  · exact absurd hcount (Nat.lt_irrefl 0)

/-- The nodes that have been retired stay complete, as long as their totals stay. -/
theorem complete_concat (h : Accounts g history)
    (htotal : ∀ k < g.cursor.toNat, g'.total k = g.total k)
    (hlast : ∀ k, e.retires k = true → reportedOf k (history ++ [e]) = g'.total k) :
    ∀ k before e' later, history ++ [e] = before ++ e' :: later → e'.retires k = true →
      reportedOf k (before ++ [e']) = g'.total k := by
  intro k before e' later heq hretires
  rcases split_concat heq with ⟨rfl, rfl, -⟩ | ⟨rest, hold, -⟩
  · exact hlast k hretires
  · have hmem : e' ∈ history := by simp [hold]
    rw [htotal k (h.lt_cursor hmem hretires)]
    exact h.complete k before e' rest hold hretires

/-- A call that retires nothing. -/
theorem stay (h : Accounts g history) (hspecs : SameSpecs g g') (hcursor : g'.cursor = g.cursor)
    (htotal : ∀ k, g'.total k = g.total k)
    (hremaining : ∀ k, g'.remaining k + e.call.amountOf k = g.remaining k)
    (hcurrent : 0 < g.remaining g.cursor.toNat → 0 < g'.remaining g.cursor.toNat)
    (hretires : ∀ k, e.retires k = false) : Accounts g' (history ++ [e]) := by
  have hnodes := hspecs.numNodes
  refine ⟨⟨?_, fun i hi => ?_, fun i hi => ?_⟩, ?_, fun k => ?_, fun k => ?_, ?_⟩
  · rw [hcursor, hnodes]
    exact h.settled.cursor_le
  · rw [hcursor, hnodes]
    exact h.settled.active i (hremaining i ▸ Nat.lt_add_right _ hi)
  · rw [hcursor, hnodes] at hi
    exact (htotal i).trans (h.settled.front i hi)
  · rw [hcursor, hnodes]
    exact fun hlt => hcurrent (h.current hlt)
  · rw [reportedOf_append, reportedOf_singleton, htotal, ← h.due k, ← hremaining k]
    omega
  · rw [List.countP_append, List.countP_singleton, hretires, htotal, hcursor, h.retirers]
    rfl
  · apply h.complete_concat fun k _ => htotal k
    intro k hk
    exact absurd ((hretires k).symm.trans hk) Bool.false_ne_true

section Retiring

variable {low : TaskGraph η} {i last : Nat} (h : Accounts g history) (hn : 0 < g.remaining i)
  (hlow : Lowered g i (g.remaining i) low) (hadvanced : Advanced low (i + 1) last g')
include h hn hlow hadvanced

/-- The node that starts has all of its total left, and nothing has been reported of it. -/
theorem due_retire (hamount : ∀ k, e.call.amountOf k = if i = k then g.remaining i else 0)
    (k : Nat) : g'.remaining k + reportedOf k (history ++ [e]) = g'.total k := by
  have hold := h.due k
  rw [reportedOf_append, reportedOf_singleton, hamount]
  by_cases hk : k ≠ last ∨ last = low.numNodes
  · rw [total_retired hlow hadvanced hk, remaining_retired hlow hadvanced hk]
    by_cases hki : k = i
    · subst hki
      rw [if_pos rfl, if_pos rfl]
      omega
    · rw [if_neg hki, if_neg (Ne.symm hki)]
      exact hold
  · obtain ⟨hi, -⟩ := h.settled.active i hn
    have hstart := hadvanced.start_le
    have hlast := hadvanced.last_le
    obtain rfl : k = last := by omega
    obtain ⟨-, hfresh, -⟩ := hadvanced.fresh (by omega)
    have hzero := h.settled.front k (.inl (by omega))
    rw [hfresh, if_neg (by omega)]
    omega

/-- The node that has been retired is behind the cursor now, and those passed over after it
have no total. -/
theorem countP_retire (hretires : ∀ k, e.retires k = (i == k)) (k : Nat) :
    (history ++ [e]).countP (·.retires k) =
      if k < g'.cursor.toNat ∧ 0 < g'.total k then 1 else 0 := by
  obtain ⟨hi, -⟩ := h.settled.active i hn
  have hstart := hadvanced.start_le
  rw [List.countP_append, List.countP_singleton, hretires, h.retirers, hadvanced.cursor]
  by_cases hk : k = i
  · have hdue := h.due i
    have hsame : g'.total i = g.total i := total_retired hlow hadvanced (.inl (by omega))
    rw [hk, if_neg (by omega), beq_self_eq_true, if_pos rfl, if_pos ⟨by omega, by omega⟩]
  · have hiff : (k < last ∧ 0 < g'.total k) ↔ (k < g.cursor.toNat ∧ 0 < g.total k) := by
      by_cases hlt : k < last
      · rw [total_retired hlow hadvanced (.inl hlt.ne)]
        have hzero := fun hik : i < k => h.settled.front k (.inl (hi ▸ hik))
        omega
      · omega
    rw [beq_eq_false_iff_ne.2 (Ne.symm hk)]
    simp only [hiff]
    rfl

/-- The report that completes the total of a node retires it, and makes a node behind it
current. -/
theorem retire (hamount : ∀ k, e.call.amountOf k = if i = k then g.remaining i else 0)
    (hretires : ∀ k, e.retires k = (i == k)) : Accounts g' (history ++ [e]) := by
  obtain ⟨hi, -⟩ := h.settled.active i hn
  have hstart := hadvanced.start_le
  have hdue := h.due_retire hn hlow hadvanced hamount
  refine ⟨h.settled.retire hlow hadvanced hn, ?_, hdue, h.countP_retire hn hlow hadvanced hretires,
    ?_⟩
  · rw [hadvanced.cursor, hadvanced.specs.numNodes]
    intro hlt
    obtain ⟨hpos, hfresh, -⟩ := hadvanced.fresh hlt
    rwa [hfresh]
  · apply h.complete_concat fun k hk => total_retired hlow hadvanced (.inl (by omega))
    intro k hk
    rw [hretires, beq_iff_eq] at hk
    subst hk
    have hold := hdue i
    rwa [remaining_retired hlow hadvanced (.inl (by omega)), if_pos rfl, Nat.zero_add] at hold

end Retiring

theorem claim (h : Accounts g history) {id : NodeId} {batch base : UInt32}
    (hclaim : g.claim id batch = .ok (base, g')) :
    Accounts g' (history ++ [⟨.claim id batch, .ok (.base base)⟩]) := by
  obtain ⟨-, hclaim⟩ := claim_cases hclaim
  refine h.stay hclaim.specs hclaim.cursor (fun k => ?_) (fun k => ?_) (fun hpos => ?_)
    fun _ => rfl
  · exact total_congr (hclaim.pickup k)
  · exact hclaim.remaining k
  · rwa [hclaim.remaining]

theorem report (h : Accounts g history) {shared : Shared η} {trace trace' : DeviceTrace}
    {id : NodeId} {finished : UInt32} {origin : TraceOrigin} {retired : Bool}
    (hreport : g.report shared trace id finished origin = (.ok retired, g', trace')) :
    Accounts g'
      (history ++ [⟨.report shared trace id finished origin, .ok (.retired retired)⟩]) := by
  have hle := le_remaining_of_report hreport
  have hretired := retired_iff hreport
  obtain ⟨result, next, trace'', heq, hreported⟩ := h.settled.report shared trace origin hle
  rw [hreport] at heq
  obtain ⟨rfl, rfl, -⟩ : .ok retired = result ∧ g' = next ∧ trace' = trace'' := by
    simpa using heq
  have hstay : ¬ (0 < finished.toNat ∧ finished.toNat = g.remaining id.index) →
      ∀ k, GraphExchange.retires k
        ⟨.report shared trace id finished origin, .ok (.retired retired)⟩ = false := by
    intro hnot k
    obtain rfl : retired = false := eq_false_of_ne_true fun htrue => hnot (hretired.1 htrue)
    rfl
  generalize hok : (Except.ok retired : Except Fault Bool).isOk = ok at hreported
  generalize g.askedBy shared id finished = asks at hreported
  cases hreported with
  | nothing hn =>
      refine h.stay (.refl g) rfl (fun _ => rfl) (fun k => ?_) (fun hpos => hpos) (hstay (by omega))
      simp only [GraphCall.amountOf, hn, ite_self, Nat.add_zero]
  | lowers hn hlt hlow =>
      obtain ⟨hcursor, -⟩ := h.settled.active id.index (by omega)
      refine h.stay hlow.specs hlow.cursor (fun k => ?_) (fun k => ?_) (fun _ => ?_)
        (hstay (by omega))
      · exact total_congr (hlow.pickup k)
      · simp only [GraphCall.amountOf]
        rw [hlow.remaining]
        by_cases hk : k = id.index
        · rw [if_pos hk, if_pos hk.symm, hk]
          omega
        · rw [if_neg hk, if_neg (Ne.symm hk), Nat.add_zero]
      · rw [← hcursor, hlow.remaining, if_pos rfl]
        omega
  | retires low last hn hall hlow hadvanced =>
      obtain rfl : retired = true := hretired.2 ⟨hn, hall⟩
      rw [hall] at hn hlow
      exact h.retire hn hlow hadvanced (fun _ => hall ▸ rfl) fun _ => rfl
  | stalls => contradiction

/-- A call that does not fault keeps the account. -/
theorem perform (h : Accounts g history) {call : GraphCall η} {answer : GraphAnswer}
    (hcall : g.perform call = (.ok answer, g')) :
    Accounts g' (history ++ [⟨call, .ok answer⟩]) := by
  cases call with
  | claim id batch =>
      cases hclaim : g.claim id batch with
      | error fault => simp [TaskGraph.perform, hclaim] at hcall
      | ok result =>
          obtain ⟨base, next⟩ := result
          obtain ⟨rfl, rfl⟩ : .base base = answer ∧ next = g' := by
            simpa [TaskGraph.perform, hclaim] using hcall
          exact h.claim hclaim
  | report shared trace id finished origin =>
      rcases hreport : g.report shared trace id finished origin with ⟨_ | retired, next, trace'⟩
      · simp [TaskGraph.perform, hreport, Except.map] at hcall
      · obtain ⟨rfl, rfl⟩ : .retired retired = answer ∧ next = g' := by
          simpa [TaskGraph.perform, hreport, Except.map] using hcall
        exact h.report hreport

/-- A history without a fault keeps the account. -/
theorem after (h : Accounts g history) (calls : List (GraphCall η))
    (hcalm : ∀ e ∈ g.exchanges calls, e.faults = false) :
    Accounts (g.after calls) (history ++ g.exchanges calls) := by
  induction calls generalizing g history with
  | nil =>
      rw [exchanges, List.append_nil]
      exact h
  | cons call calls ih =>
      have hhere := hcalm _ (List.mem_cons_self ..)
      rw [exchanges, List.append_cons]
      rcases hcall : g.perform call with ⟨_ | answer, next⟩
      · rw [hcall] at hhere
        exact absurd hhere (by simp [GraphExchange.faults, Except.isOk, Except.toBool])
      · rw [exchanges, hcall] at hcalm
        rw [after_cons, hcall]
        exact ih (h.perform hcall) fun e he => hcalm e (List.mem_cons_of_mem _ he)

end Accounts

/-- After any claims and reports without a fault, the node at the cursor is the only one that
has invocations left, namely those that have not been reported.  Each node that the cursor
has passed, unless it was empty, has been retired by one report, the one that completed its
total, and no other node has been retired.  A report on another node, or of more than is
left, faults and leaves the cursor where it is. -/
theorem unique_retirer {g₀ g₁ : TaskGraph η} {shared : Shared η} {trace trace' : DeviceTrace}
    (hinit : g₀.init shared trace = (.ok (), g₁, trace')) (calls : List (GraphCall η))
    (hcalm : ∀ e ∈ g₁.exchanges calls, e.faults = false) :
    let g := g₁.after calls
    let history := g₁.exchanges calls
    (∀ k, 0 < g.remaining k ↔ k = g.cursor.toNat ∧ k < g.numNodes) ∧
    (∀ k, k = g.cursor.toNat → k < g.numNodes → 0 < g.remaining k ∧
      g.remaining k ≤ g.total k ∧ g.remaining k + reportedOf k history = g.total k) ∧
    (∀ k, history.countP (·.retires k) = if k < g.cursor.toNat ∧ 0 < g.total k then 1 else 0) ∧
    (∀ k before e later, history = before ++ e :: later → e.retires k = true →
      reportedOf k (before ++ [e]) = g.total k) ∧
    ∀ shared trace id finished origin, 0 < finished.toNat →
      id.index ≠ g.cursor.toNat ∨ g.remaining id.index < finished.toNat →
      ∃ fault g', g.report shared trace id finished origin = (.error fault, g', trace) ∧
        g'.cursor = g.cursor := by
  intro g history
  have h : Accounts g history := (Accounts.of_begun (begun_of_init hinit)).after calls hcalm
  have hactive : ∀ k, k = g.cursor.toNat → k < g.numNodes → 0 < g.remaining k := by
    rintro k rfl hk
    exact h.current hk
  refine ⟨fun k => ⟨h.settled.active k, fun ⟨hk, hN⟩ => hactive k hk hN⟩, fun k hk hN => ?_,
    h.retirers, h.complete, ?_⟩
  · have hdue := h.due k
    exact ⟨hactive k hk hN, hdue ▸ Nat.le_add_right _ _, hdue⟩
  · intro shared trace id finished origin hpos hwrong
    apply g.report_of_lt
    rcases hwrong with hne | hlt
    · by_contra hle
      exact hne (h.settled.active _ (hpos.trans_le (Nat.le_of_not_lt hle))).1
    · exact hlt

namespace Sample

def shared : Shared Unit := ⟨⟨.default, .builtins 2, #[], #[], .empty 0, .empty 0⟩, ()⟩

def graph : TaskGraph Unit :=
  .ofSpecs [.fixed ⟨0⟩ 3, .dynamic ⟨0⟩ (.withCount .empty fun _ => 0), .fixed ⟨0⟩ 2]

def begun : TaskGraph Unit := (graph.init shared (.ofConfig ⟨false, 0⟩)).2.1

theorem init_eq : graph.init shared (.ofConfig ⟨false, 0⟩) =
    (.ok (), begun, (graph.init shared (.ofConfig ⟨false, 0⟩)).2.2) := by
  have hok : (graph.init shared (.ofConfig ⟨false, 0⟩)).1 = .ok () := by decide +kernel
  exact Prod.ext hok rfl

def calls : List (GraphCall Unit) :=
  [.claim ⟨2⟩ 7, .report shared (.ofConfig ⟨false, 0⟩) ⟨0⟩ 2 .first, .claim ⟨0⟩ 4,
    .report shared (.ofConfig ⟨false, 0⟩) ⟨1⟩ 0 .first,
    .report shared (.ofConfig ⟨false, 0⟩) ⟨0⟩ 1 .first,
    .report shared (.ofConfig ⟨false, 0⟩) ⟨2⟩ 1 .first]

end Sample

theorem unique_retirer_sample :
    let g := Sample.begun.after Sample.calls
    let history := Sample.begun.exchanges Sample.calls
    g.cursor = 2 ∧ 0 < g.remaining 2 ∧ g.remaining 2 + reportedOf 2 history = 2 ∧
      history.countP (·.retires 0) = 1 ∧ history.countP (·.retires 1) = 0 := by
  intro g history
  obtain ⟨-, hactive, hretirers, -, -⟩ :=
    unique_retirer Sample.init_eq Sample.calls (by decide +kernel)
  have hcursor : g.cursor = 2 := by decide +kernel
  obtain ⟨hpos, -, hdue⟩ := hactive 2 (by decide +kernel) (by decide +kernel)
  refine ⟨hcursor, hpos, hdue.trans (by decide +kernel), ?_, ?_⟩
  · exact (hretirers 0).trans (by decide +kernel)
  · exact (hretirers 1).trans (by decide +kernel)

end TaskGraph
end Lockstep
