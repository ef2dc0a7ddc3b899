import Lockstep.Proofs.TaskGraph.Restart
import Lockstep.Proofs.TaskGraph.Retirement
import Lockstep.Proofs.TaskGraph.Search

/-!
# The way of the cursor

The cursor of a graph goes forward, from node to node, and over those that count nothing when
their turn comes.  The nodes passed over stay without a total and without a record.
-/

namespace Lockstep
namespace TaskGraph

variable {η : Type} {g g' g'' low : TaskGraph η} {shared : Shared η} {trace trace' : DeviceTrace}
  {origin : TraceOrigin} {start last : Nat} {result : Except Fault Unit} {notes : List TraceNote}

theorem Outcome.congr (hspecs : SameSpecs g low) (hcursor : low.cursor = g.cursor)
    (h : Outcome low shared origin last g' result notes) :
    Outcome g shared origin last g' result notes := by
  have hcount := hspecs.countIn shared last
  have hnodes := hspecs.numNodes
  cases h with
  | starts hlast hcounted hpos hnow hremaining hclaimed =>
      rw [hcount] at hcounted
      rw [hnodes] at hlast
      exact .starts hlast hcounted hpos hnow hremaining hclaimed
  | ends hlast hnow => exact .ends (hlast.trans hnodes) hnow
  | faults hlast hnot hnow htotal hremaining =>
      rw [hcount] at hnot ⊢
      rw [hnodes] at hlast
      exact .faults hlast hnot (hnow.trans hcursor) htotal hremaining

theorem Search.congr (hspecs : SameSpecs g low) (hcursor : low.cursor = g.cursor)
    (h : Search low shared origin start last g' result notes) :
    Search g shared origin start last g' result notes :=
  ⟨h.reaches.congr hspecs, h.idle, h.outcome.congr hspecs hcursor⟩

/-- A search that ends well moves the cursor to where it stops. -/
theorem Search.cursor (h : Search g shared origin start last g' (.ok ()) notes) :
    g'.cursor.toNat = last := by
  cases h.outcome with
  | starts _ _ _ hcursor => exact hcursor
  | ends _ hcursor => exact hcursor

/-- The only note of a search is about the node that it starts. -/
theorem Search.note_of_mem (h : Search g shared origin start last g' result notes) {n : TraceNote}
    (hn : n ∈ notes) : n.mark.event.isNode = true ∧ n.mark.node.index = g'.cursor.toNat := by
  have hnotes := h.outcome
  cases hnotes with
  | starts _ _ _ hcursor =>
      obtain rfl := List.mem_singleton.1 hn
      refine ⟨rfl, ?_⟩
      rw [Pickup.mark, ← hcursor, pickup_node, NodeId.index, UInt32.ofNat_toNat]
  | ends | faults => contradiction

theorem search_init (g : TaskGraph η) (shared : Shared η) (trace : DeviceTrace) :
    ∃ result g' last notes, g.init shared trace = (result, g', trace.reset.noteAll notes) ∧
      Search g shared .first 0 last g' result notes := by
  have hidle : ∀ i, 0 ≤ i → g.rewound.total i = 0 ∧ g.rewound.remaining i = 0 :=
    fun i _ => ⟨total_rewound g i, remaining_rewound g i⟩
  obtain ⟨result, g', last, notes, hadvance, -, hsearch, -⟩ :=
    search_advanceFrom g.rewound shared trace.reset .first (Nat.zero_le _) hidle
  exact ⟨result, g', last, notes, (init_eq ..).trans hadvance,
    hsearch.congr g.sameSpecs_rewound rfl⟩

section Reports

variable {id : NodeId} {finished : UInt32}

/-- The report of all that remains of a node, which is then the one at the cursor. -/
theorem Settled.search_report (hg : Settled g) (shared : Shared η) (trace : DeviceTrace)
    (origin : TraceOrigin) (hpos : 0 < finished.toNat)
    (hall : finished.toNat = g.remaining id.index) :
    id.index = g.cursor.toNat ∧ ∃ result g' last notes,
      g.report shared trace id finished origin = (result.map fun _ => true, g',
        trace.noteAll (⟨(g.pickup id.index).mark .nodeFinish, origin⟩ :: notes)) ∧
      Search g shared origin (id.index + 1) last g' result notes ∧
      ∀ i ≤ id.index, g'.pickup i = g.pickup i := by
  obtain ⟨hid, hN⟩ := hg.active id.index (hall ▸ hpos)
  obtain ⟨low, hlow, -, hretires⟩ :=
    g.report_of_le shared trace id origin (hN.trans_le g.numNodes_le) hpos hall.le
  obtain ⟨⟨node, hnode, hreport⟩, -⟩ := hretires hall
  have hmark : (g.pickup id.index).mark .nodeFinish =
      ⟨.nodeFinish, id, node.spec.func, node.total⟩ := by
    rw [Pickup.mark, pickup_node_index, pickup, hnode]
  have hidle : ∀ i, id.index + 1 ≤ i → low.total i = 0 ∧ low.remaining i = 0 := by
    intro i hi
    have hnone : ¬ 0 < g.remaining i := fun hsome => by
      have hcursor := (hg.active i hsome).1
      omega
    rw [total_congr (hlow.pickup i), hlow.remaining, if_neg (by omega)]
    exact ⟨hg.front i (.inl (by omega)), Nat.eq_zero_of_not_pos hnone⟩
  obtain ⟨result, g', last, notes, hadvance, -, hsearch, hkept⟩ :=
    search_advanceFrom low shared (trace.record .nodeFinish node.spec.func node.total id origin)
      origin (hlow.specs.numNodes.symm ▸ hN) hidle
  refine ⟨hid, result, g', last, notes, ?_, hsearch.congr hlow.specs hlow.cursor,
    fun i hi => (hkept i (Nat.lt_succ_of_le hi)).trans (hlow.pickup i)⟩
  rw [hreport, hadvance, hmark, DeviceTrace.noteAll_cons, DeviceTrace.note]

/-- Any other report leaves the cursor and the totals alone, whether it faults or not. -/
theorem report_stays (g : TaskGraph η) (shared : Shared η) (trace : DeviceTrace)
    (origin : TraceOrigin) (hnot : ¬ (0 < finished.toNat ∧ finished.toNat = g.remaining id.index)) :
    ∃ result g', g.report shared trace id finished origin = (result, g', trace) ∧
      result ≠ .ok true ∧ g'.cursor = g.cursor ∧ ∀ i, g'.pickup i = g.pickup i := by
  unfold report
  by_cases hzero : finished = 0
  · rw [if_pos hzero]
    exact ⟨_, g, rfl, by simp, rfl, fun _ => rfl⟩
  rw [if_neg hzero]
  cases hnode : g.node id with
  | error fault => exact ⟨_, g, rfl, by simp, rfl, fun _ => rfl⟩
  | ok node =>
      have hget := getElem?_of_node hnode
      have hkept : ∀ i, (g.put id.index { node with
          remaining := node.remaining - finished }).pickup i = g.pickup i :=
        fun i => pickup_put_of_total_eq hget i rfl rfl
      dsimp only
      split
      · exact ⟨_, _, rfl, by simp, rfl, hkept⟩
      split
      · exact ⟨_, _, rfl, by simp, rfl, hkept⟩
      · rename_i hall
        have hall := Decidable.not_not.1 hall
        have hremaining : g.remaining id.index = node.remaining.toNat := by rw [remaining, hget]
        refine absurd ⟨Nat.pos_of_ne_zero fun h => hzero (UInt32.toNat_inj.1 h), ?_⟩ hnot
        rw [hremaining, hall]

end Reports

/-- The way of a cursor from graph to graph, with the nodes that it visits and the notes that
are made. -/
inductive Way : TaskGraph η → List Nat → List TraceNote → TaskGraph η → Prop
  | here (g : TaskGraph η) : Way g [g.cursor.toNat] [] g
  | stay {g g' g'' : TaskGraph η} {stops : List Nat} {notes : List TraceNote}
      (hcursor : g'.cursor = g.cursor) (hkept : ∀ i, g'.pickup i = g.pickup i)
      (h : Way g' stops notes g'') : Way g stops notes g''
  | move {g g' g'' : TaskGraph η} {stops : List Nat} {notes later : List TraceNote}
      (hlt : g.cursor.toNat < g'.cursor.toNat)
      (hkept : ∀ i ≤ g.cursor.toNat, g'.pickup i = g.pickup i)
      (hskipped : ∀ i, g.cursor.toNat < i → i < g'.cursor.toNat → g'.total i = 0)
      (hnotes : ∀ n ∈ notes, n.mark.event.isNode = true ∧
        (n.mark.node.index = g.cursor.toNat ∨ n.mark.node.index = g'.cursor.toNat))
      (h : Way g' stops later g'') : Way g (g.cursor.toNat :: stops) (notes ++ later) g''

namespace Way

variable {stops : List Nat}

theorem cursor_mem (h : Way g stops notes g') : g.cursor.toNat ∈ stops := by
  induction h with
  | here g => exact List.mem_singleton_self _
  | stay hcursor _ _ ih => rwa [← hcursor]
  | move => exact List.mem_cons_self

theorem bounds (h : Way g stops notes g') :
    g.cursor.toNat ≤ g'.cursor.toNat ∧
      ∀ i ∈ stops, g.cursor.toNat ≤ i ∧ i ≤ g'.cursor.toNat := by
  induction h with
  | here g =>
      refine ⟨Nat.le_refl _, fun i hi => ?_⟩
      obtain rfl := List.mem_singleton.1 hi
      exact ⟨Nat.le_refl _, Nat.le_refl _⟩
  | stay hcursor _ _ ih => rwa [← hcursor]
  | move hlt _ _ _ _ ih =>
      refine ⟨hlt.le.trans ih.1, fun i hi => ?_⟩
      rcases List.mem_cons.1 hi with rfl | hi
      · exact ⟨Nat.le_refl _, hlt.le.trans ih.1⟩
      · exact ⟨hlt.le.trans (ih.2 i hi).1, (ih.2 i hi).2⟩

theorem increasing (h : Way g stops notes g') : stops.Pairwise (· < ·) := by
  induction h with
  | here g => exact List.pairwise_singleton _ _
  | stay _ _ _ ih => exact ih
  | move hlt _ _ _ h ih => exact .cons (fun i hi => hlt.trans_le (h.bounds.2 i hi).1) ih

theorem getLast?_eq (h : Way g stops notes g') : stops.getLast? = some g'.cursor.toNat := by
  induction h with
  | here g => rfl
  | stay _ _ _ ih => exact ih
  | move _ _ _ _ _ ih => rw [List.getLast?_cons, ih, Option.getD_some]

/-- Totals are not changed any more once the cursor is there. -/
theorem total (h : Way g stops notes g') {i : Nat} (hi : i ≤ g.cursor.toNat) :
    g'.total i = g.total i := by
  induction h with
  | here g => rfl
  | stay hcursor hkept _ ih => exact (ih (hcursor ▸ hi)).trans (total_congr (hkept i))
  | move hlt hkept _ _ _ ih => exact (ih (hi.trans hlt.le)).trans (total_congr (hkept i hi))

theorem skipped (h : Way g stops notes g') {i : Nat} (hi : g.cursor.toNat < i)
    (hlt : i < g'.cursor.toNat) (hstops : i ∉ stops) : g'.total i = 0 := by
  induction h with
  | here g => omega
  | stay hcursor _ _ ih => exact ih (hcursor ▸ hi) hlt hstops
  | @move g g' g'' stops notes later _ _ hskipped _ h ih =>
      have hstops : i ∉ stops := fun hmem => hstops (List.mem_cons_of_mem _ hmem)
      rcases Nat.lt_trichotomy i g'.cursor.toNat with hbefore | rfl | hbehind
      · rw [h.total hbefore.le]
        exact hskipped i hi hbefore
      · exact absurd h.cursor_mem hstops
      · exact ih hbehind hlt hstops

theorem noted (h : Way g stops notes g') {n : TraceNote} (hn : n ∈ notes) :
    n.mark.event.isNode = true ∧ n.mark.node.index ∈ stops := by
  induction h with
  | here g => contradiction
  | stay _ _ _ ih => exact ih hn
  | move _ _ _ hnotes h ih =>
      rcases List.mem_append.1 hn with hn | hn
      · obtain ⟨hnode, hindex⟩ := hnotes n hn
        refine ⟨hnode, ?_⟩
        rcases hindex with hindex | hindex
        · exact hindex ▸ List.mem_cons_self
        · exact List.mem_cons_of_mem _ (hindex ▸ h.cursor_mem)
      · exact ⟨(ih hn).1, List.mem_cons_of_mem _ (ih hn).2⟩

end Way

/-- One call on the way of the cursor.  The trace that it writes to makes no difference to the
graph. -/
theorem Settled.step (hg : Settled g) {call : GraphCall η} {answer : GraphAnswer}
    (hcall : g.perform call = (.ok answer, g')) (trace : DeviceTrace) :
    (answer ≠ .retired true ∧ g.traceOf trace call = trace ∧ g'.cursor = g.cursor ∧
      ∀ i, g'.pickup i = g.pickup i) ∨
    (answer = .retired true ∧ ∃ notes, g.traceOf trace call = trace.noteAll notes ∧
      g.cursor.toNat < g'.cursor.toNat ∧ (∀ i ≤ g.cursor.toNat, g'.pickup i = g.pickup i) ∧
      (∀ i, g.cursor.toNat < i → i < g'.cursor.toNat → g'.total i = 0) ∧
      ∀ n ∈ notes, n.mark.event.isNode = true ∧
        (n.mark.node.index = g.cursor.toNat ∨ n.mark.node.index = g'.cursor.toNat)) := by
  cases call with
  | claim id batch =>
      cases hclaim : g.claim id batch with
      | error fault => simp [perform, hclaim] at hcall
      | ok claimed =>
          obtain ⟨base, next⟩ := claimed
          obtain ⟨rfl, rfl⟩ : .base base = answer ∧ next = g' := by
            simpa [perform, hclaim] using hcall
          obtain ⟨-, hclaim⟩ := claim_cases hclaim
          exact .inl ⟨by simp, rfl, hclaim.cursor, hclaim.pickup⟩
  | report shared own id finished origin =>
      rw [perform_congr (.report (fun _ _ _ => rfl) own trace id finished origin origin)] at hcall
      by_cases hall : 0 < finished.toNat ∧ finished.toNat = g.remaining id.index
      · obtain ⟨hid, result, next, last, notes, hreport, hsearch, hkept⟩ :=
          hg.search_report shared trace origin hall.1 hall.2
        rw [perform, hreport] at hcall
        cases result with
        | error fault => simp [Except.map] at hcall
        | ok =>
            obtain ⟨rfl, rfl⟩ : .retired true = answer ∧ next = g' := by
              simpa [Except.map] using hcall
            have hcursor := hsearch.cursor
            have hstart := hsearch.reaches.start_le
            refine .inr ⟨rfl, _, congrArg (·.2.2) hreport, by omega, fun i hi => hkept i (by omega),
              fun i hi hlt => (hsearch.idle i (by omega) (by omega)).1, fun n hn => ?_⟩
            rcases List.mem_cons.1 hn with rfl | hn
            · refine ⟨rfl, .inl ?_⟩
              rw [Pickup.mark, pickup_node_index, hid]
            · obtain ⟨hnode, hindex⟩ := hsearch.note_of_mem hn
              exact ⟨hnode, .inr hindex⟩
      · obtain ⟨result, next, hreport, hne, hcursor, hkept⟩ :=
          g.report_stays shared trace origin hall
        rw [perform, hreport] at hcall
        cases result with
        | error fault => simp [Except.map] at hcall
        | ok retired =>
            obtain ⟨rfl, rfl⟩ : .retired retired = answer ∧ next = g' := by
              simpa [Except.map] using hcall
            refine .inl ⟨fun heq => hne ?_, congrArg (·.2.2) hreport, hcursor, hkept⟩
            rw [GraphAnswer.retired.inj heq]

/-- The way of the cursor during calls that do not fault. -/
theorem Accounts.way {history : List (GraphExchange η)} (h : Accounts g history)
    (calls : List (GraphCall η)) (trace : DeviceTrace)
    (hcalm : ∀ e ∈ g.exchanges calls, e.faults = false) :
    ∃ notes, g.traceAfter trace calls = trace.noteAll notes ∧
      Way g (g.cursors calls) notes (g.after calls) := by
  induction calls generalizing g history trace with
  | nil => exact ⟨[], rfl, .here g⟩
  | cons call calls ih =>
      have hhere := hcalm _ (List.mem_cons_self ..)
      rcases hcall : g.perform call with ⟨_ | answer, next⟩
      · rw [hcall] at hhere
        exact absurd hhere (by simp [GraphExchange.faults, Except.isOk, Except.toBool])
      rw [exchanges, hcall] at hcalm
      obtain ⟨later, htrace, hway⟩ := ih (h.perform hcall) (g.traceOf trace call)
        fun e he => hcalm e (List.mem_cons_of_mem _ he)
      rw [traceAfter, cursors, after_cons, hcall, htrace]
      rcases h.settled.step hcall trace with
        ⟨hne, hown, hcursor, hkept⟩ | ⟨rfl, notes, hown, hlt, hkept, hskipped, hnotes⟩
      · refine ⟨later, by rw [hown], ?_⟩
        cases answer with
        | base base => exact hway.stay hcursor hkept
        | retired retired =>
            obtain rfl : retired = false := eq_false_of_ne_true fun htrue => hne (htrue ▸ rfl)
            exact hway.stay hcursor hkept
      · refine ⟨notes ++ later, ?_, hway.move hlt hkept hskipped hnotes⟩
        rw [hown, DeviceTrace.noteAll, DeviceTrace.noteAll, DeviceTrace.noteAll, List.foldl_append]

/-! ## Parts of a history -/

theorem sameSpecs_after (g : TaskGraph η) (calls : List (GraphCall η)) :
    SameSpecs g (g.after calls) := by
  induction calls generalizing g with
  | nil => exact .refl g
  | cons call calls ih => exact (g.sameSpecs_perform call).trans (ih _)

theorem after_append (g : TaskGraph η) (calls later : List (GraphCall η)) :
    g.after (calls ++ later) = (g.after calls).after later :=
  List.foldl_append

theorem exchanges_append (g : TaskGraph η) (calls later : List (GraphCall η)) :
    g.exchanges (calls ++ later) = g.exchanges calls ++ (g.after calls).exchanges later := by
  induction calls generalizing g with
  | nil => rfl
  | cons call calls ih =>
      rw [List.cons_append, exchanges, exchanges, ih, List.cons_append, after_cons]

/-- The cursor stops wherever it is in between. -/
theorem cursors_subset (g : TaskGraph η) (calls later : List (GraphCall η)) :
    (g.after calls).cursors later ⊆ g.cursors (calls ++ later) := by
  induction calls generalizing g with
  | nil => exact List.Subset.refl _
  | cons call calls ih =>
      have hlater := ih (g.perform call).2
      rw [List.cons_append, cursors, after_cons]
      split
      · exact List.subset_cons_of_subset _ hlater
      · exact hlater

/-! ## The cursor path -/

/-- The start of a run, and every report that retires a node, moves the cursor to the next node
that does not count zero at that moment, or behind the last node.  A count that is none ends
the search with the cursor where it was.  During calls without a fault the cursor goes only
forward; the nodes that it does not stop at stay without a total and without a record, and those
that it has reached keep their total.  Other calls leave the cursor and the totals alone. -/
theorem cursor_path (g₀ : TaskGraph η) (shared₀ : Shared η) (trace₀ : DeviceTrace) :
    (∃ result g₁ last notes,
      g₀.init shared₀ trace₀ = (result, g₁, trace₀.reset.noteAll notes) ∧
      Search g₀ shared₀ .first 0 last g₁ result notes) ∧
    ∀ g₁ trace₁, g₀.init shared₀ trace₀ = (.ok (), g₁, trace₁) →
    ∀ calls, (∀ e ∈ g₁.exchanges calls, e.faults = false) →
      let g := g₁.after calls
      let stops := g₁.cursors calls
      let trace := g₁.traceAfter trace₁ calls
      stops.Pairwise (· < ·) ∧ stops.getLast? = some g.cursor.toNat ∧
      g.cursor.toNat ≤ g₀.numNodes ∧
      (∀ before later, calls = before ++ later → (g₁.after before).cursor.toNat ∈ stops ∧
        ∀ i ≤ (g₁.after before).cursor.toNat, g.total i = (g₁.after before).total i) ∧
      (∀ i < g.cursor.toNat, i ∉ stops → g.total i = 0) ∧
      (∃ notes, trace = trace₀.reset.noteAll notes ∧
        ∀ n ∈ notes, n.mark.event.isNode = true ∧ n.mark.node.index ∈ stops) ∧
      (trace₀.slots.size ≤ trace₀.capacity.toNat → ∀ r ∈ trace.records, ∀ n, r.note? = some n →
        n.mark.event.isNode = true → n.mark.node.index ∈ stops) ∧
      (∀ id batch base g', g.claim id batch = .ok (base, g') →
        g'.cursor = g.cursor ∧ ∀ i, g'.total i = g.total i) ∧
      ∀ shared trace id finished origin,
        (0 < finished.toNat → finished.toNat = g.remaining id.index →
          id.index = g.cursor.toNat ∧ ∃ result g' last notes,
            g.report shared trace id finished origin = (result.map fun _ => true, g',
              trace.noteAll (⟨(g.pickup id.index).mark .nodeFinish, origin⟩ :: notes)) ∧
            Search g shared origin (id.index + 1) last g' result notes ∧
            ∀ i ≤ id.index, g'.total i = g.total i) ∧
        (¬ (0 < finished.toNat ∧ finished.toNat = g.remaining id.index) →
          ∃ result g', g.report shared trace id finished origin = (result, g', trace) ∧
            result ≠ .ok true ∧ g'.cursor = g.cursor ∧ ∀ i, g'.total i = g.total i) := by
  obtain ⟨result, started, first, opening, heq, hfirst⟩ := search_init g₀ shared₀ trace₀
  refine ⟨⟨result, started, first, opening, heq, hfirst⟩, ?_⟩
  intro g₁ trace₁ hinit calls hcalm g stops trace
  have hbegun := begun_of_init hinit
  obtain ⟨rfl, rfl, rfl⟩ : result = .ok () ∧ started = g₁ ∧
      trace₀.reset.noteAll opening = trace₁ := by
    simpa using heq.symm.trans hinit
  have hspecs : SameSpecs g₀ g :=
    (sameSpecs_init hinit).trans (sameSpecs_after started calls)
  obtain ⟨notes, htrace, hway⟩ := (Accounts.of_begun hbegun).way calls
    (trace₀.reset.noteAll opening) hcalm
  have haccounts := (Accounts.of_begun hbegun).after calls hcalm
  have hsettled : Settled g := haccounts.settled
  have hnotes : ∀ n ∈ opening ++ notes, n.mark.event.isNode = true ∧ n.mark.node.index ∈ stops := by
    intro n hn
    rcases List.mem_append.1 hn with hn | hn
    · obtain ⟨hnode, hindex⟩ := hfirst.note_of_mem hn
      exact ⟨hnode, hindex ▸ hway.cursor_mem⟩
    · exact hway.noted hn
  have htrace : trace = trace₀.reset.noteAll (opening ++ notes) := by
    rw [DeviceTrace.noteAll, List.foldl_append]
    exact htrace
  refine ⟨hway.increasing, hway.getLast?_eq, hspecs.numNodes ▸ hsettled.cursor_le,
    fun before later hsplit => ?_, fun i hi hstops => ?_, ⟨_, htrace, hnotes⟩,
    fun hsize r hr n hn hnode => ?_, fun id batch base g' hclaim => ?_,
    fun shared trace id finished origin => ⟨fun hpos hall => ?_, fun hnot => ?_⟩⟩
  · subst hsplit
    rw [exchanges_append] at hcalm
    have hbefore := (Accounts.of_begun hbegun).after before
      fun e he => hcalm e (List.mem_append_left _ he)
    obtain ⟨_, -, hrest⟩ := hbefore.way later trace
      fun e he => hcalm e (List.mem_append_right _ he)
    rw [← after_append] at hrest
    exact ⟨started.cursors_subset before later hrest.cursor_mem, fun i hi => hrest.total hi⟩
  · have hne : i ≠ started.cursor.toNat := fun h => hstops (h ▸ hway.cursor_mem)
    rcases Nat.lt_or_gt_of_ne hne with hbefore | hbehind
    · rw [hway.total hbefore.le]
      exact (hfirst.idle i (Nat.zero_le i) (hfirst.cursor ▸ hne)).1
    · exact hway.skipped hbehind hi hstops
  · rw [htrace] at hr
    obtain ⟨n', hn', hnote⟩ := (DeviceTrace.showsOnly_reset hsize _).mem r hr
    obtain rfl := Option.some.inj (hn.symm.trans hnote)
    rcases List.mem_cons.1 hn' with rfl | hn'
    · contradiction
    · exact (hnotes n hn').2
  · obtain ⟨-, hclaim⟩ := claim_cases hclaim
    exact ⟨hclaim.cursor, fun i => total_congr (hclaim.pickup i)⟩
  · obtain ⟨hid, result, g', last, notes, hreport, hsearch, hkept⟩ :=
      hsettled.search_report shared trace origin hpos hall
    exact ⟨hid, result, g', last, notes, hreport, hsearch, fun i hi => total_congr (hkept i hi)⟩
  · obtain ⟨result, g', hreport, hne, hcursor, hkept⟩ := g.report_stays shared trace origin hnot
    exact ⟨result, g', hreport, hne, hcursor, fun i => total_congr (hkept i)⟩

namespace Skipping

def graph : TaskGraph Int :=
  .ofSpecs [Restarting.digit, .fixed ⟨1⟩ 2, Restarting.digit, Restarting.digit, .fixed ⟨1⟩ 1,
    Restarting.digit]

def buffer : DeviceTrace := .ofConfig ⟨true, 8⟩

def begun : TaskGraph Int := (graph.init (Restarting.state 30) buffer).2.1

def opened : DeviceTrace := (graph.init (Restarting.state 30) buffer).2.2

theorem init_begun : graph.init (Restarting.state 30) buffer = (.ok (), begun, opened) := by
  have hok : (graph.init (Restarting.state 30) buffer).1 = .ok () := by decide +kernel
  exact Prod.ext hok rfl

/-- The third node, empty at the start, has work when its turn comes.  The fourth has none. -/
def calls : List (GraphCall Int) :=
  [.claim ⟨3⟩ 9, .report (Restarting.state 41) buffer ⟨1⟩ 2 .first,
    .report (Restarting.state 50) buffer ⟨2⟩ 1 .first]

end Skipping

open Skipping in
theorem cursor_path_sample :
    let g := begun.after calls
    begun.cursors calls = [1, 2, 4] ∧ g.total 2 = 1 ∧ g.total 3 = 0 ∧
      (begun.traceAfter opened calls).records.map (·.node) = [0, 1, 1, 2, 2, 4] ∧
      ∃ g', g.report (Restarting.state 100) buffer ⟨4⟩ 1 .first = (.error (.invalidCount 5 (-1)), g',
          buffer.noteAll [⟨(g.pickup 4).mark .nodeFinish, .first⟩]) ∧
        g'.cursor = 4 ∧ g'.total 5 = 0 := by
  intro g
  obtain ⟨-, hpath⟩ := cursor_path graph (Restarting.state 30) buffer
  obtain ⟨-, -, -, -, hskipped, -, -, -, hreports⟩ :=
    hpath begun opened init_begun calls (by decide +kernel)
  have hcursors : begun.cursors calls = [1, 2, 4] := by decide +kernel
  have hnodes : (begun.after calls).numNodes = 6 := by decide +kernel
  obtain ⟨-, result, g', last, notes, hreport, hsearch, -⟩ :=
    (hreports (Restarting.state 100) buffer ⟨4⟩ 1 .first).1 (by decide +kernel) (by decide +kernel)
  have hresult : result.map (fun _ => true) = .error (.invalidCount 5 (-1)) := by
    have hfault : (g.report (Restarting.state 100) buffer ⟨4⟩ 1 .first).1 =
        .error (.invalidCount 5 (-1)) := by decide +kernel
    exact (congrArg Prod.fst hreport).symm.trans hfault
  refine ⟨hcursors, by decide +kernel, hskipped 3 (by decide +kernel) ?_, by decide +kernel, ?_⟩
  · rw [hcursors]
    decide
  · rw [hresult] at hreport
    have hstart : 5 ≤ last := hsearch.reaches.start_le
    cases hsearch.outcome with
    | starts | ends => simp [Except.map] at hresult
    | faults hlast _ hcursor htotal =>
        obtain rfl : last = 5 := by omega
        exact ⟨g', hreport, hcursor.trans (by decide +kernel), htotal⟩

end TaskGraph
end Lockstep
