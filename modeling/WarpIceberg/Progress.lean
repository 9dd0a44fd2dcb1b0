/-
# Progress: while the context is open, no worker is stuck

A worker blocks at `<-wait`, in `rpsLimit`, in its catalog call and at
`rcv <- op`; nothing else of the run holds it, and no worker waits for
another. So while `wait` is closed and the context open, a worker that has not
returned can always be brought to its next send: `rpsLimit` answers nil, the
call returns, the collector empties the channel and the channel takes the
operation (`progress_send`, by the number of moves left to the send,
`Pc.toSend`). Repeating this worker by worker, every worker can send any
number of further operations, and the collector receive them all
(`run_can_progress`), whatever the capacity of the channel.

No state of a run with `wait` closed is a deadlock: a worker that has not
returned can move, or the channel is full and the collector can receive
(`Reach.can_move`). Once the context is cancelled the potential of `Stop`
bounds every schedule, so every schedule stops, and it stops with every worker
returned (`run_stops_after_cancel`): `wg.Wait` in `Start` returns whatever the
order in which the workers and the collector move.

Key definitions: `Running`, `progressAct`, `Pc.toSend`.
Key theorems: `wstep_progressAct`, `progress_move`, `progress_send`,
`progress_sends`, `run_can_progress`, `Reach.can_move`,
`run_stops_after_cancel`.
-/
import WarpIceberg.Stop

namespace Warp

/-- A state in which the run goes on: `wait` closed, the context not
cancelled, tables to call, and no more received than sent. -/
structure Running {σ : Type} (s : Sys σ) : Prop where
  released : s.released = true
  cancelled : s.cancelled = false
  tables : 0 < s.tables.length
  taken : s.taken ≤ s.sent.length

/-- The move that brings a worker to its next send while the context is open:
wake, find `done` open at the `select`, have `rpsLimit` answer nil, have the
call return, have the channel take the operation. -/
def progressAct : Pc → Act
  | .waiting => .wake
  | .limit => .rps false
  | .calling .. => .reply none
  | .sending _ => .send
  | _ => .poll

/-- How many of its moves a worker is from its next send, the send included. -/
def Pc.toSend : Pc → ℕ
  | .waiting => 5
  | .top => 4
  | .limit => 3
  | .calling .. => 2
  | .sending _ => 1
  | .exited => 0
  | .outOfRange => 0

theorem Pc.ne_of_toSend_pos {pc : Pc} (h : 0 < pc.toSend) : pc ≠ .exited ∧ pc ≠ .outOfRange := by
  cases pc <;> simp_all [Pc.toSend]

section Progress

variable {σ : Type} (R : Rand σ) (cvt : F64 → ℤ)

/-- With room in the channel, `wait` closed, the context open and tables to
call, a worker that has not returned makes its next move towards its send: the
send itself, back to the `select`, or a move that brings it one closer without
sending. -/
theorem wstep_progressAct {v : View} {w : Worker σ} (hroom : v.room = true)
    (hN : 0 < v.tables.length) (hr : v.released = true) (hc : v.cancelled = false)
    (hx : w.pc ≠ .exited) (ho : w.pc ≠ .outOfRange) :
    ∃ w', wstep R cvt v w (progressAct w.pc) = some w' ∧
      ((emitted w (progressAct w.pc)).length = 1 ∧ w'.pc = .top ∨
        emitted w (progressAct w.pc) = [] ∧ 0 < w'.pc.toSend ∧ w'.pc.toSend + 1 = w.pc.toSend) := by
  obtain ⟨sp, rng, pc, samples, calls⟩ := w
  cases pc with
  | limit =>
    let w : Worker σ := ⟨sp, rng, .limit, samples, calls⟩
    obtain ⟨tbl, req, op, hpc⟩ := issue_calling R cvt sp.role.body hN v.catalog v.clock w
    exact ⟨issue R cvt sp.role.body v.tables v.catalog v.clock w, rfl,
      .inr ⟨rfl, by rw [hpc]; exact Nat.two_pos, by rw [hpc]; rfl⟩⟩
  | _ => simp [wstep, progressAct, emitted, Pc.pending, Pc.toSend, hr, hc, hroom] at hx ho ⊢

/-- One move of worker `i` towards its next send, after the collector has
emptied the channel: the run goes on, the others stay and send nothing, and
worker `i` either sent one more operation or came one move closer. -/
theorem progress_move {s : Sys σ} {i : ℕ} {w : Worker σ} (hR : Running s)
    (hw : s.workers[i]? = some w) (hx : w.pc ≠ .exited) (ho : w.pc ≠ .outOfRange) :
    ∃ es s' w', steps R cvt s es = some s' ∧ Running s' ∧ s'.workers = s.workers.set i w' ∧
      (∀ j, j ≠ i → sentBy s'.sent j = sentBy s.sent j) ∧
      ((sentBy s'.sent i).length = (sentBy s.sent i).length + 1 ∧ w'.pc = .top ∨
        sentBy s'.sent i = sentBy s.sent i ∧ 0 < w'.pc.toSend ∧ w'.pc.toSend + 1 = w.pc.toSend) := by
  obtain ⟨w', hw', hmove⟩ :=
    wstep_progressAct R cvt (drained_room s) hR.tables hR.released hR.cancelled hx ho
  refine ⟨_, _, w', drain_act R cvt hR.taken hw hw',
    ⟨hR.released, hR.cancelled, hR.tables, (List.sublist_append_left _ _).length_le⟩, rfl,
    fun j hj => by simp [sentBy_tag, Ne.symm hj], ?_⟩
  simp only [sentBy_append, sentBy_tag, ite_true, List.length_append]
  rcases hmove with ⟨h1, h2⟩ | ⟨h1, h2⟩
  · exact .inl ⟨by rw [h1], h2⟩
  · exact .inr ⟨by rw [h1, List.append_nil], h2⟩

/-- **A worker that has not returned can be brought to its next send**, the
others staying as they are. -/
theorem progress_send (i : ℕ) : ∀ (n : ℕ) (s : Sys σ) (w : Worker σ), Running s →
    s.workers[i]? = some w → w.pc ≠ .exited → w.pc ≠ .outOfRange → w.pc.toSend = n →
    ∃ es s' w', steps R cvt s es = some s' ∧ Running s' ∧ s'.workers = s.workers.set i w' ∧
      w'.pc = .top ∧ (∀ j, j ≠ i → sentBy s'.sent j = sentBy s.sent j) ∧
      (sentBy s'.sent i).length = (sentBy s.sent i).length + 1 := by
  intro n
  induction n using Nat.strong_induction_on with
  | _ n ih =>
    intro s w hR hw hx ho hn
    obtain ⟨es, s₁, w₁, hs, hR₁, hws₁, hj₁, ⟨hlen, htop⟩ | ⟨hsame, hpos, hlt⟩⟩ :=
      progress_move R cvt hR hw hx ho
    · exact ⟨es, s₁, w₁, hs, hR₁, hws₁, htop, hj₁, hlen⟩
    have hw₁ : s₁.workers[i]? = some w₁ := by
      rw [hws₁]; exact List.getElem?_set_self (List.getElem?_eq_some_iff.mp hw).1
    obtain ⟨hx₁, ho₁⟩ := Pc.ne_of_toSend_pos hpos
    obtain ⟨es', s₂, w₂, hs', hR₂, hws₂, htop, hj₂, hlen⟩ :=
      ih _ (by omega) s₁ w₁ hR₁ hw₁ hx₁ ho₁ rfl
    exact ⟨es ++ es', s₂, w₂, by rw [steps_append, hs, Option.some_bind, hs'], hR₂,
      by rw [hws₂, hws₁, List.set_set], htop, fun j hj => (hj₂ j hj).trans (hj₁ j hj),
      by rw [hlen, hsame]⟩

/-- A worker that has not returned can be brought to send `n` more
operations, the others staying as they are. -/
theorem progress_sends (i : ℕ) : ∀ (n : ℕ) (s : Sys σ) (w : Worker σ), Running s →
    s.workers[i]? = some w → w.pc ≠ .exited → w.pc ≠ .outOfRange →
    ∃ es s' w', steps R cvt s es = some s' ∧ Running s' ∧ s'.workers = s.workers.set i w' ∧
      w'.pc ≠ .exited ∧ w'.pc ≠ .outOfRange ∧ (∀ j, j ≠ i → sentBy s'.sent j = sentBy s.sent j) ∧
      (sentBy s'.sent i).length = (sentBy s.sent i).length + n
  | 0, s, w, hR, hw, hx, ho =>
    ⟨[], s, w, rfl, hR, by simpa using (map_set_of_getElem? id hw rfl).symm, hx, ho,
      fun _ _ => rfl, rfl⟩
  | n + 1, s, w, hR, hw, hx, ho => by
    obtain ⟨es, s₁, w₁, hs, hR₁, hws₁, htop, hj₁, hlen₁⟩ := progress_send R cvt i _ s w hR hw hx ho rfl
    have hw₁ : s₁.workers[i]? = some w₁ := by
      rw [hws₁]; exact List.getElem?_set_self (List.getElem?_eq_some_iff.mp hw).1
    obtain ⟨es', s₂, w₂, hs', hR₂, hws₂, hx₂, ho₂, hj₂, hlen₂⟩ :=
      progress_sends i n s₁ w₁ hR₁ hw₁ (by rw [htop]; nofun) (by rw [htop]; nofun)
    exact ⟨es ++ es', s₂, w₂, by rw [steps_append, hs, Option.some_bind, hs'], hR₂,
      by rw [hws₂, hws₁, List.set_set], hx₂, ho₂, fun j hj => (hj₂ j hj).trans (hj₁ j hj),
      by omega⟩

/-- The workers from index `k` on are left as they are; the ones before that
have not returned can each be brought to send `n` more operations. -/
theorem progress_all (n : ℕ) : ∀ (k : ℕ) (s : Sys σ), Running s →
    (∀ w ∈ s.workers, w.pc ≠ .outOfRange) →
    ∃ es s', steps R cvt s es = some s' ∧ Running s' ∧ (∀ w ∈ s'.workers, w.pc ≠ .outOfRange) ∧
      (∀ i w, i < k → s.workers[i]? = some w → w.pc ≠ .exited →
        (sentBy s'.sent i).length = (sentBy s.sent i).length + n) ∧
      ∀ i, k ≤ i → s'.workers[i]? = s.workers[i]? ∧ sentBy s'.sent i = sentBy s.sent i
  | 0, s, hR, ho => ⟨[], s, rfl, hR, ho, fun _ _ h => absurd h (Nat.not_lt_zero _),
      fun _ _ => ⟨rfl, rfl⟩⟩
  | k + 1, s, hR, ho => by
    obtain ⟨es, s₁, hs, hR₁, ho₁, hdone, hrest⟩ := progress_all n k s hR ho
    obtain ⟨hwk, hsk⟩ := hrest k le_rfl
    by_cases hk : ∃ w, s.workers[k]? = some w ∧ w.pc ≠ .exited
    · obtain ⟨w, hw, hx⟩ := hk
      have hw₁ : s₁.workers[k]? = some w := hwk.trans hw
      obtain ⟨es', s₂, w₂, hs', hR₂, hws₂, -, ho₂, hj₂, hlen₂⟩ :=
        progress_sends R cvt k n s₁ w hR₁ hw₁ hx (ho₁ w (List.mem_iff_getElem?.mpr ⟨k, hw₁⟩))
      refine ⟨es ++ es', s₂, by rw [steps_append, hs, Option.some_bind, hs'], hR₂,
        fun v hv => ?_, fun i v hi hv hxv => ?_, fun i hi => ?_⟩
      · rw [hws₂] at hv
        rcases List.mem_or_eq_of_mem_set hv with hv | rfl
        · exact ho₁ v hv
        · exact ho₂
      · rcases Nat.lt_succ_iff_lt_or_eq.mp hi with hi | rfl
        · rw [hj₂ i (by omega)]; exact hdone i v hi hv hxv
        · cases hw.symm.trans hv
          rw [hlen₂, hsk]
      · rw [hws₂, List.getElem?_set_ne (by omega), hj₂ i (by omega)]
        exact hrest i (by omega)
    · push_neg at hk
      refine ⟨es, s₁, hs, hR₁, ho₁, fun i v hi hv hxv => ?_, fun i hi => hrest i (by omega)⟩
      rcases Nat.lt_succ_iff_lt_or_eq.mp hi with hi | rfl
      · exact hdone i v hi hv hxv
      · exact absurd (hk v hv) hxv

/-- **While the context is open, no state of a run is a deadlock**: from every
state of a run of `Start` in which `wait` is closed and the context not
cancelled, some schedule (`rpsLimit` answering nil, the calls returning, the
collector receiving) brings every worker that has not returned to send `n`
more operations, for any `n`, and the collector to receive every operation
sent, in a state that is itself a state of the run. -/
theorem run_can_progress (b : Ready) (cap : ℕ) {s : Sys σ} (h : Reach R cvt (start R b cap) s)
    (hr : s.released = true) (hc : s.cancelled = false) (n : ℕ) :
    ∃ es s', steps R cvt s es = some s' ∧ Reach R cvt (start R b cap) s' ∧
      s'.taken = s'.sent.length ∧
      ∀ i w, s.workers[i]? = some w → w.pc ≠ .exited →
        (sentBy s'.sent i).length = (sentBy s.sent i).length + n := by
  have hI := Inv.reach h
  have ho : ∀ w ∈ s.workers, w.pc ≠ .outOfRange := fun w hw => by
    obtain ⟨j, hj⟩ := List.mem_iff_getElem?.mp hw
    exact (hI.workers hj).inRange
  obtain ⟨es, s₁, hs, hR₁, -, hall, -⟩ := progress_all R cvt n s.workers.length s
    ⟨hr, hc, hI.tables ▸ b.length_pos, Reach.taken R cvt h le_rfl⟩ ho
  have hrun : steps R cvt s (es ++ List.replicate (s₁.sent.length - s₁.taken) .recv) =
      some { s₁ with taken := s₁.sent.length } := by
    rw [steps_append, hs, Option.some_bind,
      steps_drain R cvt _ s₁ (by have := hR₁.taken; omega)]
  exact ⟨_, _, hrun, h.trans R cvt (Reach.of_steps R cvt hrun), rfl,
    fun i w hw hx => hall i w (List.getElem?_eq_some_iff.mp hw).1 hw hx⟩

/-! ### No deadlock, and every schedule stops after cancellation -/

theorem step_released {s s' : Sys σ} {e : Event} (h : step R cvt s e = some s')
    (hr : s.released = true) : s'.released = true := by
  cases e with
  | act i a => obtain ⟨_, _, -, -, rfl⟩ := step_act R cvt h; exact hr
  | _ =>
    have hback := (step_workers R cvt h nofun).2.2.2.2.2
    cases h' : s'.released
    · simp [hback h'] at hr
    · rfl

theorem Reach.released {s₀ s : Sys σ} (h : Reach R cvt s₀ s) (hr : s₀.released = true) :
    s.released = true := by
  induction h with
  | refl => exact hr
  | step e _ hs ih => exact step_released R cvt hs ih

/-- **No state of a run with `wait` closed is a deadlock**: a worker that has
not returned can move (at whatever blocking point it is), or else the channel
is full and the collector can receive. -/
theorem Reach.can_move {b : Ready} {cap : ℕ} {s : Sys σ} (h : Reach R cvt (start R b cap) s)
    (hr : s.released = true) {i : ℕ} {w : Worker σ} (hw : s.workers[i]? = some w)
    (hx : w.pc ≠ .exited) : Warp.step R cvt s .recv ≠ none ∨ ∃ a, Warp.step R cvt s (.act i a) ≠ none := by
  have hI := Inv.reach h
  have ho := (hI.workers hw).inRange
  have hN : 0 < s.tables.length := hI.tables ▸ b.length_pos
  by_cases hroom : s.view.room = true
  · obtain ⟨a, w', hw'⟩ : ∃ a w', wstep R cvt s.view w a = some w' := by
      cases hc : s.cancelled
      · obtain ⟨w', hw', -⟩ := wstep_progressAct R cvt hroom hN hr hc hx ho
        exact ⟨_, w', hw'⟩
      · obtain ⟨w', hw', -⟩ := wstep_finishAct R cvt hr hc hN hroom hx ho
        exact ⟨_, w', hw'⟩
    exact .inr ⟨a, by simp [Warp.step, hw, hw']⟩
  · have hlt : s.taken < s.sent.length := by
      simp only [Sys.view, decide_eq_true_eq, not_lt] at hroom
      omega
    exact .inl (by simp [Warp.step, hlt])

/-- **After cancellation every schedule stops.** Once `wait` is closed and the
context cancelled, whatever the schedule and the answers of `rpsLimit` and the
catalog, the workers and the collector make at most five events per worker
plus one per operation waiting in the channel; and a state in which neither a
worker nor the collector can move is one in which every worker has returned,
so `wg.Wait` in `Start` returns. -/
theorem run_stops_after_cancel (b : Ready) (cap : ℕ) {s : Sys σ}
    (h : Reach R cvt (start R b cap) s) (hr : s.released = true) (hc : s.cancelled = true) :
    (∀ es s', steps R cvt s es = some s' →
      es.countP Event.isInternal ≤ 5 * s.workers.length + (s.sent.length - s.taken)) ∧
    ∀ s', Reach R cvt s s' → step R cvt s' .recv = none → (∀ i a, step R cvt s' (.act i a) = none) →
      ∀ w ∈ s'.workers, w.pc = .exited := by
  refine ⟨fun es s' hs => ?_, fun s' hs' hrecv hact w hw => ?_⟩
  · have hrun := steps_potential R cvt hs hc (Reach.taken R cvt h le_rfl)
    have hle := weightSum_le s.workers
    unfold potential at hrun
    omega
  · obtain ⟨i, hi⟩ := List.mem_iff_getElem?.mp hw
    by_contra hx
    rcases (h.trans R cvt hs').can_move R cvt (hs'.released R cvt hr) hi hx with h1 | ⟨a, h1⟩
    · exact h1 hrecv
    · exact h1 (hact i a)

end Progress

theorem run_stops_after_cancel_pair :
    (∀ es s', steps zeroRand (fun _ => 0)
        ({ start zeroRand pairReady 1 with released := true, cancelled := true } : Sys ℕ) es =
          some s' →
      es.countP Event.isInternal ≤ 5 * 2 + (0 - 0)) ∧
    ∀ s', Reach zeroRand (fun _ => 0)
        ({ start zeroRand pairReady 1 with released := true, cancelled := true } : Sys ℕ) s' →
      step zeroRand (fun _ => 0) s' .recv = none →
      (∀ i a, step zeroRand (fun _ => 0) s' (.act i a) = none) → ∀ w ∈ s'.workers, w.pc = .exited :=
  run_stops_after_cancel zeroRand (fun _ => 0) pairReady 1 (.step .cancel (.step .release .refl rfl) rfl)
    rfl rfl

theorem run_can_progress_released :
    ∃ es s', steps zeroRand (fun _ => 0)
        ({ start zeroRand pairReady 1 with released := true } : Sys ℕ) es = some s' ∧
      Reach zeroRand (fun _ => 0) (start zeroRand pairReady 1) s' ∧ s'.taken = s'.sent.length ∧
      ∀ i w, ({ start zeroRand pairReady 1 with released := true } : Sys ℕ).workers[i]? = some w →
        w.pc ≠ .exited →
        (sentBy s'.sent i).length =
          (sentBy ({ start zeroRand pairReady 1 with released := true } : Sys ℕ).sent i).length + 2 :=
  run_can_progress zeroRand (fun _ => 0) pairReady 1 (.step .release .refl rfl) rfl rfl 2

end Warp
