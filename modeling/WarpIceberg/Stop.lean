/-
# Stopping a run: the moves after cancellation, and `Start`'s `wg.Wait`

`Start` returns when every worker it spawned has returned (`wg.Wait`). A
worker returns only at the `select` on `done`, or when `rpsLimit` answers
non-nil (`run_worker_protocol`). Once the context is cancelled a worker can
still finish the iteration it is in: `rpsLimit` may answer nil, and the call
and the send still happen before the next `select` sees `done`.

* `moves_after_cancel`: after the context is cancelled, whatever the schedule,
  a worker moves at most four more times. Its place in the loop has a rank
  (`Pc.rank`) that each of its moves lowers (`wstep_rank`).
* `ops_after_cancel`: after the context is cancelled, a worker makes at most
  one more catalog call and sends at most one more operation.
* `run_can_stop`: from every state of a run, closing `wait`, cancelling the
  context, answering the calls in flight and receiving from the channel lets
  every worker return, with `rpsLimit` answering nil throughout: each worker
  returns at its `select`, on `done`, and no worker is left where `wg.Wait`
  would wait for it forever.
* `steps_potential`: after cancellation the ranks, the sends left and the
  operations not yet received add up to a potential that every move of a
  worker and every receive lowers; `run_stops_after_cancel` (in `Progress`)
  turns it into a bound on every schedule.

Key definitions: `Pc.rank`, `rankAt`, `Event.isActOf`, `Pc.sendsLeft`,
`Pc.callsLeft`, `Ending`, `finishAct`, `Event.rpsNil`, `Event.isInternal`,
`potential`.
Key theorems: `wstep_rank`, `rankAt_steps`, `wstep_left`, `Reach.bounds`,
`exit_worker`, `moves_after_cancel`, `ops_after_cancel`, `run_can_stop`,
`step_potential`, `steps_potential`.
-/
import WarpIceberg.Guarantees

namespace Warp

/-- How many more moves a worker can make once the context is cancelled:
from `rpsLimit` the call, the send, the `select`; from `<-wait` the
`select`. A returned or panicked worker makes none. -/
def Pc.rank : Pc → ℕ
  | .limit => 4
  | .calling .. => 3
  | .waiting => 2
  | .sending _ => 2
  | .top => 1
  | .exited => 0
  | .outOfRange => 0

/-- Whether the event is a move of worker `i`. -/
def Event.isActOf (i : ℕ) : Event → Bool
  | .act j _ => decide (j = i)
  | _ => false

/-- The rank of worker `i`, `0` if there is none. -/
def rankAt {σ : Type} (s : Sys σ) (i : ℕ) : ℕ :=
  (s.workers[i]?.map (·.pc.rank)).getD 0

section Rank

variable {σ : Type} (R : Rand σ) (cvt : F64 → ℤ)

theorem issue_rank (body : Body) (tables : List TableInfo) (catalog : String) (now : ℕ)
    (w : Worker σ) : (issue R cvt body tables catalog now w).pc.rank < Pc.limit.rank := by
  unfold issue; dsimp only; split <;> simp [Pc.rank]

/-- **Once the context is cancelled, each move of a worker lowers its rank.** -/
theorem wstep_rank {v : View} {w w' : Worker σ} {a : Act} (h : wstep R cvt v w a = some w')
    (hc : v.cancelled = true) : w'.pc.rank < w.pc.rank := by
  rcases wstep_eq_some R cvt h with ⟨-, hpc, -, rfl⟩ | ⟨-, hpc, rfl⟩ | ⟨-, hpc, rfl⟩ |
    ⟨-, hpc, rfl⟩ | ⟨_, _, _, _, -, hpc, rfl⟩ | ⟨_, -, hpc, -, rfl⟩
  · simp [hpc, Pc.rank]
  · simp [hpc, hc, Pc.rank]
  · simp [hpc, Pc.rank]
  · rw [hpc]; exact issue_rank R cvt _ _ _ _ w
  · simp [hpc, Pc.rank]
  · simp [hpc, Pc.rank]

theorem step_cancelled {s s' : Sys σ} {e : Event} (h : step R cvt s e = some s')
    (hc : s.cancelled = true) : s'.cancelled = true := by
  cases e with
  | act i a => obtain ⟨_, _, -, -, rfl⟩ := step_act R cvt h; exact hc
  | release => simp only [step] at h; split at h <;> cases h; exact hc
  | cancel => cases h; rfl
  | tick => cases h; exact hc
  | recv => simp only [step] at h; split at h <;> cases h; exact hc

/-- After cancellation, a move of worker `i` lowers its rank and no other
event raises it. -/
theorem step_rankAt {s s' : Sys σ} {e : Event} (h : step R cvt s e = some s')
    (hc : s.cancelled = true) (i : ℕ) :
    rankAt s' i + (if e.isActOf i then 1 else 0) ≤ rankAt s i := by
  cases e with
  | act j a =>
    obtain ⟨w, w', hw, hw', rfl⟩ := step_act R cvt h
    by_cases hji : j = i
    · subst hji
      have := wstep_rank R cvt hw' hc
      simp [rankAt, List.getElem?_set_self (List.getElem?_eq_some_iff.mp hw).1, hw, Event.isActOf]
      omega
    · simp [rankAt, Event.isActOf, hji, List.getElem?_set_ne hji]
  | _ => simp [rankAt, Event.isActOf, (step_workers R cvt h nofun).1]

/-- Over a run from a cancelled state, worker `i`'s moves and its rank at the
end add up to no more than its rank at the start. -/
theorem rankAt_steps : ∀ {s s' : Sys σ} {es : List Event}, steps R cvt s es = some s' →
    s.cancelled = true → ∀ i, es.countP (Event.isActOf i) + rankAt s' i ≤ rankAt s i
  | _, _, [], h, _, _ => by cases h; simp
  | _, _, _ :: _, h, hc, i => by
    obtain ⟨s₁, h₁, h₂⟩ := Option.bind_eq_some.mp h
    have hstep := step_rankAt R cvt h₁ hc i
    have hrun := rankAt_steps h₂ (step_cancelled R cvt h₁ hc) i
    rw [List.countP_cons]
    omega

theorem rankAt_le (s : Sys σ) (i : ℕ) : rankAt s i ≤ 4 := by
  unfold rankAt
  cases s.workers[i]? with
  | none => simp
  | some w => cases h : w.pc <;> simp [h, Pc.rank]

/-- **After the context is cancelled, every worker moves at most four more
times, whatever the schedule**: the rank of its place bounds its moves. -/
theorem moves_after_cancel {s s' : Sys σ} {es : List Event} (h : steps R cvt s es = some s')
    (hc : s.cancelled = true) (i : ℕ) :
    es.countP (Event.isActOf i) + rankAt s' i ≤ rankAt s i ∧ es.countP (Event.isActOf i) ≤ 4 := by
  have hrun := rankAt_steps R cvt h hc i
  exact ⟨hrun, by have := rankAt_le s i; omega⟩

/-- From the start of the weighted pair with the context cancelled, the
reader is woken and sees `done`. -/
theorem moves_after_cancel_pair :
    ∃ s', steps zeroRand (fun _ => 0) { start zeroRand pairReady 1 with cancelled := true }
        [.release, .act 0 .wake, .act 0 .poll] = some s' ∧
      ([Event.release, .act 0 .wake, .act 0 .poll].countP (Event.isActOf 0) + rankAt s' 0 ≤
          rankAt { start zeroRand pairReady 1 with cancelled := true } 0 ∧
        [Event.release, .act 0 .wake, .act 0 .poll].countP (Event.isActOf 0) ≤ 4) :=
  ⟨_, rfl, @moves_after_cancel ℕ zeroRand (fun _ => 0)
    { start zeroRand pairReady 1 with cancelled := true } _ [.release, .act 0 .wake, .act 0 .poll]
    rfl rfl 0⟩

/-! ### Sends and calls after cancellation -/

/-- The operations a worker can still send once the context is cancelled: the
one it is about to make, send or is sending. -/
def Pc.sendsLeft : Pc → ℕ
  | .limit | .calling .. | .sending _ => 1
  | _ => 0

/-- The catalog calls a worker can still make once the context is cancelled. -/
def Pc.callsLeft : Pc → ℕ
  | .limit | .calling .. => 1
  | _ => 0

/-- Worker `i`'s sends so far and the ones its place still allows. -/
def sendsBound {σ : Type} (s : Sys σ) (i : ℕ) : ℕ :=
  (sentBy s.sent i).length + (s.workers[i]?.map (·.pc.sendsLeft)).getD 0

/-- Worker `i`'s calls so far and the ones its place still allows. -/
def callsBound {σ : Type} (s : Sys σ) (i : ℕ) : ℕ :=
  (s.workers[i]?.map fun w => w.calls.length + w.pc.callsLeft).getD 0

theorem issue_left (body : Body) (tables : List TableInfo) (catalog : String) (now : ℕ)
    (w : Worker σ) :
    (issue R cvt body tables catalog now w).pc.sendsLeft ≤ 1 ∧
      (issue R cvt body tables catalog now w).pc.callsLeft ≤ 1 ∧
      (issue R cvt body tables catalog now w).calls = w.calls := by
  unfold issue; dsimp only; split <;> simp [Pc.sendsLeft, Pc.callsLeft]

/-- **After cancellation a worker's move never raises what it can still send
or call**: a send uses up its one send, a returning call its one call. -/
theorem wstep_left {v : View} {w w' : Worker σ} {a : Act} (h : wstep R cvt v w a = some w')
    (hc : v.cancelled = true) :
    (emitted w a).length + w'.pc.sendsLeft ≤ w.pc.sendsLeft ∧
      w'.calls.length + w'.pc.callsLeft ≤ w.calls.length + w.pc.callsLeft := by
  rcases wstep_eq_some R cvt h with ⟨rfl, hpc, -, rfl⟩ | ⟨rfl, hpc, rfl⟩ | ⟨rfl, hpc, rfl⟩ |
    ⟨rfl, hpc, rfl⟩ | ⟨_, _, _, _, rfl, hpc, rfl⟩ | ⟨_, rfl, hpc, -, rfl⟩
  · simp [emitted, hpc, Pc.sendsLeft, Pc.callsLeft]
  · simp [emitted, hpc, hc, Pc.sendsLeft, Pc.callsLeft]
  · simp [emitted, hpc, Pc.sendsLeft, Pc.callsLeft]
  · obtain ⟨hs, hl, hcalls⟩ := issue_left R cvt w.spawn.role.body v.tables v.catalog v.clock w
    simp only [emitted, hpc, Pc.sendsLeft, Pc.callsLeft, hcalls, List.length_nil] at hs hl ⊢
    omega
  · simp [emitted, hpc, Pc.sendsLeft, Pc.callsLeft]
  · simp [emitted, hpc, Pc.pending, Pc.sendsLeft, Pc.callsLeft]

/-- After cancellation no event raises worker `i`'s bounds. -/
theorem step_bounds {s s' : Sys σ} {e : Event} (h : step R cvt s e = some s')
    (hc : s.cancelled = true) (i : ℕ) :
    sendsBound s' i ≤ sendsBound s i ∧ callsBound s' i ≤ callsBound s i := by
  cases e with
  | act j a =>
    obtain ⟨w, w', hw, hw', rfl⟩ := step_act R cvt h
    by_cases hji : j = i
    · subst hji
      have := wstep_left R cvt hw' hc
      simp only [sendsBound, callsBound, sentBy_append, sentBy_tag, if_true, List.length_append,
        List.getElem?_set_self (List.getElem?_eq_some_iff.mp hw).1, hw, Option.map_some',
        Option.getD_some]
      omega
    · simp [sendsBound, callsBound, sentBy_tag, hji, List.getElem?_set_ne hji]
  | _ =>
    obtain ⟨hw, -, -, hsent, -⟩ := step_workers R cvt h nofun
    simp [sendsBound, callsBound, hw, hsent]

/-- Along a run from a cancelled state the context stays cancelled and worker
`i`'s bounds never rise. -/
theorem Reach.bounds {s s' : Sys σ} (h : Reach R cvt s s') (hc : s.cancelled = true) (i : ℕ) :
    s'.cancelled = true ∧ sendsBound s' i ≤ sendsBound s i ∧ callsBound s' i ≤ callsBound s i := by
  induction h with
  | refl => exact ⟨hc, le_rfl, le_rfl⟩
  | step e _ hs ih =>
    have := step_bounds R cvt hs ih.1 i
    exact ⟨step_cancelled R cvt hs ih.1, this.1.trans ih.2.1, this.2.trans ih.2.2⟩

/-- **After the context is cancelled, every worker sends at most one more
operation and makes at most one more catalog call, whatever the schedule**:
the one of the iteration it is in, if `rpsLimit` lets it through. -/
theorem ops_after_cancel {s s' : Sys σ} (h : Reach R cvt s s') (hc : s.cancelled = true)
    (i : ℕ) :
    (sentBy s'.sent i).length ≤ (sentBy s.sent i).length + 1 ∧
      ∀ w w', s.workers[i]? = some w → s'.workers[i]? = some w' →
        w'.calls.length ≤ w.calls.length + 1 := by
  obtain ⟨-, hs, hcl⟩ := h.bounds R cvt hc i
  refine ⟨?_, fun w w' hw hw' => ?_⟩
  · have h1 : (s.workers[i]?.map (·.pc.sendsLeft)).getD 0 ≤ 1 := by
      cases s.workers[i]? with
      | none => simp
      | some w => cases h : w.pc <;> simp [h, Pc.sendsLeft]
    simp only [sendsBound] at hs
    omega
  · have h1 : w.pc.callsLeft ≤ 1 := by cases w.pc <;> simp [Pc.callsLeft]
    simp only [callsBound, hw, hw', Option.map_some', Option.getD_some] at hcl
    omega

set_option maxRecDepth 2000 in
/-- The reader, cancelled while at `rpsLimit`, still gets nil, makes a call,
sends it, and returns at the `select`. -/
theorem ops_after_cancel_quad :
    ∃ s s', steps cycleRand (fun _ => 0) (start cycleRand quadReady 1)
        [.release, .act 0 .wake, .act 0 .poll, .cancel] = some s ∧
      steps cycleRand (fun _ => 0) s
        [.act 0 (.rps false), .act 0 (.reply none), .act 0 .send, .act 0 .poll] = some s' ∧
      (sentBy s'.sent 0).length = 1 ∧ s'.workers.map (·.calls.length) = [1, 0] ∧
      (sentBy s'.sent 0).length ≤ (sentBy s.sent 0).length + 1 ∧
      ∀ w w', s.workers[0]? = some w → s'.workers[0]? = some w' →
        w'.calls.length ≤ w.calls.length + 1 := by
  refine ⟨_, _, rfl, rfl, rfl, rfl, ops_after_cancel cycleRand (fun _ => 0) ?_ rfl 0⟩
  exact @Reach.of_steps ℕ cycleRand (fun _ => 0) _ _
    [.act 0 (.rps false), .act 0 (.reply none), .act 0 .send, .act 0 .poll] rfl

end Rank

/-! ### Winding a run down -/

/-- A state from which the run can wind down: `wait` closed, the context
cancelled, tables to call, and no more received than sent. -/
structure Ending {σ : Type} (s : Sys σ) : Prop where
  released : s.released = true
  cancelled : s.cancelled = true
  tables : 0 < s.tables.length
  taken : s.taken ≤ s.sent.length

/-- The move that brings a worker closer to returning once `wait` is closed
and the context cancelled, `rpsLimit` answering nil: wake, see `done` at the
`select`, get through `rpsLimit` into the call, have the call return, have the
channel take the operation. -/
def finishAct : Pc → Act
  | .waiting => .wake
  | .limit => .rps false
  | .calling .. => .reply none
  | .sending _ => .send
  | _ => .poll

/-- The event is not `rpsLimit` answering non-nil: in a schedule of such
events a worker can return only at its `select`, on `done`. -/
def Event.rpsNil : Event → Bool
  | .act _ (.rps stop) => !stop
  | _ => true

section Ending

variable {σ : Type} (R : Rand σ) (cvt : F64 → ℤ)

theorem step_taken {s s' : Sys σ} {e : Event} (h : step R cvt s e = some s')
    (ht : s.taken ≤ s.sent.length) : s'.taken ≤ s'.sent.length := by
  cases e with
  | act i a =>
    obtain ⟨_, _, -, -, rfl⟩ := step_act R cvt h
    exact ht.trans (List.sublist_append_left _ _).length_le
  | recv =>
    simp only [step] at h
    split at h <;> cases h
    assumption
  | release => simp only [step] at h; split at h <;> cases h; exact ht
  | cancel => cases h; exact ht
  | tick => cases h; exact ht

/-- Along a run the collector never receives more than was sent. -/
theorem Reach.taken {s₀ s : Sys σ} (h : Reach R cvt s₀ s) (h₀ : s₀.taken ≤ s₀.sent.length) :
    s.taken ≤ s.sent.length := by
  induction h with
  | refl => exact h₀
  | step e _ hs ih => exact step_taken R cvt hs ih

/-- The collector receives until the channel is empty. -/
theorem steps_drain : ∀ (d : ℕ) (s : Sys σ), s.taken + d = s.sent.length →
    steps R cvt s (List.replicate d .recv) = some { s with taken := s.sent.length }
  | 0, s, h => by simp only [Nat.add_zero] at h; simp [steps, ← h]
  | d + 1, s, h => by
    rw [List.replicate_succ, steps, step, if_pos (by omega), Option.some_bind]
    exact steps_drain d _ (by simp only; omega)

/-- Once the collector has received every operation, the channel has room. -/
theorem drained_room (s : Sys σ) : ({ s with taken := s.sent.length } : Sys σ).view.room = true :=
  decide_eq_true (Nat.lt_add_of_pos_right (by omega))

/-- The collector empties the channel, then worker `i` makes its move `a`. -/
theorem drain_act {s : Sys σ} {i : ℕ} {w w' : Worker σ} {a : Act} (ht : s.taken ≤ s.sent.length)
    (hw : s.workers[i]? = some w)
    (h : wstep R cvt ({ s with taken := s.sent.length } : Sys σ).view w a = some w') :
    steps R cvt s (List.replicate (s.sent.length - s.taken) .recv ++ [.act i a]) =
      some { s with taken := s.sent.length, workers := s.workers.set i w',
                    sent := s.sent ++ (emitted w a).map ((i, ·)) } := by
  rw [steps_append, steps_drain R cvt _ s (by omega), Option.some_bind, steps, step]
  simp only [hw, Option.map_some', h]
  rfl

/-- With tables to call, `rpsLimit` answering nil puts a call in flight. -/
theorem issue_calling (body : Body) {tables : List TableInfo} (hN : 0 < tables.length)
    (catalog : String) (now : ℕ) (w : Worker σ) :
    ∃ tbl req op, (issue R cvt body tables catalog now w).pc = .calling tbl req op := by
  obtain ⟨h0, hlt⟩ := sampleTableIndex_mem R cvt w.rng w.spawn.dist (Int.ofNat_pos.mpr hN)
  obtain ⟨tbl, htbl⟩ := Option.isSome_iff_exists.mp (goIndex_isSome h0 hlt)
  unfold issue; dsimp only; rw [htbl]
  exact ⟨_, _, _, rfl⟩

/-- With `wait` closed, the context cancelled, tables to call and room in the
channel, a worker that has not returned can make its finishing move, and it
does not panic. -/
theorem wstep_finishAct {v : View} {w : Worker σ} (hr : v.released = true)
    (hc : v.cancelled = true) (hN : 0 < v.tables.length) (hroom : v.room = true)
    (hx : w.pc ≠ .exited) (ho : w.pc ≠ .outOfRange) :
    ∃ w', wstep R cvt v w (finishAct w.pc) = some w' ∧ w'.pc ≠ .outOfRange := by
  obtain ⟨sp, rng, pc, samples, calls⟩ := w
  cases pc with
  | limit =>
    let w : Worker σ := ⟨sp, rng, .limit, samples, calls⟩
    obtain ⟨tbl, req, op, hpc⟩ := issue_calling R cvt sp.role.body hN v.catalog v.clock w
    exact ⟨issue R cvt sp.role.body v.tables v.catalog v.clock w, rfl, by rw [hpc]; nofun⟩
  | _ => simp [wstep, finishAct, hr, hc, hroom] at hx ho ⊢

/-- Receiving, then a finishing move: `rpsLimit` does not answer non-nil. -/
theorem rpsNil_drain_finish (d i : ℕ) (pc : Pc) :
    ∀ e ∈ List.replicate d Event.recv ++ [.act i (finishAct pc)], e.rpsNil = true := by
  intro e he
  rcases List.mem_append.mp he with he | he
  · rw [(List.mem_replicate.mp he).2]; rfl
  · rw [List.mem_singleton.mp he]; cases pc <;> rfl

/-- One finishing move of worker `i`, after the collector has emptied the
channel: its rank falls, it does not panic, and the others stay. -/
theorem finish_move {s : Sys σ} {i : ℕ} {w : Worker σ} (hE : Ending s)
    (hw : s.workers[i]? = some w) (hx : w.pc ≠ .exited) (ho : w.pc ≠ .outOfRange) :
    ∃ es s' w', steps R cvt s es = some s' ∧ (∀ e ∈ es, e.rpsNil = true) ∧ Ending s' ∧
      s'.workers = s.workers.set i w' ∧ w'.pc ≠ .outOfRange ∧ w'.pc.rank < w.pc.rank := by
  obtain ⟨w', hw', ho'⟩ :=
    wstep_finishAct R cvt hE.released hE.cancelled hE.tables (drained_room s) hx ho
  exact ⟨_, _, w', drain_act R cvt hE.taken hw hw', rpsNil_drain_finish _ i w.pc,
    ⟨hE.released, hE.cancelled, hE.tables, (List.sublist_append_left _ _).length_le⟩, rfl, ho',
    wstep_rank R cvt hw' hE.cancelled⟩

/-- **Each worker can be brought to return**, the others staying as they are,
with `rpsLimit` answering nil. -/
theorem exit_worker (i : ℕ) : ∀ (n : ℕ) (s : Sys σ) (w : Worker σ), Ending s →
    s.workers[i]? = some w → w.pc ≠ .exited → w.pc ≠ .outOfRange → w.pc.rank = n →
    ∃ es s' w', steps R cvt s es = some s' ∧ (∀ e ∈ es, e.rpsNil = true) ∧ Ending s' ∧
      s'.workers = s.workers.set i w' ∧ w'.pc = .exited := by
  intro n
  induction n using Nat.strong_induction_on with
  | _ n ih =>
    intro s w hE hw hx ho hn
    obtain ⟨es, s₁, w₁, hs, hes, hE₁, hws₁, ho₁, hlt⟩ := finish_move R cvt hE hw hx ho
    by_cases hx₁ : w₁.pc = .exited
    · exact ⟨es, s₁, w₁, hs, hes, hE₁, hws₁, hx₁⟩
    have hw₁ : s₁.workers[i]? = some w₁ := by
      rw [hws₁]; exact List.getElem?_set_self (List.getElem?_eq_some_iff.mp hw).1
    obtain ⟨es', s₂, w₂, hs', hes', hE₂, hws₂, hx₂⟩ := ih _ (hn ▸ hlt) s₁ w₁ hE₁ hw₁ hx₁ ho₁ rfl
    exact ⟨es ++ es', s₂, w₂, by rw [steps_append, hs, Option.some_bind, hs'],
      List.forall_mem_append.mpr ⟨hes, hes'⟩, hE₂, by rw [hws₂, hws₁, List.set_set], hx₂⟩

/-- The workers from index `k` on have returned; the ones before can be
brought to return too. -/
theorem exit_all : ∀ (k : ℕ) (s : Sys σ), Ending s → (∀ w ∈ s.workers, w.pc ≠ .outOfRange) →
    (∀ j w, k ≤ j → s.workers[j]? = some w → w.pc = .exited) →
    ∃ es s', steps R cvt s es = some s' ∧ (∀ e ∈ es, e.rpsNil = true) ∧
      ∀ w ∈ s'.workers, w.pc = .exited
  | 0, s, _, _, hx => ⟨[], s, rfl, nofun, fun w hw => by
      obtain ⟨j, hj⟩ := List.mem_iff_getElem?.mp hw
      exact hx j w (Nat.zero_le j) hj⟩
  | k + 1, s, hE, ho, hx => by
    by_cases hk : ∀ w, s.workers[k]? = some w → w.pc = .exited
    · exact exit_all k s hE ho fun j w hj hw =>
        (Nat.lt_or_eq_of_le hj).elim (fun h => hx j w h hw) fun h => hk w (h ▸ hw)
    push_neg at hk
    obtain ⟨w, hw, hxk⟩ := hk
    obtain ⟨es, s', w', hs, hes, hE', hws, hx'⟩ :=
      exit_worker R cvt k _ s w hE hw hxk (ho w (List.mem_iff_getElem?.mpr ⟨k, hw⟩)) rfl
    have ho' : ∀ v ∈ s'.workers, v.pc ≠ .outOfRange := fun v hv => by
      rw [hws] at hv
      rcases List.mem_or_eq_of_mem_set hv with hv | rfl
      · exact ho v hv
      · rw [hx']; nofun
    obtain ⟨es', s'', hs', hes', hall⟩ := exit_all k s' hE' ho' fun j v hj hv => by
      rw [hws, List.getElem?_set] at hv
      split_ifs at hv with hkj
      · cases hv; exact hx'
      · exact hx j v (by omega) hv
    exact ⟨es ++ es', s'', by rw [steps_append, hs, Option.some_bind, hs'],
      List.forall_mem_append.mpr ⟨hes, hes'⟩, hall⟩

/-- **Every run can wind down**: from every state of a run of `Start`, some
schedule (close `wait`, cancel the context, answer the calls in flight,
receive from the channel) in which `rpsLimit` always answers nil brings every
worker to return at its `select`, so `wg.Wait` returns. -/
theorem run_can_stop (b : Ready) (cap : ℕ) {s : Sys σ} (h : Reach R cvt (start R b cap) s) :
    ∃ es s', steps R cvt s es = some s' ∧ (∀ e ∈ es, e.rpsNil = true) ∧
      Reach R cvt (start R b cap) s' ∧ ∀ w ∈ s'.workers, w.pc = .exited := by
  have hinv := Inv.reach h
  have ht := Reach.taken R cvt h le_rfl
  obtain ⟨es₀, hs₀, hes₀⟩ : ∃ es₀, steps R cvt s es₀ = some { s with released := true, cancelled := true } ∧
      ∀ e ∈ es₀, e.rpsNil = true := by
    cases hr : s.released
    · exact ⟨[.release, .cancel], by simp [steps, step, hr], by decide⟩
    · refine ⟨[.cancel], ?_, by decide⟩
      cases s; subst hr; rfl
  have hE : Ending { s with released := true, cancelled := true } :=
    ⟨rfl, rfl, hinv.tables ▸ b.length_pos, ht⟩
  have ho : ∀ w ∈ s.workers, w.pc ≠ .outOfRange := fun w hw => by
    obtain ⟨j, hj⟩ := List.mem_iff_getElem?.mp hw
    exact (hinv.workers hj).inRange
  obtain ⟨es, s', hs, hes, hall⟩ := exit_all R cvt s.workers.length _ hE ho
    fun j w hj hw => absurd (List.getElem?_eq_some_iff.mp hw).1 (not_lt.mpr hj)
  have hrun : steps R cvt s (es₀ ++ es) = some s' := by rw [steps_append, hs₀, Option.some_bind, hs]
  exact ⟨es₀ ++ es, s', hrun, List.forall_mem_append.mpr ⟨hes₀, hes⟩,
    h.trans R cvt (Reach.of_steps R cvt hrun), hall⟩

end Ending

/-! ### A potential for every schedule after cancellation -/

/-- Whether the event is one the run makes itself, a move of a worker or a
receive of the collector, as against the caller's and the clock's. -/
def Event.isInternal : Event → Bool
  | .act _ _ | .recv => true
  | _ => false

/-- What a worker can still do once the context is cancelled: its moves and
its sends. -/
def Pc.weight (pc : Pc) : ℕ := pc.rank + pc.sendsLeft

theorem Pc.weight_le (pc : Pc) : pc.weight ≤ 5 := by
  cases pc <;> simp [Pc.weight, Pc.rank, Pc.sendsLeft]

/-- The workers' weights, summed. -/
def weightSum {σ : Type} : List (Worker σ) → ℕ
  | [] => 0
  | w :: ws => w.pc.weight + weightSum ws

/-- How many more events the run can make itself once the context is
cancelled: the workers' weights and the operations the collector has not
received. -/
def potential {σ : Type} (s : Sys σ) : ℕ := weightSum s.workers + (s.sent.length - s.taken)

section Potential

variable {σ : Type} (R : Rand σ) (cvt : F64 → ℤ)

theorem weightSum_set : ∀ (l : List (Worker σ)) (i : ℕ) {w : Worker σ} (w' : Worker σ),
    l[i]? = some w → weightSum (l.set i w') + w.pc.weight = weightSum l + w'.pc.weight
  | [], _, _, _, h => by cases h
  | _ :: _, 0, _, _, h => by
    rw [List.getElem?_cons_zero, Option.some_inj] at h
    subst h; simp only [List.set_cons_zero, weightSum]; omega
  | _ :: l, i + 1, _, w', h => by
    have := weightSum_set l i w' (by rwa [List.getElem?_cons_succ] at h)
    simp only [List.set_cons_succ, weightSum]
    omega

theorem weightSum_le : ∀ l : List (Worker σ), weightSum l ≤ 5 * l.length
  | [] => le_rfl
  | w :: l => by
    have := weightSum_le l
    have := w.pc.weight_le
    simp only [weightSum, List.length_cons]
    omega

/-- **After cancellation every event the run makes itself lowers the
potential**: a worker's move lowers its rank and moves at most one send into
the channel, a receive takes one out; the caller's and the clock's events
change nothing it counts. -/
theorem step_potential {s s' : Sys σ} {e : Event} (h : step R cvt s e = some s')
    (hc : s.cancelled = true) (ht : s.taken ≤ s.sent.length) :
    potential s' + (if e.isInternal then 1 else 0) ≤ potential s := by
  cases e with
  | act i a =>
    obtain ⟨w, w', hw, hw', rfl⟩ := step_act R cvt h
    have hrank := wstep_rank R cvt hw' hc
    have hleft := (wstep_left R cvt hw' hc).1
    have hset := weightSum_set s.workers i w' hw
    simp only [Pc.weight] at hset
    simp only [potential, Event.isInternal, if_true, List.length_append, List.length_map]
    omega
  | recv =>
    simp only [step] at h
    split at h <;> cases h
    simp only [potential, Event.isInternal, if_true]
    omega
  | release => simp only [step] at h; split at h <;> cases h; simp [potential, Event.isInternal]
  | cancel => cases h; simp [potential, Event.isInternal]
  | tick => cases h; simp [potential, Event.isInternal]

/-- Over a run from a cancelled state, the events the run makes itself and the
potential at the end add up to no more than the potential at the start. -/
theorem steps_potential : ∀ {s s' : Sys σ} {es : List Event}, steps R cvt s es = some s' →
    s.cancelled = true → s.taken ≤ s.sent.length →
    es.countP Event.isInternal + potential s' ≤ potential s
  | _, _, [], h, _, _ => by cases h; simp
  | _, _, _ :: _, h, hc, ht => by
    obtain ⟨s₁, h₁, h₂⟩ := Option.bind_eq_some.mp h
    have hstep := step_potential R cvt h₁ hc ht
    have hrun := steps_potential h₂ (step_cancelled R cvt h₁ hc) (step_taken R cvt h₁ ht)
    rw [List.countP_cons]
    omega

end Potential

set_option maxRecDepth 2000 in
theorem run_can_stop_quad :
    ∃ s, steps cycleRand (fun _ => 0) (start cycleRand quadReady 1) quadEvents = some s ∧
      ∃ es s', steps cycleRand (fun _ => 0) s es = some s' ∧ (∀ e ∈ es, e.rpsNil = true) ∧
        Reach cycleRand (fun _ => 0) (start cycleRand quadReady 1) s' ∧
        ∀ w ∈ s'.workers, w.pc = .exited :=
  ⟨quadState, steps_quadEvents,
    run_can_stop cycleRand (fun _ => 0) quadReady 1 (Reach.of_steps _ _ steps_quadEvents)⟩

end Warp
