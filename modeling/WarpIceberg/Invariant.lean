/-
# What every run keeps

The invariant of one worker (`WInv`), given the tables, the catalog name,
whether `wait` is closed, the clock and the operations it sent:

* before `wait` is closed it sits at `<-wait` and has done nothing;
* the indices it sampled are the first ones of its own index stream, and its
  generator is where that stream left it: nothing but its own
  `sampleTableIndex` calls ever moved it;
* every index it sampled was in range, and the `k`-th names the table of its
  `k`-th call (the last one possibly still in flight);
* the operations it sent, with the one waiting at `rcv <- op`, are exactly the
  operations of the calls it saw return, in order;
* each call is its function's (`GetTable`, or `UpdateTable` stamped with the
  call's start), ended no earlier than it started and no later than now, and
  began no earlier than the one before it ended: a worker's calls follow one
  another in time.

`WInv.step` shows that a worker's own move keeps it, `WInv.mono` that the
others' moves do; `Inv` adds what the run shares and `Inv.reach` carries it
along every run from `start`. The one fact about the data it needs is that
the table list is not empty (`Ready`: `Prepare` returned nil).

Key definitions: `WInv`, `Inv`.
Key theorems: `WInv.step`, `Inv.step`, `Inv.reach`.
-/
import WarpIceberg.Run
import Mathlib.Data.List.Chain

namespace Warp

section Inv

variable {σ : Type} (R : Rand σ) (cvt : F64 → ℤ)

/-- What a worker keeps through a run. -/
structure WInv (tables : List TableInfo) (catalog : String) (released : Bool) (clock : ℕ)
    (sent : List Operation) (w : Worker σ) : Prop where
  waits : released = false → w.pc = .waiting ∧ w.samples = [] ∧ w.calls = [] ∧ sent = []
  stream : w.samples = (List.range w.samples.length).map
    (indexStream R cvt (R.newSource w.spawn.seed) w.spawn.dist tables.length)
  rng : w.rng = rngAfter R cvt (R.newSource w.spawn.seed) w.spawn.dist tables.length w.samples.length
  sampled : w.samples.map (goIndex tables) = (w.calls.map (·.table) ++ w.pc.inFlight).map some
  ops : sent ++ w.pc.pending = w.calls.map (opOf catalog w.spawn)
  reqs : ∀ c ∈ w.calls, c.req = w.spawn.role.body.request c.start
  times : ∀ c ∈ w.calls, c.start ≤ c.«end»
  ended : ∀ c ∈ w.calls, c.«end» ≤ clock
  chain : w.calls.Chain' fun c d => c.«end» ≤ d.start
  calling : ∀ {tbl req op}, w.pc = .calling tbl req op →
    op = opOf catalog w.spawn ⟨tbl, .getTable, op.start, 0, none⟩ ∧
      req = w.spawn.role.body.request op.start ∧ (∀ c ∈ w.calls, c.«end» ≤ op.start) ∧
      op.start ≤ clock
  inRange : w.pc ≠ .outOfRange

variable {R cvt} {tables : List TableInfo} {catalog : String} {r : Bool} {c : ℕ}
  {sent : List Operation} {w : Worker σ}

theorem WInv.init (tables : List TableInfo) (catalog : String) (sp : Spawn) :
    WInv R cvt tables catalog false 0 [] (Worker.init R sp) where
  waits _ := ⟨rfl, rfl, rfl, rfl⟩
  stream := rfl
  rng := rfl
  sampled := rfl
  ops := rfl
  reqs := nofun
  times := nofun
  ended := nofun
  chain := List.chain'_nil
  calling := nofun
  inRange := nofun

/-- The others' moves: `wait` may close and the clock may advance. -/
theorem WInv.mono {r' : Bool} {c' : ℕ} (h : WInv R cvt tables catalog r c sent w)
    (hr : r' = false → r = false) (hc : c ≤ c') : WInv R cvt tables catalog r' c' sent w :=
  { h with
    waits := fun h' => h.waits (hr h')
    ended := fun c' hc' => (h.ended c' hc').trans hc
    calling := fun hp => (h.calling hp).imp_right fun h' => h'.imp_right fun h'' =>
      h''.imp_right fun h''' => h'''.trans hc }

/-- A worker that has left `<-wait` saw `wait` closed. -/
theorem WInv.released (h : WInv R cvt tables catalog r c sent w) (hw : w.pc ≠ .waiting) :
    r = true := by
  cases r
  · exact absurd (h.waits rfl).1 hw
  · rfl

/-- Moving between `select`, `rpsLimit` and the return, after `wait` closed. -/
theorem WInv.setPc (h : WInv R cvt tables catalog true c sent w) (hw : w.pc.inFlight = [])
    (hw' : w.pc.pending = []) {p : Pc} (hp : p = .top ∨ p = .limit ∨ p = .exited) :
    WInv R cvt tables catalog true c sent { w with pc := p } := by
  obtain ⟨-, hs, hr, hsa, ho, hq, ht, hen, hch, -, -⟩ := h
  rw [hw] at hsa; rw [hw'] at ho
  rcases hp with rfl | rfl | rfl <;>
  exact ⟨nofun, hs, hr, hsa, ho, hq, ht, hen, hch, nofun, nofun⟩

/-- The iteration after `rpsLimit` returned nil: the index is the stream's
next one, it is in range, and the call on its table is in flight. -/
theorem WInv.of_issue (hN : 0 < tables.length) (h : WInv R cvt tables catalog r c sent w)
    (hpc : w.pc = .limit) :
    WInv R cvt tables catalog r c sent (issue R cvt w.spawn.role.body tables catalog c w) := by
  have hr := h.released (by simp [hpc])
  obtain ⟨h0, hlt⟩ := sampleTableIndex_mem R cvt w.rng w.spawn.dist (Int.ofNat_pos.mpr hN)
  obtain ⟨tbl, htbl⟩ := Option.isSome_iff_exists.mp (goIndex_isSome h0 hlt)
  have hidx : (sampleTableIndex R cvt w.rng w.spawn.dist tables.length).1 =
      indexStream R cvt (R.newSource w.spawn.seed) w.spawn.dist tables.length w.samples.length := by
    rw [h.rng]; rfl
  unfold Warp.issue; dsimp only; rw [htbl]
  refine ⟨fun h' => by simp [h'] at hr, ?_, ?_, ?_, ?_, h.reqs, h.times, h.ended, h.chain, ?_, nofun⟩
  · rw [List.length_append, List.length_singleton, List.range_succ, List.map_append, ← h.stream,
      List.map_singleton, hidx]
  · rw [List.length_append, List.length_singleton, rngAfter_succ, ← h.rng]
  · simpa [htbl, hpc, Pc.inFlight] using h.sampled
  · simpa [hpc, Pc.pending] using h.ops
  · intro tbl' req' op' hp
    cases hp
    exact ⟨rfl, rfl, h.ended, le_rfl⟩

/-- The call returns: it joins the worker's calls and its operation waits at
`rcv <- op`. -/
theorem WInv.reply {tbl : TableInfo} {req : Request} {op : Operation} (err : Option String)
    (h : WInv R cvt tables catalog r c sent w) (hpc : w.pc = .calling tbl req op) :
    WInv R cvt tables catalog r c sent
      { w with pc := .sending { op with «end» := c, err := errText err },
               calls := w.calls ++ [⟨tbl, req, op.start, c, err⟩] } := by
  have hr := h.released (by simp [hpc])
  obtain ⟨hop, hreq, hafter, hle⟩ := h.calling hpc
  refine ⟨fun h' => by simp [h'] at hr, h.stream, h.rng, ?_, ?_,
    List.forall_mem_append.mpr ⟨h.reqs, List.forall_mem_singleton.mpr hreq⟩,
    List.forall_mem_append.mpr ⟨h.times, List.forall_mem_singleton.mpr hle⟩,
    List.forall_mem_append.mpr ⟨h.ended, List.forall_mem_singleton.mpr le_rfl⟩,
    h.chain.append (List.chain'_singleton _) fun x hx _ hy => ?_, nofun, nofun⟩
  · simpa [hpc, Pc.inFlight] using h.sampled
  · have ho := h.ops
    simp only [hpc, Pc.pending, List.append_nil] at ho
    simp only [Pc.pending, List.map_append, ← ho, List.map_singleton, List.append_cancel_left_eq]
    rw [hop]; rfl
  · cases hy
    exact hafter x (List.mem_of_mem_getLast? hx)

/-- The send completes: the operation joins the worker's sent ones. -/
theorem WInv.send {op : Operation} (h : WInv R cvt tables catalog r c sent w)
    (hpc : w.pc = .sending op) :
    WInv R cvt tables catalog r c (sent ++ [op]) { w with pc := .top } := by
  have hr := h.released (by simp [hpc])
  refine ⟨fun h' => by simp [h'] at hr, h.stream, h.rng, ?_, ?_, h.reqs, h.times, h.ended, h.chain,
    nofun, nofun⟩
  · simpa [hpc, Pc.inFlight] using h.sampled
  · simpa [hpc, Pc.pending] using h.ops

/-- **A worker's own move keeps its invariant**; what it sends is what the
channel takes. -/
theorem WInv.step {k room : Bool} {a : Act} {w' : Worker σ} (hN : 0 < tables.length)
    (h : WInv R cvt tables catalog r c sent w)
    (hs : wstep R cvt ⟨tables, catalog, r, k, c, room⟩ w a = some w') :
    WInv R cvt tables catalog r c (sent ++ emitted w a) w' := by
  rcases wstep_eq_some R cvt hs with ⟨rfl, hpc, hr, rfl⟩ | ⟨rfl, hpc, rfl⟩ | ⟨rfl, hpc, rfl⟩ |
    ⟨rfl, hpc, rfl⟩ | ⟨err, tbl, req, op, rfl, hpc, rfl⟩ | ⟨op, rfl, hpc, -, rfl⟩
  · cases hr
    simpa [emitted] using h.setPc (by simp [hpc, Pc.inFlight]) (by simp [hpc, Pc.pending]) (.inl rfl)
  · have hr := h.released (by simp [hpc]); subst hr
    simpa [emitted] using h.setPc (by simp [hpc, Pc.inFlight]) (by simp [hpc, Pc.pending])
      (by split <;> simp)
  · have hr := h.released (by simp [hpc]); subst hr
    simpa [emitted] using h.setPc (by simp [hpc, Pc.inFlight]) (by simp [hpc, Pc.pending])
      (.inr (.inr rfl))
  · simpa [emitted] using h.of_issue hN hpc
  · simpa [emitted] using h.reply err hpc
  · simpa [emitted, hpc, Pc.pending] using h.send hpc

/-- A move of a worker happens after `wait` closed. -/
theorem WInv.released_of_step {k room : Bool} {a : Act} {w' : Worker σ}
    (h : WInv R cvt tables catalog r c sent w)
    (hs : wstep R cvt ⟨tables, catalog, r, k, c, room⟩ w a = some w') : r = true := by
  rcases wstep_eq_some R cvt hs with ⟨-, -, hr, -⟩ | ⟨-, hpc, -⟩ | ⟨-, hpc, -⟩ | ⟨-, hpc, -⟩ |
    ⟨_, _, _, _, -, hpc, -⟩ | ⟨_, -, hpc, -, -⟩
  · exact hr
  all_goals exact h.released (by simp [hpc])

end Inv

/-! ### The run -/

section Run

variable {σ : Type} (R : Rand σ) (cvt : F64 → ℤ)

/-- What a run from `start b` keeps: the shared data, the workers `Start`
spawned, each worker's invariant, and an empty channel until `wait` closes. -/
structure Inv (b : Ready) (s : Sys σ) : Prop where
  tables : s.tables = b.bench.tables
  catalog : s.catalog = b.bench.treeConfig.catalogName
  spawns : s.workers.map (·.spawn) = spawns b.bench
  workers : ∀ {i w}, s.workers[i]? = some w →
    WInv R cvt s.tables s.catalog s.released s.clock (sentBy s.sent i) w
  quiet : s.released = false → s.sent = []
  senders : ∀ p ∈ s.sent, p.1 < s.workers.length

theorem map_set_of_getElem? {α β : Type} (f : α → β) {l : List α} {i : ℕ} {a a' : α}
    (h : l[i]? = some a) (hf : f a' = f a) : (l.set i a').map f = l.map f := by
  have hi : i < l.length := (List.getElem?_eq_some_iff.mp h).1
  apply List.ext_getElem?
  intro j
  by_cases hij : i = j
  · subst hij
    rw [List.getElem?_map, List.getElem?_map, List.getElem?_set_self hi, h]
    simp [hf]
  · simp [List.getElem?_map, List.getElem?_set_ne hij]

theorem Inv.start (b : Ready) (cap : ℕ) : Inv R cvt b (start R b cap) where
  tables := rfl
  catalog := rfl
  spawns := by simp [Warp.start, Worker.init, Function.comp_def]
  workers := fun h => by
    simp only [Warp.start, List.getElem?_map, Option.map_eq_some'] at h
    obtain ⟨sp, -, rfl⟩ := h
    exact WInv.init _ _ sp
  quiet := fun _ => rfl
  senders := nofun

variable {R cvt} {b : Ready} {s s' : Sys σ}

/-- **Every event keeps the invariant.** -/
theorem Inv.step {e : Event} (h : Inv R cvt b s) (hs : step R cvt s e = some s') : Inv R cvt b s' := by
  cases e with
  | act i a =>
    obtain ⟨w, w', hw, hw', rfl⟩ := step_act R cvt hs
    have hN : 0 < s.tables.length := h.tables ▸ b.length_pos
    have hwi := h.workers hw
    have hr := hwi.released_of_step hw'
    refine ⟨h.tables, h.catalog, ?_, fun {j wj} hj => ?_, fun h' => absurd hr (by simpa using h'),
      fun p hp => ?_⟩
    · rw [map_set_of_getElem? _ hw (wstep_spawn R cvt hw'), h.spawns]
    · by_cases hij : i = j
      · subst hij
        rw [List.getElem?_set_self (List.getElem?_eq_some_iff.mp hw).1] at hj
        cases hj
        simpa [sentBy_tag] using hwi.step hN hw'
      · rw [List.getElem?_set_ne hij] at hj
        simpa [sentBy_tag, hij] using h.workers hj
    · rw [List.length_set]
      rcases List.mem_append.mp hp with hp | hp
      · exact h.senders p hp
      · obtain ⟨op, -, rfl⟩ := List.mem_map.mp hp
        exact (List.getElem?_eq_some_iff.mp hw).1
  | _ =>
    obtain ⟨hw, ht, hc, hsent, hclk, hrel⟩ := step_workers R cvt hs nofun
    refine ⟨ht ▸ h.tables, hc ▸ h.catalog, hw ▸ h.spawns, fun {i w} hj => ?_,
      fun h' => hsent ▸ h.quiet (hrel h'), hsent ▸ hw ▸ h.senders⟩
    rw [hw] at hj
    rw [ht, hc, hsent]
    exact (h.workers hj).mono hrel hclk

/-- **Every state a run from `start b` reaches keeps the invariant.** -/
theorem Inv.reach {cap : ℕ} (h : Reach R cvt (Warp.start R b cap) s) : Inv R cvt b s := by
  induction h with
  | refl => exact Inv.start R cvt b cap
  | step e _ hs ih => exact ih.step hs

end Run

end Warp
