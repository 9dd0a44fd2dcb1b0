/-
# What every run of `Start`'s workers guarantees

From `Inv.reach`, over every run from `start b`, whatever the interleaving,
the answers of `rpsLimit` and of the catalog, the moment of cancellation and
the collector's pace:

* `run_worker_protocol`: nothing happens before `wait` closes; the operations
  a worker sends are those of the calls it saw return, one each, in order,
  each with the fields `runReader` and `runWriter` set (`Records`: type,
  thread id, file, endpoint, times, error text, and the request of the call);
  its sends trail its calls by at most the one in progress, and catch up when
  it returns; and it returns only on `done` or on `rpsLimit`.
* `run_samples_stream`: in any two runs the worker with thread id `i` samples
  a prefix of one index stream, fixed by its seed, its distribution and the
  number of tables.
* `run_tables_in_range`: `Prepare`'s probe never panics, and after a
  `Prepare` that returned nil no index into `b.tables` is ever out of range.
* `run_ops_sequential`: the operations one worker sends follow one another in
  time, each ending before the next starts.
* `run_calls_tables`: the tables a worker calls, in order, are fixed by its
  seed, its distribution and the table list.
* `run_ops_attributed`: every operation in the channel carries its sender's
  index as `uint32`, the catalog and a table of the benchmark; the thread tells
  the senders apart only while `Start` spawned at most `2^32` workers.

Each theorem is followed by its instance at a state of a concrete run
(`quadEvents`, `soloEvents`) in which calls have returned, failed and been
sent.
-/
import WarpIceberg.Invariant

namespace Warp

/-! ### Inputs for the witnesses

Generators whose draws are 0, or cycle through `1/8, 3/8, 5/8, 7/8`; the
conversion that gives 0; a tree of four tables; a catalog that answers every
call; benchmarks of one reader and one writer; and two schedules. -/

/-- Every draw is 0; the state counts the draws. -/
def zeroRand : Rand ℕ := ⟨fun seed => seed.toNat, fun n => (0, n + 1)⟩

/-- The `n`-th draw is `(2·(n % 4) + 1)/8`; a seed starts at its value. -/
def cycleRand : Rand ℕ := ⟨fun seed => seed.toNat, fun n => (.fin (2 * ((n % 4 : ℕ) : ℤ) + 1) (-3), n + 1)⟩

/-- Two tables in `ns` and two in `ns.sub`. -/
def quadTables : List TableInfo :=
  [⟨["ns"], "t0"⟩, ⟨["ns"], "t1"⟩, ⟨["ns", "sub"], "t2"⟩, ⟨["ns", "sub"], "t3"⟩]

/-- A tree of the four tables of `quadTables`. -/
def quadTree : TreeGen := ⟨fun _ => 4, fun _ => quadTables⟩

/-- One reader at mean 0.25 and one writer at mean 0.75, variance 0.25. -/
def pairBench : IcebergWeighted where
  common := ⟨0⟩
  treeConfig := ⟨2, 3, 5, "s3://benchmark", "benchmark_catalog"⟩
  readers := [⟨1, .fin 1 (-2), .fin 1 (-2)⟩]
  writers := [⟨1, .fin 3 (-2), .fin 1 (-2)⟩]
  seed := 42
  tables := [⟨["ns"], "t0"⟩]

/-- `pairBench`, ready to start. -/
def pairReady : Ready := ⟨pairBench, List.cons_ne_nil _ _⟩

/-- The distributions of `pairBench` with base seed 43, before `Prepare`
loads the tables. Under `cycleRand` the reader samples the tables
`2, 1, 1, 2, …`, and the writer table 3 every time, rejecting two draws in
four. -/
def quadBench : IcebergWeighted := { pairBench with seed := 43, tables := [] }

/-- `quadBench` with the tables of `quadTree` loaded, as `Prepare` leaves it. -/
def quadReady : Ready := ⟨{ quadBench with tables := quadTables }, List.cons_ne_nil _ _⟩

/-- Both workers woken; the reader's call fails (`timeout`) and is sent, the
writer's succeeds and is sent after the collector received; the reader's
second call is left in flight. -/
def quadEvents : List Event :=
  [.release, .act 0 .wake, .act 1 .wake, .act 0 .poll, .act 1 .poll, .tick,
   .act 0 (.rps false), .act 1 (.rps false), .tick, .tick,
   .act 0 (.reply (some "timeout")), .act 0 .send, .act 1 (.reply none), .recv, .act 1 .send,
   .act 0 .poll, .act 0 (.rps false), .tick]

/-- The reader alone: two calls, the second failing, each sent and received
before the next, and a third in flight. -/
def soloEvents : List Event :=
  [.release, .act 0 .wake, .act 0 .poll, .act 0 (.rps false), .tick, .act 0 (.reply none),
   .act 0 .send, .recv, .act 0 .poll, .tick, .act 0 (.rps false), .tick, .tick,
   .act 0 (.reply (some "timeout")), .act 0 .send, .recv, .act 0 .poll, .act 0 (.rps false)]

/-- The state `quadEvents` leads to from `quadReady` on a channel of capacity
1 (the run takes every event: `steps_quadEvents`). -/
def quadState : Sys ℕ :=
  (steps cycleRand (fun _ => 0) (start cycleRand quadReady 1) quadEvents).getD
    (start cycleRand quadReady 1)

/-- The state `soloEvents` leads to from `quadReady` on an unbuffered channel
(`steps_soloEvents`). -/
def soloState : Sys ℕ :=
  (steps cycleRand (fun _ => 0) (start cycleRand quadReady 0) soloEvents).getD
    (start cycleRand quadReady 0)

set_option maxRecDepth 2000 in
theorem steps_quadEvents :
    steps cycleRand (fun _ => 0) (start cycleRand quadReady 1) quadEvents = some quadState := rfl

set_option maxRecDepth 2000 in
theorem steps_soloEvents :
    steps cycleRand (fun _ => 0) (start cycleRand quadReady 0) soloEvents = some soloState := rfl

section Runs

variable {σ : Type} (R : Rand σ) (cvt : F64 → ℤ)

theorem mem_workers {s : Sys σ} {w : Worker σ} (h : w ∈ s.workers) : ∃ i : ℕ, s.workers[i]? = some w :=
  List.mem_iff_getElem?.mp h

/-- A worker's calls made (returned, or in flight) against its sends. -/
theorem WInv.sends_lag {tables : List TableInfo} {catalog : String} {r : Bool} {c : ℕ}
    {sent : List Operation} {w : Worker σ} (h : WInv R cvt tables catalog r c sent w) :
    (w.calls.length + w.pc.inFlight.length = sent.length ∨
      w.calls.length + w.pc.inFlight.length = sent.length + 1) ∧
    (w.pc = .exited → w.calls.length = sent.length) := by
  have hl := congrArg List.length h.ops
  simp only [List.length_append, List.length_map] at hl
  cases hpc : w.pc <;> simp only [hpc, Pc.inFlight, Pc.pending, List.length_cons,
    List.length_nil, reduceCtorEq, IsEmpty.forall_iff, forall_const, and_true] at hl ⊢ <;> omega

/-- A step that makes worker `i` return is its `select` seeing `done`, or its
`rpsLimit` answering non-nil. -/
theorem step_exited {s s' : Sys σ} {e : Event} {i : ℕ} {w w' : Worker σ}
    (hs : step R cvt s e = some s') (hw : s.workers[i]? = some w) (hw' : s'.workers[i]? = some w')
    (he : w.pc ≠ .exited) (he' : w'.pc = .exited) :
    (e = .act i .poll ∧ s.cancelled = true) ∨ e = .act i (.rps true) := by
  cases e with
  | act j a =>
    obtain ⟨v, v', hv, hv', rfl⟩ := step_act R cvt hs
    by_cases hij : j = i
    · subst hij
      rw [hv] at hw; cases hw
      rw [List.getElem?_set_self (List.getElem?_eq_some_iff.mp hv).1] at hw'; cases hw'
      rcases wstep_exited R cvt hv' he' with ⟨rfl, -, hc⟩ | ⟨rfl, -⟩
      · exact .inl ⟨rfl, hc⟩
      · exact .inr rfl
    · rw [List.getElem?_set_ne hij, hw] at hw'
      cases hw'
      exact absurd he' he
  | _ =>
    rw [(step_workers R cvt hs nofun).1, hw] at hw'
    cases hw'
    exact absurd he' he

/-- The worker at index `i` of a run from `start b` is the `i`-th `go`
statement of `Start`, thread id `i`. -/
theorem Inv.spawn_eq {b : Ready} {s : Sys σ} (hI : Inv R cvt b s) {i : ℕ} {w : Worker σ}
    (hw : s.workers[i]? = some w) : (Warp.spawns b.bench)[i]? = some w.spawn ∧ w.spawn.thread = i := by
  have h1 : (Warp.spawns b.bench)[i]? = some w.spawn := by
    rw [← hI.spawns, List.getElem?_map, hw]; rfl
  refine ⟨h1, ?_⟩
  have h2 := congrArg (·[i]?) (spawns_threads b.bench)
  simp only [List.getElem?_map, h1, Option.map_some'] at h2
  have hi : i < workerCount b.bench := by
    rw [← length_spawns]; exact (List.getElem?_eq_some_iff.mp h1).1
  rw [List.getElem?_range hi] at h2
  exact Option.some_injective _ h2

/-- Operation `op` is what the worker with thread id `i` and role `ro`
records for its call `c` in catalog `catalog`, field by field as `runReader`
and `runWriter` set them: `OpTableGet` and a `GetTable` call for a reader,
`OpTableUpdate` and an `UpdateTable` call setting `last_updated` to the call's
start for a writer; `Thread: uint32(thread)`; `File` the catalog, the table's
namespace as `%v` prints it, and its name; `ObjPerOp: 1`; `Endpoint` the
catalog; the call's start and end; `Err` the call's error text, empty on
success. -/
def Records (catalog : String) (i : ℕ) (ro : Role) (c : Call) (op : Operation) : Prop :=
  (ro = .reader ∧ op.opType = .opTableGet ∧ c.req = .getTable ∨
    ro = .writer ∧ op.opType = .opTableUpdate ∧
      c.req = .updateTable ⟨[⟨"set-properties", [("last_updated", toString c.start)]⟩]⟩) ∧
  op.thread = UInt32.ofNat i ∧
  op.file = catalog ++ "/[" ++ " ".intercalate c.table.«namespace» ++ "]/" ++ c.table.name ∧
  op.objPerOp = 1 ∧ op.endpoint = catalog ∧ op.start = c.start ∧ op.«end» = c.«end» ∧
  op.err = c.err.getD ""

/-- `opOf` records a call whose request is its function's. -/
theorem records_opOf {catalog : String} {sp : Spawn} {c : Call}
    (h : c.req = sp.role.body.request c.start) :
    Records catalog sp.thread sp.role c (opOf catalog sp c) := by
  obtain ⟨ro, _, _, _⟩ := sp
  obtain ⟨_, _, _, _, err⟩ := c
  cases ro <;> cases err <;>
    simp_all [Records, opOf, opFile, errText, Role.body, runReader, runWriter, lastUpdated]

/-- Sampled indices that `goIndex` turns into the tables `ys` are in range and
point at them. -/
theorem forall₂_goIndex {α : Type} {xs ys : List α} {is : List ℤ}
    (h : is.map (goIndex xs) = ys.map some) :
    List.Forall₂ (fun i y => 0 ≤ i ∧ xs[i.toNat]? = some y) is ys := by
  have h₂ : List.Forall₂ Eq (is.map (goIndex xs)) (ys.map some) := by
    rw [h]; exact List.forall₂_same.mpr fun _ _ => rfl
  rw [List.forall₂_map_left_iff, List.forall₂_map_right_iff] at h₂
  exact h₂.imp fun _ _ => goIndex_eq_some_iff.mp

/-- What the workers' protocol promises of a state of a run. -/
structure Protocol (s : Sys σ) : Prop where
  /-- Before `wait` is closed the channel is empty and every worker is at
  `<-wait`, with no index sampled and no call made. -/
  beforeWait : s.released = false →
    s.sent = [] ∧ ∀ w ∈ s.workers, w.pc = .waiting ∧ w.samples = [] ∧ w.calls = []
  /-- The operations worker `i` sent, followed by the one waiting at its
  `rcv <- op`, record the calls it saw return, one for each, in order
  (`Records`); each call is on the table at the index it sampled for that
  iteration, and so is the call in flight. -/
  sends : ∀ i w, s.workers[i]? = some w →
    List.Forall₂ (Records s.catalog i w.spawn.role) w.calls (sentBy s.sent i ++ w.pc.pending) ∧
    List.Forall₂ (fun idx t => 0 ≤ idx ∧ s.tables[idx.toNat]? = some t) w.samples
      (w.calls.map (·.table) ++ w.pc.inFlight)
  /-- A worker's calls made equal its sends or exceed them by the one in
  progress, and equal them once it returned. -/
  lag : ∀ i w, s.workers[i]? = some w →
    (w.calls.length + w.pc.inFlight.length = (sentBy s.sent i).length ∨
      w.calls.length + w.pc.inFlight.length = (sentBy s.sent i).length + 1) ∧
    (w.pc = .exited → w.calls.length = (sentBy s.sent i).length)
  /-- A step that makes a worker return is its `select` seeing `done` closed,
  or its `rpsLimit` answering non-nil: never a failed call. -/
  exits : ∀ e s' i w w', step R cvt s e = some s' → s.workers[i]? = some w →
    s'.workers[i]? = some w' → w.pc ≠ .exited → w'.pc = .exited →
    (e = .act i .poll ∧ s.cancelled = true) ∨ e = .act i (.rps true)

/-- **The workers' protocol holds in every state of every run** from
`start b`. -/
theorem run_worker_protocol (b : Ready) (cap : ℕ) {s : Sys σ} (h : Reach R cvt (start R b cap) s) :
    Protocol R cvt s := by
  have hI := Inv.reach h
  refine ⟨fun hr => ⟨hI.quiet hr, fun w hw => ?_⟩, fun i w hw => ?_, fun i w hw => ?_,
    fun e s' i w w' hs hw hw' => step_exited R cvt hs hw hw'⟩
  · obtain ⟨i, hi⟩ := mem_workers hw
    obtain ⟨h1, h2, h3, -⟩ := (hI.workers hi).waits hr
    exact ⟨h1, h2, h3⟩
  · have hwi := hI.workers hw
    refine ⟨?_, forall₂_goIndex hwi.sampled⟩
    rw [hwi.ops, List.forall₂_map_right_iff, List.forall₂_same, ← (hI.spawn_eq R cvt hw).2]
    exact fun c hc => records_opOf (hwi.reqs c hc)
  · exact (hI.workers hw).sends_lag

set_option maxRecDepth 2000 in
theorem run_worker_protocol_quad :
    ∃ s, steps cycleRand (fun _ => 0) (start cycleRand quadReady 1) quadEvents = some s ∧
      s.sent.map (fun p => (p.1, p.2.err)) = [(0, "timeout"), (1, "")] ∧
      Protocol cycleRand (fun _ => 0) s :=
  ⟨quadState, steps_quadEvents, rfl,
    run_worker_protocol cycleRand (fun _ => 0) quadReady 1 (Reach.of_steps _ _ steps_quadEvents)⟩

theorem map_range_prefix {α : Type} (f : ℕ → α) {n m : ℕ} (h : n ≤ m) :
    (List.range n).map f <+: (List.range m).map f := by
  refine List.IsPrefix.map f ?_
  rw [List.prefix_iff_eq_take, List.length_range, List.take_range, Nat.min_eq_left h]

/-- Every operation in the channel is the operation of a call its sender saw
return. -/
theorem Inv.sent_call {b : Ready} {s : Sys σ} (hI : Inv R cvt b s) {p : ℕ × Operation}
    (hp : p ∈ s.sent) :
    ∃ w, s.workers[p.1]? = some w ∧ ∃ c ∈ w.calls, p.2 = opOf s.catalog w.spawn c := by
  obtain ⟨w, hw⟩ : ∃ w, s.workers[p.1]? = some w :=
    ⟨_, List.getElem?_eq_getElem (hI.senders p hp)⟩
  have hmem : p.2 ∈ sentBy s.sent p.1 := List.mem_filterMap.mpr ⟨p, hp, by simp⟩
  have hop : p.2 ∈ w.calls.map (opOf s.catalog w.spawn) :=
    (hI.workers hw).ops ▸ List.mem_append_left _ hmem
  obtain ⟨c, hc, hpc⟩ := List.mem_map.mp hop
  exact ⟨w, hw, c, hc, hpc.symm⟩

/-- Every operation in the channel is of the type its sender's function
records. -/
theorem Inv.sent_opType {b : Ready} {s : Sys σ} (hI : Inv R cvt b s) {p : ℕ × Operation}
    (hp : p ∈ s.sent) : ∃ sp ∈ Warp.spawns b.bench, p.2.opType = sp.role.body.opType := by
  obtain ⟨w, hw, c, -, hc⟩ := hI.sent_call R cvt hp
  exact ⟨w.spawn, List.mem_iff_getElem?.mpr ⟨_, (hI.spawn_eq R cvt hw).1⟩, by rw [hc]; rfl⟩

/-- **Every worker samples the same indices in every run.** Take two runs of
`Start` on `b` (any interleavings, any answers of `rpsLimit` and the catalog,
any moments of cancellation, any channel capacities). The worker with thread
id `i` is in both the `i`-th `go` statement `sp`; in both, its `k`-th sampled
index is `indexStream … k` of the generator its seed starts, its distribution
and the number of tables (the same function for readers and writers); and
one run's indices are a prefix of the other's. -/
theorem run_samples_stream (b : Ready) (cap₁ cap₂ : ℕ) {s₁ s₂ : Sys σ}
    (h₁ : Reach R cvt (start R b cap₁) s₁) (h₂ : Reach R cvt (start R b cap₂) s₂) (i : ℕ)
    (w₁ w₂ : Worker σ) (hw₁ : s₁.workers[i]? = some w₁) (hw₂ : s₂.workers[i]? = some w₂) :
    ∃ sp, (spawns b.bench)[i]? = some sp ∧ sp.thread = i ∧ w₁.spawn = sp ∧ w₂.spawn = sp ∧
      w₁.samples = (List.range w₁.samples.length).map
        (indexStream R cvt (R.newSource sp.seed) sp.dist b.bench.tables.length) ∧
      w₂.samples = (List.range w₂.samples.length).map
        (indexStream R cvt (R.newSource sp.seed) sp.dist b.bench.tables.length) ∧
      (w₁.samples <+: w₂.samples ∨ w₂.samples <+: w₁.samples) := by
  have hI₁ := Inv.reach h₁
  have hI₂ := Inv.reach h₂
  obtain ⟨hsp₁, hth⟩ := hI₁.spawn_eq R cvt hw₁
  obtain ⟨hsp₂, -⟩ := hI₂.spawn_eq R cvt hw₂
  have he : w₂.spawn = w₁.spawn := Option.some_injective _ (hsp₂.symm.trans hsp₁)
  have hs₁ := (hI₁.workers hw₁).stream
  have hs₂ := (hI₂.workers hw₂).stream
  rw [hI₁.tables] at hs₁
  rw [hI₂.tables, he] at hs₂
  refine ⟨w₁.spawn, hsp₁, hth, rfl, he, hs₁, hs₂, ?_⟩
  rcases le_total w₁.samples.length w₂.samples.length with hle | hle
  · exact .inl (hs₁ ▸ hs₂ ▸ map_range_prefix _ hle)
  · exact .inr (hs₁ ▸ hs₂ ▸ map_range_prefix _ hle)

set_option maxRecDepth 2000 in
theorem run_samples_stream_quad :
    ∃ s₁ s₂ w₁ w₂,
      steps cycleRand (fun _ => 0) (start cycleRand quadReady 1) quadEvents = some s₁ ∧
      steps cycleRand (fun _ => 0) (start cycleRand quadReady 0) soloEvents = some s₂ ∧
      s₁.workers[0]? = some w₁ ∧ s₂.workers[0]? = some w₂ ∧ w₁.samples = [2, 1] ∧
      w₂.samples = [2, 1, 1] ∧
      ∃ sp, (spawns quadReady.bench)[0]? = some sp ∧ sp.thread = 0 ∧ w₁.spawn = sp ∧ w₂.spawn = sp ∧
        w₁.samples = (List.range w₁.samples.length).map
          (indexStream cycleRand (fun _ => 0) (cycleRand.newSource sp.seed) sp.dist 4) ∧
        w₂.samples = (List.range w₂.samples.length).map
          (indexStream cycleRand (fun _ => 0) (cycleRand.newSource sp.seed) sp.dist 4) ∧
        (w₁.samples <+: w₂.samples ∨ w₂.samples <+: w₁.samples) :=
  ⟨quadState, soloState, _, _, steps_quadEvents, steps_soloEvents, rfl, rfl, rfl, rfl,
    run_samples_stream cycleRand (fun _ => 0) quadReady 1 0 (Reach.of_steps _ _ steps_quadEvents)
      (Reach.of_steps _ _ steps_soloEvents) 0 _ _ rfl rfl⟩

/-- **No index into `b.tables` is ever out of range.** For every generator
and every `int(x)`, `sampleTableIndex` returns an index in
`[0, numTables - 1]` whenever `numTables ≥ 1`. After a `Prepare` that returned
nil, the table list is not empty (so its probe `b.tables[0]` was in range),
and in every state of every run of `Start` on that benchmark the table list is
the one `Prepare` loaded, no worker panicked on `b.tables[tableIdx]`, and
every index a worker sampled is in `[0, len(b.tables) - 1]`. `Prepare`'s
own probe `b.tables[0]` never panics, whatever the benchmark. -/
theorem run_tables_in_range (tree : TreeGen) (getTable : String → List String → String → Option String)
    {b₀ : IcebergWeighted} {r : PrepareResult} (h : prepare tree getTable b₀ = some r)
    (hok : r.err = none) (cap : ℕ) {s : Sys σ}
    (hs : Reach R cvt (start R (Ready.ofPrepare h hok) cap) s) :
    (∀ b, (prepare tree getTable b).isSome) ∧
    (∀ (rng : σ) (dist : WeightedDistribution) (numTables : ℤ), 0 < numTables →
      0 ≤ (sampleTableIndex R cvt rng dist numTables).1 ∧
        (sampleTableIndex R cvt rng dist numTables).1 < numTables) ∧
    0 < r.bench.tables.length ∧ s.tables = r.bench.tables ∧
    ∀ w ∈ s.workers, w.pc ≠ .outOfRange ∧ ∀ k ∈ w.samples, 0 ≤ k ∧ k < r.bench.tables.length := by
  have hI := Inv.reach hs
  refine ⟨prepare_isSome tree getTable, fun rng dist _ hN => sampleTableIndex_mem R cvt rng dist hN,
    (Ready.ofPrepare h hok).length_pos, hI.tables, fun w hw => ?_⟩
  obtain ⟨i, hi⟩ := mem_workers hw
  have hwi := hI.workers hi
  refine ⟨hwi.inRange, fun k hk => ?_⟩
  have hm := List.mem_map_of_mem (goIndex s.tables) hk
  rw [hwi.sampled, List.mem_map] at hm
  obtain ⟨t, -, ht⟩ := hm
  have := goIndex_eq_some ht.symm
  rwa [hI.tables] at this

set_option maxRecDepth 2000 in
theorem run_tables_in_range_quad :
    ∃ (r : PrepareResult) (h : prepare quadTree (fun _ _ _ => none) quadBench = some r)
      (hok : r.err = none) (s : Sys ℕ),
      steps cycleRand (fun _ => 0) (start cycleRand (Ready.ofPrepare h hok) 1) quadEvents = some s ∧
      s.workers.map (·.samples) = [[2, 1], [3]] ∧
      (∀ b, (prepare quadTree (fun _ _ _ => none) b).isSome) ∧
      (∀ (rng : ℕ) (dist : WeightedDistribution) (numTables : ℤ), 0 < numTables →
        0 ≤ (sampleTableIndex cycleRand (fun _ => 0) rng dist numTables).1 ∧
          (sampleTableIndex cycleRand (fun _ => 0) rng dist numTables).1 < numTables) ∧
      0 < r.bench.tables.length ∧ s.tables = r.bench.tables ∧
      ∀ w ∈ s.workers, w.pc ≠ .outOfRange ∧ ∀ k ∈ w.samples, 0 ≤ k ∧ k < r.bench.tables.length :=
  ⟨_, rfl, rfl, quadState, steps_quadEvents, rfl, run_tables_in_range cycleRand (fun _ => 0) quadTree
    (fun _ _ _ => none) rfl rfl 1 (Reach.of_steps _ _ steps_quadEvents)⟩

/-- **A worker's operations follow one another in time**: in every state of
every run, each operation worker `i` sent ended no earlier than it started and
no later than now, and started no earlier than the one before it ended. -/
theorem run_ops_sequential (b : Ready) (cap : ℕ) {s : Sys σ} (h : Reach R cvt (start R b cap) s)
    (i : ℕ) :
    (sentBy s.sent i).Chain' (fun o o' => o.«end» ≤ o'.start) ∧
      ∀ o ∈ sentBy s.sent i, o.start ≤ o.«end» ∧ o.«end» ≤ s.clock := by
  have hI := Inv.reach h
  cases hw : s.workers[i]? with
  | none =>
    have hnil : sentBy s.sent i = [] := List.filterMap_eq_nil_iff.mpr fun p hp =>
      if_neg (by have := hI.senders p hp; have := List.getElem?_eq_none_iff.mp hw; omega)
    simp [hnil]
  | some w =>
    have hwi := hI.workers hw
    have hpre : sentBy s.sent i <+: w.calls.map (opOf s.catalog w.spawn) := ⟨_, hwi.ops⟩
    refine ⟨?_, fun o ho => ?_⟩
    · rw [List.prefix_iff_eq_take.mp hpre]
      exact ((List.chain'_map _).mpr hwi.chain).take _
    · obtain ⟨c, hc, rfl⟩ := List.mem_map.mp (hpre.subset ho)
      exact ⟨hwi.times c hc, hwi.ended c hc⟩

set_option maxRecDepth 2000 in
theorem run_ops_sequential_solo :
    ∃ s, steps cycleRand (fun _ => 0) (start cycleRand quadReady 0) soloEvents = some s ∧
      (sentBy s.sent 0).map (fun o => (o.start, o.«end»)) = [(0, 1), (2, 4)] ∧
      (sentBy s.sent 0).Chain' (fun o o' => o.«end» ≤ o'.start) ∧
      ∀ o ∈ sentBy s.sent 0, o.start ≤ o.«end» ∧ o.«end» ≤ s.clock :=
  ⟨soloState, steps_soloEvents, rfl,
    run_ops_sequential cycleRand (fun _ => 0) quadReady 0 (Reach.of_steps _ _ steps_soloEvents) 0⟩

/-- **The tables a worker calls are fixed by its seed.** In every state of
every run, the `k`-th catalog call of the worker at index `i` (the `i`-th `go`
statement of `Start`) was on `b.tables[s(k)]`, where `s` is the index stream
of that worker's seed and distribution: two runs of one configuration call the
same tables in the same order and differ only in how far they get. -/
theorem run_calls_tables (b : Ready) (cap : ℕ) {s : Sys σ} (h : Reach R cvt (start R b cap) s)
    {i : ℕ} {w : Worker σ} (hw : s.workers[i]? = some w) :
    (spawns b.bench)[i]? = some w.spawn ∧
      (w.calls.map (·.table)).map some = (List.range w.calls.length).map fun k =>
        goIndex b.bench.tables
          (indexStream R cvt (R.newSource w.spawn.seed) w.spawn.dist b.bench.tables.length k) := by
  have hI := Inv.reach h
  have hs := (hI.workers hw).sampled
  have hst := (hI.workers hw).stream
  rw [hI.tables] at hs hst
  have hlen := congrArg List.length hs
  simp only [List.length_map, List.length_append] at hlen
  refine ⟨(hI.spawn_eq R cvt hw).1, ?_⟩
  calc (w.calls.map (·.table)).map some
      = ((w.calls.map (·.table) ++ w.pc.inFlight).map some).take w.calls.length := by
        rw [List.map_append, List.take_left' (by simp)]
    _ = (w.samples.map (goIndex b.bench.tables)).take w.calls.length := by rw [hs]
    _ = _ := by
        rw [hst, List.map_map, ← List.map_take, List.take_range, Nat.min_eq_left (by omega)]
        rfl

set_option maxRecDepth 2000 in
theorem run_calls_tables_solo :
    ∃ s w, steps cycleRand (fun _ => 0) (start cycleRand quadReady 0) soloEvents = some s ∧
      s.workers[0]? = some w ∧ w.calls.map (·.table.name) = ["t2", "t1"] ∧
      (spawns quadReady.bench)[0]? = some w.spawn ∧
      (w.calls.map (·.table)).map some = (List.range w.calls.length).map fun k =>
        goIndex quadReady.bench.tables
          (indexStream cycleRand (fun _ => 0) (cycleRand.newSource w.spawn.seed) w.spawn.dist 4 k) :=
  ⟨soloState, _, steps_soloEvents, rfl, rfl,
    run_calls_tables cycleRand (fun _ => 0) quadReady 0 (Reach.of_steps _ _ steps_soloEvents) rfl⟩

/-- The calls a worker saw return were on tables of the list. -/
theorem WInv.call_table {tables : List TableInfo} {catalog : String} {r : Bool} {c : ℕ}
    {sent : List Operation} {w : Worker σ} (h : WInv R cvt tables catalog r c sent w)
    {cl : Call} (hc : cl ∈ w.calls) : cl.table ∈ tables := by
  have hs : some cl.table ∈ w.samples.map (goIndex tables) := by
    rw [h.sampled]
    exact List.mem_map_of_mem _ (List.mem_append_left _ (List.mem_map_of_mem _ hc))
  obtain ⟨k, -, hk⟩ := List.mem_map.mp hs
  exact goIndex_mem hk

/-- What the collector can tell from an operation: the sender's thread id as
`uint32`, the catalog, and a table of the benchmark. -/
structure Attributed {σ : Type} (b : Ready) (s : Sys σ) : Prop where
  /-- `Thread: uint32(thread)`: the sender's index modulo `2^32`. -/
  thread : ∀ p ∈ s.sent, p.2.thread.toNat = p.1 % 2 ^ 32
  /-- `Endpoint: catalog`, `ObjPerOp: 1`. -/
  endpoint : ∀ p ∈ s.sent, p.2.endpoint = b.bench.treeConfig.catalogName ∧ p.2.objPerOp = 1
  /-- `File`: the catalog, the namespace and the name of a table of
  `b.tables`. -/
  file : ∀ p ∈ s.sent, ∃ t ∈ b.bench.tables,
    p.2.file = b.bench.treeConfig.catalogName ++ "/[" ++ " ".intercalate t.«namespace» ++ "]/" ++ t.name
  /-- Two operations carry one thread exactly when their senders' indices
  agree modulo `2^32`. -/
  sameThread : ∀ p ∈ s.sent, ∀ q ∈ s.sent, p.2.thread = q.2.thread ↔ p.1 % 2 ^ 32 = q.1 % 2 ^ 32
  /-- With at most `2^32` workers, the thread tells the senders apart. -/
  sender : (spawns b.bench).length ≤ 2 ^ 32 →
    ∀ p ∈ s.sent, ∀ q ∈ s.sent, p.2.thread = q.2.thread ↔ p.1 = q.1

/-- **Every operation in the channel names its sender and a table of the
benchmark**, in every state of every run: its thread is `uint32(i)` for the
worker at index `i` that sent it, its endpoint the catalog, its file the
catalog and a table of `b.tables`. The conversion wraps: workers whose indices
differ by a multiple of `2^32` send the same thread, and only with at most
`2^32` workers does the thread tell the senders apart. -/
theorem run_ops_attributed (b : Ready) (cap : ℕ) {s : Sys σ} (h : Reach R cvt (start R b cap) s) :
    Attributed b s := by
  have hI := Inv.reach h
  have hthread : ∀ p ∈ s.sent, p.2.thread.toNat = p.1 % 2 ^ 32 := fun p hp => by
    obtain ⟨w, hw, c, -, hc⟩ := hI.sent_call R cvt hp
    rw [hc, ← (hI.spawn_eq R cvt hw).2]
    exact BitVec.toNat_ofNat _ _
  have hsame : ∀ p ∈ s.sent, ∀ q ∈ s.sent, p.2.thread = q.2.thread ↔ p.1 % 2 ^ 32 = q.1 % 2 ^ 32 :=
    fun p hp q hq => by
      rw [← hthread p hp, ← hthread q hq]
      exact ⟨congrArg _, UInt32.toNat.inj⟩
  refine ⟨hthread, fun p hp => ?_, fun p hp => ?_, hsame, fun hn p hp q hq => ?_⟩
  · obtain ⟨w, -, c, -, hc⟩ := hI.sent_call R cvt hp
    rw [hc, ← hI.catalog]
    exact ⟨rfl, rfl⟩
  · obtain ⟨w, hw, c, hcm, hc⟩ := hI.sent_call R cvt hp
    rw [hc, ← hI.catalog, ← hI.tables]
    exact ⟨c.table, (hI.workers hw).call_table R cvt hcm, rfl⟩
  · have hlen : s.workers.length ≤ 2 ^ 32 := by
      rw [← List.length_map s.workers (·.spawn), hI.spawns]; exact hn
    rw [hsame p hp q hq, Nat.mod_eq_of_lt ((hI.senders p hp).trans_le hlen),
      Nat.mod_eq_of_lt ((hI.senders q hq).trans_le hlen)]

set_option maxRecDepth 2000 in
theorem run_ops_attributed_quad :
    ∃ s, steps cycleRand (fun _ => 0) (start cycleRand quadReady 1) quadEvents = some s ∧
      s.sent.map (fun p => (p.2.thread, p.2.file)) =
        [(0, "benchmark_catalog/[ns sub]/t2"), (1, "benchmark_catalog/[ns sub]/t3")] ∧
      Attributed quadReady s :=
  ⟨quadState, steps_quadEvents, rfl,
    run_ops_attributed cycleRand (fun _ => 0) quadReady 1 (Reach.of_steps _ _ steps_quadEvents)⟩

end Runs

end Warp
