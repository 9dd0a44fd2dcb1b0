/-
# One worker: the loop of `runReader` and `runWriter`

A worker creates its generator from its seed, blocks on `<-wait`, and then
loops: a non-blocking `select` on `done` (return when the context is done),
`rpsLimit` (return when it answers non-nil), `sampleTableIndex`,
`b.tables[tableIdx]`, an `Operation` stamped with `op.Start`, the catalog
call, `op.End` and `op.Err`, and the send `rcv <- op`. The two functions
differ only in the operation type they record and the call they make
(`Body`, `runReader`, `runWriter`).

A worker's state is its place in the loop (`Pc`), its generator, and two
history variables: the indices it sampled and the calls it saw return. It
moves at its blocking points, when the run answers it (`Act`); `wstep` is
that move, `wstep_eq_some` lists the moves one by one.

Key definitions: `Operation`, `Body`, `issue`, `Pc`, `Worker`, `wstep`.
-/
import WarpIceberg.Bench

namespace Warp

/-- The operation types the weighted workers record. -/
inductive OpType where
  | opTableGet
  | opTableUpdate
  deriving DecidableEq, Repr

/-- `Operation`, with the fields the workers set; `start` and `end` are clock
readings. -/
structure Operation where
  opType : OpType
  thread : UInt32
  file : String
  objPerOp : ℕ
  endpoint : String
  start : ℕ
  «end» : ℕ
  err : String
  deriving DecidableEq, Repr

/-- `rest.TableUpdate`. -/
structure TableUpdate where
  action : String
  updates : List (String × String)
  deriving DecidableEq, Repr

/-- `rest.CommitTableRequest`. -/
structure CommitTableRequest where
  updates : List TableUpdate
  deriving DecidableEq, Repr

/-- The catalog call of an iteration. -/
inductive Request where
  | getTable
  | updateTable (req : CommitTableRequest)
  deriving DecidableEq, Repr

/-- `runWriter`'s request at `now`: `set-properties` with `last_updated`. -/
def lastUpdated (now : ℕ) : CommitTableRequest :=
  ⟨[⟨"set-properties", [("last_updated", toString now)]⟩]⟩

/-- `fmt.Sprintf("%s/%v/%s", catalog, tbl.Namespace, tbl.Name)`; `%v` prints a
`[]string` as `[a b c]`. -/
def opFile (catalog : String) (tbl : TableInfo) : String :=
  catalog ++ "/[" ++ " ".intercalate tbl.«namespace» ++ "]/" ++ tbl.name

/-- `op.Err`: `err.Error()`, or empty for nil. -/
def errText : Option String → String
  | some e => e
  | none => ""

/-- What distinguishes `runReader` from `runWriter`: the operation type it
records and the call it makes at time `now`. -/
structure Body where
  opType : OpType
  request : ℕ → Request

/-- `runReader`: `OpTableGet` and `GetTable`. -/
def runReader : Body := ⟨.opTableGet, fun _ => .getTable⟩

/-- `runWriter`: `OpTableUpdate` and `UpdateTable` with `last_updated = now`. -/
def runWriter : Body := ⟨.opTableUpdate, fun now => .updateTable (lastUpdated now)⟩

/-- The function a `go` statement of `Start` runs. -/
def Role.body : Role → Body
  | .reader => runReader
  | .writer => runWriter

/-- A catalog call a worker saw return: its table, request, the clock at
`op.Start` and at `op.End`, and its error. -/
structure Call where
  table : TableInfo
  req : Request
  start : ℕ
  «end» : ℕ
  err : Option String
  deriving DecidableEq, Repr

/-- The `Operation` a worker records for a call. -/
def opOf (catalog : String) (sp : Spawn) (c : Call) : Operation :=
  ⟨sp.role.body.opType, UInt32.ofNat sp.thread, opFile catalog c.table, 1, catalog, c.start, c.«end»,
    errText c.err⟩

/-- Where a worker is in its loop. -/
inductive Pc where
  /-- at `<-wait` -/
  | waiting
  /-- at the `select` on `done` -/
  | top
  /-- in `b.rpsLimit(ctx)` -/
  | limit
  /-- in the catalog call on `tbl`, with the operation built so far -/
  | calling (tbl : TableInfo) (req : Request) (op : Operation)
  /-- at `rcv <- op` -/
  | sending (op : Operation)
  /-- returned -/
  | exited
  /-- `b.tables[tableIdx]` panicked -/
  | outOfRange
  deriving DecidableEq, Repr

/-- A worker: its `go` statement, its generator, its place, the indices it
sampled and the calls it saw return. -/
structure Worker (σ : Type) where
  spawn : Spawn
  rng : σ
  pc : Pc
  samples : List ℤ
  calls : List Call

/-- The table of the call in flight. -/
def Pc.inFlight : Pc → List TableInfo
  | .calling tbl _ _ => [tbl]
  | _ => []

/-- The operation waiting to be sent. -/
def Pc.pending : Pc → List Operation
  | .sending op => [op]
  | _ => []

/-- What the run answers a worker at a blocking point. -/
inductive Act where
  /-- `<-wait` returns -/
  | wake
  /-- the `select` on `done` runs -/
  | poll
  /-- `rpsLimit` returns, non-nil when `stop` -/
  | rps (stop : Bool)
  /-- the catalog call returns `err` -/
  | reply (err : Option String)
  /-- `rcv <- op` is taken by the channel -/
  | send
  deriving DecidableEq, Repr

/-- What a worker's step reads of the run: the tables, the catalog name,
whether `wait` is closed and `done` is, the clock, and whether the channel has
room. -/
structure View where
  tables : List TableInfo
  catalog : String
  released : Bool
  cancelled : Bool
  clock : ℕ
  room : Bool

section Step

variable {σ : Type} (R : Rand σ) (cvt : F64 → ℤ)

/-- The worker a `go` statement starts: its generator made, at `<-wait`. -/
def Worker.init (sp : Spawn) : Worker σ := ⟨sp, R.newSource sp.seed, .waiting, [], []⟩

/-- An iteration after `rpsLimit` returned nil, at time `now`: sample an index,
read `b.tables[tableIdx]`, build the operation with `op.Start = now` and issue
`body`'s call. Nothing in it blocks, so it is one move of the worker; the two
reads of the clock it holds (`time.Now().UnixMilli()` and `op.Start`) see one
time. -/
def issue (body : Body) (tables : List TableInfo) (catalog : String) (now : ℕ) (w : Worker σ) :
    Worker σ :=
  let r := sampleTableIndex R cvt w.rng w.spawn.dist tables.length
  match goIndex tables r.1 with
  | none => { w with rng := r.2, samples := w.samples ++ [r.1], pc := .outOfRange }
  | some tbl =>
    { w with rng := r.2, samples := w.samples ++ [r.1],
             pc := .calling tbl (body.request now) (opOf catalog w.spawn ⟨tbl, .getTable, now, 0, none⟩) }

@[simp] theorem issue_spawn (body : Body) (tables : List TableInfo) (catalog : String) (now : ℕ)
    (w : Worker σ) : (issue R cvt body tables catalog now w).spawn = w.spawn := by
  unfold issue; dsimp only; split <;> rfl

theorem issue_pc_ne_exited (body : Body) (tables : List TableInfo) (catalog : String) (now : ℕ)
    (w : Worker σ) : (issue R cvt body tables catalog now w).pc ≠ .exited := by
  unfold issue; dsimp only; split <;> simp

/-- A worker's step when the run answers `a`. -/
def wstep (v : View) (w : Worker σ) (a : Act) : Option (Worker σ) :=
  match a, w.pc with
  | .wake, .waiting => if v.released then some { w with pc := .top } else none
  | .poll, .top => some { w with pc := if v.cancelled then .exited else .limit }
  | .rps stop, .limit =>
    some (if stop then { w with pc := .exited }
      else issue R cvt w.spawn.role.body v.tables v.catalog v.clock w)
  | .reply err, .calling tbl req op =>
    some { w with pc := .sending { op with «end» := v.clock, err := errText err },
                  calls := w.calls ++ [⟨tbl, req, op.start, v.clock, err⟩] }
  | .send, .sending _ => if v.room then some { w with pc := .top } else none
  | _, _ => none

/-- The operation a step hands to the channel. -/
def emitted (w : Worker σ) (a : Act) : List Operation :=
  match a with
  | .send => w.pc.pending
  | _ => []

/-- **The moves of a worker**, one per blocking point. -/
theorem wstep_eq_some {v : View} {w w' : Worker σ} {a : Act} (h : wstep R cvt v w a = some w') :
    (a = .wake ∧ w.pc = .waiting ∧ v.released = true ∧ w' = { w with pc := .top }) ∨
    (a = .poll ∧ w.pc = .top ∧ w' = { w with pc := if v.cancelled then .exited else .limit }) ∨
    (a = .rps true ∧ w.pc = .limit ∧ w' = { w with pc := .exited }) ∨
    (a = .rps false ∧ w.pc = .limit ∧ w' = issue R cvt w.spawn.role.body v.tables v.catalog v.clock w) ∨
    (∃ err tbl req op, a = .reply err ∧ w.pc = .calling tbl req op ∧
      w' = { w with pc := .sending { op with «end» := v.clock, err := errText err },
                    calls := w.calls ++ [⟨tbl, req, op.start, v.clock, err⟩] }) ∨
    (∃ op, a = .send ∧ w.pc = .sending op ∧ v.room = true ∧ w' = { w with pc := .top }) := by
  unfold wstep at h
  split at h
  · split at h
    · cases h; exact .inl ⟨rfl, by assumption, by assumption, rfl⟩
    · cases h
  · cases h; exact .inr (.inl ⟨rfl, by assumption, rfl⟩)
  · rename_i stop hpc
    cases stop
    · cases h; exact .inr (.inr (.inr (.inl ⟨rfl, hpc, rfl⟩)))
    · cases h; exact .inr (.inr (.inl ⟨rfl, hpc, rfl⟩))
  · cases h; exact .inr (.inr (.inr (.inr (.inl ⟨_, _, _, _, rfl, by assumption, rfl⟩))))
  · split at h
    · cases h; exact .inr (.inr (.inr (.inr (.inr ⟨_, rfl, by assumption, by assumption, rfl⟩))))
    · cases h
  · cases h

/-- A step keeps the worker's `go` statement. -/
theorem wstep_spawn {v : View} {w w' : Worker σ} {a : Act} (h : wstep R cvt v w a = some w') :
    w'.spawn = w.spawn := by
  rcases wstep_eq_some R cvt h with ⟨-, -, -, rfl⟩ | ⟨-, -, rfl⟩ | ⟨-, -, rfl⟩ | ⟨-, -, rfl⟩ |
    ⟨_, _, _, _, -, -, rfl⟩ | ⟨_, -, -, -, rfl⟩
  all_goals first | rfl | exact issue_spawn R cvt _ _ _ _ w

/-- **A worker returns only at the `select` when `done` is closed, or when
`rpsLimit` answers non-nil**; a failed call leads to the send, not out. -/
theorem wstep_exited {v : View} {w w' : Worker σ} {a : Act} (h : wstep R cvt v w a = some w')
    (hw' : w'.pc = .exited) :
    (a = .poll ∧ w.pc = .top ∧ v.cancelled = true) ∨ (a = .rps true ∧ w.pc = .limit) := by
  rcases wstep_eq_some R cvt h with ⟨-, -, -, rfl⟩ | ⟨rfl, hpc, rfl⟩ | ⟨rfl, hpc, rfl⟩ |
    ⟨-, -, rfl⟩ | ⟨_, _, _, _, -, -, rfl⟩ | ⟨_, -, -, -, rfl⟩
  · cases hw'
  · cases hc : v.cancelled
    · simp [hc] at hw'
    · exact .inl ⟨rfl, hpc, rfl⟩
  · exact .inr ⟨rfl, hpc⟩
  · exact absurd hw' (issue_pc_ne_exited R cvt _ _ _ _ w)
  · cases hw'
  · cases hw'

/-- A worker that returned never moves again. -/
theorem wstep_of_exited {v : View} {w : Worker σ} (hw : w.pc = .exited) (a : Act) :
    wstep R cvt v w a = none := by
  unfold wstep; rw [hw]; split <;> simp_all

end Step

end Warp
