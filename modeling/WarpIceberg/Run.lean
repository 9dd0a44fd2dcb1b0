/-
# A run of `Start`'s workers, in any interleaving

`Start` spawns the workers of `spawns b` and waits for them; the caller closes
`wait`; the context may be cancelled at any moment (by the caller, or by the
auto-terminator `Start` wraps around it); `rpsLimit` and the catalog answer
each worker as they like; the collector drains the channel when it likes. A
run is any sequence of these events (`Event`), each a step of one party:
`step` is partial, `none` where the event cannot happen (a worker not at that
blocking point, a full channel, an empty one).

The channel has capacity `cap` (the collector's); it records each operation
it takes with the index of the worker that sent it, so that the operations of
one worker can be told apart (`sentBy`), and `taken` counts the operations
the collector is done with. On a buffered channel the collector's loop body
(appending the operation) reads nothing the workers share, so it is folded
into its receive: `recv` takes the oldest operation out of the buffer, and a
send completes while fewer than `cap` operations are in it. On an unbuffered
channel (`cap = 0`) the send is the hand-over itself: it completes only while
the collector waits at its receive, that is, when it is done with every
earlier operation; the collector then holds the operation, and `recv` is it
finishing with it and going back to its receive. Both are the one condition
`sent < taken + max cap 1` (`Sys.view`), exact for each reading.

Key definitions: `Sys`, `Event`, `step`, `start`, `Reach`, `sentBy`.
Key theorems: `step_act`, the one inversion lemma of a worker's step.
-/
import WarpIceberg.Worker

namespace Warp

/-- A run: the data the workers share (the tables, the catalog name, the
channel's capacity), the `wait` and `done` signals, the clock, the workers, the
operations the channel took (with their senders) and how many of them the
collector received. -/
structure Sys (σ : Type) where
  tables : List TableInfo
  catalog : String
  cap : ℕ
  released : Bool
  cancelled : Bool
  clock : ℕ
  workers : List (Worker σ)
  sent : List (ℕ × Operation)
  taken : ℕ

/-- What happens next: the caller closes `wait`, the context is cancelled, the
clock ticks, the collector receives, or worker `i` moves. -/
inductive Event where
  | release
  | cancel
  | tick
  | recv
  | act (i : ℕ) (a : Act)

/-- What a worker sees of the run; the channel has room while fewer than
`max cap 1` sent operations are unfinished (see the module header). -/
def Sys.view {σ : Type} (s : Sys σ) : View :=
  ⟨s.tables, s.catalog, s.released, s.cancelled, s.clock,
    decide (s.sent.length < s.taken + max s.cap 1)⟩

/-- The operations worker `i` sent, in order. -/
def sentBy (sent : List (ℕ × Operation)) (i : ℕ) : List Operation :=
  sent.filterMap fun p => if p.1 = i then some p.2 else none

@[simp] theorem sentBy_nil (i : ℕ) : sentBy [] i = [] := rfl

@[simp] theorem sentBy_append (a b : List (ℕ × Operation)) (i : ℕ) :
    sentBy (a ++ b) i = sentBy a i ++ sentBy b i := List.filterMap_append _ _ _

theorem sentBy_tag (ops : List Operation) (i j : ℕ) :
    sentBy (ops.map ((i, ·))) j = if i = j then ops else [] := by
  induction ops with
  | nil => split <;> rfl
  | cons op ops ih =>
    simp only [sentBy] at ih ⊢
    by_cases h : i = j <;> simp_all

section Step

variable {σ : Type} (R : Rand σ) (cvt : F64 → ℤ)

/-- One event of a run. -/
def step (s : Sys σ) : Event → Option (Sys σ)
  | .release => if s.released then none else some { s with released := true }
  | .cancel => some { s with cancelled := true }
  | .tick => some { s with clock := s.clock + 1 }
  | .recv => if s.taken < s.sent.length then some { s with taken := s.taken + 1 } else none
  | .act i a =>
    match s.workers[i]? with
    | none => none
    | some w => (wstep R cvt s.view w a).map fun w' =>
      { s with workers := s.workers.set i w', sent := s.sent ++ (emitted w a).map ((i, ·)) }

/-- `Start` with `b`, on a channel of capacity `cap`: the workers of
`spawns b` at `<-wait`, `wait` and `done` open, the channel empty. -/
def start (b : Ready) (cap : ℕ) : Sys σ :=
  ⟨b.bench.tables, b.bench.treeConfig.catalogName, cap, false, false, 0,
    (spawns b.bench).map (Worker.init R), [], 0⟩

/-- The runs from `s₀`. -/
inductive Reach (s₀ : Sys σ) : Sys σ → Prop
  | refl : Reach s₀ s₀
  | step {s s' : Sys σ} (e : Event) : Reach s₀ s → step R cvt s e = some s' → Reach s₀ s'

/-- The run that answers the events `es` in order; `none` if one of them
cannot happen. -/
def steps (s : Sys σ) : List Event → Option (Sys σ)
  | [] => some s
  | e :: es => (step R cvt s e).bind fun s' => steps s' es

theorem steps_append (s : Sys σ) (es es' : List Event) :
    steps R cvt s (es ++ es') = (steps R cvt s es).bind fun s' => steps R cvt s' es' := by
  induction es generalizing s with
  | nil => rfl
  | cons e es ih => rw [List.cons_append, steps, steps]; simp only [ih, Option.bind_assoc]

theorem Reach.head {s₀ s₁ s : Sys σ} {e : Event} (he : Warp.step R cvt s₀ e = some s₁)
    (h : Reach R cvt s₁ s) : Reach R cvt s₀ s := by
  induction h with
  | refl => exact .step e .refl he
  | step e' _ hs ih => exact .step e' ih hs

theorem Reach.trans {s₀ s₁ s : Sys σ} (h₁ : Reach R cvt s₀ s₁) (h : Reach R cvt s₁ s) :
    Reach R cvt s₀ s := by
  induction h with
  | refl => exact h₁
  | step e _ hs ih => exact .step e ih hs

/-- A replayed run is a run. -/
theorem Reach.of_steps : ∀ {s₀ s : Sys σ} {es : List Event}, steps R cvt s₀ es = some s →
    Reach R cvt s₀ s
  | _, _, [], h => by cases h; exact .refl
  | _, _, _ :: _, h => by
    obtain ⟨s₁, h₁, h₂⟩ := Option.bind_eq_some.mp h
    exact Reach.head R cvt h₁ (Reach.of_steps h₂)

/-- **A worker's move, as the run sees it**: worker `i` moves as `wstep` says,
the others stay, and the channel takes what it sends. -/
theorem step_act {s s' : Sys σ} {i : ℕ} {a : Act} (h : step R cvt s (.act i a) = some s') :
    ∃ w w', s.workers[i]? = some w ∧ wstep R cvt s.view w a = some w' ∧
      s' = { s with workers := s.workers.set i w', sent := s.sent ++ (emitted w a).map ((i, ·)) } := by
  simp only [step] at h
  split at h
  · cases h
  · rename_i w hw
    obtain ⟨w', hw', rfl⟩ := Option.map_eq_some'.mp h
    exact ⟨w, w', hw, hw', rfl⟩

/-- The events other than a worker's move leave the workers and the shared
data alone. -/
theorem step_workers {s s' : Sys σ} {e : Event} (h : step R cvt s e = some s')
    (he : ∀ i a, e ≠ .act i a) :
    s'.workers = s.workers ∧ s'.tables = s.tables ∧ s'.catalog = s.catalog ∧ s'.sent = s.sent ∧
      s'.clock ≥ s.clock ∧ (s'.released = false → s.released = false) := by
  cases e with
  | release => simp only [step] at h; split at h <;> cases h; simp
  | cancel => cases h; simp
  | tick => cases h; simp
  | recv => simp only [step] at h; split at h <;> cases h; simp
  | act i a => exact absurd rfl (he i a)

/-- Every event keeps the tables and the catalog name. -/
theorem step_tables {s s' : Sys σ} {e : Event} (h : step R cvt s e = some s') :
    s'.tables = s.tables ∧ s'.catalog = s.catalog := by
  cases e with
  | act i a => obtain ⟨_, _, -, -, rfl⟩ := step_act R cvt h; exact ⟨rfl, rfl⟩
  | _ => exact (fun h' => ⟨h'.2.1, h'.2.2.1⟩) (step_workers R cvt h (fun _ _ => nofun))

end Step

/-- The operation type `Start` hands to `Collector.AutoTerm` when
`AutoTermDur > 0`. -/
def autoTermOp (b : IcebergWeighted) : Option OpType :=
  if b.common.autoTermDur > 0 then some .opTableGet else none

end Warp
