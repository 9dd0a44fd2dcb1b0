/-
# The `IcebergWeighted` benchmark: its data, `Prepare`, `Start`'s loops, `Cleanup`

`Prepare` loads the table list from the tree generator, fails when it is
empty, and probes `b.tables[0]` with `GetTable`. `Start` spawns, for every
reader group in order, `Count` `runReader` workers, then for every writer
group `Count` `runWriter` workers; one counter `threadID` numbers them all,
and each gets the seed `Seed + (distIdx+1)*1000 + threadID` (readers) or
`Seed + (distIdx+1)*2000 + threadID` (writers), in `int64`.

* `prepare_ok_tables`: a `Prepare` that returns nil leaves a non-empty table
  list, and it never indexes out of range (`prepare_isSome`).
* `spawns_threads_groups`: `Start` spawns `Σ Count` workers, group by group,
  and gives them the thread ids `0, 1, …` in spawn order, readers first.
* `spawns_seeds_nodup`: with at most two reader groups the derived seeds are
  pairwise distinct; `spawns_seedClash`: with a third they are not, as the
  reader offsets `(distIdx+1)*1000` reach the writer offsets
  `(distIdx+1)*2000`.

The tree generator and the REST client are parameters: `TreeGen`, and the
answer of `GetTable` to the probe.

Key definitions: `prepare`, `Ready`, `spawnGroup`, `spawnGroups`, `spawns`,
`seedOffsets`.
-/
import WarpIceberg.Sampler
import Mathlib.Data.List.Range

namespace Warp

/-- `iceberg.TableInfo` as the benchmark reads it. -/
structure TableInfo where
  «namespace» : List String
  name : String
  deriving DecidableEq, Repr

/-- `iceberg.TreeConfig` with the fields `mainIcebergWeighted` sets. -/
structure TreeConfig where
  namespaceWidth : ℤ
  namespaceDepth : ℤ
  tablesPerNS : ℤ
  baseLocation : String
  catalogName : String
  deriving DecidableEq, Repr

/-- `pkg/iceberg`'s generator: `NewTree(cfg).TotalTables()` and
`NewTree(cfg).AllTables()`. -/
structure TreeGen where
  totalTables : TreeConfig → ℤ
  allTables : TreeConfig → List TableInfo

/-- The field of `Common` the weighted benchmark reads: `AutoTermDur`, a
`time.Duration`. -/
structure Common where
  autoTermDur : ℤ
  deriving DecidableEq, Repr

/-- `IcebergWeighted`; `tables` is set by `Prepare`. -/
structure IcebergWeighted where
  common : Common
  treeConfig : TreeConfig
  readers : List WeightedDistribution
  writers : List WeightedDistribution
  seed : BitVec 64
  tables : List TableInfo
  deriving DecidableEq, Repr

/-- Go's `xs[i]` for an `int` index; `none` where Go panics. -/
def goIndex {α : Type} (xs : List α) (i : ℤ) : Option α := if 0 ≤ i then xs[i.toNat]? else none

theorem goIndex_isSome {α : Type} {xs : List α} {i : ℤ} (h0 : 0 ≤ i) (h : i < xs.length) :
    (goIndex xs i).isSome := by
  rw [goIndex, if_pos h0, List.getElem?_eq_getElem (by omega)]
  rfl

theorem goIndex_eq_some {α : Type} {xs : List α} {i : ℤ} {a : α} (h : goIndex xs i = some a) :
    0 ≤ i ∧ i < xs.length := by
  unfold goIndex at h
  split_ifs at h with h0
  have := (List.getElem?_eq_some_iff.mp h).1
  omega

theorem goIndex_eq_some_iff {α : Type} {xs : List α} {i : ℤ} {a : α} :
    goIndex xs i = some a ↔ 0 ≤ i ∧ xs[i.toNat]? = some a := by
  unfold goIndex
  split_ifs with h0 <;> simp [h0]

theorem goIndex_mem {α : Type} {xs : List α} {i : ℤ} {a : α} (h : goIndex xs i = some a) :
    a ∈ xs := by
  unfold goIndex at h
  split_ifs at h
  exact List.mem_iff_getElem?.mpr ⟨_, h⟩

/-! ### `Prepare` and `Cleanup` -/

/-- What `Prepare` leaves: the benchmark (with `tables` set), the status lines
it reported, and its error (`none` for nil). -/
structure PrepareResult where
  bench : IcebergWeighted
  status : List String
  err : Option String

/-- `Prepare`. `getTable catalog ns name` is the error `GetTable` returns
(`none` for nil); the whole result is `none` where Go panics. -/
def prepare (tree : TreeGen) (getTable : String → List String → String → Option String)
    (b : IcebergWeighted) : Option PrepareResult :=
  let loading := "Loading dataset info: " ++ toString (tree.totalTables b.treeConfig) ++ " tables"
  let b := { b with tables := tree.allTables b.treeConfig }
  if b.tables.length = 0 then
    some ⟨b, [loading], some "no tables found: check tree configuration"⟩
  else
    let catalog := b.treeConfig.catalogName
    let verifying := "Verifying catalog connectivity..."
    (goIndex b.tables 0).map fun t =>
      match getTable catalog t.«namespace» t.name with
      | some e => ⟨b, [loading, verifying], some ("cannot access table: " ++ e)⟩
      | none => ⟨b, [loading, verifying, "Preparation complete - " ++ toString b.tables.length ++
          " tables available for weighted workload"], none⟩

section Prepare

variable (tree : TreeGen) (getTable : String → List String → String → Option String)

/-- `Prepare`'s probe `b.tables[0]` is in range: it never panics. -/
theorem prepare_isSome (b : IcebergWeighted) : (prepare tree getTable b).isSome := by
  unfold prepare; dsimp only
  split_ifs with h
  · rfl
  · simpa using goIndex_isSome le_rfl (by simpa [List.length_pos] using h)

/-- **A `Prepare` that returns nil leaves a non-empty table list**, the one the
tree generator lists. -/
theorem prepare_ok_tables {b : IcebergWeighted} {r : PrepareResult}
    (h : prepare tree getTable b = some r) (hok : r.err = none) :
    r.bench.tables = tree.allTables b.treeConfig ∧ r.bench.tables ≠ [] := by
  unfold prepare at h; dsimp only at h
  split_ifs at h with h0
  · cases h; cases hok
  · simp only [Option.map_eq_some'] at h
    obtain ⟨t, -, rfl⟩ := h
    split <;> simp_all

/-- `Prepare` changes the benchmark only in its table list. -/
theorem prepare_bench {b : IcebergWeighted} {r : PrepareResult} (h : prepare tree getTable b = some r) :
    r.bench = { b with tables := tree.allTables b.treeConfig } := by
  unfold prepare at h; dsimp only at h
  split_ifs at h
  · cases h; rfl
  · simp only [Option.map_eq_some'] at h
    obtain ⟨t, -, rfl⟩ := h
    split <;> rfl

end Prepare

/-- A benchmark ready to `Start`: its `Prepare` returned nil, so its table list
is not empty. -/
structure Ready where
  bench : IcebergWeighted
  tables_ne_nil : bench.tables ≠ []

/-- The `Ready` benchmark a successful `Prepare` leaves. -/
def Ready.ofPrepare {tree : TreeGen} {getTable : String → List String → String → Option String}
    {b : IcebergWeighted} {r : PrepareResult} (h : prepare tree getTable b = some r)
    (hok : r.err = none) : Ready :=
  ⟨r.bench, (prepare_ok_tables tree getTable h hok).2⟩

theorem Ready.length_pos (b : Ready) : 0 < b.bench.tables.length :=
  List.length_pos.mpr b.tables_ne_nil

/-- `Cleanup`: one status line, and no call to the catalog. -/
def cleanup (_ : IcebergWeighted) : List String :=
  ["Cleanup: skipping (weighted benchmark does not delete data)"]

/-! ### `Start`'s loops -/

/-- The two worker functions `Start` spawns. -/
inductive Role where
  | reader
  | writer
  deriving DecidableEq, Repr

/-- A `go` statement of `Start`: which function, and its arguments `thread`,
`d` and `s`. -/
structure Spawn where
  role : Role
  thread : ℕ
  dist : WeightedDistribution
  seed : BitVec 64
  deriving DecidableEq, Repr

/-- `seed := b.Seed + int64((distIdx+1)*mult) + int64(threadID)`. -/
def deriveSeed (seed : BitVec 64) (mult distIdx threadID : ℕ) : BitVec 64 :=
  seed + BitVec.ofNat 64 ((distIdx + 1) * mult) + BitVec.ofNat 64 threadID

section Loops

variable (role : Role) (mult : ℕ) (seed : BitVec 64)

/-- The inner loop `for i := 0; i < dist.Count; i++` with `n` rounds left and
the counter at `threadID`: the spawns and the counter after. -/
def spawnGroup (distIdx : ℕ) (dist : WeightedDistribution) : ℕ → ℕ → List Spawn × ℕ
  | 0, threadID => ([], threadID)
  | n + 1, threadID =>
    let rest := spawnGroup distIdx dist n (threadID + 1)
    (⟨role, threadID, dist, deriveSeed seed mult distIdx threadID⟩ :: rest.1, rest.2)

/-- The outer loop `for distIdx, dist := range groups`, from `distIdx` on. -/
def spawnGroups : List WeightedDistribution → ℕ → ℕ → List Spawn × ℕ
  | [], _, threadID => ([], threadID)
  | dist :: groups, distIdx, threadID =>
    let g := spawnGroup role mult seed distIdx dist dist.count.toNat threadID
    let rest := spawnGroups groups (distIdx + 1) g.2
    (g.1 ++ rest.1, rest.2)

/-- The workers a list of groups asks for: the sum of their `Count`s. -/
def groupSize : List WeightedDistribution → ℕ
  | [] => 0
  | d :: groups => d.count.toNat + groupSize groups

theorem spawnGroup_eq (distIdx : ℕ) (dist : WeightedDistribution) :
    ∀ n threadID, spawnGroup role mult seed distIdx dist n threadID =
      ((List.range' threadID n).map fun t => ⟨role, t, dist, deriveSeed seed mult distIdx t⟩,
        threadID + n)
  | 0, _ => rfl
  | n + 1, threadID => by
    rw [spawnGroup, spawnGroup_eq distIdx dist n, List.range'_succ]
    simp only [List.map_cons, Prod.mk.injEq, true_and]
    omega

theorem spawnGroups_snd :
    ∀ (groups : List WeightedDistribution) (distIdx threadID : ℕ),
      (spawnGroups role mult seed groups distIdx threadID).2 = threadID + groupSize groups
  | [], _, _ => rfl
  | dist :: groups, distIdx, threadID => by
    simp only [spawnGroups, spawnGroups_snd groups, spawnGroup_eq, groupSize]
    omega

/-- The outer loop numbers its workers `threadID, threadID + 1, …`. -/
theorem spawnGroups_threads :
    ∀ (groups : List WeightedDistribution) (distIdx threadID : ℕ),
      (spawnGroups role mult seed groups distIdx threadID).1.map (·.thread) =
        List.range' threadID (groupSize groups)
  | [], _, _ => rfl
  | dist :: groups, distIdx, threadID => by
    simp only [spawnGroups, List.map_append, spawnGroups_threads groups, spawnGroup_eq,
      List.map_map, Function.comp_def, List.map_id', groupSize]
    rw [List.range'_append_1, Nat.add_comm]

/-- The outer loop spawns `Count` workers of each group, group by group. -/
theorem spawnGroups_dists :
    ∀ (groups : List WeightedDistribution) (distIdx threadID : ℕ),
      (spawnGroups role mult seed groups distIdx threadID).1.map (fun s => (s.role, s.dist)) =
        groups.flatMap fun d => List.replicate d.count.toNat (role, d)
  | [], _, _ => rfl
  | dist :: groups, distIdx, threadID => by
    simp only [spawnGroups, List.map_append, spawnGroups_dists groups, spawnGroup_eq,
      List.map_map, Function.comp_def, List.flatMap_cons, List.map_const', List.length_range']

/-- The offsets `(distIdx+1)*mult + threadID` the outer loop adds to the base
seed, in spawn order. -/
def seedOffsets : List WeightedDistribution → ℕ → ℕ → List ℕ
  | [], _, _ => []
  | dist :: groups, distIdx, threadID =>
    (List.range' threadID dist.count.toNat).map (fun t => (distIdx + 1) * mult + t) ++
      seedOffsets groups (distIdx + 1) (threadID + dist.count.toNat)

/-- The seeds of the outer loop are the base seed plus its offsets, in `int64`. -/
theorem spawnGroups_seeds : ∀ (groups : List WeightedDistribution) (distIdx threadID : ℕ),
    (spawnGroups role mult seed groups distIdx threadID).1.map (·.seed) =
      (seedOffsets mult groups distIdx threadID).map (seed + BitVec.ofNat 64 ·)
  | [], _, _ => rfl
  | dist :: groups, distIdx, threadID => by
    simp only [spawnGroups, spawnGroup_eq, seedOffsets, List.map_append, List.map_map,
      spawnGroups_seeds groups, Function.comp_def, deriveSeed, BitVec.add_assoc,
      BitVec.ofNat_add_ofNat]

/-- A group's offsets lie between its first, `(distIdx+1)*mult + threadID`,
and the last group's last. -/
theorem seedOffsets_bounds : ∀ (groups : List WeightedDistribution) (distIdx threadID : ℕ),
    ∀ o ∈ seedOffsets mult groups distIdx threadID,
      (distIdx + 1) * mult + threadID ≤ o ∧
        o < (distIdx + groups.length) * mult + threadID + groupSize groups
  | [], _, _ => nofun
  | dist :: groups, distIdx, threadID => by
    intro o ho
    simp only [seedOffsets, List.mem_append, List.mem_map, List.mem_range'_1] at ho
    have hm : (distIdx + 1) * mult ≤ (distIdx + (groups.length + 1)) * mult :=
      Nat.mul_le_mul_right _ (by omega)
    rcases ho with ⟨t, ht, rfl⟩ | ho
    · simp only [groupSize, List.length_cons]
      omega
    · have := seedOffsets_bounds groups (distIdx + 1) _ o ho
      simp only [groupSize, List.length_cons, Nat.add_mul, Nat.one_mul] at this hm ⊢
      omega

/-- The offsets grow strictly, group after group. -/
theorem seedOffsets_pairwise : ∀ (groups : List WeightedDistribution) (distIdx threadID : ℕ),
    (seedOffsets mult groups distIdx threadID).Pairwise (· < ·)
  | [], _, _ => .nil
  | dist :: groups, distIdx, threadID => by
    rw [seedOffsets, List.pairwise_append, List.pairwise_map]
    refine ⟨(List.pairwise_lt_range' _ _).imp (by omega), seedOffsets_pairwise groups _ _,
      fun a ha c hc => ?_⟩
    obtain ⟨t, ht, rfl⟩ := List.mem_map.mp ha
    have := (seedOffsets_bounds mult groups (distIdx + 1) _ c hc).1
    rw [List.mem_range'_1] at ht
    simp only [Nat.add_mul, Nat.one_mul] at this ⊢
    omega

end Loops

/-- `Start`'s two loops: the reader groups with `mult = 1000`, then the writer
groups with `mult = 2000`, one counter through both. -/
def spawns (b : IcebergWeighted) : List Spawn :=
  let r := spawnGroups .reader 1000 b.seed b.readers 0 0
  r.1 ++ (spawnGroups .writer 2000 b.seed b.writers 0 r.2).1

/-- `R`, the workers the reader groups ask for. -/
def readerCount (b : IcebergWeighted) : ℕ := groupSize b.readers

/-- `T`, all the workers. -/
def workerCount (b : IcebergWeighted) : ℕ := groupSize b.readers + groupSize b.writers

theorem spawns_threads (b : IcebergWeighted) :
    (spawns b).map (·.thread) = List.range (workerCount b) := by
  simpa [spawns, spawnGroups_threads, spawnGroups_snd, workerCount, List.range_eq_range',
    Nat.add_comm] using List.range'_append_1 0 (groupSize b.readers) (groupSize b.writers)

theorem spawns_dists (b : IcebergWeighted) :
    (spawns b).map (fun s => (s.role, s.dist)) =
      (b.readers.flatMap fun d => List.replicate d.count.toNat (Role.reader, d)) ++
        b.writers.flatMap fun d => List.replicate d.count.toNat (Role.writer, d) := by
  simp only [spawns, List.map_append, spawnGroups_dists]

theorem length_spawns (b : IcebergWeighted) : (spawns b).length = workerCount b := by
  simpa using congrArg List.length (spawns_threads b)

theorem role_of_mem_spawnGroups {role : Role} {mult : ℕ} {seed : BitVec 64}
    {groups : List WeightedDistribution} {distIdx threadID : ℕ} {s : Spawn}
    (h : s ∈ (spawnGroups role mult seed groups distIdx threadID).1) : s.role = role := by
  have hm := List.mem_map_of_mem (fun s : Spawn => (s.role, s.dist)) h
  rw [spawnGroups_dists] at hm
  simp only [List.mem_flatMap, List.mem_replicate] at hm
  obtain ⟨d, -, -, he⟩ := hm
  exact congrArg Prod.fst he

theorem thread_of_mem_spawnGroups {role : Role} {mult : ℕ} {seed : BitVec 64}
    {groups : List WeightedDistribution} {distIdx threadID : ℕ} {s : Spawn}
    (h : s ∈ (spawnGroups role mult seed groups distIdx threadID).1) :
    threadID ≤ s.thread ∧ s.thread < threadID + groupSize groups := by
  have hm := List.mem_map_of_mem Spawn.thread h
  rw [spawnGroups_threads, List.mem_range'_1] at hm
  exact hm

/-- **`Start` spawns `T = Σ Count` workers, group by group, numbered `0, …, T-1`:**
the thread ids in spawn order are `0, 1, …, T-1`; the `(role, distribution)`
pairs are `Count` copies of each reader group, in order, then of each writer
group; and a worker is a reader exactly when its thread id is below the
readers' total `R`. A negative `Count` spawns none (`Int.toNat`). -/
theorem spawns_threads_groups (b : IcebergWeighted) :
    (spawns b).length = workerCount b ∧
    (spawns b).map (·.thread) = List.range (workerCount b) ∧
    (spawns b).map (fun s => (s.role, s.dist)) =
      (b.readers.flatMap fun d => List.replicate d.count.toNat (Role.reader, d)) ++
        (b.writers.flatMap fun d => List.replicate d.count.toNat (Role.writer, d)) ∧
    ∀ s ∈ spawns b, (s.role = .reader ↔ s.thread < readerCount b) := by
  refine ⟨length_spawns b, spawns_threads b, spawns_dists b, fun s hs => ?_⟩
  rcases List.mem_append.mp hs with h | h
  · have := thread_of_mem_spawnGroups h
    simp only [role_of_mem_spawnGroups h, readerCount, true_iff]
    omega
  · have := thread_of_mem_spawnGroups h
    rw [spawnGroups_snd] at this
    simp only [role_of_mem_spawnGroups h, readerCount, reduceCtorEq, false_iff, not_lt]
    omega

/-! ### The derived seeds -/

theorem spawns_seeds (b : IcebergWeighted) :
    (spawns b).map (·.seed) =
      (seedOffsets 1000 b.readers 0 0 ++ seedOffsets 2000 b.writers 0 (readerCount b)).map
        (b.seed + BitVec.ofNat 64 ·) := by
  simp only [spawns, List.map_append, spawnGroups_seeds, spawnGroups_snd, readerCount, Nat.zero_add]

/-- Distinct offsets below `2^64` give distinct `int64` seeds. -/
theorem nodup_map_seed (seed : BitVec 64) {l : List ℕ} (h : l.Pairwise (· < ·))
    (hl : ∀ o ∈ l, o < 2 ^ 64) : (l.map (seed + BitVec.ofNat 64 ·)).Nodup := by
  rw [List.Nodup, List.pairwise_map]
  refine h.imp_of_mem fun {a c} ha hc hlt heq => ?_
  have := congrArg BitVec.toNat heq
  have ha' := hl a ha
  have hc' := hl c hc
  simp only [BitVec.toNat_add, BitVec.toNat_ofNat] at this
  omega

/-- **With at most two reader groups, the derived seeds are pairwise
distinct** (as long as no offset wraps around `int64`): every reader offset,
below `2*1000 + R`, is then below every writer offset, at least `2000 + R`.
With a third reader group they can meet (`spawns_seedClash`). -/
theorem spawns_seeds_nodup (b : IcebergWeighted) (hr : b.readers.length ≤ 2)
    (hb : 2000 * (b.writers.length + 1) + workerCount b ≤ 2 ^ 64) :
    ((spawns b).map (·.seed)).Nodup := by
  have hR := seedOffsets_bounds 1000 b.readers 0 0
  have hW := seedOffsets_bounds 2000 b.writers 0 (readerCount b)
  simp only [workerCount, readerCount, Nat.zero_add] at hR hW hb
  rw [spawns_seeds]
  refine nodup_map_seed _ (List.pairwise_append.mpr ⟨seedOffsets_pairwise .., seedOffsets_pairwise ..,
    fun a ha c hc => ?_⟩) fun o ho => ?_
  · have := hR a ha; have := hW c hc; omega
  · rcases List.mem_append.mp ho with ho | ho
    · have := hR o ho; omega
    · have := hW o ho; omega

example :
    (spawns ⟨⟨0⟩, ⟨2, 3, 5, "s3://benchmark", "benchmark_catalog"⟩, [⟨2, 0, 0⟩], [⟨1, 0, 0⟩], 0,
      []⟩).map (fun sp => (sp.thread, sp.seed)) = [(0, 1000), (1, 1001), (2, 2002)] := by decide

/-- Three reader groups, the first two empty and the third of one worker, and
one writer group of 1001 workers, from seed 0. -/
def seedClash : IcebergWeighted where
  common := ⟨0⟩
  treeConfig := ⟨2, 3, 5, "s3://benchmark", "benchmark_catalog"⟩
  readers := [⟨0, 0, 0⟩, ⟨0, 0, 0⟩, ⟨1, 0, 0⟩]
  writers := [⟨1001, 0, 0⟩]
  seed := 0
  tables := []

/-- At `seedClash`, the reader with thread id 0 and the writer with thread id
1000 both get seed 3000: `0 + 3*1000 + 0 = 0 + 1*2000 + 1000`. -/
theorem spawns_seedClash :
    (spawns seedClash)[0]? = some ⟨.reader, 0, ⟨1, 0, 0⟩, 3000⟩ ∧
      (spawns seedClash)[1000]? = some ⟨.writer, 1000, ⟨1001, 0, 0⟩, 3000⟩ := by
  have hR : spawnGroups .reader 1000 seedClash.seed seedClash.readers 0 0 =
      ([⟨.reader, 0, ⟨1, 0, 0⟩, 3000⟩], 1) := rfl
  have hW : (spawnGroups .writer 2000 seedClash.seed seedClash.writers 0 1).1 =
      (List.range' 1 1001).map fun t => ⟨.writer, t, ⟨1001, 0, 0⟩, deriveSeed 0 2000 0 t⟩ := by
    simp only [seedClash, spawnGroups, spawnGroup_eq, List.append_nil]; rfl
  rw [spawns, hR]
  dsimp only
  rw [hW, List.singleton_append, List.getElem?_cons_succ, List.getElem?_map,
    List.getElem?_range' _ _ (by decide)]
  exact ⟨List.getElem?_cons_zero, rfl⟩

end Warp
