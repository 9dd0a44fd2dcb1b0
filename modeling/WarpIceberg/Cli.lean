/-
# The `iceberg-weighted` command line

`checkIcebergWeightedSyntax` stops the program (`console.Fatal`) at the first
check that fails: no arguments, a catalog URI and both keys, non-negative
`--readers` and `--writers`, not both zero, and each mean neither below 0 nor
above 1; then the analysis and benchmark flags are checked.
`mainIcebergWeighted` builds one reader group and one writer group from the
flags, as they are.

* `checkIcebergWeightedSyntax_eq_ok`: what an accepted command line is.
* `checkIcebergWeightedSyntax_variance`: the variance flags are never read by
  the checks: every value is accepted alike, negative, infinite and NaN ones
  too.
* `mainIcebergWeighted_dists`: the distributions of an accepted command line
  have counts `≥ 0`, means in `[0, 1]` unless NaN, which the mean checks let
  through, and variances as given, unchecked.
* `mainIcebergWeighted_spawns`, `mainIcebergWeighted_autoTerm`: `Start` on the
  command's benchmark spawns `--readers` readers and `--writers` writers, and
  the auto-terminator watches `OpTableGet`, which only readers record.
* `mainIcebergWeighted_seeds_nodup`: the command's workers get pairwise
  distinct seeds.

Key definitions: `WeightedFlags`, `icebergWeightedDefaults`,
`checkIcebergWeightedSyntax`, `mainIcebergWeighted`.
-/
import WarpIceberg.Guarantees

namespace Warp

/-- The values `mainIcebergWeighted` and `checkIcebergWeightedSyntax` read from
the command's own flags, and its number of arguments. -/
structure WeightedFlags where
  nArg : ℕ
  catalogUri : String
  icebergAccessKey : String
  icebergSecretKey : String
  catalogName : String
  namespaceWidth : ℤ
  namespaceDepth : ℤ
  tablesPerNs : ℤ
  baseLocation : String
  seed : BitVec 64
  readers : ℤ
  readerMean : F64
  readerVariance : F64
  writers : ℤ
  writerMean : F64
  writerVariance : F64
  deriving DecidableEq, Repr

/-- The defaults of `icebergWeightedFlags`, with no arguments: `0.3`, `0.7` and
`0.0278` are the `float64` values `5404319552844595·2^-54`,
`3152519739159347·2^-52` and `4006402228508793·2^-57`. -/
def icebergWeightedDefaults : WeightedFlags where
  nArg := 0
  catalogUri := "http://127.0.0.1:9001/_iceberg"
  icebergAccessKey := ""
  icebergSecretKey := ""
  catalogName := "benchmark_catalog"
  namespaceWidth := 2
  namespaceDepth := 3
  tablesPerNs := 5
  baseLocation := "s3://benchmark"
  seed := 42
  readers := 8
  readerMean := .fin 5404319552844595 (-54)
  readerVariance := .fin 4006402228508793 (-57)
  writers := 2
  writerMean := .fin 3152519739159347 (-52)
  writerVariance := .fin 4006402228508793 (-57)

/-- `if bad { console.Fatal(msg) }`. -/
def fatalIf (bad : Prop) [Decidable bad] (msg : String) : Except String Unit :=
  if bad then .error msg else .ok ()

theorem fatalIf_bind_eq_ok {α : Type} (bad : Prop) [Decidable bad] (msg : String)
    (k : Unit → Except String α) (x : α) : (fatalIf bad msg >>= k) = .ok x ↔ ¬ bad ∧ k () = .ok x := by
  unfold fatalIf; split <;> simp_all [bind, Except.bind]

theorem fatalIf_eq_ok (bad : Prop) [Decidable bad] (msg : String) :
    fatalIf bad msg = .ok () ↔ ¬ bad := by
  unfold fatalIf; split <;> simp_all

theorem bind_eq_ok {α : Type} (a : Except String Unit) (k : Unit → Except String α) (x : α) :
    (a >>= k) = .ok x ↔ a = .ok () ∧ k () = .ok x := by
  cases a <;> simp [bind, Except.bind]

/-- The checks every `iceberg-*` command starts with
(`checkIcebergWeightedSyntax`, `checkIcebergReadSyntax`,
`checkIcebergMixedSyntax`, `checkIcebergCommitsSyntax`): no arguments, a
catalog URI and both keys. -/
def checkIcebergConnection (nArg : ℕ) (catalogUri accessKey secretKey : String) :
    Except String Unit := do
  fatalIf (nArg > 0) "Command takes no arguments"
  fatalIf (catalogUri = "") "--catalog-uri is required"
  fatalIf (accessKey = "") "--iceberg-access-key is required"
  fatalIf (secretKey = "") "--iceberg-secret-key is required"

/-- **What the shared checks accept.** -/
theorem checkIcebergConnection_eq_ok (nArg : ℕ) (catalogUri accessKey secretKey : String) :
    checkIcebergConnection nArg catalogUri accessKey secretKey = .ok () ↔
      nArg = 0 ∧ catalogUri ≠ "" ∧ accessKey ≠ "" ∧ secretKey ≠ "" := by
  simp only [checkIcebergConnection, fatalIf_bind_eq_ok, fatalIf_eq_ok, gt_iff_lt, not_lt,
    Nat.le_zero, ne_eq]

/-- `checkIcebergWeightedSyntax`: the message of the first `console.Fatal`, or
nil. `checkAnalyze` and `checkBenchmark` check the analysis and benchmark
flags, which are not this command's own: their verdicts are parameters. -/
def checkIcebergWeightedSyntax (checkAnalyze checkBenchmark : Except String Unit)
    (ctx : WeightedFlags) : Except String Unit := do
  checkIcebergConnection ctx.nArg ctx.catalogUri ctx.icebergAccessKey ctx.icebergSecretKey
  fatalIf (ctx.readers < 0) "--readers must be >= 0"
  fatalIf (ctx.writers < 0) "--writers must be >= 0"
  fatalIf (ctx.readers = 0 ∧ ctx.writers = 0) "at least one reader or writer is required"
  let mean := ctx.readerMean
  fatalIf (mean < 0 ∨ mean > 1) "--reader-mean must be between 0.0 and 1.0"
  let mean := ctx.writerMean
  fatalIf (mean < 0 ∨ mean > 1) "--writer-mean must be between 0.0 and 1.0"
  checkAnalyze
  checkBenchmark

/-- `mainIcebergWeighted` up to `runBench`: check the command line, then build
the benchmark. `common` is what `getIcebergCommon` and `runBench` set. -/
def mainIcebergWeighted (checkAnalyze checkBenchmark : Except String Unit) (common : Common)
    (ctx : WeightedFlags) : Except String IcebergWeighted := do
  checkIcebergWeightedSyntax checkAnalyze checkBenchmark ctx
  pure {
    common := common
    treeConfig := ⟨ctx.namespaceWidth, ctx.namespaceDepth, ctx.tablesPerNs, ctx.baseLocation,
      ctx.catalogName⟩
    readers := [⟨ctx.readers, ctx.readerMean, ctx.readerVariance⟩]
    writers := [⟨ctx.writers, ctx.writerMean, ctx.writerVariance⟩]
    seed := ctx.seed
    tables := [] }

section Checks

variable (checkAnalyze checkBenchmark : Except String Unit)

/-- **What the checks accept.** -/
theorem checkIcebergWeightedSyntax_eq_ok (ctx : WeightedFlags) :
    checkIcebergWeightedSyntax checkAnalyze checkBenchmark ctx = .ok () ↔
      ctx.nArg = 0 ∧ ctx.catalogUri ≠ "" ∧ ctx.icebergAccessKey ≠ "" ∧ ctx.icebergSecretKey ≠ "" ∧
      0 ≤ ctx.readers ∧ 0 ≤ ctx.writers ∧ ¬ (ctx.readers = 0 ∧ ctx.writers = 0) ∧
      ¬ ctx.readerMean < 0 ∧ ¬ 1 < ctx.readerMean ∧ ¬ ctx.writerMean < 0 ∧ ¬ 1 < ctx.writerMean ∧
      checkAnalyze = .ok () ∧ checkBenchmark = .ok () := by
  simp only [checkIcebergWeightedSyntax, bind_eq_ok, checkIcebergConnection_eq_ok, fatalIf_eq_ok,
    gt_iff_lt, not_or, not_lt, ne_eq, and_assoc]

example : checkIcebergWeightedSyntax (.ok ()) (.ok ())
    { icebergWeightedDefaults with
      icebergAccessKey := "k", icebergSecretKey := "k", readerMean := .fin 3 (-1) } =
    .error "--reader-mean must be between 0.0 and 1.0" := rfl

-- `mean < 0.0 || mean > 1.0` is false for NaN: a NaN mean passes the check.
example : checkIcebergWeightedSyntax (.ok ()) (.ok ())
    { icebergWeightedDefaults with
      icebergAccessKey := "k", icebergSecretKey := "k", readerMean := .nan } = .ok () := rfl

/-- The defaults with both keys given. -/
def withKeys : WeightedFlags :=
  { icebergWeightedDefaults with icebergAccessKey := "minioadmin", icebergSecretKey := "minioadmin" }

/-- The defaults fail for want of the keys alone: without them the checks stop
at the access key, with them every check of the command's own flags passes. -/
theorem icebergWeightedDefaults_check :
    checkIcebergWeightedSyntax checkAnalyze checkBenchmark icebergWeightedDefaults =
        .error "--iceberg-access-key is required" ∧
      checkIcebergWeightedSyntax checkAnalyze checkBenchmark withKeys =
        (checkAnalyze >>= fun _ => checkBenchmark) :=
  ⟨rfl, rfl⟩

/-- The checks never read the variance flags. -/
theorem checkIcebergWeightedSyntax_variance (ctx : WeightedFlags) (v v' : F64) :
    checkIcebergWeightedSyntax checkAnalyze checkBenchmark
        { ctx with readerVariance := v, writerVariance := v' } =
      checkIcebergWeightedSyntax checkAnalyze checkBenchmark ctx := rfl

theorem mainIcebergWeighted_eq_ok {common : Common} {ctx : WeightedFlags} {b : IcebergWeighted}
    (h : mainIcebergWeighted checkAnalyze checkBenchmark common ctx = .ok b) :
    checkIcebergWeightedSyntax checkAnalyze checkBenchmark ctx = .ok () ∧ b.common = common ∧
      b.readers = [⟨ctx.readers, ctx.readerMean, ctx.readerVariance⟩] ∧
      b.writers = [⟨ctx.writers, ctx.writerMean, ctx.writerVariance⟩] := by
  unfold mainIcebergWeighted at h
  cases hc : checkIcebergWeightedSyntax checkAnalyze checkBenchmark ctx with
  | error e => rw [hc] at h; cases h
  | ok u => rw [hc] at h; cases h; exact ⟨rfl, rfl, rfl, rfl⟩

/-- **The distributions of an accepted command line.** Both counts are
`≥ 0`, and each mean that is a number is in `[0, 1]` (the checks
`mean < 0.0 || mean > 1.0` let NaN through). The variances are not checked:
with any values of the two variance flags, negative, infinite or NaN, the
command line is accepted alike and the distributions carry those values; and a
variance that is not a finite number `≥ 0` makes every `sampleTableIndex` call
reject all its draws and return 0. -/
theorem mainIcebergWeighted_dists {common : Common} {ctx : WeightedFlags} {b : IcebergWeighted}
    (h : mainIcebergWeighted checkAnalyze checkBenchmark common ctx = .ok b) :
    (∀ d ∈ b.readers ++ b.writers, 0 ≤ d.count ∧ (d.mean ≠ .nan → 0 ≤ d.mean ∧ d.mean ≤ 1)) ∧
    (∀ v v' : F64, ∃ b', mainIcebergWeighted checkAnalyze checkBenchmark common
        { ctx with readerVariance := v, writerVariance := v' } = .ok b' ∧
      b'.readers.map (·.variance) = [v] ∧ b'.writers.map (·.variance) = [v']) ∧
    (∀ {σ : Type} (R : Rand σ) (cvt : F64 → ℤ) (rng : σ) (d : WeightedDistribution)
      (numTables : ℤ), d ∈ b.readers ++ b.writers → ¬ (d.variance.IsFinite ∧ 0 ≤ d.variance) →
      0 < numTables → (sampleTableIndex R cvt rng d numTables).1 = 0) := by
  obtain ⟨hc, -, hr, hw⟩ := mainIcebergWeighted_eq_ok checkAnalyze checkBenchmark h
  obtain ⟨-, -, -, -, h0r, h0w, -, hr0, hr1, hw0, hw1, -⟩ :=
    (checkIcebergWeightedSyntax_eq_ok checkAnalyze checkBenchmark ctx).mp hc
  refine ⟨fun d hd => ?_, fun v v' => ?_,
    fun R cvt rng d _ _ hv hN => sampleTableIndex_fallback R cvt rng hv hN⟩
  · rw [hr, hw] at hd
    have key : ∀ {m : F64}, ¬ m < 0 → ¬ 1 < m → m ≠ .nan → 0 ≤ m ∧ m ≤ 1 := fun h0 h1 hn =>
      ⟨F64.le_of_not_lt hn (by decide) h0, F64.le_of_not_lt (by decide) hn h1⟩
    rcases List.mem_append.mp hd with hd | hd <;> rw [List.mem_singleton] at hd <;> subst hd
    · exact ⟨h0r, key hr0 hr1⟩
    · exact ⟨h0w, key hw0 hw1⟩
  · refine ⟨⟨common, ⟨ctx.namespaceWidth, ctx.namespaceDepth, ctx.tablesPerNs, ctx.baseLocation,
      ctx.catalogName⟩, [⟨ctx.readers, ctx.readerMean, v⟩], [⟨ctx.writers, ctx.writerMean, v'⟩],
      ctx.seed, []⟩, ?_, rfl, rfl⟩
    rw [mainIcebergWeighted, checkIcebergWeightedSyntax_variance, hc]
    rfl

theorem mainIcebergWeighted_dists_withKeys :
    ∃ b, mainIcebergWeighted (.ok ()) (.ok ()) ⟨0⟩ withKeys = .ok b ∧
    (∀ d ∈ b.readers ++ b.writers, 0 ≤ d.count ∧ (d.mean ≠ .nan → 0 ≤ d.mean ∧ d.mean ≤ 1)) ∧
    (∀ v v' : F64, ∃ b', mainIcebergWeighted (.ok ()) (.ok ()) ⟨0⟩
        { withKeys with readerVariance := v, writerVariance := v' } = .ok b' ∧
      b'.readers.map (·.variance) = [v] ∧ b'.writers.map (·.variance) = [v']) ∧
    (∀ {σ : Type} (R : Rand σ) (cvt : F64 → ℤ) (rng : σ) (d : WeightedDistribution)
      (numTables : ℤ), d ∈ b.readers ++ b.writers → ¬ (d.variance.IsFinite ∧ 0 ≤ d.variance) →
      0 < numTables → (sampleTableIndex R cvt rng d numTables).1 = 0) :=
  ⟨_, rfl, mainIcebergWeighted_dists _ _ rfl⟩

/-- The spawns of an accepted command line: `--readers` readers, then
`--writers` writers. -/
theorem mainIcebergWeighted_spawns {common : Common} {ctx : WeightedFlags} {b : IcebergWeighted}
    (h : mainIcebergWeighted checkAnalyze checkBenchmark common ctx = .ok b) :
    (spawns b).map (·.role) =
      List.replicate ctx.readers.toNat .reader ++ List.replicate ctx.writers.toNat .writer := by
  obtain ⟨-, -, hr, hw⟩ := mainIcebergWeighted_eq_ok checkAnalyze checkBenchmark h
  have := congrArg (List.map Prod.fst) (spawns_dists b)
  simpa [hr, hw, Function.comp_def, List.map_replicate] using this

/-- **The command line never gives two workers one seed.** It builds one reader
group and one writer group, so every reader offset `1000 + t` stays below every
writer offset `2000 + t'`, as long as the spawn counter `threadID`, a Go `int`,
does not overflow. -/
theorem mainIcebergWeighted_seeds_nodup {common : Common} {ctx : WeightedFlags}
    {b : IcebergWeighted} (h : mainIcebergWeighted checkAnalyze checkBenchmark common ctx = .ok b)
    (hn : ctx.readers + ctx.writers < 2 ^ 63) : ((spawns b).map (·.seed)).Nodup := by
  obtain ⟨hc, -, hr, hw⟩ := mainIcebergWeighted_eq_ok checkAnalyze checkBenchmark h
  obtain ⟨-, -, -, -, hr0, hw0, -⟩ :=
    (checkIcebergWeightedSyntax_eq_ok checkAnalyze checkBenchmark ctx).mp hc
  refine spawns_seeds_nodup b (by simp [hr]) ?_
  simp only [workerCount, groupSize, hr, hw, List.length_singleton]
  omega

theorem mainIcebergWeighted_seeds_nodup_withKeys :
    ∃ b, mainIcebergWeighted (.ok ()) (.ok ()) ⟨0⟩ withKeys = .ok b ∧
      ((spawns b).map (·.seed)).Nodup :=
  ⟨_, rfl, @mainIcebergWeighted_seeds_nodup (.ok ()) (.ok ()) ⟨0⟩ withKeys _ rfl (by decide)⟩

theorem opType_eq_get (role : Role) : role.body.opType = .opTableGet ↔ role = .reader := by
  cases role <;> decide

/-- A spawned worker records `OpTableGet` operations exactly when `--readers`
is positive. -/
theorem mainIcebergWeighted_getters {common : Common} {ctx : WeightedFlags} {b : IcebergWeighted}
    (h : mainIcebergWeighted checkAnalyze checkBenchmark common ctx = .ok b) :
    (∃ sp ∈ spawns b, sp.role.body.opType = .opTableGet) ↔ 0 < ctx.readers := by
  have hm := mainIcebergWeighted_spawns checkAnalyze checkBenchmark h
  have hmem : (∃ sp ∈ spawns b, sp.role = .reader) ↔ Role.reader ∈ (spawns b).map (·.role) :=
    List.mem_map.symm
  simp [opType_eq_get, hmem, hm, List.mem_replicate]

/-- In a run on a benchmark `Prepare` loaded, an `OpTableGet` operation in the
channel was sent by a spawned reader. -/
theorem sent_get_of_reader {σ : Type} (R : Rand σ) (cvt : F64 → ℤ) {tree : TreeGen}
    {getTable : String → List String → String → Option String} {b : IcebergWeighted}
    {r : PrepareResult} (hp : prepare tree getTable b = some r) (hok : r.err = none) {cap : ℕ}
    {s : Sys σ} (hs : Reach R cvt (start R (Ready.ofPrepare hp hok) cap) s) {p : ℕ × Operation}
    (hmem : p ∈ s.sent) (hget : p.2.opType = .opTableGet) :
    ∃ sp ∈ spawns b, sp.role.body.opType = .opTableGet := by
  obtain ⟨sp, hsp, hop⟩ := (Inv.reach hs).sent_opType R cvt hmem
  have hb : (Ready.ofPrepare hp hok).bench = { b with tables := tree.allTables b.treeConfig } :=
    prepare_bench tree getTable hp
  rw [hb] at hsp
  exact ⟨sp, hsp, hop ▸ hget⟩

/-- **What `Start` monitors, and who feeds it.** For an accepted command line
with `AutoTermDur > 0`, `Start` hands `OpTableGet` to `AutoTerm`; a spawned
worker records `OpTableGet` operations exactly when `--readers` is positive;
and in every run, on whatever table list `Prepare` loaded, an `OpTableGet`
operation in the channel means `--readers` is positive. -/
theorem mainIcebergWeighted_autoTerm {common : Common} {ctx : WeightedFlags} {b : IcebergWeighted}
    (h : mainIcebergWeighted checkAnalyze checkBenchmark common ctx = .ok b)
    (hd : 0 < b.common.autoTermDur) :
    autoTermOp b = some .opTableGet ∧
    ((∃ sp ∈ spawns b, sp.role.body.opType = .opTableGet) ↔ 0 < ctx.readers) ∧
    ∀ {σ : Type} (R : Rand σ) (cvt : F64 → ℤ) (tree : TreeGen)
      (getTable : String → List String → String → Option String) (r : PrepareResult)
      (hp : prepare tree getTable b = some r) (hok : r.err = none) (cap : ℕ) (s : Sys σ),
      Reach R cvt (start R (Ready.ofPrepare hp hok) cap) s →
      ∀ p ∈ s.sent, p.2.opType = .opTableGet → 0 < ctx.readers := by
  refine ⟨if_pos hd, mainIcebergWeighted_getters checkAnalyze checkBenchmark h,
    fun R cvt tree getTable r hp hok cap s hs p hmem hget => ?_⟩
  exact (mainIcebergWeighted_getters checkAnalyze checkBenchmark h).mp
    (sent_get_of_reader R cvt hp hok hs hmem hget)

theorem mainIcebergWeighted_autoTerm_withKeys :
    ∃ b, mainIcebergWeighted (.ok ()) (.ok ()) ⟨1⟩ withKeys = .ok b ∧ 0 < b.common.autoTermDur ∧
    autoTermOp b = some .opTableGet ∧
    ((∃ sp ∈ spawns b, sp.role.body.opType = .opTableGet) ↔ 0 < withKeys.readers) ∧
    ∀ {σ : Type} (R : Rand σ) (cvt : F64 → ℤ) (tree : TreeGen)
      (getTable : String → List String → String → Option String) (r : PrepareResult)
      (hp : prepare tree getTable b = some r) (hok : r.err = none) (cap : ℕ) (s : Sys σ),
      Reach R cvt (start R (Ready.ofPrepare hp hok) cap) s →
      ∀ p ∈ s.sent, p.2.opType = .opTableGet → 0 < withKeys.readers :=
  ⟨_, rfl, by decide, @mainIcebergWeighted_autoTerm (.ok ()) (.ok ()) ⟨1⟩ withKeys _ rfl (by decide)⟩

end Checks

/-! ### Two accepted command lines the spec's rules do not foresee -/

/-- The defaults, with the two keys given and `--reader-variance -1`. -/
def negativeVariance : WeightedFlags := { withKeys with readerVariance := -1 }

/-- An accepted command line whose reader distribution has variance `-1`. -/
theorem mainIcebergWeighted_negativeVariance :
    ¬ ∀ (checkAnalyze checkBenchmark : Except String Unit) (common : Common) (ctx : WeightedFlags)
      (b : IcebergWeighted), mainIcebergWeighted checkAnalyze checkBenchmark common ctx = .ok b →
      ∀ d ∈ b.readers ++ b.writers,
        0 ≤ d.count ∧ 0 ≤ d.mean ∧ d.mean ≤ 1 ∧ d.variance.IsFinite ∧ 0 ≤ d.variance := by
  intro h
  have := h (.ok ()) (.ok ()) ⟨0⟩ negativeVariance _ rfl _
    (List.mem_append_left _ (List.mem_singleton_self _))
  exact absurd this.2.2.2.2 (by decide)

/-- The defaults, with the two keys given and `--readers 0`: writers only. -/
def writersOnly : WeightedFlags := { withKeys with readers := 0 }

/-- A writers-only command line with auto-termination: `Start` monitors
`OpTableGet`, which no spawned worker records and no run ever sends. -/
theorem writersOnly_autoTerm :
    ∃ b, mainIcebergWeighted (.ok ()) (.ok ()) ⟨1⟩ writersOnly = .ok b ∧ 0 < b.common.autoTermDur ∧
      autoTermOp b = some .opTableGet ∧ (¬ ∃ sp ∈ spawns b, sp.role.body.opType = .opTableGet) ∧
      ∀ {σ : Type} (R : Rand σ) (cvt : F64 → ℤ) (tree : TreeGen)
        (getTable : String → List String → String → Option String) (r : PrepareResult)
        (hp : prepare tree getTable b = some r) (hok : r.err = none) (cap : ℕ) (s : Sys σ),
        Reach R cvt (start R (Ready.ofPrepare hp hok) cap) s → ∀ p ∈ s.sent, p.2.opType ≠ .opTableGet := by
  obtain ⟨b, hb⟩ : ∃ b, mainIcebergWeighted (.ok ()) (.ok ()) ⟨1⟩ writersOnly = .ok b := ⟨_, rfl⟩
  have hd : 0 < b.common.autoTermDur := by
    rw [(mainIcebergWeighted_eq_ok _ _ hb).2.1]; decide
  have hnone : ¬ ∃ sp ∈ spawns b, sp.role.body.opType = .opTableGet :=
    fun hex => absurd ((mainIcebergWeighted_getters _ _ hb).mp hex) (by decide)
  exact ⟨b, hb, hd, if_pos hd, hnone,
    fun R cvt _ _ _ hp hok _ _ hs p hmem hget => hnone (sent_get_of_reader R cvt hp hok hs hmem hget)⟩

end Warp
