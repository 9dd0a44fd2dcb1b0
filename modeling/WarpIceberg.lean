import WarpIceberg.Float64
import WarpIceberg.Sampler
import WarpIceberg.Bench
import WarpIceberg.Worker
import WarpIceberg.Run
import WarpIceberg.Invariant
import WarpIceberg.Guarantees
import WarpIceberg.Cli
import WarpIceberg.Stop
import WarpIceberg.Commands
import WarpIceberg.Progress
