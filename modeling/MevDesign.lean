import MevDesign.ForkDb.Types
import MevDesign.ForkDb.Handler
import MevDesign.ForkDb.Run
import MevDesign.Proofs.ForkDb.Steps
import MevDesign.Proofs.ForkDb.Coalescing
import MevDesign.Proofs.ForkDb.Replies
import MevDesign.ForkDb.Futures
import MevDesign.Proofs.ForkDb.Transparency
import MevDesign.Proofs.ForkDb.Updates
import MevDesign.ForkDb.Poll
import MevDesign.Proofs.ForkDb.Dispatch
import MevDesign.Proofs.ForkDb.PendingPass
import MevDesign.Proofs.ForkDb.Panics
import MevDesign.Proofs.ForkDb.Archive
import MevDesign.LstMev.Optimize
import MevDesign.Proofs.LstMev.Search
import MevDesign.Proofs.LstMev.Termination
import MevDesign.Proofs.LstMev.Report
import MevDesign.Shared.Utils
import MevDesign.Proofs.Shared.BlockRange
import MevDesign.Proofs.ForkDb.Progress
import MevDesign.Proofs.ForkDb.Fetches
import MevDesign.MempoolMonitor.Abi
import MevDesign.MempoolMonitor.LoadPools
import MevDesign.Proofs.MempoolMonitor.LoadPools
import MevDesign.Proofs.MempoolMonitor.Sync
import MevDesign.MempoolMonitor.Main
import MevDesign.Proofs.MempoolMonitor.Trace
