import CspIntercept.Rule.Epoch
import CspIntercept.Rule.Trailer
import CspIntercept.Rule.Calibration
import CspIntercept.Inject.Replay
import CspIntercept.Inject.Bridge
import CspIntercept.Proxy.Interchange
import CspIntercept.Meas.SeqLoss
import CspIntercept.Apm.WindowDeltas
import CspIntercept.Svu.Rerequest
import CspIntercept.Svu.WriteOut
import CspIntercept.Svu.Manifest
import CspIntercept.Svu.Codec
import CspIntercept.Svu.Announce
import CspIntercept.Svu.Answer
import CspIntercept.Meas.Conservation
import CspIntercept.Apm.Stream
import CspIntercept.Apm.RttDirection
import CspIntercept.Apm.DataLoss
import CspIntercept.Proxy.Malformed
import CspIntercept.Oracle.FragmentIndex
import CspIntercept.Rule.SeedPermutation
import CspIntercept.Inject.GeParams
import CspIntercept.Meas.RttHistory
import CspIntercept.Svu.Isolation
import CspIntercept.Apm.Verify
import CspIntercept.Scripts.Verdicts
import CspIntercept.Svu.Blocks
import CspIntercept.Lib.Gaps
import CspIntercept.Scripts.Blackouts
import CspIntercept.Scripts.Passes
import CspIntercept.Cspx.Explain
import CspIntercept.Scripts.DiffRanges
import CspIntercept.Oracle.Join
import CspIntercept.Satguard.Audit
import CspIntercept.Satguard.Soundness
import CspIntercept.Svu.Push
import CspIntercept.Oracle.Bench
import CspIntercept.Oracle.InjectedLoss
import CspIntercept.Proxy.Delivery
import CspIntercept.Proxy.DecidedFrames
import CspIntercept.Apm.Sessions
import CspIntercept.Oracle.TwoOracle
import CspIntercept.Scripts.Rounded
import CspIntercept.Scripts.Report
