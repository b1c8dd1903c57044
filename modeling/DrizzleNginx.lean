import DrizzleNginx.Model.ThreadId
import DrizzleNginx.Proofs.Blocks
import DrizzleNginx.Proofs.Client
import DrizzleNginx.Proofs.ClientCheck
import DrizzleNginx.Proofs.Commands
import DrizzleNginx.Proofs.Emission
import DrizzleNginx.Proofs.Endings
import DrizzleNginx.Proofs.Errors
import DrizzleNginx.Proofs.Footprint
import DrizzleNginx.Proofs.HeaderOnly
import DrizzleNginx.Proofs.Headers
import DrizzleNginx.Proofs.Inherit
import DrizzleNginx.Proofs.Isolation
import DrizzleNginx.Proofs.Lifetime
import DrizzleNginx.Proofs.Progress
import DrizzleNginx.Proofs.Queries
import DrizzleNginx.Proofs.Reasons
import DrizzleNginx.Proofs.ReceiveTime
import DrizzleNginx.Proofs.Shared
import DrizzleNginx.Proofs.Stack
import DrizzleNginx.Proofs.Status
import DrizzleNginx.Proofs.ThreadId
import DrizzleNginx.Proofs.Timers
import DrizzleNginx.Proofs.Wired
import DrizzleNginx.Rds.RoundTrip
