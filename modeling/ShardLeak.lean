import ShardLeak.Accounts
import ShardLeak.Api.Tenants
import ShardLeak.Configs
import ShardLeak.Consistency
import ShardLeak.Dashboards
import ShardLeak.Evictions
import ShardLeak.Failures
import ShardLeak.FixedWindow.Boundary
import ShardLeak.FixedWindow.Exact
import ShardLeak.Frontend.KeysPage
import ShardLeak.Hashes
import ShardLeak.Inputs
import ShardLeak.Insertion
import ShardLeak.Lifecycle
import ShardLeak.Paths
import ShardLeak.Provenance
import ShardLeak.Raising
import ShardLeak.Ranges
import ShardLeak.RateLimit.Isolation
import ShardLeak.RateLimit.Reachable
import ShardLeak.Refusals
import ShardLeak.Reset
import ShardLeak.Sessions
import ShardLeak.Simulator.Peeks
import ShardLeak.Simulator.Refinement
import ShardLeak.Simulator.Reset
import ShardLeak.Stored
import ShardLeak.TokenBucket.Countdown
import ShardLeak.TokenBucket.Retry
import ShardLeak.TokenBucket.Span
import ShardLeak.Waiting
