import Aggregator.Api.Listing
import Aggregator.Collectors.DataTypes
import Aggregator.Collectors.Derived
import Aggregator.Collectors.Health
import Aggregator.Collectors.Liquidation
import Aggregator.Collectors.MultiWriter
import Aggregator.Collectors.Periods
import Aggregator.Exchanges.EventKeys
import Aggregator.Exchanges.KlinePrices
import Aggregator.Exchanges.Request
import Aggregator.Hardening.Floats
import Aggregator.Ratelimit.Allocator
import Aggregator.Ratelimit.Delay
import Aggregator.Ratelimit.HalfOpen
import Aggregator.Ratelimit.Wait
import Aggregator.Realtime.Reconnect
import Aggregator.Realtime.RedisStore
import Aggregator.Realtime.Snapshot
import Aggregator.Repositories.Enrich
import Aggregator.Repositories.Levels
import Aggregator.Repositories.MarketPoint
import Aggregator.Repositories.Quality
import Aggregator.Repositories.StaleGaps
import Aggregator.Repositories.Volatility
import Aggregator.Retention.Deadline
import Aggregator.Retention.Grouping
import Aggregator.Retention.Minimum
import Aggregator.Retention.Rollup
import Aggregator.Retention.Tiling
import Aggregator.Scheduler.Afresh
import Aggregator.Scheduler.Attempts
import Aggregator.Scheduler.BackfillPlan
import Aggregator.Scheduler.Backoff
import Aggregator.Scheduler.Cooldown
import Aggregator.Scheduler.Coverage
import Aggregator.Scheduler.Idempotency
import Aggregator.Scheduler.MarketTypes
import Aggregator.Scheduler.Refinement
import Aggregator.Scheduler.Tiers
