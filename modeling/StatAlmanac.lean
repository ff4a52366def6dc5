import StatAlmanac.Api.Routes
import StatAlmanac.Entity.Json
import StatAlmanac.Fetch.Session
import StatAlmanac.Setup
import StatAlmanac.World.Crowd
import StatAlmanac.Proofs.Json.Tokens
import StatAlmanac.Proofs.Json.Trees
import StatAlmanac.Proofs.Table
import StatAlmanac.Proofs.Time.Calendar
import StatAlmanac.Proofs.Time.StampText
import StatAlmanac.Proofs.Cache.Record
import StatAlmanac.Proofs.Disk.Folder
import StatAlmanac.Proofs.Disk.Making
import StatAlmanac.Proofs.Cache.Shelf
import StatAlmanac.Proofs.Job.Run
import StatAlmanac.Proofs.Cache.Files
import StatAlmanac.Proofs.Cache.Refinement
import StatAlmanac.Proofs.Formula.Label
import StatAlmanac.Proofs.Page.Stats
import StatAlmanac.Proofs.Fetch.Retry
import StatAlmanac.Proofs.Fetch.Turns
import StatAlmanac.Proofs.Text.Folded
import StatAlmanac.Proofs.Text.Committed
import StatAlmanac.Proofs.Formula.Numeral
import StatAlmanac.Proofs.Formula.OnePass
import StatAlmanac.Proofs.Formula.Growth
import StatAlmanac.Proofs.Formula.Recognised
import StatAlmanac.Proofs.Formula.Written
import StatAlmanac.Proofs.Formula.Lines
import StatAlmanac.Proofs.Page.Flatten
import StatAlmanac.Proofs.Page.Rows
import StatAlmanac.Proofs.Page.Extraction
import StatAlmanac.Proofs.Disk.Change
import StatAlmanac.Proofs.Disk.Child
import StatAlmanac.Proofs.Cache.Lookups
import StatAlmanac.Proofs.Cache.Failure
import StatAlmanac.Proofs.Cache.Confinement
import StatAlmanac.Proofs.Json.Decoded
import StatAlmanac.Proofs.Job.Pact
import StatAlmanac.Proofs.Job.Throng
import StatAlmanac.Proofs.Job.TimedThrong
import StatAlmanac.Proofs.Time.Since
import StatAlmanac.Proofs.Cache.View
import StatAlmanac.Proofs.Cache.Inside
import StatAlmanac.Proofs.Cache.Callers
import StatAlmanac.Proofs.Cache.Concurrency
import StatAlmanac.Proofs.Cache.Interleaving
import StatAlmanac.Proofs.Entity.Key
import StatAlmanac.Proofs.Fetch.Heard
import StatAlmanac.Proofs.Cache.Work
import StatAlmanac.Proofs.Almanac.Lasting
import StatAlmanac.Proofs.Almanac.Transparency
import StatAlmanac.Proofs.Almanac.Tally
import StatAlmanac.Proofs.Api.Accounting
import StatAlmanac.Proofs.Entity.Identity
import StatAlmanac.Proofs.Formula.Levels
import StatAlmanac.Proofs.Api.Refusals
import StatAlmanac.Proofs.Fetch.Pacing
import StatAlmanac.Proofs.Binary64.Interval
import StatAlmanac.Proofs.Binary64.Rounding
import StatAlmanac.Proofs.Binary64.Packing
import StatAlmanac.Proofs.Binary64.Arithmetic
import StatAlmanac.Proofs.Binary64.Shortest
import StatAlmanac.Proofs.Binary64.Error
import StatAlmanac.Proofs.Json.Scaled
import StatAlmanac.Proofs.Json.Reals
import StatAlmanac.Proofs.Json.Rereading
import StatAlmanac.Proofs.Formula.Exchange
import StatAlmanac.Proofs.Time.Later
import StatAlmanac.Proofs.Cache.Expiry
import StatAlmanac.Proofs.Cache.Saving
import StatAlmanac.Proofs.Cache.Sweeping
import StatAlmanac.Proofs.Cache.Swept
import StatAlmanac.Proofs.Binary64.Scientific
import StatAlmanac.Proofs.Formula.Finite
import StatAlmanac.Proofs.Api.Agreement
import StatAlmanac.Proofs.Cache.Ending
import StatAlmanac.Proofs.Formula.Batch
import StatAlmanac.Proofs.Text.Upper
import StatAlmanac.Proofs.Entity.Spelling
import StatAlmanac.Proofs.Entity.Address
import StatAlmanac.Proofs.Text.Capitals
import StatAlmanac.Proofs.Text.LowerAscii
import StatAlmanac.Proofs.Entity.Canonical
import StatAlmanac.Proofs.Formula.TextOrder
import StatAlmanac.Proofs.Formula.Caseless
import StatAlmanac.Proofs.Formula.Opened
import StatAlmanac.Proofs.Page.Hidden
import StatAlmanac.Proofs.Cache.Persistence
import StatAlmanac.Proofs.Api.Evaluation
import StatAlmanac.Proofs.Fetch.Backoff
import StatAlmanac.Proofs.Formula.Exclusive
import StatAlmanac.Proofs.Page.Entities
import StatAlmanac.Proofs.Time.Duration
