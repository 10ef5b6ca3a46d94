import PermissionFeed.Cache
import PermissionFeed.Cbor.Reader
import PermissionFeed.Cbor.Token
import PermissionFeed.ChangeEvent
import PermissionFeed.Config
import PermissionFeed.Cursor
import PermissionFeed.Delta
import PermissionFeed.Engine
import PermissionFeed.EventId
import PermissionFeed.Expiry
import PermissionFeed.Feed
import PermissionFeed.Field
import PermissionFeed.Frame
import PermissionFeed.Group
import PermissionFeed.Inquiry
import PermissionFeed.Json.Basic
import PermissionFeed.Json.Form
import PermissionFeed.Json.Token
import PermissionFeed.LockTable
import PermissionFeed.Mutation
import PermissionFeed.Outcome
import PermissionFeed.PlayerId
import PermissionFeed.Proofs.Announcing
import PermissionFeed.Proofs.Applying
import PermissionFeed.Proofs.ByteOrder
import PermissionFeed.Proofs.Callers
import PermissionFeed.Proofs.Claims
import PermissionFeed.Proofs.Cleaning
import PermissionFeed.Proofs.Completion
import PermissionFeed.Proofs.Concurrency
import PermissionFeed.Proofs.Convergence
import PermissionFeed.Proofs.Crowds
import PermissionFeed.Proofs.Degradation
import PermissionFeed.Proofs.Delta
import PermissionFeed.Proofs.Differences
import PermissionFeed.Proofs.Digits
import PermissionFeed.Proofs.Edits
import PermissionFeed.Proofs.Emission
import PermissionFeed.Proofs.Endings
import PermissionFeed.Proofs.Engine
import PermissionFeed.Proofs.Enumerations
import PermissionFeed.Proofs.Evaluation
import PermissionFeed.Proofs.EventIds
import PermissionFeed.Proofs.Exclusion
import PermissionFeed.Proofs.Failures
import PermissionFeed.Proofs.Feeds
import PermissionFeed.Proofs.FrameTexts
import PermissionFeed.Proofs.Frames
import PermissionFeed.Proofs.GroupWrites
import PermissionFeed.Proofs.Handovers
import PermissionFeed.Proofs.Hearing
import PermissionFeed.Proofs.Histories
import PermissionFeed.Proofs.Independence
import PermissionFeed.Proofs.Interruption
import PermissionFeed.Proofs.Json.Forms
import PermissionFeed.Proofs.Json.Literals
import PermissionFeed.Proofs.Json.Texts
import PermissionFeed.Proofs.Lapses
import PermissionFeed.Proofs.LateJoiners
import PermissionFeed.Proofs.Leavers
import PermissionFeed.Proofs.Lines
import PermissionFeed.Proofs.Lists
import PermissionFeed.Proofs.Locks
import PermissionFeed.Proofs.Mailboxes
import PermissionFeed.Proofs.Maps
import PermissionFeed.Proofs.Memory
import PermissionFeed.Proofs.Mutations
import PermissionFeed.Proofs.Outcomes
import PermissionFeed.Proofs.Overlaps
import PermissionFeed.Proofs.PlayerTexts
import PermissionFeed.Proofs.Protocols
import PermissionFeed.Proofs.Publications
import PermissionFeed.Proofs.Races
import PermissionFeed.Proofs.RawRows
import PermissionFeed.Proofs.Reachable
import PermissionFeed.Proofs.Readers
import PermissionFeed.Proofs.Redelivery
import PermissionFeed.Proofs.Resumption
import PermissionFeed.Proofs.Retries
import PermissionFeed.Proofs.Rounds
import PermissionFeed.Proofs.Rows
import PermissionFeed.Proofs.Scans
import PermissionFeed.Proofs.Screening
import PermissionFeed.Proofs.Shown
import PermissionFeed.Proofs.SideBySide
import PermissionFeed.Proofs.Spellings
import PermissionFeed.Proofs.Steadiness
import PermissionFeed.Proofs.Sweeps
import PermissionFeed.Proofs.Tokens
import PermissionFeed.Proofs.Tracking
import PermissionFeed.Proofs.Truncation
import PermissionFeed.Proofs.Turns
import PermissionFeed.Proofs.Values
import PermissionFeed.Proofs.Watches
import PermissionFeed.Proofs.Writes
import PermissionFeed.Request
import PermissionFeed.Routine
import PermissionFeed.Row
import PermissionFeed.Scanner
import PermissionFeed.Scenario.Answer
import PermissionFeed.Scenario.Bench
import PermissionFeed.Scenario.Broadcast
import PermissionFeed.Scenario.Locking
import PermissionFeed.Scenario.Plan
import PermissionFeed.Scenario.Stage
import PermissionFeed.Scenario.Step
import PermissionFeed.Service
import PermissionFeed.Snapshot
import PermissionFeed.Store.Basic
import PermissionFeed.Store.Call
import PermissionFeed.Store.Memory
import PermissionFeed.Store.Misfiled
import PermissionFeed.Store.Query
import PermissionFeed.Store.Table
import PermissionFeed.Text.Blank
import PermissionFeed.Text.Hex
import PermissionFeed.Text.Hidden
import PermissionFeed.Text.Quoted
import PermissionFeed.Text.Utf8
