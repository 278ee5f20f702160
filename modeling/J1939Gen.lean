import J1939Gen.Lib.Bitmask
import J1939Gen.Lib.Crc
import J1939Gen.Lib.Words
import J1939Gen.Lib.Numeral
import J1939Gen.Console.Model
import J1939Gen.Console.Rings
import J1939Gen.Console.Numbers
import J1939Gen.Lib.PrefixCode
import J1939Gen.Lib.ByteMem
import J1939Gen.Lib.SerialClock
import J1939Gen.Lib.Mealy
import J1939Gen.Catalog.Table
import J1939Gen.Crc32
import J1939Gen.Catalog.Facts
import J1939Gen.Lib.TxnStore
import J1939Gen.Lib.NorFlash
import J1939Gen.ValueStore.Model
import J1939Gen.ValueStore.Spec
import J1939Gen.ValueStore.Invariant
import J1939Gen.ValueStore.Refine
import J1939Gen.Lib.BitField
import J1939Gen.Scheduler.RawCodec
import J1939Gen.Codec.Laws
import J1939Gen.Lib.CheckedMem
import J1939Gen.Lib.RingQueue
import J1939Gen.Lib.SortedQueue
import J1939Gen.Lib.KeyedPool
import J1939Gen.Lib.Ledger
import J1939Gen.Codec.Signal
import J1939Gen.Codec.Agree
import J1939Gen.Frame
import J1939Gen.Identifier
import J1939Gen.BitTiming
import J1939Gen.Transport.Model
import J1939Gen.Transport.Bam
import J1939Gen.Transport.Sessions
import J1939Gen.Transport.Spacing
import J1939Gen.Scheduler.Model
import J1939Gen.Scheduler.Steps
import J1939Gen.Scheduler.Freshness
import J1939Gen.Scheduler.Backlog
import J1939Gen.Lib.PeriodicGrid
import J1939Gen.Scheduler.Packing
import J1939Gen.Lib.History
import J1939Gen.Scheduler.Snapshot
import J1939Gen.Scheduler.Delivered
import J1939Gen.Scheduler.Text
import J1939Gen.Scheduler.Grid
import J1939Gen.Scheduler.Spread
import J1939Gen.Scheduler.Queue
import J1939Gen.Storage.Records
import J1939Gen.Storage.Restore
import J1939Gen.Storage.Image
import J1939Gen.Storage.Parse
import J1939Gen.Storage.Build
import J1939Gen.Storage.Identity
import J1939Gen.Storage.InBounds
import J1939Gen.Storage.Slots
import J1939Gen.Storage.Loading
import J1939Gen.Storage.Writing
import J1939Gen.Storage.PowerFail
import J1939Gen.Storage.Erasing
import J1939Gen.Generator.Model
import J1939Gen.Generator.Schedule
import J1939Gen.Generator.Staging
import J1939Gen.Lib.RoundedShare
import J1939Gen.Generator.Percent
import J1939Gen.Generator.Updates
import J1939Gen.Generator.Invariant
import J1939Gen.Generator.Steps
import J1939Gen.Generator.Runs
import J1939Gen.Generator.Timer
import J1939Gen.Generator.Payloads
import J1939Gen.Generator.Transaction
import J1939Gen.Generator.Delivery
import J1939Gen.Generator.Text
import J1939Gen.Lib.PyValue
import J1939Gen.Lib.Segments
import J1939Gen.Tools.Rows
import J1939Gen.Tools.Bounds
import J1939Gen.Tools.Grouping
import J1939Gen.Tools.Catalog
import J1939Gen.Tools.Layout
import J1939Gen.Tools.Attribution
import J1939Gen.Lib.ReplayCache
import J1939Gen.Storage.Latest
import J1939Gen.Storage.Statuses
import J1939Gen.Storage.Stored
import J1939Gen.Storage.Bursts
import J1939Gen.Storage.Provenance
import J1939Gen.Persistence.Model
import J1939Gen.Persistence.Loading
import J1939Gen.Persistence.RoundTrip
import J1939Gen.Persistence.Runs
import J1939Gen.Persistence.Visits
import J1939Gen.Persistence.Timer
import J1939Gen.Persistence.Identity
import J1939Gen.Persistence.History
import J1939Gen.Waveform.Model
import J1939Gen.Waveform.Ownership
import J1939Gen.Boot.Model
import J1939Gen.Boot.Restore
import J1939Gen.Boot.Damaged
import J1939Gen.Generator.Coherence
import J1939Gen.Generator.GlobalPercent
import J1939Gen.Generator.Capacity
import J1939Gen.Control.Model
import J1939Gen.Control.TxRing
import J1939Gen.Control.TxOrder
import J1939Gen.Control.Endpoint
import J1939Gen.Control.Handlers
import J1939Gen.Control.Runs
import J1939Gen.Control.Replay
import J1939Gen.Control.ExactlyOnce
import J1939Gen.Operation.Model
import J1939Gen.Operation.Autostart
import J1939Gen.Operation.Recovery
import J1939Gen.Operation.SafeMode
import J1939Gen.Operation.TimedRun
import J1939Gen.Operation.Reboots
import J1939Gen.Cli.Model
import J1939Gen.Cli.Lines
import J1939Gen.Cli.Orders
import J1939Gen.Cli.Session
import J1939Gen.Scheduler.Log
import J1939Gen.Waveform.ConstantOnly
