import GameRelay.Trace
import GameRelay.Succession
import GameRelay.Endpoints
import GameRelay.Consistency
import GameRelay.Queues
import GameRelay.Binding
import GameRelay.Posts
import GameRelay.Reserved
import GameRelay.Fanout
import GameRelay.Uploads
import GameRelay.Pages
import GameRelay.Admission
import GameRelay.Disk
import GameRelay.JobLists
import GameRelay.Budgets
import GameRelay.Relaying
import GameRelay.Sequences
import GameRelay.Codec
import GameRelay.Evictions
import GameRelay.JobFiles
import GameRelay.Tickets
import GameRelay.Shutdown
import GameRelay.Unsaved
import GameRelay.Heartbeats
import GameRelay.Reloads
import GameRelay.Quotas
import GameRelay.Downloads
import GameRelay.Tokens
import GameRelay.Redact
import GameRelay.Telemetry
import GameRelay.Logger
import GameRelay.PushSlots
import GameRelay.RoomOrder
import GameRelay.Restored
import GameRelay.Logs
import GameRelay.Settled
import GameRelay.Worker
import GameRelay.Listener
import GameRelay.Head
import GameRelay.Backoff
import GameRelay.Contacts
import GameRelay.Saves
import GameRelay.Settings
import GameRelay.Activity
import GameRelay.Edits
import GameRelay.Policing
import GameRelay.Tenures
import GameRelay.Lifetimes
