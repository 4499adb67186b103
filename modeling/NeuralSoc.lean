import NeuralSoc.Base.Value
import NeuralSoc.Base.Arithmetic
import NeuralSoc.Base.Runs
import NeuralSoc.Base.SortedSet
import NeuralSoc.Base.Recent
import NeuralSoc.Base.Dict
import NeuralSoc.Base.Best
import NeuralSoc.Base.Handler
import NeuralSoc.Base.Log
import NeuralSoc.Base.Upserts
import NeuralSoc.Base.Custody
import NeuralSoc.Base.Expiring
import NeuralSoc.Base.Greatest
import NeuralSoc.Base.Sliding
import NeuralSoc.Base.Replace
import NeuralSoc.Base.Shell
import NeuralSoc.Base.Windows
import NeuralSoc.Base.Paging
import NeuralSoc.Base.Paths
import NeuralSoc.Base.Reload
import NeuralSoc.Base.IsoTime
import NeuralSoc.Base.OrderedDict
import NeuralSoc.Base.Lru
import NeuralSoc.Correlation.Scripts
import NeuralSoc.Correlation.Risk
import NeuralSoc.Correlation.LogOdds
import NeuralSoc.Correlation.Correlator
import NeuralSoc.Correlation.Lemmas.Scripts
import NeuralSoc.Correlation.Lemmas.Compensation
import NeuralSoc.Correlation.Lemmas.Window
import NeuralSoc.Correlation.Lemmas.Counter
import NeuralSoc.Correlation.Lemmas.Fifo
import NeuralSoc.Correlation.Lemmas.Incident
import NeuralSoc.Correlation.Lemmas.Risk
import NeuralSoc.Correlation.Lemmas.Description
import NeuralSoc.Correlation.Theorems
import NeuralSoc.Correlation.RiskTheorems
import NeuralSoc.Correlation.Dedup
import NeuralSoc.Correlation.EscalationTheorems
import NeuralSoc.Stream.Detection
import NeuralSoc.Stream.Features
import NeuralSoc.Stream.Events
import NeuralSoc.Stream.Lemmas.Detection
import NeuralSoc.Stream.Lemmas.Events
import NeuralSoc.Stream.Lemmas.Lookups
import NeuralSoc.Stream.Theorems
import NeuralSoc.Stream.FieldTheorems
import NeuralSoc.Sink.Batch
import NeuralSoc.Sink.Loop
import NeuralSoc.Sink.Lemmas.Batch
import NeuralSoc.Sink.Lemmas.Loop
import NeuralSoc.Sink.Lemmas.Isolation
import NeuralSoc.Sink.Lemmas.DeadLetters
import NeuralSoc.Sink.Theorems
import NeuralSoc.Sink.SchemaTheorems
import NeuralSoc.Dlq.Replay
import NeuralSoc.Dlq.Rotation
import NeuralSoc.Dlq.Lemmas.Replay
import NeuralSoc.Dlq.Lemmas.Moves
import NeuralSoc.Dlq.Lemmas.Rotation
import NeuralSoc.Dlq.Theorems
import NeuralSoc.Dlq.Paths
import NeuralSoc.Dlq.PathTheorems
import NeuralSoc.Api.Models
import NeuralSoc.Api.Deps
import NeuralSoc.Api.Auth
import NeuralSoc.Api.Requests
import NeuralSoc.Api.Lemmas.Effects
import NeuralSoc.Api.Lemmas.SecondFactor
import NeuralSoc.Api.Lemmas.Accounts
import NeuralSoc.Api.Lemmas.Sessions
import NeuralSoc.Api.Lemmas.Lockout
import NeuralSoc.Api.Lemmas.Requests
import NeuralSoc.Api.Theorems
import NeuralSoc.Api.RequestTheorems
import NeuralSoc.Signups.Stages
import NeuralSoc.Signups.Lemmas.Stages
import NeuralSoc.Signups.Theorems
import NeuralSoc.Tenants.Alerts
import NeuralSoc.Tenants.Ingest
import NeuralSoc.Tenants.Routes
import NeuralSoc.Tenants.Lemmas.Ingest
import NeuralSoc.Tenants.Lemmas.Isolation
import NeuralSoc.Tenants.Theorems
import NeuralSoc.Tenants.Lemmas.Stats
import NeuralSoc.Tenants.Lemmas.Pages
import NeuralSoc.Tenants.ReadTheorems
import NeuralSoc.Tokens.SingleUse
import NeuralSoc.Tokens.Lemmas.SingleUse
import NeuralSoc.Tokens.Lemmas.Revocation
import NeuralSoc.Tokens.Theorems
import NeuralSoc.Dns.Tracker
import NeuralSoc.Dns.Workers
import NeuralSoc.Dns.Lemmas.Domains
import NeuralSoc.Dns.Lemmas.Window
import NeuralSoc.Dns.Lemmas.Responses
import NeuralSoc.Dns.Theorems
import NeuralSoc.Conn.Tracker
import NeuralSoc.Conn.Fast
import NeuralSoc.Conn.Lemmas.Members
import NeuralSoc.Conn.Lemmas.Kept
import NeuralSoc.Conn.Lemmas.Window
import NeuralSoc.Conn.Lemmas.Fast
import NeuralSoc.Conn.Lemmas.Agreement
import NeuralSoc.Conn.Lemmas.Beacon
import NeuralSoc.Conn.Texts
import NeuralSoc.Conn.Theorems
import NeuralSoc.Playbooks.Templates
import NeuralSoc.Playbooks.Generate
import NeuralSoc.Playbooks.Lemmas.Format
import NeuralSoc.Playbooks.Lemmas.Words
import NeuralSoc.Playbooks.Lemmas.Rule
import NeuralSoc.Playbooks.Theorems
import NeuralSoc.Playbooks.TotalTheorems
import NeuralSoc.Pcap.Ingester
import NeuralSoc.Pcap.Lemmas.Bytes
import NeuralSoc.Pcap.Lemmas.Originators
import NeuralSoc.Pcap.Lemmas.Packets
import NeuralSoc.Pcap.Theorems
import NeuralSoc.Keys.Names
import NeuralSoc.Keys.Theorems
import NeuralSoc.Schemas.Alert
import NeuralSoc.Schemas.Theorems
import NeuralSoc.Dga.Slices
import NeuralSoc.Dga.DomainAge
import NeuralSoc.Dga.Lemmas.Variants
import NeuralSoc.Dga.Lemmas.Slices
import NeuralSoc.Dga.Theorems
import NeuralSoc.Dga.DomainAgeTheorems
import NeuralSoc.Dga.Training
import NeuralSoc.Dga.BatchTheorems
import NeuralSoc.Incidents.Synthesis
import NeuralSoc.Incidents.Lemmas.Groups
import NeuralSoc.Incidents.Lemmas.Sources
import NeuralSoc.Incidents.Lemmas.Order
import NeuralSoc.Incidents.Theorems
import NeuralSoc.KillChain.Phases
import NeuralSoc.KillChain.Lemmas.Groups
import NeuralSoc.KillChain.Theorems
import NeuralSoc.Caches.TtlCache
import NeuralSoc.Caches.Theorems
import NeuralSoc.Tailer.ProcessLog
import NeuralSoc.Tailer.Theorems
import NeuralSoc.Base.Fallible
import NeuralSoc.Base.Indexed
import NeuralSoc.Console.Screen
import NeuralSoc.Console.Lemmas.Queue
import NeuralSoc.Console.Lemmas.Events
import NeuralSoc.Console.Theorems
import NeuralSoc.Api.Lemmas.Audit
import NeuralSoc.Tenants.Lemmas.Audit
import NeuralSoc.Tenants.AuditTheorems
import NeuralSoc.Artifacts.Publishing
import NeuralSoc.Artifacts.Theorems
import NeuralSoc.Base.Ipv4
import NeuralSoc.Caches.Lookups
import NeuralSoc.Caches.Lemmas.Lookups
import NeuralSoc.Caches.LookupTheorems
import NeuralSoc.Api.Lemmas.Answers
import NeuralSoc.Dashboard.Sessions
import NeuralSoc.Dashboard.Lemmas.Sessions
import NeuralSoc.Dashboard.Lemmas.Cache
import NeuralSoc.Dashboard.Lemmas.Runs
import NeuralSoc.Dashboard.Theorems
import NeuralSoc.Delivery.Theorems
import NeuralSoc.Migrations.Theorems
