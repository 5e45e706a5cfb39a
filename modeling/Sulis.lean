import Sulis.Interaction.Prog
import Sulis.Interaction.Path
import Sulis.Interaction.Settle
import Sulis.Interaction.Pool
import Sulis.Interaction.Sequential
import Sulis.Interaction.Overlap
import Sulis.Interaction.Alone
import Sulis.Interaction.Environment
import Sulis.Store.Table
import Sulis.Model.Types
import Sulis.Model.Platform
import Sulis.Model.Password
import Sulis.Model.Base64
import Sulis.Model.HashText
import Sulis.Model.New
import Sulis.Model.Memstore
import Sulis.Model.Effects
import Sulis.Model.Serve
import Sulis.Model.Service
import Sulis.Model.Accounts
import Sulis.Model.Email
import Sulis.Model.Sessions
import Sulis.Model.Limiter
import Sulis.Model.Calls
import Sulis.Discipline.Mutation
import Sulis.Discipline.Spec
import Sulis.Discipline.Footprint
import Sulis.Discipline.Rules
import Sulis.Discipline.Accounts
import Sulis.Discipline.Email
import Sulis.Discipline.Sessions
import Sulis.Discipline.System
import Sulis.Discipline.Revocation
import Sulis.Discipline.Redemption
import Sulis.Discipline.Rotation
import Sulis.Discipline.Screening
import Sulis.Discipline.Uniform
import Sulis.Discipline.Calm
import Sulis.Discipline.Accepted
import Sulis.Discipline.Labels
import Sulis.Rate.Reserve
import Sulis.Facts.Limiting
import Sulis.Facts.Buckets
import Sulis.Facts.Users
import Sulis.Facts.Credentials
import Sulis.Facts.Solo
import Sulis.Properties.Scenario
import Sulis.Properties.NoLostUpdate
import Sulis.Properties.Issuance
import Sulis.Properties.AuthenticSession
import Sulis.Properties.Recovery
import Sulis.Properties.StagedEmail
import Sulis.Properties.StoredAddress
import Sulis.Properties.MagicLink
import Sulis.Properties.Barrier
import Sulis.Properties.AbandonedAddress
import Sulis.Properties.Verified
import Sulis.Properties.MapOrder
import Sulis.Properties.ReturnedUser
import Sulis.Properties.EventText
import Sulis.Properties.FirstVerification
import Sulis.Properties.Disabled
import Sulis.Properties.TokenLife
import Sulis.Properties.Enumeration
import Sulis.Properties.AsciiAddress
import Sulis.Properties.CanonicalAddress
import Sulis.Properties.HashReadBack
import Sulis.Properties.PasswordMatch
import Sulis.Properties.PasswordAuthority
import Sulis.Properties.RehashStrength
import Sulis.Properties.Lockout
import Sulis.Properties.Backoff
import Sulis.Properties.Lineage
import Sulis.Properties.RefreshGate
import Sulis.Properties.IdleExpiry
import Sulis.Properties.Liveness
import Sulis.Rate.Meter
import Sulis.Facts.Meters
import Sulis.Properties.TokenRate
import Sulis.Properties.Eviction
import Sulis.Totp.Types
import Sulis.Totp.Codes
import Sulis.Totp.Memstore
import Sulis.Totp.Service
import Sulis.Totp.Discipline
import Sulis.Totp.Facts
import Sulis.Totp.Scenario
import Sulis.Totp.Window
import Sulis.Totp.Freshness
import Sulis.Totp.Replay
import Sulis.Totp.Slots
import Sulis.Totp.Encrypt
import Sulis.Totp.Sealing
import Sulis.Totp.KeyRotation
import Sulis.Passkey.Types
import Sulis.Passkey.WebAuthn
import Sulis.Passkey.Memstore
import Sulis.Passkey.Service
import Sulis.Passkey.Discipline
import Sulis.Passkey.Facts
import Sulis.Passkey.Scenario
import Sulis.Passkey.VerifiedLogin
import Sulis.Passkey.CloneDetection
import Sulis.ReadCommitted.Heap
import Sulis.ReadCommitted.Session
import Sulis.ReadCommitted.Moves
import Sulis.ReadCommitted.Run
import Sulis.ReadCommitted.Alone
import Sulis.ReadCommitted.Guarded
import Sulis.Postgres.Locks
import Sulis.Postgres.Passkey
import Sulis.Postgres.LastCredential
import Sulis.ReadCommitted.Serial
import Sulis.Recovery.Memstore
import Sulis.Postgres.Recovery
import Sulis.Postgres.RecoverySteps
import Sulis.Postgres.RecoveryOrder
import Sulis.ReadCommitted.Linearize
import Sulis.Calendar.Civil
import Sulis.Calendar.Digits
import Sulis.Sql.Timestamp
import Sulis.Sql.Columns
import Sulis.Postgres.Totp
import Sulis.Postgres.TotpAlone
import Sulis.Postgres.TotpOrder
import Sulis.Relational.Relation
import Sulis.Sqlite.Scan
import Sulis.Sqlite.Users
import Sulis.Sqlite.Sessions
import Sulis.Sqlite.Tokens
import Sulis.Sqlite.Totp
import Sulis.Sqlite.Recovery
import Sulis.Sqlite.Sweep
import Sulis.Sqlite.Equivalence
import Sulis.Sqlite.Challenges
import Sulis.Passwordcheck.Hibp
import Sulis.Passwordcheck.BreachCheck
import Sulis.Passwordcheck.Blocklist
import Sulis.Properties.BlockedWords
import Sulis.Escape.Percent
import Sulis.Escape.ByteOrder
import Sulis.Totp.EnrollmentUri
import Sulis.Recovery.Codes
import Sulis.Recovery.Service
import Sulis.Recovery.Discipline
import Sulis.Recovery.CodeLife
import Sulis.Http.Middleware
import Sulis.Http.Admission
