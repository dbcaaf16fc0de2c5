import Strongbox.Batches
import Strongbox.Bytes
import Strongbox.Bytes.Base64
import Strongbox.Cancellation
import Strongbox.Cipher.Aes256
import Strongbox.Cipher.Gcm
import Strongbox.Digest.Blake2b
import Strongbox.Digest.Md5
import Strongbox.Digest.Sha1
import Strongbox.Digest.Sha256
import Strongbox.Entry
import Strongbox.Entry.Document
import Strongbox.Json
import Strongbox.Lock.Basic
import Strongbox.Lock.Current
import Strongbox.Lock.Error
import Strongbox.Lock.Format
import Strongbox.Lock.Legacy
import Strongbox.Lock.Params
import Strongbox.Program
import Strongbox.Proofs.Limits
import Strongbox.Proofs.Lock.Legacy
import Strongbox.Proofs.Lock.Spelling
import Strongbox.Proofs.Outside
import Strongbox.Proofs.Program.Alike
import Strongbox.Proofs.Program.Ends
import Strongbox.Proofs.Program.Log
import Strongbox.Proofs.Program.Passes
import Strongbox.Proofs.Rotation.Accounts
import Strongbox.Proofs.Rotation.Custody
import Strongbox.Proofs.Rotation.Dispatch
import Strongbox.Proofs.Rotation.Midway
import Strongbox.Proofs.Rotation.Moments
import Strongbox.Proofs.Rotation.Overtaken
import Strongbox.Proofs.Rotation.Prefix
import Strongbox.Proofs.Rotation.Questions
import Strongbox.Proofs.Rotation.Rotate
import Strongbox.Proofs.Rotation.Schedule
import Strongbox.Proofs.Rotation.Sweep
import Strongbox.Proofs.Rotation.Turn
import Strongbox.Proofs.Scene
import Strongbox.Proofs.Settings
import Strongbox.Proofs.Store.Agreement
import Strongbox.Proofs.Store.Holds
import Strongbox.Proofs.Store.Indexed
import Strongbox.Proofs.Store.Mirror
import Strongbox.Proofs.Store.Readable
import Strongbox.Proofs.Store.Records
import Strongbox.Proofs.Store.Removal
import Strongbox.Proofs.Store.Row
import Strongbox.Proofs.Store.Sorting
import Strongbox.Proofs.Store.Table
import Strongbox.Proofs.Store.Tokens
import Strongbox.Proofs.Store.Veils
import Strongbox.Proofs.Text.Numeral
import Strongbox.Proofs.Time.Column
import Strongbox.Proofs.Time.Order
import Strongbox.Proofs.Uuid
import Strongbox.Proofs.Vault.Atomic
import Strongbox.Proofs.Vault.Crowd
import Strongbox.Proofs.Vault.Pages
import Strongbox.Proofs.Vault.Phases
import Strongbox.Proofs.Vault.Purge
import Strongbox.Proofs.Vault.Register
import Strongbox.Proofs.Vault.Rounds
import Strongbox.Proofs.Vault.Sessions
import Strongbox.Proofs.Vault.Unseen
import Strongbox.Rotation.Basic
import Strongbox.Rotation.Plan
import Strongbox.Rotation.Pool
import Strongbox.Settings.Basic
import Strongbox.Settings.Document
import Strongbox.Settings.Error
import Strongbox.Store.Error
import Strongbox.Store.Indexed
import Strongbox.Store.Query
import Strongbox.Store.Row
import Strongbox.Store.Table
import Strongbox.Stretch.Argon2id
import Strongbox.Supply
import Strongbox.Text.Blank
import Strongbox.Text.Numeral
import Strongbox.Text.Printable
import Strongbox.Text.Quoted
import Strongbox.Time.Calendar
import Strongbox.Time.Instant
import Strongbox.Time.Loose
import Strongbox.Time.Strict
import Strongbox.Token.Error
import Strongbox.Token.Generator
import Strongbox.Toml.Document
import Strongbox.Toml.Number
import Strongbox.Toml.Quoted
import Strongbox.Uuid
import Strongbox.Vault.Basic
import Strongbox.Vault.Bulk
import Strongbox.Vault.Error
import Strongbox.Vault.Progress
import Strongbox.Vault.PurgeMode
import Strongbox.World
import Strongbox.Proofs.Text.Bytes
import Strongbox.Proofs.Token.Stamp
import Strongbox.Proofs.Vault.PurgeHalts
import Strongbox.Proofs.Rotation.Course
import Strongbox.Proofs.Vault.ReadMany
import Strongbox.Proofs.Vault.Stops
import Strongbox.Proofs.Store.Arranged
import Strongbox.Proofs.Store.Listed
import Strongbox.Proofs.Store.Placed
import Strongbox.Proofs.Vault.OfSettings
import Strongbox.Proofs.Vault.Draws
import Strongbox.Proofs.Vault.Usable
import Strongbox.Proofs.Store.Dated
import Strongbox.Proofs.Store.Numbered
import Strongbox.Proofs.Store.Paging
import Strongbox.Proofs.Token.Suffix
import Strongbox.Proofs.Cancellation
