import SealedStore.CommandLine.Disk.Usual
import SealedStore.Main
import SealedStore.Proofs.Cipher.Cbc
import SealedStore.Proofs.Cipher.Ctr
import SealedStore.Proofs.Cipher.Gcm
import SealedStore.Proofs.Cipher.KeyWrap
import SealedStore.Proofs.Cipher.KeyWrap.Inverse
import SealedStore.Proofs.Cipher.KeyWrap.ShiftRegister
import SealedStore.Proofs.Cipher.Chunks
import SealedStore.Proofs.Cipher.Lifecycle
import SealedStore.Proofs.Cipher.Gcm.Release
import SealedStore.Proofs.Cipher.Ghash
import SealedStore.Proofs.Cipher.Difference
import SealedStore.Proofs.Cipher.Gcm.Tampering
import SealedStore.Proofs.Cipher.Cbc.Inverse
import SealedStore.Proofs.Cipher.Ctr.Range
import SealedStore.Proofs.Cipher.Reset
import SealedStore.Proofs.Text.Base64
import SealedStore.Proofs.Store
import SealedStore.Proofs.TextMap
import SealedStore.Proofs.Text.JsonObject
import SealedStore.Proofs.Text.JsonObject.Canonical
import SealedStore.Proofs.Text.Utf8.Exact
import SealedStore.Proofs.Envelope.Headers
import SealedStore.Proofs.Envelope.Placement
import SealedStore.Proofs.Envelope.Entries
import SealedStore.Proofs.Envelope.Exact
import SealedStore.Proofs.Envelope.MapText
import SealedStore.Proofs.Envelope.ReadBack
import SealedStore.Proofs.Envelope.Reading
import SealedStore.Proofs.Keys.Local.Exact
import SealedStore.Proofs.Keys.Remote
import SealedStore.Proofs.Process
import SealedStore.Proofs.Client.Body
import SealedStore.Proofs.Client.Reading
import SealedStore.Proofs.Client.Writing
import SealedStore.Proofs.Client.FailedPut
import SealedStore.Proofs.Client.LastPut
import SealedStore.Proofs.Client.Pool
import SealedStore.Proofs.Client.Race
import SealedStore.Proofs.Client.SoleInstruction
import SealedStore.Proofs.Client.Bounds
import SealedStore.Proofs.Client.Lookup
import SealedStore.Proofs.Client.Tampering
import SealedStore.Proofs.Client.Agreement
import SealedStore.Proofs.Client.PutEffect
import SealedStore.Proofs.Client.Workload
import SealedStore.Proofs.Client.FreshDraws
import SealedStore.Proofs.Cipher.Gcm.Mending
import SealedStore.Proofs.Facility.Guards
import SealedStore.Proofs.Cipher.Bookkeeping
import SealedStore.Proofs.Config
