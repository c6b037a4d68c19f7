import InitLock.Api.Link
import InitLock.Main
import InitLock.Mutex.Interleaving
import InitLock.Mutex.Script
import InitLock.Proofs.Json.Literal
import InitLock.Proofs.Payload
import InitLock.Proofs.Mutex.Contention
import InitLock.Proofs.Mutex.Election
import InitLock.Proofs.Mutex.Exclusion
import InitLock.Proofs.Mutex.Removal
import InitLock.Proofs.Mutex.Solo
import InitLock.Proofs.Mutex.Ledger
import InitLock.Proofs.Api.Link
import InitLock.Proofs.Api.Machines
import InitLock.Proofs.Api.Discovery
import InitLock.Proofs.Api.Cache
import InitLock.Proofs.Api.ConfigMap
import InitLock.Proofs.Api.Records
import InitLock.Proofs.Mutex.Crowd
import InitLock.Proofs.Mutex.Transcript
import InitLock.Proofs.Mutex.Cancellation
import InitLock.Proofs.Mutex.Audit
import InitLock.Proofs.Mutex.Separation
import InitLock.Proofs.Text.Utf8
import InitLock.Proofs.Api.Refinement
import InitLock.Proofs.Api.Cabinet
import InitLock.Proofs.Mutex.Release
import InitLock.Proofs.Api.Traffic
import InitLock.Proofs.Api.Writes
import InitLock.Proofs.Api.Finalizers
import InitLock.Proofs.Api.RoundTrip
import InitLock.Proofs.Mutex.Reports
import InitLock.Proofs.Decoding
import InitLock.Proofs.Store.Contract
import InitLock.Proofs.Status
import InitLock.Proofs.Api.Owners
import InitLock.Proofs.Command.Position
