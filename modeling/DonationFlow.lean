import DonationFlow.Address
import DonationFlow.Amount
import DonationFlow.Api
import DonationFlow.Call
import DonationFlow.CallData
import DonationFlow.Chain
import DonationFlow.ClockedFlow
import DonationFlow.Config
import DonationFlow.Desk.Edit
import DonationFlow.Desk.Settle
import DonationFlow.Desk.State
import DonationFlow.Desk.Submit
import DonationFlow.Error
import DonationFlow.Fees
import DonationFlow.Flow
import DonationFlow.Http
import DonationFlow.Http.Target
import DonationFlow.Intent
import DonationFlow.Json.Binary
import DonationFlow.Json.Number
import DonationFlow.Json.Reader
import DonationFlow.Json.Shape
import DonationFlow.Json.Value
import DonationFlow.Keccak
import DonationFlow.Onramp
import DonationFlow.Pause
import DonationFlow.Plan
import DonationFlow.Position
import DonationFlow.Rates
import DonationFlow.ReadCache
import DonationFlow.Refresh
import DonationFlow.Rehearsal.Calls
import DonationFlow.Rehearsal.Clock
import DonationFlow.Rehearsal.Report
import DonationFlow.Rehearsal.Run
import DonationFlow.Rehearsal.Scene
import DonationFlow.Rehearsal.Script
import DonationFlow.Rehearsal.World
import DonationFlow.Relayer
import DonationFlow.Rpc.Reads
import DonationFlow.Rpc.Request
import DonationFlow.Settings
import DonationFlow.Status
import DonationFlow.Table
import DonationFlow.Text.Blank
import DonationFlow.Text.Cut
import DonationFlow.Text.Hex
import DonationFlow.Text.Letter
import DonationFlow.Text.Numeral
import DonationFlow.Text.Radix
import DonationFlow.Token
import DonationFlow.View
import DonationFlow.Wire.Read
import DonationFlow.Wire.Write
import DonationFlow.Word
import DonationFlow.Proofs.Text.Numeral
import DonationFlow.Proofs.Text.Blank
import DonationFlow.Proofs.Text.Decimal
import DonationFlow.Proofs.Amount.Reading
import DonationFlow.Proofs.Amount.Writing
import DonationFlow.Proofs.Fees
import DonationFlow.Proofs.Json.Text
import DonationFlow.Proofs.Json.Reading
import DonationFlow.Proofs.Json.Record
import DonationFlow.Proofs.Desk.Frame
import DonationFlow.Proofs.Desk.Settling
import DonationFlow.Proofs.Flow.Step
import DonationFlow.Proofs.Flow.History
import DonationFlow.Proofs.Flow.Ownership
import DonationFlow.Proofs.Flow.HandOuts
import DonationFlow.Proofs.Flow.Endings
import DonationFlow.Proofs.Flow.OnceOnly
import DonationFlow.Proofs.Flow.Freshness
import DonationFlow.Proofs.Desk.Likeness
import DonationFlow.Proofs.Flow.Supersession
import DonationFlow.Proofs.Flow.Progress
import DonationFlow.Proofs.Flow.Overtaking
import DonationFlow.Proofs.Intent
import DonationFlow.Proofs.Onramp
import DonationFlow.Proofs.Edit
import DonationFlow.Proofs.Plan
import DonationFlow.Proofs.Relayer.Body
import DonationFlow.Proofs.Flow.Acceptance
import DonationFlow.Proofs.Flow.Approval
import DonationFlow.Proofs.Flow.Execution
import DonationFlow.Proofs.Flow.Routing
import DonationFlow.Proofs.Desk.Trail
import DonationFlow.Proofs.Flow.Lifecycle
import DonationFlow.Proofs.Flow.Coherence
import DonationFlow.Proofs.Flow.Lockstep
import DonationFlow.Proofs.Flow.Refusal
import DonationFlow.Proofs.Flow.Disclosure
import DonationFlow.Proofs.Flow.Failure
import DonationFlow.Proofs.Flow.Editing
import DonationFlow.Proofs.Flow.Parts
import DonationFlow.Proofs.Relayer.Waiting
import DonationFlow.Proofs.Relayer.Silence
import DonationFlow.Proofs.Relayer.Decoding
import DonationFlow.Proofs.Relayer.HandingIn
import DonationFlow.Proofs.CallData
import DonationFlow.Proofs.Text.Bytes
import DonationFlow.Proofs.Rpc.Reads
import DonationFlow.Proofs.ReadCache
import DonationFlow.Proofs.Refresh
import DonationFlow.Proofs.Flow.Provenance
import DonationFlow.Proofs.Flow.Refreshing
import DonationFlow.Proofs.Text.Letter
import DonationFlow.Proofs.Rates
import DonationFlow.Proofs.Onramp.Cancelling
import DonationFlow.Proofs.Onramp.Funding
import DonationFlow.Proofs.Flow.Describing
import DonationFlow.Proofs.Checked
import DonationFlow.Proofs.Config.Pairs
import DonationFlow.Proofs.Table
import DonationFlow.Proofs.Config.Faults
import DonationFlow.Proofs.Config.Loading
