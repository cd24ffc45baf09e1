import Custody.Main
import Custody.Fingerprint
import Custody.Proofs.Arithmetic
import Custody.Proofs.Sums
import Custody.Proofs.Bank
import Custody.Proofs.Vault
import Custody.Proofs.Collateral
import Custody.Proofs.Debt
import Custody.Proofs.Liquidation
import Custody.Proofs.Engine
import Custody.Proofs.Call
import Custody.Proofs.Run
import Custody.Proofs.Solvency
import Custody.Proofs.Conservation
import Custody.Proofs.Overlap
import Custody.Proofs.Refusal
import Custody.Proofs.Administration
import Custody.Proofs.Rules
import Custody.Proofs.Health
import Custody.Proofs.Authority
import Custody.Proofs.Delay
import Custody.Proofs.Settlement
import Custody.Proofs.Shortfall
import Custody.Proofs.Margin
import Custody.Proofs.Books
import Custody.Proofs.Change
import Custody.Proofs.Accounting
import Custody.Proofs.Replay
import Custody.Proofs.EngineReplay
import Custody.Proofs.EngineAccounting
import Custody.Proofs.Registry
import Custody.Proofs.Supply
import Custody.Proofs.Release
import Custody.Proofs.Transaction
import Custody.Proofs.Allowance
import Custody.Proofs.Capability
import Custody.Proofs.Coverage
import Custody.Proofs.Preview
import Custody.Proofs.Agreement
import Custody.Proofs.Breakers
import Custody.Proofs.Disabling
import Custody.Proofs.Pausing
import Custody.Proofs.Hex
import Custody.Proofs.Binary
import Custody.Proofs.Extent
import Custody.Proofs.Storage
import Custody.Proofs.Circulation
import Custody.Proofs.Dealing
import Custody.Proofs.Estimate
import Custody.Proofs.Scenario
import Custody.Proofs.Sizing
import Custody.Proofs.Reward
import Custody.Proofs.Security
import Custody.Proofs.Splitting
import Custody.Proofs.Eligibility
import Custody.Proofs.WriteOff
import Custody.Proofs.Refusal.Releases
import Custody.Proofs.Refusal.Deposits
import Custody.Proofs.Refusal.WriteOffs
import Custody.Proofs.Repayment
import Custody.Proofs.Reading
import Custody.Proofs.Accuracy
import Custody.Proofs.Availability
import Custody.Proofs.Relief
import Custody.Proofs.Isolation
import Custody.Proofs.Feasibility
import Custody.Proofs.Approval
import Custody.Proofs.Refusal.Losses
import Custody.Proofs.Discrepancy
import Custody.Proofs.Membership
import Custody.Proofs.Retention
import Custody.Proofs.Commitment
import Custody.Proofs.Residue
import Custody.Proofs.Transcript
import Custody.Proofs.Numeral
import Custody.Proofs.Printing
import Custody.Proofs.Json
import Custody.Proofs.Settings
import Custody.Proofs.Spelling
import Custody.Proofs.Cause
import Custody.Proofs.World
import Custody.Proofs.Simulation
import Custody.Proofs.Files
import Custody.Proofs.Initialization
import Custody.Proofs.Division
import Custody.Proofs.Alarm
import Custody.Proofs.Calculator
import Custody.Proofs.Guards
import Custody.Proofs.Watch
