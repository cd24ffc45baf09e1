/-
Why a call is refused.

An error is a cause with the values that explain it.  Its wording, its number and
its two classes are functions of the cause, so no call spells out a text of its own.
Numbers are grouped by thousands: collateral, liquidation, collaborators, authority,
arguments, administration, storage, internal.
-/
import Custody.Address
import Custody.Amount
import Custody.Role

namespace Custody

/-- Why a call is refused. -/
inductive Error where
  /-- The token was never added as collateral. -/
  | tokenNotSupported (token : Address)
  /-- The token is known but takes no deposits at present. -/
  | tokenDisabled (token : Address)
  /-- The token has been added before. -/
  | tokenAlreadyAdded (token : Address)
  /-- The list of tokens is full. -/
  | tooManyTokens (limit : Nat)
  /-- The deposit does not cover the request. -/
  | insufficientDeposit (required available : Amount)
  /-- The withdrawal would leave too small a health factor. -/
  | withdrawalWouldUndercollateralize (healthFactor minimum : UInt64)
  /-- Liquidator and borrower are the same account. -/
  | selfLiquidation
  /-- The repayment is below the floor. -/
  | dustLiquidation (amount minimum : Amount)
  /-- The position is at or above parity. -/
  | positionHealthy (healthFactor : UInt64)
  /-- The liquidation would seize or repay nothing. -/
  | nothingToSeize
  /-- No bad debt is recorded for the borrower. -/
  | noBadDebt (borrower : Address)
  /-- The price is zero or missing. -/
  | invalidPrice (token : Address)
  /-- The circuit breaker of the token is open. -/
  | circuitBreakerOpen (token : Address)
  /-- No health factor could be read. -/
  | oracleUnavailable
  /-- The ledger refuses a change. -/
  | ledger (reason : String)
  /-- The bank refuses a movement. -/
  | transferFailed (token : Address) (reason : String)
  /-- The caller lacks a role. -/
  | missingRole (account : Address) (role : Role)
  /-- The caller is not the account that may call. -/
  | unauthorized (reason : String)
  /-- The recipient may not receive without a health check. -/
  | invalidRecipient (recipient : Address)
  /-- An argument is out of range. -/
  | invalidParameter (name reason : String)
  /-- An amount is zero. -/
  | zeroAmount
  /-- The zero address is given for this argument. -/
  | zeroAddress (name : String)
  /-- A result is too large. -/
  | overflow (operation : String)
  /-- A difference is negative. -/
  | underflow (operation : String)
  /-- The component is paused. -/
  | paused
  /-- Nothing is pending for this knob. -/
  | noPendingChange (knob : String)
  /-- The delay has not elapsed. -/
  | timelockNotElapsed (readyAt now : UInt64)
  /-- Two books that have to agree do not. -/
  | invariantViolation (detail : String)
  /-- Data could not be stored. -/
  | serialization (reason : String)
  /-- Stored data could not be read. -/
  | deserialization (reason : String)
  /-- A component is entered while it runs. -/
  | reentrantCall
  /-- A state that should not occur. -/
  | internal (detail : String)
deriving DecidableEq

namespace Error

/-- The wording of an error. -/
def message : Error → String
  | tokenNotSupported token => s!"Token {token} is not a supported collateral"
  | tokenDisabled token => s!"Token {token} is disabled as collateral"
  | tokenAlreadyAdded token => s!"Token {token} is already added as collateral"
  | tooManyTokens limit => s!"Supported token limit of {limit} reached"
  | insufficientDeposit required available =>
    s!"Insufficient deposit: required {required}, available {available}"
  | withdrawalWouldUndercollateralize healthFactor minimum =>
    s!"Withdrawal would leave health factor {healthFactor} below minimum {minimum}"
  | selfLiquidation => "Self-liquidation is not allowed"
  | dustLiquidation amount minimum => s!"Liquidation amount {amount} below minimum {minimum}"
  | positionHealthy healthFactor => s!"Position is healthy (health factor {healthFactor})"
  | nothingToSeize => "Nothing to seize"
  | noBadDebt borrower => s!"No bad debt recorded for {borrower}"
  | invalidPrice token => s!"Invalid price for token {token}"
  | circuitBreakerOpen token => s!"Oracle circuit breaker open for token {token}"
  | oracleUnavailable => "Oracle unavailable: health factor could not be determined"
  | ledger reason => s!"Borrow ledger error: {reason}"
  | transferFailed token reason => s!"Transfer of token {token} failed: {reason}"
  | missingRole account role => s!"Account {account} is missing role {role}"
  | unauthorized reason => s!"Not authorized: {reason}"
  | invalidRecipient recipient =>
    s!"Recipient {recipient} not allowed when skipping the health check"
  | invalidParameter name reason => s!"Invalid parameter {name}: {reason}"
  | zeroAmount => "Amount cannot be zero"
  | zeroAddress name => s!"Address cannot be zero: {name}"
  | overflow operation => s!"Arithmetic overflow in {operation}"
  | underflow operation => s!"Arithmetic underflow in {operation}"
  | paused => "Protocol is paused"
  | noPendingChange knob => s!"No pending change: {knob}"
  | timelockNotElapsed readyAt now =>
    s!"Timelock not elapsed: executable at {readyAt}, now {now}"
  | invariantViolation detail => s!"Invariant violation: {detail}"
  | serialization reason => s!"Serialization error: {reason}"
  | deserialization reason => s!"Deserialization error: {reason}"
  | reentrantCall => "Reentrant call rejected"
  | internal detail => s!"Internal error: {detail}"

/-- The number of an error. -/
def code : Error → Nat
  | tokenNotSupported _ => 1001
  | tokenDisabled _ => 1002
  | tokenAlreadyAdded _ => 1003
  | tooManyTokens _ => 1004
  | insufficientDeposit .. => 1005
  | withdrawalWouldUndercollateralize .. => 1006
  | selfLiquidation => 2001
  | dustLiquidation .. => 2002
  | positionHealthy _ => 2003
  | nothingToSeize => 2004
  | noBadDebt _ => 2005
  | invalidPrice _ => 3001
  | circuitBreakerOpen _ => 3002
  | oracleUnavailable => 3003
  | ledger _ => 3004
  | transferFailed .. => 3005
  | missingRole .. => 4001
  | unauthorized _ => 4002
  | invalidRecipient _ => 4003
  | invalidParameter .. => 5001
  | zeroAmount => 5002
  | zeroAddress _ => 5003
  | overflow _ => 5004
  | underflow _ => 5005
  | paused => 6001
  | noPendingChange _ => 6002
  | timelockNotElapsed .. => 6003
  | invariantViolation _ => 6004
  | serialization _ => 7001
  | deserialization _ => 7002
  | reentrantCall => 9001
  | internal _ => 9002

/-- Whether the same call may succeed later: an oracle may recover, a deposit may
arrive, a delay or a pause may end. -/
def isRecoverable : Error → Bool
  | insufficientDeposit .. | circuitBreakerOpen _ | oracleUnavailable
  | timelockNotElapsed .. | paused | positionHealthy _ => true
  | _ => false

/-- Whether the error needs attention at once. -/
def isCritical : Error → Bool
  | invariantViolation _ | internal _ | overflow _ | underflow _ => true
  | _ => false

/-- The error for a text or byte string that is no address. -/
def badAddress (fault : Address.Fault) : Error :=
  invalidParameter "address" fault.message

end Error

/-- Refuse the zero address, naming the argument. -/
def Address.ensureNonZero (a : Address) (name : String) : Except Error Unit :=
  if a.isZero then .error (.zeroAddress name) else .ok ()

end Custody
