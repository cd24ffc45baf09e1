/-
The fixed numbers of the protocol.

Shares, factors and penalties are in basis points: ten thousand basis points are the
whole.  Times are in seconds.
-/
import Custody.Amount

namespace Custody

/-- Basis points in the whole. -/
def bpsWhole : UInt64 := 10000

/-- Health factor at parity; a position below it can be liquidated. -/
def parityBps : UInt64 := 10000

/-- Smallest health factor a checked withdrawal may leave. -/
def withdrawalMarginBps : UInt64 := 11000

/-- Most tokens a vault may list. -/
def maxTokens : Nat := 50

/-- Largest liquidation threshold. -/
def maxThresholdBps : UInt64 := 9500

/-- Smallest liquidation penalty. -/
def minPenaltyBps : UInt64 := 100

/-- Largest liquidation penalty. -/
def maxPenaltyBps : UInt64 := 2000

/-- Decimals of the debt token and of dollar values. -/
def debtDecimals : UInt8 := 18

/-- One whole unit of the debt token. -/
def debtUnit : Amount := ⟨1000000000000000000, by decide⟩

/-- Smallest repayment a liquidation accepts: a hundred units of the debt token. -/
def dustFloor : Amount := ⟨100 * debtUnit.val, by decide⟩

/-- Share of a debt one liquidation may repay unless governance sets another. -/
def defaultCloseFactorBps : UInt64 := 5000

/-- Health factor below which the whole debt may be repaid, unless set otherwise. -/
def defaultFullThresholdBps : UInt64 := 5000

/-- Seconds between the request of a delayed change and its execution. -/
def changeDelay : UInt64 := 172800

/-- Events each component keeps. -/
def retainedEvents : UInt64 := 10000

end Custody
