/-
Digests that stand for a state.

What is digested is a byte string of its own and kept apart from the digest: the
fingerprint of a vault covers its borrow module, its listed tokens with their configs
and every entry of its deposits; that of a log covers the entries it keeps.  Neither
writes lengths or separators between its parts.
-/
import Custody.Binary.Records

namespace Custody

/-- The lowest `width` bytes of a number, the highest first. -/
def bigEndian (width n : Nat) : List UInt8 :=
  (Binary.littleEndian width n).reverse

namespace CollateralConfig

/-- The part of a fingerprint that stands for a config. -/
def fingerprint (c : CollateralConfig) : List UInt8 :=
  (if c.enabled then 1 else 0) :: bigEndian 8 c.params.factor.toNat
    ++ bigEndian 8 c.params.threshold.toNat ++ bigEndian 8 c.params.penalty.toNat

end CollateralConfig

namespace Vault

/-- The part of a fingerprint that stands for a listed token. -/
def tokenFingerprint (v : Vault) (token : Address) : List UInt8 :=
  token.bytes ++ ((v.configs.get? token).map (·.fingerprint)).getD []

/-- The part of a fingerprint that stands for an entry of the deposits. -/
def depositFingerprint (line : Address × Address × Amount) : List UInt8 :=
  line.1.bytes ++ line.2.1.bytes ++ bigEndian 16 line.2.2.val

/-- What the fingerprint of a vault is the digest of. -/
def fingerprintInput (v : Vault) : List UInt8 :=
  v.borrowModule.bytes ++ v.listed.flatMap v.tokenFingerprint
    ++ (Book.lines v.deposits).flatMap depositFingerprint

/-- The fingerprint of a vault as text. -/
def fingerprint (v : Vault) : String :=
  Hex.toText (Sha256.digest v.fingerprintInput)

end Vault

namespace EventLog

/-- What the fingerprint of a log is the digest of. -/
def fingerprintInput (log : EventLog) : List UInt8 :=
  log.toList.flatMap Binary.encode

/-- The fingerprint of a log as text. -/
def fingerprint (log : EventLog) : String :=
  Hex.toText (Sha256.digest log.fingerprintInput)

end EventLog

end Custody
