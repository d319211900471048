import Refearn.Auth.Store
import Refearn.Support.JsText
import Mathlib.Data.List.GetD
/-!
# One-time passwords and recovery codes

`auth/mfa.ts`: base32 secrets, the HOTP values of RFC 4226 over a window of 30 seconds,
and recovery codes that are stored as hashes.
-/

namespace Refearn.Auth

open Support Support.Transaction

/-! ## Bits -/

/-- The lowest `width` bits of `n`, highest first. -/
def bitsOf (width n : Nat) : List Bool :=
  (List.range width).reverse.map fun i => n.testBit i

/-- `parseInt(bits, 2)` -/
def parseBits (bits : List Bool) : Nat :=
  bits.foldl (fun acc b => 2 * acc + b.toNat) 0

/-! ## Secrets -/

def ALPHABET : List Char := "ABCDEFGHIJKLMNOPQRSTUVWXYZ234567".toList

def base32Char (bits : List Bool) : Char :=
  ALPHABET.getD (parseBits (bits ++ List.replicate (5 - bits.length) false)) 'A'

def base32Encode (bytes : List UInt8) : List Char :=
  ((bytes.flatMap fun b => bitsOf 8 b.toNat).toChunks 5).map base32Char

def generateTotpSecret : AuthTx String := do
  let bytes ← randomBytes 20
  pure (String.ofList (base32Encode bytes))

/-- `.replace(/=+$/g, '').replace(/\s+/g, '').toUpperCase()`; secrets are ASCII. -/
def base32Clean (secret : String) : List Char :=
  ((secret.toList.reverse.dropWhile (· == '=')).reverse.filter fun c => !isSpace c).map
    Char.toUpper

def base32Bits (c : Char) : Except AuthError (List Bool) :=
  match ALPHABET.idxOf? c with
  | some i => .ok (bitsOf 5 i)
  | none => .error (.internal "invalid base32 secret")

def base32Decode (secret : String) : Except AuthError (List Nat) := do
  let groups ← (base32Clean secret).mapM base32Bits
  pure (((groups.flatten.toChunks 8).filter (·.length == 8)).map parseBits)

/-! ## One-time passwords -/

/-- `String(n).padStart(6, '0')` -/
def padSix (n : Nat) : String :=
  let digits := Nat.toDigits 10 n
  String.ofList (List.replicate (6 - digits.length) '0' ++ digits)

/-- `msg.writeBigUInt64BE(BigInt(counter))` -/
def counterBytes (counter : Int) : Except AuthError (List Nat) :=
  if 0 ≤ counter ∧ counter < 2 ^ 64 then
    .ok (((bitsOf 64 counter.toNat).toChunks 8).map parseBits)
  else .error (.internal "ERR_OUT_OF_RANGE")

def truncate (hmac : List Nat) : Nat :=
  let offset := hmac.getLastD 0 % 16
  (hmac.getD offset 0 % 128) * 2 ^ 24 + hmac.getD (offset + 1) 0 % 256 * 2 ^ 16 +
    hmac.getD (offset + 2) 0 % 256 * 2 ^ 8 + hmac.getD (offset + 3) 0 % 256

def hotp (env : AuthEnv) (secret : String) (counter : Int) : Except AuthError String := do
  let msg ← counterBytes counter
  let key ← base32Decode secret
  pure (padSix (truncate (env.hmacSha1 key msg) % 1000000))

/-- The code without its white space. -/
def cleanCode (code : String) : String :=
  String.ofList (code.toList.filter fun c => !isSpace c)

/-- `/^\d{6}$/` -/
def isSixDigits (code : String) : Bool :=
  code.toList.length == 6 && code.toList.all Char.isDigit

/-- The counters of the window around an instant, in the order they are tried. -/
def windowCounters (now : Instant) : List Int :=
  [now.fdiv 30000 - 1, now.fdiv 30000, now.fdiv 30000 + 1]

def verifyTotp (env : AuthEnv) (secret code : String) (now : Instant) :
    Except AuthError Bool :=
  let clean := cleanCode code
  if isSixDigits clean then
    (windowCounters now).anyM fun counter => do
      let expected ← hotp env secret counter
      pure (expected == clean)
  else pure false

/-! ## Recovery codes -/

/-- `${raw.slice(0, 5)}-${raw.slice(5)}` of ten characters. -/
def dashed (raw : List Char) : String :=
  String.ofList (raw.take 5 ++ '-' :: raw.drop 5)

/-- The upper-case hexadecimal text of random bytes. -/
def upperHex (bytes : List UInt8) : List Char :=
  bytes.flatMap fun b => (fixedHex 2 b.toNat).map Char.toUpper

def generateRecoveryCode : AuthTx String := do
  let bytes ← randomBytes 5
  pure (dashed (upperHex bytes))

def generateRecoveryCodes : AuthTx (List String) :=
  (List.range 8).mapM fun _ => generateRecoveryCode

/-- `.replace(/[^a-z0-9]/gi, '').toUpperCase()` -/
def normalizeRecoveryCode (code : String) : String :=
  String.ofList ((code.toList.filter Char.isAlphanum).map Char.toUpper)

def hashRecoveryCode (env : AuthEnv) (code : String) : String :=
  env.sha256 (normalizeRecoveryCode code)

/-! ## The second factor of an account -/

def recoveryHashes (value : Option (List String)) : List String := value.getD []

/-- `nextRecoveryHashes` is what is left of the recovery codes where one was consumed. -/
structure MfaVerification where
  ok : Bool
  nextRecoveryHashes : Option (List String) := none
  deriving DecidableEq

/-- The first test of `verifyMfaCode`; an empty secret counts as none. -/
def totpAccepts (env : AuthEnv) (user : User) (code : String) (now : Instant) :
    Except AuthError Bool :=
  match user.totpSecret with
  | none => pure false
  | some secret => if secret = "" then pure false else verifyTotp env secret code now

/-- The second test of `verifyMfaCode`. -/
def recoveryVerification (env : AuthEnv) (user : User) (code : String)
    (consumeRecovery : Bool) : MfaVerification :=
  let normalized := normalizeRecoveryCode code
  if normalized = "" then { ok := false }
  else
    let candidate := hashRecoveryCode env normalized
    let hashes := recoveryHashes user.mfaRecoveryCodes
    match hashes.findIdx? (· == candidate) with
    | none => { ok := false }
    | some index =>
        if consumeRecovery then { ok := true, nextRecoveryHashes := some (hashes.eraseIdx index) }
        else { ok := true }

def mfaVerification (env : AuthEnv) (user : User) (code : String) (consumeRecovery : Bool)
    (now : Instant) : Except AuthError MfaVerification := do
  if ← totpAccepts env user code now then pure { ok := true }
  else pure (recoveryVerification env user code consumeRecovery)

def verifyMfaCode (env : AuthEnv) (user : User) (code : String) (consumeRecovery : Bool) :
    AuthTx MfaVerification := do
  let now ← newDate
  fromExcept (mfaVerification env user code consumeRecovery now)

end Refearn.Auth
