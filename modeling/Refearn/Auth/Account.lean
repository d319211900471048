import Refearn.Auth.Login
/-!
# The account page

`changePassword` and the second factor of `account/account.service.ts`, which stores the
secret in the envelope of `common/secret-cipher.ts`.
-/

namespace Refearn.Auth

open Support Support.Transaction

/-! ## Envelopes -/

/-- What the account page takes from Node and from `otplib`. -/
structure AccountEnv where
  /-- whether `SECRET_WRITE_VERSION` asks for the versioned envelope -/
  writesV1 : Bool
  /-- `iv`, `tag` and ciphertext of the legacy envelope, each in base64 -/
  sealLegacy : String → String → String × String × String
  openLegacy : String → String → String → Option String
  /-- provider, key and payload of the versioned envelope, each in base64url -/
  sealV1 : Uuid → String → String → String × String × String
  openV1 : Uuid → String → String → String → Option String
  /-- `authenticator.generateSecret()` from the bytes it draws -/
  generateSecret : List UInt8 → String
  /-- `authenticator.verify({ token, secret })` with `window: 1` -/
  verifyToken : String → String → Instant → Bool

/-- The parts of a text between its dots. -/
def dotParts (text : String) : List String := (text.toList.splitOn '.').map String.ofList

/-- `secretCipher.encrypt` for the purpose `user-totp` of a user. -/
def encryptTotpSecret (account : AccountEnv) (userId : Uuid) (nonce plaintext : String) :
    String :=
  if account.writesV1 then
    let (provider, keyId, payload) := account.sealV1 userId nonce plaintext
    "v1" ++ "." ++ provider ++ "." ++ keyId ++ "." ++ payload
  else
    let (iv, tag, ciphertext) := account.sealLegacy nonce plaintext
    iv ++ "." ++ tag ++ "." ++ ciphertext

/-- `secretCipher.decrypt`; whatever goes wrong, the message is the same. -/
def decryptTotpSecret (account : AccountEnv) (userId : Uuid) (envelope : String) :
    Except AuthError String :=
  let opened :=
    match dotParts envelope with
    | ["v1", provider, keyId, payload] => account.openV1 userId provider keyId payload
    -- a versioned envelope of another length is none
    | "v1" :: _ => none
    | [iv, tag, ciphertext] => account.openLegacy iv tag ciphertext
    | _ => none
  match opened with
  | some plaintext => .ok plaintext
  | none => .error (.internal "secret decryption failed")

/-! ## Passwords -/

/-- What `changePassword` checks before it writes. -/
def checkPasswordChange (env : AuthEnv) (db : AuthDb) (userId : Uuid)
    (currentPassword newPassword : String) : Except AuthError PUnit :=
  match db.users.find? userId with
  | none => .error (.notFound "kullanici bulunamadi")
  | some user =>
      if env.verify user.passwordHash currentPassword then
        if newPassword = currentPassword then
          .error (.badRequest "yeni sifre eskisinden farkli olmali")
        else .ok ⟨⟩
      else .error (.badRequest "mevcut sifre yanlis")

/-- The two writes of `changePassword`; `revokedAt` was read before they began. -/
def storePassword (env : AuthEnv) (userId : Uuid) (newPassword : String)
    (revokedAt : Instant) : AuthTx PUnit := do
  let salt ← randomText
  update users userId (User.withPassword (env.hash salt newPassword))
    (keepsIndexes_user (fun _ => rfl) (fun _ => rfl))
  let _ ← revokeRefreshTokens userId revokedAt
  pure ⟨⟩

/-! ## The second factor -/

def User.withPendingSecret (envelope : String) (u : User) : User :=
  { u with totpSecret := some envelope, totpEnabledAt := none }

/-- `setup2fa`, with the secret it returns. -/
def setup2fa (account : AccountEnv) (userId : Uuid) : AuthTx String := do
  let db ← readDb
  let user ← orThrow (db.users.find? userId) (.notFound "kullanici bulunamadi")
  require (user.totpEnabledAt.isNone) (.badRequest "2fa zaten etkin")
  let bytes ← randomBytes 10
  let secret := account.generateSecret bytes
  let nonce ← randomText
  update users userId
    (User.withPendingSecret (encryptTotpSecret account userId nonce secret))
    (keepsIndexes_user (fun _ => rfl) (fun _ => rfl))
  pure secret

/-- `newRecoveryCode`; every character of a random code is a capital or a digit. -/
def newRecoveryCode : AuthTx String := do
  let code ← randomCode 10
  pure (dashed code.toList)

/-- The hash of a code without its dashes, in capitals. -/
def accountRecoveryHash (env : AuthEnv) (code : String) : String :=
  env.sha256 (String.ofList ((code.toList.filter (· != '-')).map Char.toUpper))

def User.withEnabled2fa (now : Instant) (hashes : List String) (u : User) : User :=
  { u with totpEnabledAt := some now, mfaRecoveryCodes := some hashes }

/-- `enable2fa`, with the recovery codes it returns. -/
def enable2fa (env : AuthEnv) (account : AccountEnv) (userId : Uuid) (code : String) :
    AuthTx (List String) := do
  let db ← readDb
  let user ← orThrow (db.users.find? userId) (.badRequest "once 2fa kurulumunu baslatin")
  let envelope ← orThrow (user.totpSecret.filter (· ≠ ""))
    (.badRequest "once 2fa kurulumunu baslatin")
  require (user.totpEnabledAt.isNone) (.badRequest "2fa zaten etkin")
  let secret ← fromExcept (decryptTotpSecret account userId envelope)
  let checkedAt ← newDate
  require (account.verifyToken (cleanCode code) secret checkedAt = true)
    (.badRequest "dogrulama kodu hatali")
  let recoveryCodes ← (List.range 10).mapM fun _ => newRecoveryCode
  let now ← newDate
  update users userId (User.withEnabled2fa now (recoveryCodes.map (accountRecoveryHash env)))
    (keepsIndexes_user (fun _ => rfl) (fun _ => rfl))
  pure recoveryCodes

def User.withDisabled2fa (u : User) : User :=
  { u with totpSecret := none, totpEnabledAt := none, mfaRecoveryCodes := none }

def disable2fa (env : AuthEnv) (userId : Uuid) (password : String) : AuthTx PUnit := do
  let db ← readDb
  let user ← orThrow (db.users.find? userId) (.notFound "kullanici bulunamadi")
  require (user.totpEnabledAt.isSome) (.badRequest "2fa etkin degil")
  require (env.verify user.passwordHash password = true) (.badRequest "sifre yanlis")
  update users userId User.withDisabled2fa (keepsIndexes_user (fun _ => rfl) (fun _ => rfl))

end Refearn.Auth
