import CipherMQ.Base64
import Mathlib.Algebra.Order.Ring.Nat

/-!
# The configuration of the server

The server reads its configuration once when it starts, and the storage worker
reads it again.  Loading checks the configuration and puts defaults for empty
log settings.  What is read from it later relies on more than the checks: the
administration server unwraps the paths of the certificates, which are only
checked for TLS connections, and the log size is multiplied without a bound.

Parsing the file is not modelled: a configuration is what the parser makes of
the file, without the fields that neither the checks nor these uses read.
-/

namespace CipherMQ

namespace Configuration

structure ServerConfig where
  connectionType : String
  deriving DecidableEq, Repr

structure TlsConfig where
  certPath : Option String
  keyPath : Option String
  caCertPath : Option String
  deriving DecidableEq, Repr

structure LoggingConfig where
  level : String
  rotation : String
  infoFilePath : String
  debugFilePath : String
  errorFilePath : String
  maxSizeMb : UInt64
  deriving DecidableEq, Repr

structure DatabaseConfig where
  host : String
  user : String
  dbname : String
  deriving DecidableEq, Repr

structure EncryptionConfig where
  algorithm : String
  aesKey : String
  deriving DecidableEq, Repr

structure AdminConfig where
  enabled : Bool
  deriving DecidableEq, Repr

structure Config where
  server : ServerConfig
  tls : TlsConfig
  logging : LoggingConfig
  database : DatabaseConfig
  encryption : EncryptionConfig
  admin : AdminConfig
  deriving DecidableEq, Repr

inductive ConfigError where
  | readError (error : String)
  | parseError (error : String)
  | missingField (field : String)
  deriving DecidableEq, Repr

/-! ## Loading -/

def requireSome (value : Option String) (field : String) :
    Except ConfigError Unit :=
  if value.isNone then .error (.missingField field) else .ok ()

def requireNonEmpty (value field : String) : Except ConfigError Unit :=
  if value.isEmpty then .error (.missingField field) else .ok ()

def checkTls (config : Config) : Except ConfigError Unit := do
  if config.server.connectionType = "tls" then
    requireSome config.tls.certPath "tls.cert_path"
    requireSome config.tls.keyPath "tls.key_path"
    requireSome config.tls.caCertPath "tls.ca_cert_path"

def checkDatabase (config : Config) : Except ConfigError Unit := do
  requireNonEmpty config.database.host "database.host"
  requireNonEmpty config.database.user "database.user"
  requireNonEmpty config.database.dbname "database.dbname"

/-- The key is 32 bytes in Base64.  `describe` is the decoder's account of
what is wrong with a text. -/
def checkEncryption (describe : String → String) (config : Config) :
    Except ConfigError Unit := do
  if config.encryption.algorithm ≠ "x25519_chacha20_poly1305" then
    .error (.missingField "encryption.algorithm")
  requireNonEmpty config.encryption.aesKey "encryption.aes_key"
  match Base64.decode config.encryption.aesKey with
  | none =>
      .error (.missingField
        ("Invalid AES key: " ++ describe config.encryption.aesKey))
  | some aesKey =>
      if aesKey.length ≠ 32 then
        .error (.missingField "encryption.aes_key")
      else
        .ok ()

def orDefault (value default : String) : String :=
  if value.isEmpty then default else value

def LoggingConfig.withDefaults (logging : LoggingConfig) : LoggingConfig where
  level := orDefault logging.level "info"
  rotation := orDefault logging.rotation "daily"
  infoFilePath := orDefault logging.infoFilePath "logs/info.log"
  debugFilePath := orDefault logging.debugFilePath "logs/debug.log"
  errorFilePath := orDefault logging.errorFilePath "logs/error.log"
  maxSizeMb := if logging.maxSizeMb = 0 then 10 else logging.maxSizeMb

def load (describe : String → String) (parsed : Except ConfigError Config) :
    Except ConfigError Config := do
  let config ← parsed
  checkTls config
  checkDatabase config
  checkEncryption describe config
  return { config with logging := config.logging.withDefaults }

/-! ## What is done with it -/

inductive Panic where
  | multiplyOverflow
  | unwrapNone
  | sliceLength
  | loadFailed (error : ConfigError)
  deriving DecidableEq, Repr

def unwrap (value : Option String) : Except Panic String :=
  match value with
  | some value => .ok value
  | none => .error .unwrapNone

/-- The log size in bytes.  Only a build with overflow checks notices that it
does not fit. -/
def maxFileSize (overflowChecks : Bool) (config : Config) :
    Except Panic UInt64 :=
  if overflowChecks ∧
      2 ^ 64 ≤ config.logging.maxSizeMb.toNat * 1000000 then
    .error .multiplyOverflow
  else
    .ok (config.logging.maxSizeMb * 1000000)

def adminPaths (config : Config) :
    Except Panic (Option (String × String × String)) := do
  if config.admin.enabled then
    let adminCert ← unwrap config.tls.certPath
    let adminKey ← unwrap config.tls.keyPath
    let adminCa ← unwrap config.tls.caCertPath
    return some (adminCert, adminKey, adminCa)
  else
    return none

/-- The key of the storage worker, from the configuration that it loads again.
Without a key the worker ends. -/
def workerKey (loaded : Except ConfigError Config) :
    Except Panic (Option (List UInt8)) :=
  match loaded with
  | .error error => .error (.loadFailed error)
  | .ok config =>
      match Base64.decode config.encryption.aesKey with
      | none => .ok none
      | some aesKey =>
          if aesKey.length = 32 then
            .ok (some aesKey)
          else
            .error .sliceLength

def startServer (overflowChecks : Bool) (describe : String → String)
    (parsed : Except ConfigError Config) (config : Config) :
    Except Panic
      (UInt64 × Option (List UInt8) × Option (String × String × String)) := do
  let size ← maxFileSize overflowChecks config
  let key ← workerKey (load describe parsed)
  let admin ← adminPaths config
  return (size, key, admin)

/-! ## What the checks establish -/

/-- A computation in two parts returns if both parts do. -/
theorem bind_eq_ok_iff {Error Value Result : Type}
    {first : Except Error Value} {next : Value → Except Error Result}
    {result : Result} :
    (first >>= next) = .ok result ↔
      ∃ value, first = .ok value ∧ next value = .ok result := by
  cases first with
  | error error => simp [bind, Except.bind]
  | ok value => simp [bind, Except.bind]

theorem seq_eq_ok_iff {Error Result : Type} {first : Except Error Unit}
    {next : Except Error Result} {result : Result} :
    (do first; next) = .ok result ↔
      first = .ok () ∧ next = .ok result := by
  rw [bind_eq_ok_iff]
  exact ⟨fun ⟨_, firstOk, nextOk⟩ => ⟨firstOk, nextOk⟩,
    fun ⟨firstOk, nextOk⟩ => ⟨(), firstOk, nextOk⟩⟩

theorem requireSome_ok_iff (value : Option String) (field : String) :
    requireSome value field = .ok () ↔ value.isSome = true := by
  cases value <;> simp [requireSome]

theorem requireNonEmpty_ok_iff (value field : String) :
    requireNonEmpty value field = .ok () ↔ value ≠ "" := by
  simp [requireNonEmpty]

def TlsConfig.Complete (tls : TlsConfig) : Prop :=
  tls.certPath.isSome = true ∧ tls.keyPath.isSome = true ∧
    tls.caCertPath.isSome = true

instance (tls : TlsConfig) : Decidable tls.Complete :=
  inferInstanceAs (Decidable (_ ∧ _))

structure Valid (config : Config) : Prop where
  tls : config.server.connectionType = "tls" → config.tls.Complete
  host : config.database.host ≠ ""
  user : config.database.user ≠ ""
  dbname : config.database.dbname ≠ ""
  algorithm : config.encryption.algorithm = "x25519_chacha20_poly1305"
  aesKey : ∃ bytes, Base64.decode config.encryption.aesKey = some bytes ∧
    bytes.length = 32

theorem checkTls_ok_iff (config : Config) :
    checkTls config = .ok () ↔
      (config.server.connectionType = "tls" → config.tls.Complete) := by
  unfold checkTls
  split
  · rename_i isTls
    rw [seq_eq_ok_iff, seq_eq_ok_iff, requireSome_ok_iff,
      requireSome_ok_iff, requireSome_ok_iff]
    simp [isTls, TlsConfig.Complete]
  · rename_i notTls
    simp [notTls, pure, Except.pure]

theorem checkDatabase_ok_iff (config : Config) :
    checkDatabase config = .ok () ↔
      config.database.host ≠ "" ∧ config.database.user ≠ "" ∧
        config.database.dbname ≠ "" := by
  unfold checkDatabase
  rw [seq_eq_ok_iff, seq_eq_ok_iff, requireNonEmpty_ok_iff,
    requireNonEmpty_ok_iff, requireNonEmpty_ok_iff]

theorem checkEncryption_ok_iff (describe : String → String)
    (config : Config) :
    checkEncryption describe config = .ok () ↔
      config.encryption.algorithm = "x25519_chacha20_poly1305" ∧
        ∃ bytes, Base64.decode config.encryption.aesKey = some bytes ∧
          bytes.length = 32 := by
  have empty : Base64.decode "" = some [] := by decide
  unfold checkEncryption
  by_cases isAlgorithm :
    config.encryption.algorithm = "x25519_chacha20_poly1305"
  · rw [if_neg (not_not.mpr isAlgorithm), seq_eq_ok_iff,
      requireNonEmpty_ok_iff]
    cases decoded : Base64.decode config.encryption.aesKey with
    | none => simp
    | some bytes =>
        have nonEmpty : bytes.length = 32 →
            config.encryption.aesKey ≠ "" := by
          intro isLength isEmpty
          rw [isEmpty, empty] at decoded
          cases decoded
          cases isLength
        by_cases isLength : bytes.length = 32
        · simp [isAlgorithm, isLength, nonEmpty isLength]
        · simp [isLength]
  · simp [isAlgorithm, bind, Except.bind]

/-- Loading succeeds exactly on configurations that pass the checks. -/
theorem load_ok_iff (describe : String → String)
    (parsed : Except ConfigError Config) (config : Config) :
    load describe parsed = .ok config ↔
      ∃ raw, parsed = .ok raw ∧ Valid raw ∧
        config = { raw with logging := raw.logging.withDefaults } := by
  unfold load
  rw [bind_eq_ok_iff]
  apply exists_congr
  intro raw
  rw [seq_eq_ok_iff, seq_eq_ok_iff, seq_eq_ok_iff, checkTls_ok_iff,
    checkDatabase_ok_iff, checkEncryption_ok_iff]
  constructor
  · rintro ⟨isRaw, tls, ⟨host, user, dbname⟩, ⟨algorithm, aesKey⟩, isConfig⟩
    exact ⟨isRaw, ⟨tls, host, user, dbname, algorithm, aesKey⟩,
      (Except.ok.inj isConfig).symm⟩
  · rintro ⟨isRaw, valid, rfl⟩
    exact ⟨isRaw, valid.tls, ⟨valid.host, valid.user, valid.dbname⟩,
      ⟨valid.algorithm, valid.aesKey⟩, rfl⟩

/-! ## What may still fail -/

theorem unwrap_ok_iff (value : Option String) :
    (∃ text, unwrap value = .ok text) ↔ value.isSome = true := by
  cases value <;> simp [unwrap]

theorem maxFileSize_ok_iff (overflowChecks : Bool) (config : Config) :
    (∃ size, maxFileSize overflowChecks config = .ok size) ↔
      (overflowChecks = true →
        config.logging.maxSizeMb.toNat * 1000000 < 2 ^ 64) := by
  unfold maxFileSize
  split
  · rename_i overflows
    simp only [reduceCtorEq, exists_false, false_iff]
    intro fits
    have := fits overflows.1
    omega
  · rename_i fits
    simp only [Except.ok.injEq, exists_eq', true_iff]
    intro isChecked
    by_contra overflows
    exact fits ⟨isChecked, by omega⟩

theorem adminPaths_ok_iff (config : Config) :
    (∃ paths, adminPaths config = .ok paths) ↔
      (config.admin.enabled = true → config.tls.Complete) := by
  unfold adminPaths TlsConfig.Complete
  split
  · rename_i enabled
    simp only [enabled, forall_const, ← unwrap_ok_iff, bind_eq_ok_iff]
    constructor
    · rintro ⟨_, cert, hasCert, key, hasKey, ca, hasCa, -⟩
      exact ⟨⟨cert, hasCert⟩, ⟨key, hasKey⟩, ⟨ca, hasCa⟩⟩
    · rintro ⟨⟨cert, hasCert⟩, ⟨key, hasKey⟩, ⟨ca, hasCa⟩⟩
      exact ⟨_, cert, hasCert, key, hasKey, ca, hasCa, rfl⟩
  · rename_i disabled
    constructor
    · intro _ enabled
      exact absurd enabled disabled
    · intro _
      exact ⟨none, rfl⟩

/-- The key of a configuration that passes the checks is one the cipher
takes. -/
theorem workerKey_of_valid {describe : String → String}
    {parsed : Except ConfigError Config} {config : Config}
    (loads : load describe parsed = .ok config) :
    ∃ key, workerKey (load describe parsed) = .ok (some key) ∧
      Base64.decode config.encryption.aesKey = some key ∧
      key.length = 32 := by
  obtain ⟨raw, -, valid, isConfig⟩ := (load_ok_iff _ _ _).mp loads
  obtain ⟨key, decoded, isLength⟩ := valid.aesKey
  have sameKey : config.encryption.aesKey = raw.encryption.aesKey := by
    rw [isConfig]
  refine ⟨key, ?_, by rw [sameKey, decoded], isLength⟩
  simp [workerKey, loads, sameKey, decoded, isLength]

/-- Nothing the server does with a configuration it has loaded panics, exactly
if the administration server is off or finds its paths, and the log size fits
or overflow is not checked.  The key always serves. -/
theorem startServer_ok_iff {describe : String → String}
    {parsed : Except ConfigError Config} {config : Config}
    (loads : load describe parsed = .ok config) (overflowChecks : Bool) :
    ((∃ result,
        startServer overflowChecks describe parsed config = .ok result) ↔
      (config.admin.enabled = true → config.tls.Complete) ∧
        (overflowChecks = true →
          config.logging.maxSizeMb.toNat * 1000000 < 2 ^ 64)) ∧
    (∃ key, workerKey (load describe parsed) = .ok (some key) ∧
      Base64.decode config.encryption.aesKey = some key ∧
      key.length = 32) := by
  have isKey := workerKey_of_valid loads
  refine ⟨?_, isKey⟩
  obtain ⟨key, hasKey, -⟩ := isKey
  rw [← maxFileSize_ok_iff, ← adminPaths_ok_iff]
  unfold startServer
  rw [hasKey]
  constructor
  · rintro ⟨result, started⟩
    obtain ⟨size, hasSize, keyed⟩ := bind_eq_ok_iff.mp started
    obtain ⟨_, _, administered⟩ := bind_eq_ok_iff.mp keyed
    obtain ⟨paths, hasPaths, _⟩ := bind_eq_ok_iff.mp administered
    exact ⟨⟨paths, hasPaths⟩, ⟨size, hasSize⟩⟩
  · rintro ⟨⟨paths, hasPaths⟩, ⟨size, hasSize⟩⟩
    rw [hasSize, hasPaths]
    exact ⟨_, rfl⟩

def sampleConfig (connectionType : String) (tls : TlsConfig)
    (maxSizeMb : UInt64) (admin : AdminConfig) : Config where
  server := ⟨connectionType⟩
  tls := tls
  logging := ⟨"INFO", "never", "logs/server_info.log",
    "logs/server_debug.log", "logs/server_error.log", maxSizeMb⟩
  database := ⟨"localhost", "user", "ciphermq"⟩
  encryption := ⟨"x25519_chacha20_poly1305",
    "AAAAAAAAAAAAAAAAAAAAAAAAAAAAAAAAAAAAAAAAAAA="⟩
  admin := admin

def tlsConfig : Config :=
  sampleConfig "tls" ⟨some "server.crt", some "server.key", some "ca.crt"⟩
    100 ⟨true⟩

def plainConfig : Config :=
  sampleConfig "tcp" ⟨none, none, none⟩ 100 ⟨true⟩

def hugeLogConfig : Config :=
  sampleConfig "tls" ⟨some "server.crt", some "server.key", some "ca.crt"⟩
    20000000000000 ⟨false⟩

theorem startServer_ok_iff_tlsConfig :
    ∃ result, startServer true id (.ok tlsConfig) tlsConfig = .ok result := by
  have loads : load id (.ok tlsConfig) = .ok tlsConfig := by decide +kernel
  exact (startServer_ok_iff loads true).1.mpr (by decide +kernel)

/-- Without TLS the paths of the administration server are missing, and a
large log size overflows. -/
theorem startServer_panics :
    load id (.ok plainConfig) = .ok plainConfig ∧
    startServer false id (.ok plainConfig) plainConfig =
      .error .unwrapNone ∧
    load id (.ok hugeLogConfig) = .ok hugeLogConfig ∧
    startServer true id (.ok hugeLogConfig) hugeLogConfig =
      .error .multiplyOverflow :=
  ⟨by decide +kernel, by decide +kernel, by decide +kernel,
    by decide +kernel⟩

end Configuration

end CipherMQ
