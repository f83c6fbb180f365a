/-
Module: Docta.Dev.Environment
Purpose: The checks a managed environment has to pass: ports, database roles,
  secrets, names, the values derived from others, and the application's settings.
Trusted boundary: the validation of the application's settings is a parameter
Main exports: Environment, derivedValues, validateEnvironment
-/
import Docta.Dev.Iam

namespace Docta.Dev

open Contract Fallible

/-- `dict[str, str]` -/
abbrev Environment : Type := List (String × String)

/-- `PORT_DEFAULTS` -/
def portDefaults : Environment :=
  [("DOCTA_DEV_WEB_PORT", "13000"), ("DOCTA_DEV_API_PORT", "18000"),
    ("DOCTA_DEV_IAM_PORT", "18080"), ("DOCTA_DEV_CALLBACK_PORT", "18765"),
    ("POSTGRES_PORT", "15432"), ("REDIS_PORT", "16379"), ("RUSTFS_API_PORT", "19000"),
    ("RUSTFS_CONSOLE_PORT", "19001")]

/-- `DevError(message)` -/
def devError (message : String) : Failure :=
  .dev (JString.ofString message)

/-- `values[key]` -/
def item (values : Environment) (key : String) : Except Failure String :=
  match values.lookup key with
  | some value => .ok value
  | none => .error (.raised "KeyError")

/-- `values.get(key, "")` -/
def itemOrEmpty (values : Environment) (key : String) : String :=
  (values.lookup key).getD ""

/-! ### Derived values -/

/-- The characters `quote` leaves as they are. -/
def isUnreserved (char : Char) : Bool :=
  char.isAlphanum || char ∈ ['_', '.', '-', '~']

/-- A byte as `quote` writes it. -/
def percentByte (byte : UInt8) : List Char :=
  let digit (value : Nat) : Char := "0123456789ABCDEF".toList.getD value '0'
  ['%', digit (byte.toNat / 16), digit (byte.toNat % 16)]

/-- `quote(text, safe="")` -/
def quote (text : String) : String :=
  String.ofList (text.toList.flatMap fun char =>
    if isUnreserved char then [char] else (String.utf8EncodeChar char).flatMap percentByte)

/-- `derived_values(values)` -/
def derivedValues (values : Environment) : Except Failure Environment := do
  let iamPort ← item values "DOCTA_DEV_IAM_PORT"
  let issuer := "http://localhost:" ++ iamPort
  let storagePort ← item values "RUSTFS_API_PORT"
  let storage := "http://127.0.0.1:" ++ storagePort
  let user ← quote <$> item values "POSTGRES_USER"
  let password ← quote <$> item values "POSTGRES_PASSWORD"
  let database ← quote <$> item values "POSTGRES_DB"
  let iamUser ← quote <$> item values "DOCTA_DEV_IAM_DB_USER"
  let iamPassword ← quote <$> item values "DOCTA_DEV_IAM_DB_PASSWORD"
  let iamDatabase ← quote <$> item values "DOCTA_DEV_IAM_DB_NAME"
  let port ← item values "POSTGRES_PORT"
  let apiPort ← item values "DOCTA_DEV_API_PORT"
  let webPort ← item values "DOCTA_DEV_WEB_PORT"
  let accessKey ← item values "RUSTFS_ACCESS_KEY"
  let secretKey ← item values "RUSTFS_SECRET_KEY"
  let redisPort ← item values "REDIS_PORT"
  let callbackPort ← item values "DOCTA_DEV_CALLBACK_PORT"
  let login ← item values "DOCTA_DEV_LOGIN_USERNAME"
  pure [
    ("DOCTA_DATABASE_URL",
      "postgresql://" ++ user ++ ":" ++ password ++ "@127.0.0.1:" ++ port ++ "/" ++ database),
    ("DOCTA_DEV_WORKER_DATABASE_URL",
      "postgresql://" ++ user ++ ":" ++ password ++ "@postgres:5432/" ++ database),
    ("DOCTA_DEV_IAM_DATABASE_DSN",
      "postgresql://" ++ iamUser ++ ":" ++ iamPassword ++ "@postgres:5432/" ++ iamDatabase ++
        "?sslmode=disable"),
    ("DOCTA_API_BASE_URL", "http://127.0.0.1:" ++ apiPort),
    ("DOCTA_WEB_ORIGIN", "http://127.0.0.1:" ++ webPort),
    ("DOCTA_S3_ENDPOINT_URL", storage),
    ("DOCTA_STORAGE_HEALTH_URL", storage ++ "/health/ready"),
    ("DOCTA_S3_ACCESS_KEY", accessKey),
    ("DOCTA_S3_SECRET_KEY", secretKey),
    ("DOCTA_REDIS_URL", "redis://127.0.0.1:" ++ redisPort ++ "/0"),
    ("DOCTA_OIDC_ISSUER", issuer),
    ("DOCTA_OIDC_JWKS_URL", issuer ++ "/oauth/v2/keys"),
    ("DOCTA_DEV_OIDC_ISSUER", issuer),
    ("DOCTA_DEV_OIDC_REDIRECT_URI", "http://127.0.0.1:" ++ callbackPort ++ "/callback"),
    ("DOCTA_DEV_OIDC_LOGIN_HINT", login)]

/-! ### The checks -/

/-- The application's settings: the names of its fields, and the fields the
validation of some values refuses. -/
structure SettingsModel where
  fields : List String
  refused : Environment → Option (List String)

/-- `[a-z_][a-z0-9_]{0,62}` -/
def isRoleName (text : String) : Bool :=
  match text.toList with
  | [] => false
  | first :: rest =>
      (first.isLower || first = '_') && rest.length ≤ 62 &&
        rest.all fun char => char.isLower || char.isDigit || char = '_'

/-- `[a-z0-9][a-z0-9-]{1,61}[a-z0-9]` -/
def isBucketName (text : String) : Bool :=
  let plain (char : Char) : Bool := char.isLower || char.isDigit
  let chars := text.toList
  3 ≤ chars.length && chars.length ≤ 63 && chars.head?.any plain && chars.getLast?.any plain &&
    chars.all fun char => plain char || char = '-'

/-- `for key in (...)`: every key passes its check. -/
def checkEach (keys : List String) (fails : String → Bool) (error : String → Failure) :
    Except Failure Unit :=
  match keys.find? fails with
  | some key => .error (error key)
  | none => .ok ()

/-- The keys of the secrets. -/
def secretKeys : List String :=
  ["POSTGRES_PASSWORD", "RUSTFS_SECRET_KEY", "DOCTA_DEV_IAM_DB_PASSWORD",
    "DOCTA_DEV_LOGIN_PASSWORD", "DOCTA_WEB_SESSION_SECRET", "DOCTA_DEV_IAM_MASTERKEY"]

/-- The keys of the names. -/
def nameKeys : List String :=
  ["DOCTA_DEV_LOGIN_USERNAME", "DOCTA_DEV_LOGIN_EMAIL", "DOCTA_DEV_ORG_NAME",
    "DOCTA_DEV_PROJECT_NAME", "DOCTA_DEV_APP_NAME", "DOCTA_DEV_BOOTSTRAP_USERNAME",
    "DOCTA_DEV_LOGIN_SERVICE_USERNAME"]

/-- A missing secret, or one that holds a line break or NUL. -/
def isBadSecret (values : Environment) (key : String) : Bool :=
  itemOrEmpty values key = "" ||
    (itemOrEmpty values key).toList.any fun char => char ∈ ['\r', '\n', Char.ofNat 0]

/-- A missing name, or one that holds a control character. -/
def isBadName (values : Environment) (key : String) : Bool :=
  Text.isBlank (itemOrEmpty values key) ||
    (itemOrEmpty values key).toList.any fun char => char.toNat < 32

/-- `dict[key] = value` -/
def put (values : Environment) (key value : String) : Environment :=
  if values.any fun entry => entry.1 = key then
    values.map fun entry => if entry.1 = key then (key, value) else entry
  else values ++ [(key, value)]

/-- `key.removeprefix("DOCTA_").lower()` -/
def fieldName (unicode : Text.UnicodeData) (key : String) : String :=
  let chars := key.toList
  String.ofList (unicode.lower
    (if "DOCTA_".toList.isPrefixOf chars then chars.drop 6 else chars))

/-- What `DeveloperSettings` is built from. -/
def suppliedSettings (unicode : Text.UnicodeData) (model : SettingsModel)
    (values : Environment) : Environment :=
  let supplied := (values.filter fun entry =>
      fieldName unicode entry.1 ∈ model.fields && entry.2 ≠ "").foldl
    (fun settings entry => put settings (fieldName unicode entry.1) entry.2) []
  if itemOrEmpty values "DOCTA_OIDC_AUDIENCE" = "" then
    supplied.filter fun entry => entry.1 ≠ "oidc_issuer" && entry.1 ≠ "oidc_jwks_url"
  else supplied

/-- The message about refused settings. -/
def settingsMessage (fields : List String) : String :=
  "Invalid application configuration" ++
    (if fields = [] then "" else " (" ++ ", ".intercalate fields ++ ")") ++
    "; check tutor and embedding settings, templates and timeouts. Values are hidden."

/-- `DeveloperSettings(**settings)` -/
def checkSettings (model : SettingsModel) (settings : Environment) : Except Failure Unit :=
  match model.refused settings with
  | none => .ok ()
  | some fields => .error (devError (settingsMessage fields))

/-- `validate_environment(values)` -/
def validateEnvironment (unicode : Text.UnicodeData) (model : SettingsModel)
    (values : Environment) : Except Failure Unit := do
  failIf (values.lookup "DOCTA_DEV_MANAGED" ≠ some "1")
    (devError "Existing .devcontainer/.env is not managed; preserve it before setup.")
  let ports ← portDefaults.mapM fun port => do
    let value ← item values port.1
    readInt (JString.ofString value)
  failIf ((ports.any fun port => port < 1024 || port > 65535) ∨ ¬ ports.Nodup)
    (devError "Development ports must be distinct integers between 1024 and 65535.")
  checkEach ["POSTGRES_USER", "POSTGRES_DB", "DOCTA_DEV_IAM_DB_USER", "DOCTA_DEV_IAM_DB_NAME"]
    (fun key => ! isRoleName (itemOrEmpty values key))
    fun key => devError ("Invalid " ++ key ++ "; use a lowercase PostgreSQL identifier.")
  checkEach secretKeys (isBadSecret values)
    fun key => devError
      ("Missing or invalid secret in " ++ key ++ "; values are not displayed.")
  let sessionSecret ← item values "DOCTA_WEB_SESSION_SECRET"
  failIf (sessionSecret.length < 32)
    (devError "DOCTA_WEB_SESSION_SECRET requires at least 32 characters.")
  let masterKey ← item values "DOCTA_DEV_IAM_MASTERKEY"
  failIf (masterKey.utf8ByteSize ≠ 32)
    (devError "DOCTA_DEV_IAM_MASTERKEY requires exactly 32 bytes.")
  let storageSecret ← item values "RUSTFS_SECRET_KEY"
  failIf ((itemOrEmpty values "RUSTFS_ACCESS_KEY").length < 3 ∨ storageSecret.length < 8)
    (devError "RustFS requires an access key of 3+ and a secret of 8+ characters.")
  failIf (¬ isBucketName (itemOrEmpty values "DOCTA_S3_BUCKET"))
    (devError "Use a document bucket of 3-63 lowercase letters, digits or hyphens.")
  checkEach nameKeys (isBadName values) fun key => devError ("Missing or invalid " ++ key ++ ".")
  let email ← item values "DOCTA_DEV_LOGIN_EMAIL"
  failIf ('@' ∉ email.toList) (devError "The local administrator needs an email address.")
  let derived ← derivedValues values
  let mismatched := (derived.filter fun entry => values.lookup entry.1 ≠ some entry.2).map (·.1)
  failIf (mismatched ≠ []) (devError
    ("Managed endpoints/credentials disagree: " ++ ", ".intercalate mismatched ++ "."))
  checkSettings model (suppliedSettings unicode model values)

/-! ### What a checked environment promises -/

end Docta.Dev
