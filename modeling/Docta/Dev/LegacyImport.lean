/-
Module: Docta.Dev.LegacyImport
Purpose: The import of a checkout's private profile into the shared one, effect by
  effect: the checks of what is there, the fingerprint of the source, the staged copy
  and the three renames that publish it.
Trusted boundary: the parsers of the environment file and of JSON; a source is looked
  at as a whole, and read errors in the middle of a copy show as failing writes
Main exports: Readers, sourceFingerprint, copyPrivate, migrateLegacy, History, Event
-/
import Docta.Contract.Json
import Docta.Library.Fallible
import Docta.Library.Files
import Docta.Library.Sha256
import Docta.Library.Transition
import Mathlib.Data.List.Lex
import Mathlib.Data.List.Sort
import Mathlib.Data.String.Basic

namespace Docta.Dev.Legacy

open Contract Fallible Files

/-- The directories of the import: the shared profile and the `.devcontainer` of each
checkout. -/
inductive Root where
  | profile
  | checkout (index : Nat)
deriving DecidableEq, Repr

/-- Exceptions: a `StateError`, the two classes the import catches, and the end of the
recursion, which nobody catches. -/
inductive Failure where
  | state (message : String)
  /-- `OSError` -/
  | os
  /-- `UnicodeError` -/
  | unicode
  /-- `RecursionError` -/
  | recursion
deriving DecidableEq, Repr

abbrev Importing (α : Type) : Type := Program (Files.Effect Root) Files.Reply Failure α

/-- A decoded environment file. -/
abbrev Values : Type := List (String × Option String)

/-- Why a JSON file cannot be read. -/
inductive Unread where
  /-- `ValueError` or `UnicodeError` -/
  | invalid
  /-- `RecursionError` -/
  | nesting
deriving DecidableEq, Repr

/-- The parsers of files. -/
structure Readers where
  /-- `dict(dotenv_values(path, interpolate=False))`, or nothing when it cannot be decoded -/
  dotenvValues : List UInt8 → Option Values
  /-- `json.loads(path.read_text(encoding="utf-8"))` -/
  loads : List UInt8 → Except Unread Json

/-! ### Checks -/

/-- `PERSISTED_FIELDS` -/
def persistedFields : List String :=
  ["POSTGRES_USER", "POSTGRES_PASSWORD", "POSTGRES_DB", "MINIO_ROOT_USER", "MINIO_ROOT_PASSWORD",
    "RUSTFS_ACCESS_KEY", "RUSTFS_SECRET_KEY", "DOCTA_S3_BUCKET", "DOCTA_DEV_IAM_DB_USER",
    "DOCTA_DEV_IAM_DB_PASSWORD", "DOCTA_DEV_IAM_DB_NAME", "DOCTA_DEV_IAM_MASTERKEY",
    "DOCTA_DEV_LOGIN_USERNAME", "DOCTA_DEV_LOGIN_PASSWORD", "DOCTA_DEV_ORG_NAME",
    "DOCTA_DEV_BOOTSTRAP_USERNAME", "DOCTA_DEV_LOGIN_SERVICE_USERNAME",
    "DOCTA_DEV_OIDC_PROJECT_ID", "DOCTA_DEV_OIDC_CLIENT_ID", "DOCTA_WEB_OIDC_CLIENT_ID",
    "DOCTA_WEB_SESSION_SECRET"]

def linkMessage : String :=
  "Legacy private state contains a symbolic link; preserve it first."

def unsupportedMessage : String :=
  "Legacy private state contains an unsupported file; preserve it first."

def incompleteMessage : String :=
  "Incomplete shared development profile: state exists without configuration. " ++
    "Restore the matching managed .env before setup; no files were replaced."

def conflictMessage : String :=
  "Legacy and shared development profiles identify different persisted " ++
    "environments. Preserve both and restore the matching profile; no files were replaced."

def cannotImportMessage : String :=
  "Cannot import the legacy development profile; original files were preserved. " ++
    "Check private profile storage and restore matching configuration/state if needed."

/-- A value kept under its old name is there under the new one, too. -/
def adopt (old new : String) (values : Values) : Except Failure Values :=
  match values.lookup old, values.lookup new with
  | some value, some other =>
      if value ≠ other then
        .error (.state "Legacy and RustFS credentials disagree; profiles were preserved.")
      else .ok values
  | some value, none => .ok (values ++ [(new, value)])
  | none, _ => .ok values

/-- `_managed_values` -/
def managedValues (readers : Readers) : Node → Except Failure Values
  | .file _ bytes _ =>
      match readers.dotenvValues bytes with
      | none => .error .unicode
      | some values => do
          failIf (values.lookup "DOCTA_DEV_MANAGED" ≠ some (some "1"))
            (.state "Existing development configuration is not managed; preserve it first.")
          let values ← adopt "MINIO_ROOT_USER" "RUSTFS_ACCESS_KEY" values
          adopt "MINIO_ROOT_PASSWORD" "RUSTFS_SECRET_KEY" values
  | _ => .error (.state "Private development configuration must be a regular managed file.")

/-- `path.exists()` -/
def present : Option Node → Bool
  | none => false
  | some (.link dangling) => !dangling
  | some _ => true

/-- `path.is_symlink()` -/
def isLink : Option Node → Bool
  | some (.link _) => true
  | _ => false

/-- What an unreadable JSON file raises. -/
def unread (message : String) : Unread → Failure
  | .invalid => .state message
  | .nesting => .recursion

/-- `_identity` -/
def identity (readers : Readers) (found : Option Node) : Except Failure Record :=
  if present found = false then .ok []
  else match found with
    | some (.file _ bytes _) =>
        match readers.loads bytes with
        | .error error =>
            .error (unread "Cannot read private identity state; state was preserved." error)
        | .ok (.obj fields) => .ok fields
        | .ok _ => .error (.state "Invalid private identity state; state was preserved.")
    | _ => .error
        (.state "Private identity state must be a regular file; state was preserved.")

/-- The number of a value; `True` and `False` are one and zero. -/
def number? : Json → Option Rat
  | .bool value => some (if value then 1 else 0)
  | .int value => some value
  | .float value => some value
  | _ => none

mutual

/-- `first == second` -/
def equals : Json → Json → Bool
  | .null, .null => true
  | .str first, .str second => first = second
  | .arr first, .arr second => equalsItems first second
  | .obj first, .obj second => first.length = second.length && equalsFields first second
  | first, second => (number? first).isSome && number? first = number? second
termination_by structural first => first

def equalsItems : List Json → List Json → Bool
  | [], [] => true
  | first :: rest, second :: others => equals first second && equalsItems rest others
  | _, _ => false
termination_by structural items => items

def equalsFields : List (JString × Json) → List (JString × Json) → Bool
  | [], _ => true
  | field :: rest, others => equalsField field others && equalsFields rest others
termination_by structural fields => fields

def equalsField : JString × Json → List (JString × Json) → Bool
  | (name, value), others =>
      match others.find? fun other => other.1 = name with
      | some other => equals value other.2
      | none => false
termination_by structural field => field

end

/-- `_previous_source` -/
def previousSource (readers : Readers) (found : Option Node) : Except Failure (Option JString) :=
  let invalid : Failure := .state "Invalid private migration record; state was preserved."
  if present found = false then .ok none
  else match found with
    | some (.file _ bytes _) =>
        match readers.loads bytes with
        | .error error =>
            .error (unread "Cannot read private migration record; state was preserved." error)
        | .ok (.obj fields) => do
            failIf ((Record.get fields "version").any (equals · (.int 1)) = false) invalid
            match Record.get fields "sha256" with
            | some (.str fingerprint) => do
                failIf (fingerprint.length ≠ 64) invalid
                return some fingerprint
            | _ => .error invalid
        | .ok _ => .error invalid
    | _ => .error invalid

/-- Two profiles that differ in a persisted field both have. -/
def conflicting (legacy shared : Values) : Bool :=
  persistedFields.any fun key =>
    match legacy.lookup key, shared.lookup key with
    | some value, some other => value != other
    | _, _ => false

/-- Two identities that differ in an identifier both have. -/
def conflictingIdentity (legacy shared : Record) : Bool :=
  ["instance_id", "project_id", "app_id"].any fun key =>
    match legacy.get key, shared.get key with
    | some value, some other => !equals value other
    | _, _ => false

/-! ### The fingerprint -/

mutual

/-- `path.rglob("*")`, with the names that lead to each. -/
def descendants (front : List String) : Node → List (List String × Node)
  | .dir _ entries _ => descendantsOf front entries
  | _ => []

def descendantsOf (front : List String) : List (String × Node) → List (List String × Node)
  | [] => []
  | entry :: rest => entryDescendants front entry ++ descendantsOf front rest

def entryDescendants (front : List String) : String × Node → List (List String × Node)
  | (name, node) => (front ++ [name], node) :: descendants (front ++ [name]) node

end

/-- `len(value).to_bytes(8)` -/
def lengthPrefix (length : Nat) : List UInt8 :=
  (List.range 8).map fun index => UInt8.ofNat (length / 256 ^ (7 - index))

/-- `path.relative_to(legacy).as_posix().encode("utf-8")` -/
def nameBytes (names : List String) : List UInt8 :=
  (String.intercalate "/" names).toUTF8.toList

/-- What the digest is updated with for a file. -/
def fileRecord (names : List String) (bytes : List UInt8) : List UInt8 :=
  lengthPrefix (nameBytes names).length ++ nameBytes names ++ lengthPrefix bytes.length ++ bytes

/-- The loop over the files: directories are skipped, and nothing but files may be there. -/
def messageOf : List (List String × Node) → Except Failure (List UInt8)
  | [] => .ok []
  | (_, .link _) :: _ => .error (.state linkMessage)
  | (_, .special) :: _ => .error (.state unsupportedMessage)
  | (_, .dir _ _ _) :: rest => messageOf rest
  | (names, .file _ bytes _) :: rest => do
      let message ← messageOf rest
      return fileRecord names bytes ++ message

/-- The paths of the digest in their order. -/
def sourceFiles (env : Node) (state : Option Node) : List (List String × Node) :=
  ([".env"], env) ::
    (state.elim [] (descendants ["state"])).insertionSort fun first second => first.1 ≤ second.1

/-- `_source_fingerprint` -/
def sourceFingerprint (env : Node) (state : Option Node) : Except Failure String := do
  failIf (isLink state = true) (.state linkMessage)
  match state with
  | some (.file _ _ _) | some .special =>
      .error (.state "Legacy private state must be a directory; state was preserved.")
  | _ => do
      let message ← messageOf (sourceFiles env state)
      return String.ofList (Sha256.hexdigest message)

/-! ### The copy -/

/-- A file written as `_copy_private` does. -/
def writePrivate (parent : Path Root) (name : String) (bytes : List UInt8) : Importing Unit := do
  perform .os (.create parent name)
  perform .os (.chmod (parent.child name) 0o600)
  perform .os (.write (parent.child name) bytes)
  perform .os (.sync (parent.child name))

mutual

/-- `_copy_private` -/
def copyPrivate (parent : Path Root) (name : String) : Node → Importing Unit
  | .link _ => .raise (.state linkMessage)
  | .dir _ entries _ => do
      perform .os (.mkdir parent name 0o700)
      copyEntries (parent.child name) entries
      perform .os (.sync (parent.child name))
  | .file _ bytes _ => writePrivate parent name bytes
  | .special => .raise (.state unsupportedMessage)

def copyEntries (parent : Path Root) : List (String × Node) → Importing Unit
  | [] => pure ()
  | entry :: rest => do
      copyEntry parent entry
      copyEntries parent rest

def copyEntry (parent : Path Root) : String × Node → Importing Unit
  | (name, node) => copyPrivate parent name node

end

/-! ### The import -/

def targetEnv : Path Root := ⟨.profile, [".env"]⟩

def targetState : Path Root := ⟨.profile, ["state"]⟩

def provenance : Path Root := ⟨.profile, [".legacy-import.json"]⟩

/-- `json.dump({"version": 1, "sha256": fingerprint}, output)` -/
def provenanceText (fingerprint : String) : List UInt8 :=
  ("\x7b\"version\": 1, \"sha256\": \"" ++ fingerprint ++ "\"\x7d").toUTF8.toList

/-- An entry of the staging directory becomes an entry of the profile. -/
def publish (staging : Path Root) (name : String) : Importing Unit := do
  perform .os (.rename staging name .profile name)
  perform .os (.syncTop .profile)

/-- The state is copied when there is any. -/
def copyState (staging : Path Root) : Option Node → Importing Unit
  | some state => copyPrivate staging "state" state
  | none => pure ()

/-- The copies and the record in the temporary directory. -/
def prepare (legacy : Root) (env : Node) (fingerprint : String) (staging : Path Root) :
    Importing Unit := do
  let state ← perform .os (.look ⟨legacy, ["state"]⟩)
  copyState staging state
  copyPrivate staging ".env" env
  writePrivate staging ".legacy-import.json" (provenanceText fingerprint)
  perform .os (.sync staging)

/-- The state is published when it was copied. -/
def publishState (staging : Path Root) (staged : Option Node) : Importing Unit :=
  if present staged = true then publish staging "state" else pure ()

/-- The renames; the environment file comes last. -/
def publishAll (staging : Path Root) : Importing Unit := do
  let staged ← perform .os (.look (staging.child "state"))
  publishState staging staged
  publish staging ".legacy-import.json"
  publish staging ".env"

/-- The body of the `with` statement. -/
def stage (legacy : Root) (env : Node) (fingerprint temporary : String) : Importing Unit := do
  prepare legacy env fingerprint ⟨.profile, [temporary]⟩
  publishAll ⟨.profile, [temporary]⟩

/-- `with TemporaryDirectory(...) as temporary`: what is left of the directory is removed
however the body ends. -/
def withTemporary (body : String → Importing Unit) : Importing Unit := do
  let temporary ← perform .os (.mkdtemp .profile ".legacy-import-" 0o700)
  let result ← (body temporary).attempt
  perform .os (.rmtree .profile temporary)
  Program.ofExcept result

/-- The branch for a configured shared profile. -/
def compare (readers : Readers) (legacy : Root) (legacyValues sharedValues : Values)
    (fingerprint : String) : Importing Bool := do
  let record ← perform .os (.look provenance)
  let previous ← Program.ofExcept (previousSource readers record)
  if previous = some (JString.ofString fingerprint) then return false
  else do
    let found ← perform .os (.look ⟨legacy, ["state", "identity.json"]⟩)
    let legacyIdentity ← Program.ofExcept (identity readers found)
    let found ← perform .os (.look (targetState.child "identity.json"))
    let sharedIdentity ← Program.ofExcept (identity readers found)
    Program.raiseIf (conflicting legacyValues sharedValues = true ∨
      conflictingIdentity legacyIdentity sharedIdentity = true) (.state conflictMessage)
    return false

/-- The rest, for a checkout that has a profile. -/
def importFrom (readers : Readers) (legacy : Root) (shared : Option Values) (env : Node) :
    Importing Bool := do
  let legacyValues ← Program.ofExcept (managedValues readers env)
  let state ← perform .os (.look ⟨legacy, ["state"]⟩)
  let fingerprint ← Program.ofExcept (sourceFingerprint env state)
  match shared with
  | some sharedValues => compare readers legacy legacyValues sharedValues fingerprint
  | none => do
      withTemporary (stage legacy env fingerprint)
      return true

/-- `_managed_values(target_env) if target_env.exists() else None` -/
def sharedValues (readers : Readers) : Option Node → Except Failure (Option Values)
  | some env => (managedValues readers env).map some
  | none => .ok none

/-- The body of the `try` statement. -/
def migrate (readers : Readers) (legacy : Root) : Importing Bool := do
  perform .os (.mkdirs .profile)
  let env ← perform .os (.look targetEnv)
  let state ← perform .os (.look targetState)
  let record ← perform .os (.look provenance)
  Program.raiseIf (isLink env = true ∨ isLink state = true ∨ isLink record = true)
    (.state "Shared private state contains a symbolic link; preserve it first.")
  Program.raiseIf (present env = false ∧ (present state = true ∨ present record = true))
    (.state incompleteMessage)
  let shared ← Program.ofExcept (sharedValues readers env)
  let source ← perform .os (.look ⟨legacy, [".env"]⟩)
  match source with
  | none => return false
  | some source => importFrom readers legacy shared source

/-- `except (OSError, UnicodeError)` -/
def caught : Failure → Failure
  | .os => .state cannotImportMessage
  | .unicode => .state cannotImportMessage
  | failure => failure

/-- `migrate_legacy`; a checkout whose `.devcontainer` is the profile itself has nothing to
import. -/
def migrateLegacy (readers : Readers) : Option Root → Importing Bool
  | none => return false
  | some legacy => do
      let result ← (migrate readers legacy).attempt
      match result with
      | .ok imported => return imported
      | .error failure => .raise (caught failure)

/-! ### Runs -/

/-- The profile of a checkout. -/
structure Source where
  env : Node
  state : Option Node

/-- The profile that a checkout has. -/
def sourceOf (disk : Disk Root) (legacy : Root) : Option Source :=
  (disk.find ⟨legacy, [".env"]⟩).map fun env => ⟨env, disk.find ⟨legacy, ["state"]⟩⟩

/-- The entries that an import publishes. -/
def entryNames : List String := [".env", "state", ".legacy-import.json"]

/-- The disk, and the sources that the calls have found; no call reads these. -/
structure History where
  disk : Disk Root
  found : List Source := []

/-- What may happen to the disk, one after the other as the environment lock demands. -/
inductive Event (readers : Readers) : History → History → Prop
  /-- a call, complete or stopped anywhere -/
  | call (history : History) (index : Nat) (rest : Importing Bool) (after : Disk Root)
      (executed : Program.Executes Files.act (migrateLegacy readers (some (.checkout index)))
        history.disk rest after) :
      Event readers history
        ⟨after, (sourceOf history.disk (.checkout index)).toList ++ history.found⟩
  | crash (history : History) (after : Disk Root) (survives : history.disk.Survives after) :
      Event readers history ⟨after, history.found⟩
  /-- the checkouts change, and what else the profile has -/
  | edit (history : History) (after : Disk Root)
      (same : ∀ name ∈ entryNames, after .profile name = history.disk .profile name) :
      Event readers history ⟨after, history.found⟩

end Docta.Dev.Legacy
