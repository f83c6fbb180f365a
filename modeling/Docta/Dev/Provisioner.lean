/-
Module: Docta.Dev.Provisioner
Purpose: The provisioning of the local identity resources as a program over
  requests and writes of its state file: the search and the guarded creation of
  one resource, the recovery from a new instance, and a whole run.
Trusted boundary: the identity service and the container runtime answer
  arbitrarily; a write of the state file happens at once or not at all
Main exports: Effect, Provisioning, ensure, recover, provision, StateFile, Site,
  act, Run
-/
import Docta.Dev.Iam
import Docta.Library.Program
import Mathlib.Logic.Relation

namespace Docta.Dev

open Contract

/-! ### Effects -/

/-- Which method writes the state file: `ensure` and `provision` keep what is
saved, `recover` starts over. -/
inductive SaveOrigin where
  | progress
  | recovery
deriving DecidableEq, Repr

/-- The copies a recovery leaves beside the state file. -/
inductive Archive where
  | identity
  | environment
deriving DecidableEq, Repr

/-- What a run does to the world outside its memory. -/
inductive Effect where
  /-- `self.client.request` -/
  | request (request : Request)
  /-- `docker volume ls` -/
  | volumes
  /-- `private_write` of a copy of an existing file -/
  | archive (copy : Archive)
  /-- `Provisioner.save` -/
  | save (state : Record) (origin : SaveOrigin)

/-- What comes back: the outcome of a request; the volume names, when the
container runtime lists them; whether a write succeeded. -/
@[reducible] def Reply : Effect → Type
  | .request _ => Outcome
  | .volumes => Option (List JString)
  | .archive _ => Bool
  | .save _ _ => Bool

/-- A computation of the provisioner. -/
abbrev Provisioning (α : Type) : Type := Program Effect Reply Failure α

/-- A write that failed. -/
def writeFailure : Failure := .raised "OSError"

/-- `Provisioner.save` -/
def save (state : Record) (origin : SaveOrigin) : Provisioning Unit := do
  let written : Bool ← Program.call (Effect.save state origin)
  Program.raiseIf (written = false) writeFailure

/-- `Provisioner.request` -/
def sendRequest (request : Request) : Provisioning Record := do
  let outcome : Outcome ← Program.call (Effect.request request)
  Program.ofExcept (outcome.document request)

/-! ### One resource -/

/-- `Provisioner.find` -/
def find (path name : JString) : Provisioning (Option Record) := do
  let document ← sendRequest (searchRequest path name)
  Program.ofExcept (matching name document)

def unknownOutcome : JString :=
  JString.ofString ("A previous creation has an unknown outcome. Inspect the local " ++
    "ZITADEL project/application before retrying; state was preserved.")

/-- The arguments of `Provisioner.ensure`. -/
structure Resource where
  key : ResourceKey
  path : JString
  name : JString
  createPath : JString
  body : Record
  resultKey : String

/-- `ensure` after it knows the identifier: save it and clear the guard. -/
def conclude (key : ResourceKey) (state : Record) (resourceId : JString) :
    Provisioning (JString × Record) := do
  let concluded := popItem (setItem state key.stateKey (.str resourceId)) "pending"
  save concluded .progress
  pure (resourceId, concluded)

/-- The branch of `ensure` that creates the resource: the guard is saved before
the request is sent. -/
def create (resource : Resource) (state : Record) : Provisioning (JString × Record) := do
  Program.raiseIf (given state "pending" = true) (.dev unknownOutcome)
  let guarded := setItem state "pending" (.str (JString.ofString resource.key.stateKey))
  save guarded .progress
  let created ← sendRequest (createRequest resource.createPath resource.name resource.body)
  let resourceId ← Program.ofExcept (identifier (.obj created) resource.resultKey)
  conclude resource.key guarded resourceId

/-- `Provisioner.ensure`: the identifier of the resource and the state that the
provisioner then holds. -/
def ensure (resource : Resource) (state : Record) : Provisioning (JString × Record) := do
  match state.get resource.key.stateKey with
  | some saved => do
      let resourceId ← Program.ofExcept (checkIdentifier (some saved))
      pure (resourceId, state)
  | none => do
      let found ← find resource.path resource.name
      match found with
      | some row => do
          let resourceId ← Program.ofExcept (identifier (.obj row) "id")
          conclude resource.key state resourceId
      | none => create resource state

/-! ### Recovery -/

def volumesUnknown : JString :=
  JString.ofString ("Cannot check Docta data volumes; make Docker available before identity " ++
    "recovery. Local identity state was preserved.")

def volumesPresent : JString :=
  JString.ofString ("ZITADEL identity recovery requires absent Docta data volumes. Retained " ++
    "data uses the original identity subjects; restore the matching IAM database/bootstrap " ++
    "volumes and private configuration instead. No volumes or identity state were replaced.")

/-- The volumes that hold application data. -/
def dataVolumes : List JString :=
  [JString.ofString "docta-dev_postgres-data", JString.ofString "docta-dev_rustfs-data",
    JString.ofString "docta-dev_minio-data", JString.ofString "docta-dev_redis-data"]

/-- `guard_identity_recovery` -/
def guardIdentityRecovery : Provisioning Unit := do
  let listed : Option (List JString) ← Program.call Effect.volumes
  match listed with
  | none => .raise (.dev volumesUnknown)
  | some volumes => Program.raiseIf (∃ volume ∈ dataVolumes, volume ∈ volumes) (.dev volumesPresent)

/-- `private_write` of an archived copy. -/
def archive (copy : Archive) : Provisioning Unit := do
  let written : Bool ← Program.call (Effect.archive copy)
  Program.raiseIf (written = false) writeFailure

/-- The environment is archived when the provisioner knows its file;
`hasEnvironment` is `self.env_path is not None`. -/
def archiveEnvironment (hasEnvironment : Bool) : Provisioning Unit :=
  if hasEnvironment then archive .environment else pure ()

/-- The state a recovery starts over with. -/
def recoveredState (instanceId : JString) : Record :=
  [field "instance_id" (.str instanceId)]

/-- `Provisioner.recover` -/
def recover (hasEnvironment : Bool) (instanceId : JString) : Provisioning Record := do
  guardIdentityRecovery
  archive .identity
  archiveEnvironment hasEnvironment
  save (recoveredState instanceId) .recovery
  pure (recoveredState instanceId)

/-! ### A whole run -/

/-- The environment values a run reads. -/
structure Values where
  projectName : JString
  appName : JString
  webOrigin : JString
  redirectUri : JString
  /-- `DOCTA_DEV_OIDC_PROJECT_ID` -/
  projectId : Option JString

/-- A lost state file must not silently discard the environment's previous
project. -/
def rememberProject (values : Values) (state : Record) : Except Failure Record :=
  match state, values.projectId with
  | [], some projectId =>
      if projectId.isEmpty then .ok []
      else do
        let checked ← checkIdentifier (some (.str projectId))
        .ok [field "project_id" (.str checked)]
  | _, _ => .ok state

def recoveryRefused : JString :=
  JString.ofString ("Identity recovery requires legacy state with a missing project and no " ++
    "pending creation. Inspect the named resource or restore matching IAM volumes; local " ++
    "state was preserved.")

def projectExists : JString :=
  JString.ofString "Saved ZITADEL project still exists; local state was preserved."

/-- The explicit recovery: only of a state that names no instance, from a
project the service no longer knows. -/
def recoverLegacy (hasEnvironment : Bool) (instanceId : JString) (state : Record) :
    Provisioning Record := do
  Program.raiseIf (given state "instance_id" = true ∨ given state "pending" = true ∨
    (state.get "project_id").isNone) (.dev recoveryRefused)
  let answer ← Program.attempt do
    let projectId ← Program.ofExcept (checkIdentifier (state.get "project_id"))
    sendRequest (getRequest (projectPath projectId))
  match answer with
  | .ok _ => .raise (.dev projectExists)
  | .error (.iamHttp message statusCode) =>
      if statusCode = 404 then recover hasEnvironment instanceId
      else .raise (.iamHttp message statusCode)
  | .error failure => .raise failure

/-- The state names another instance than the one that answered. -/
def movedInstance (instanceId : JString) (state : Record) : Bool :=
  given state "instance_id" && !isText (state.get "instance_id") instanceId

/-- The state a run goes on with: recovered, when the instance is another one or
when the caller asks for it. -/
def settle (hasEnvironment : Bool) (instanceId : JString) (recoverIdentity : Bool)
    (state : Record) : Provisioning Record :=
  if movedInstance instanceId state then recover hasEnvironment instanceId
  else if recoverIdentity then recoverLegacy hasEnvironment instanceId state
  else pure state

/-- `self.state["instance_id"] = instance_id` and the write that follows. -/
def bindInstance (instanceId : JString) (state : Record) : Provisioning Record := do
  let bound := setItem state "instance_id" (.str instanceId)
  save bound .progress
  pure bound

/-- `if not self.state:` a fresh state begins with its instance. -/
def nameFresh (instanceId : JString) (state : Record) : Provisioning Record :=
  if state.isEmpty then bindInstance instanceId state else pure state

/-- `if "instance_id" not in self.state:` a legacy state is bound once its project
is confirmed. -/
def nameLegacy (instanceId : JString) (state : Record) : Provisioning Record :=
  if (state.get "instance_id").isNone then bindInstance instanceId state else pure state

def projectResource (values : Values) : Resource where
  key := .project
  path := projectsPath
  name := values.projectName
  createPath := projectsPath
  body := []
  resultKey := "id"

def missingUnbound : JString :=
  JString.ofString ("Saved ZITADEL project no longer exists. Local files still reference old " ++
    "IDs; Docta infrastructure was not started. After intentionally deleting both IAM and " ++
    "Docta data volumes, run npm run dev:recover-identity. Otherwise restore the matching IAM " ++
    "backup.")

def missingBound : JString :=
  JString.ofString ("Saved project is missing from the same ZITADEL instance. Inspect the " ++
    "named resource or restore the matching IAM backup; local state was preserved.")

def projectMismatch : JString :=
  JString.ofString "Saved project is missing, inactive or does not match this workspace."

/-- The check of the saved project; `wasBound` is whether the state named an
instance when the run began. -/
def checkProject (values : Values) (wasBound : Bool) (projectId : JString) :
    Provisioning Unit := do
  let answer ← Program.attempt (sendRequest (getRequest (projectPath projectId)))
  match answer with
  | .ok document => do
      let project ← Program.ofExcept (asDict (part document "project"))
      Program.raiseIf (¬ isText (project.get "name") values.projectName ∨
        ¬ isText (project.get "state") (JString.ofString "PROJECT_STATE_ACTIVE"))
        (.dev projectMismatch)
  | .error (.iamHttp message statusCode) =>
      if statusCode = 404 then .raise (.dev (if wasBound then missingBound else missingUnbound))
      else .raise (.iamHttp message statusCode)
  | .error failure => .raise failure

/-- The requested application configuration. -/
def config (values : Values) : List (String × Setting) :=
  [("redirectUris", .texts [values.webOrigin ++ JString.ofString "/auth/callback",
      values.redirectUri]),
    ("postLogoutRedirectUris", .texts [values.webOrigin]),
    ("responseTypes", .texts [JString.ofString "OIDC_RESPONSE_TYPE_CODE"]),
    ("grantTypes", .texts [JString.ofString "OIDC_GRANT_TYPE_AUTHORIZATION_CODE"]),
    ("appType", .text "OIDC_APP_TYPE_WEB"),
    ("authMethodType", .text "OIDC_AUTH_METHOD_TYPE_NONE"),
    ("devMode", .enabled),
    ("accessTokenType", .text "OIDC_TOKEN_TYPE_JWT")]

/-- The configuration as it is sent. -/
def configBody (values : Values) : Record :=
  (config values).map fun setting => field setting.1 setting.2.json

def appResource (values : Values) (projectId : JString) : Resource where
  key := .app
  path := appsPath projectId
  name := values.appName
  createPath := appsPath projectId ++ JString.ofString "/oidc"
  body := configBody values ++ [field "version" (.str (JString.ofString "OIDC_VERSION_1_0"))]
  resultKey := "appId"

def appMismatch : JString :=
  JString.ofString "Saved application is missing, inactive or mismatched."

def appNotOidc : JString :=
  JString.ofString "Saved application is not OIDC."

def configUnconfirmed : JString :=
  JString.ofString "ZITADEL did not confirm the requested PKCE/JWT configuration."

/-- The settings read back, where the service omits the default application
type. -/
def withAppType (value : Json) : Except Failure Record := do
  let actual ← asDict value
  .ok (setDefault actual "appType" (.str (JString.ofString "OIDC_APP_TYPE_WEB")))

/-- `any(actual.get(key) != value for key, value in config.items())` -/
def drifted (values : Values) (actual : Record) : Bool :=
  (config values).any fun setting => !setting.2.agrees (actual.get setting.1)

/-- `self.request("PUT", apps_path + f"/{app_id}/oidc_config", config)` -/
def updateRequest (values : Values) (projectId appId : JString) : Request where
  method := .put
  api := managementApi
  path := appPath projectId appId ++ JString.ofString "/oidc_config"
  body := some (.obj (configBody values))

/-- The check of the saved application, which writes its settings again where
they differ; the settings in the end. -/
def checkApp (values : Values) (projectId appId : JString) : Provisioning Record := do
  let document ← sendRequest (getRequest (appPath projectId appId))
  let app ← Program.ofExcept (asDict (part document "app"))
  Program.raiseIf (¬ isText (app.get "name") values.appName ∨
    ¬ isText (app.get "state") (JString.ofString "APP_STATE_ACTIVE")) (.dev appMismatch)
  Program.raiseIf (truthy (part app "oidcConfig") = false) (.dev appNotOidc)
  let actual ← Program.ofExcept (withAppType (part app "oidcConfig"))
  if drifted values actual then do
    let _ ← sendRequest (updateRequest values projectId appId)
    let again ← sendRequest (getRequest (appPath projectId appId))
    let confirmed ← Program.ofExcept (asDict (part again "app"))
    let updated ← Program.ofExcept (withAppType (part confirmed "oidcConfig"))
    Program.raiseIf (drifted values updated = true) (.dev configUnconfirmed)
    pure updated
  else pure actual

/-- The environment values a run returns. -/
def updates (projectId clientId : JString) : List (String × JString) :=
  [("DOCTA_OIDC_AUDIENCE", projectId),
    ("DOCTA_DEV_OIDC_PROJECT_ID", projectId),
    ("DOCTA_WEB_OIDC_CLIENT_ID", clientId),
    ("DOCTA_DEV_OIDC_CLIENT_ID", clientId),
    ("DOCTA_WEB_OIDC_SCOPES", JString.ofString "openid profile urn:zitadel:iam:org:project:id:" ++
      projectId ++ JString.ofString ":aud")]

/-- The state as a run loaded it, once the lost project is remembered. -/
def loaded (values : Values) (stored : Json) : Except Failure Record := do
  let state ← asDict stored
  rememberProject values state

/-- `Provisioner.provision` with the state the constructor read. -/
def provision (hasEnvironment : Bool) (values : Values) (recoverIdentity : Bool) (stored : Json) :
    Provisioning (List (String × JString)) := do
  let answer ← sendRequest instanceRequest
  let instanceId ← Program.ofExcept (instanceOf answer)
  let initial ← Program.ofExcept (loaded values stored)
  let settled ← settle hasEnvironment instanceId recoverIdentity initial
  let named ← nameFresh instanceId settled
  let (projectId, ensured) ← ensure (projectResource values) named
  checkProject values (given initial "instance_id") projectId
  let bound ← nameLegacy instanceId ensured
  let (appId, _) ← ensure (appResource values projectId) bound
  let actual ← checkApp values projectId appId
  let clientId ← Program.ofExcept (checkIdentifier (actual.get "clientId"))
  pure (updates projectId clientId)

/-! ### Runs over the state file -/

/-- The state file: `json.loads` decodes it, or fails to. -/
inductive StateFile where
  | absent
  | unreadable
  | document (value : Json)

/-- `Provisioner(...).provision(values, recover_identity=...)`: the constructor
reads the file, then the run begins. -/
def provisioning (hasEnvironment : Bool) (values : Values) (recoverIdentity : Bool) :
    StateFile → Provisioning (List (String × JString))
  | .absent => provision hasEnvironment values recoverIdentity (.obj [])
  | .unreadable => .raise (.raised "ValueError")
  | .document value => provision hasEnvironment values recoverIdentity value

/-- What the history remembers of the runs. -/
inductive Event where
  | sent (request : Request)
  | saved (state : Record)
  | recovered (state : Record)

/-- The durable world of the runs: the state file, and everything sent and saved
so far, the newest first. -/
structure Site where
  file : StateFile
  log : List Event

/-- The event of a write. -/
def SaveOrigin.event : SaveOrigin → Record → Event
  | .progress => .saved
  | .recovery => .recovered

/-- What an effect does.  A request is answered in any way `answers` allows; a
write of the state file happens at once or fails and changes nothing. -/
def act (answers : Request → Outcome → Prop) : Program.Action Effect Reply Site
  | .request request, before, outcome, after =>
      answers request outcome ∧ after = ⟨before.file, .sent request :: before.log⟩
  | .volumes, before, _, after => after = before
  | .archive _, before, _, after => after = before
  | .save state origin, before, written, after =>
      after = if written then ⟨.document (.obj state), origin.event state :: before.log⟩
        else before

/-- One run of the provisioner, complete or stopped anywhere: what is left of it
and the site it leaves. -/
inductive Runs (answers : Request → Outcome → Prop) (before : Site)
    (rest : Provisioning (List (String × JString))) (after : Site) : Prop where
  | run (hasEnvironment : Bool) (values : Values) (recoverIdentity : Bool)
      (executed : Program.Executes (act answers)
        (provisioning hasEnvironment values recoverIdentity before.file) before rest after)

/-- A run as a step of the site. -/
def Run (answers : Request → Outcome → Prop) (before after : Site) : Prop :=
  ∃ rest, Runs answers before rest after

end Docta.Dev
