/-
Module: Docta.Dev.Iam
Purpose: What the local provisioning says to the identity service and how it
  reads the answers: identifiers, requests and their failures, resource
  searches, and the application settings it asks for.
Trusted boundary: the identity service, an arbitrary relation between requests
  and outcomes
Main exports: Failure, Request, Outcome, Outcome.document, identifier, matching,
  ResourceKey, ResourceKey.Creates
-/
import Docta.Contract.Json
import Docta.Library.Fallible
import Docta.Library.Numerals

namespace Docta.Dev

open Contract Fallible

/-- Exceptions of the provisioning: a `DevError`, its subclass for answers with
an error status, and the exceptions of the host language that no caller
expects. -/
inductive Failure where
  | dev (message : JString)
  | iamHttp (message : JString) (statusCode : Nat)
  | raised (exception : String)
deriving DecidableEq, Repr

/-! ### Decoded values -/

/-- `bool(value)` -/
def truthy : Json → Bool
  | .null => false
  | .bool value => value
  | .int value => value ≠ 0
  | .float value => value ≠ 0
  | .str text => !text.isEmpty
  | .arr items => !items.isEmpty
  | .obj fields => !fields.isEmpty

/-- `bool(record.get(key))` -/
def given (record : Record) (key : String) : Bool :=
  match record.get key with
  | some value => truthy value
  | none => false

/-- `record.get(key, {})` -/
def part (record : Record) (key : String) : Json :=
  (record.get key).getD (.obj [])

/-- A value whose methods are used as those of a `dict`. -/
def asDict : Json → Except Failure Record
  | .obj fields => .ok fields
  | _ => .error (.raised "AttributeError")

/-- `value == text` -/
def isText (value : Option Json) (text : JString) : Bool :=
  match value with
  | some (.str found) => found = text
  | _ => false

/-- `record[key] = value` -/
def setItem (record : Record) (key : String) (value : Json) : Record :=
  if (record.get key).isSome then
    record.map fun field => if field.1 = JString.ofString key then (field.1, value) else field
  else record ++ [(JString.ofString key, value)]

/-- `record.pop(key, None)` -/
def popItem (record : Record) (key : String) : Record :=
  record.filter fun field => field.1 ≠ JString.ofString key

/-- `record.setdefault(key, value)` -/
def setDefault (record : Record) (key : String) (value : Json) : Record :=
  if (record.get key).isSome then record else setItem record key value

/-- The digits a conversion reads at most. -/
def maxDigits : Nat := 4300

/-- `int(text)` -/
def readInt (text : JString) : Except Failure Int := do
  let some chars := text.toText? | .error (.raised "ValueError")
  let stripped := Text.stripChars chars
  let (sign, unsigned) : Int × List Char := match stripped with
    | '-' :: rest => (-1, rest)
    | '+' :: rest => (1, rest)
    | rest => (1, rest)
  let some found := Numerals.digits Numerals.decimal unsigned | .error (.raised "ValueError")
  failIf (found.length > maxDigits) (.raised "ValueError")
  pure (sign * (found.foldl (fun value digit => value * 10 + digit) 0 : Nat))

/-- `int(value)` -/
def asInt : Json → Except Failure Int
  | .bool value => .ok (if value then 1 else 0)
  | .int value => .ok value
  | .float value => .ok (value.num.tdiv value.den)
  | .str text => readInt text
  | _ => .error (.raised "TypeError")

/-! ### Identifiers -/

/-- `[A-Za-z0-9@._-]` -/
def isIdentifierChar : JChar → Bool
  | .scalar char => char.isAlphanum || char ∈ ['@', '.', '_', '-']
  | .surrogate _ => false

def invalidIdentifier : JString :=
  JString.ofString "ZITADEL returned a missing or invalid resource identifier."

/-- The check of `identifier` on the value it found. -/
def checkIdentifier : Option Json → Except Failure JString
  | some (.str text) =>
      if 1 ≤ text.length ∧ text.length ≤ 200 ∧ text.all isIdentifierChar then .ok text
      else .error (.dev invalidIdentifier)
  | _ => .error (.dev invalidIdentifier)

/-- `identifier(document, key)` -/
def identifier (document : Json) (key : String) : Except Failure JString :=
  checkIdentifier (match document with
    | .obj fields => Record.get fields key
    | _ => none)

/-! ### Requests -/

inductive Method where
  | get
  | post
  | put
deriving DecidableEq, Repr

/-- The method as HTTP spells it. -/
def Method.text : Method → String
  | .get => "GET"
  | .post => "POST"
  | .put => "PUT"

/-- One request to the identity service. -/
structure Request where
  method : Method
  api : JString
  path : JString
  body : Option Json

/-- `api="/management/v1"` -/
def managementApi : JString := JString.ofString "/management/v1"

/-- `api="/admin/v1"` -/
def adminApi : JString := JString.ofString "/admin/v1"

/-- What the client makes of a request: an answer, whose body may be no JSON, or
a transport failure, which a lost response is too. -/
inductive Outcome where
  | response (statusCode : Nat) (body : Option Json)
  | failed

def unreachable : JString :=
  JString.ofString ("ZITADEL provisioning failed; no mutation was retried. " ++
    "Check service readiness and the local admin PAT.")

/-- The text of an answer with an error status. -/
def refusal (request : Request) (statusCode : Nat) : JString :=
  JString.ofString ("ZITADEL " ++ request.method.text ++ " ") ++ request.path ++
    JString.ofString (" failed (HTTP " ++ toString statusCode ++ "); " ++
      "no mutation was retried. Check local readiness/admin permissions.")

/-- `Provisioner.request` after the client answered: the document, or the error
that is raised. -/
def Outcome.document (request : Request) : Outcome → Except Failure Record
  | .failed => .error (.dev unreachable)
  | .response statusCode body =>
      if 200 ≤ statusCode ∧ statusCode < 300 then
        match body with
        | some (.obj fields) => .ok fields
        | _ => .error (.dev unreachable)
      else .error (.iamHttp (refusal request statusCode) statusCode)

/-- `self.request("GET", "/instances/me", api="/admin/v1")` -/
def instanceRequest : Request where
  method := .get
  api := adminApi
  path := JString.ofString "/instances/me"
  body := none

/-- The instance an answer to `instanceRequest` names. -/
def instanceOf (document : Record) : Except Failure JString :=
  identifier (part document "instance") "id"

/-- `self.request("GET", path)` -/
def getRequest (path : JString) : Request where
  method := .get
  api := managementApi
  path := path
  body := none

/-! ### Searching a resource -/

/-- `path + "/_search"` -/
def searchPath (path : JString) : JString :=
  path ++ JString.ofString "/_search"

/-- One field of an object. -/
def field (key : String) (value : Json) : JString × Json :=
  (JString.ofString key, value)

/-- The request of `Provisioner.find`. -/
def searchRequest (path name : JString) : Request where
  method := .post
  api := managementApi
  path := searchPath path
  body := some (.obj
    [field "query" (.obj [field "limit" (.int 100)]),
      field "queries" (.arr [.obj [field "nameQuery" (.obj
        [field "name" (.str name),
          field "method" (.str (JString.ofString "TEXT_QUERY_METHOD_EQUALS"))])]])])

/-- A row of a search result. -/
def asRow : Json → Except Failure Record
  | .obj fields => .ok fields
  | _ => .error (.dev (JString.ofString "Invalid ZITADEL resource search result."))

/-- The rows of a search result. -/
def resultRows (document : Record) : Except Failure (List Record) :=
  match (document.get "result").getD (.arr []) with
  | .arr items => items.mapM asRow
  | _ => .error (.dev (JString.ofString "Invalid ZITADEL resource search result."))

def ambiguous : JString :=
  JString.ofString "Ambiguous ZITADEL resources; resolve them before provisioning."

/-- `int(document.get("details", {}).get("totalResult", 0))` -/
def totalResult (document : Record) : Except Failure Int := do
  let details ← asDict (part document "details")
  asInt ((details.get "totalResult").getD (.int 0))

/-- What `Provisioner.find` reads in the answer of a search. -/
def matching (name : JString) (document : Record) : Except Failure (Option Record) := do
  let rows ← resultRows document
  let found := rows.filter fun row => isText (row.get "name") name
  failIf (found.length > 1) (.dev ambiguous)
  let total ← totalResult document
  failIf (total > 100) (.dev ambiguous)
  pure found.head?

/-! ### Creating a resource -/

/-- The resources a run provisions. -/
inductive ResourceKey where
  | project
  | app
deriving DecidableEq, Repr

/-- The key of the state file that holds the resource's identifier. -/
def ResourceKey.stateKey : ResourceKey → String
  | .project => "project_id"
  | .app => "app_id"

def projectsPath : JString := JString.ofString "/projects"

/-- `f"/projects/{project_id}"` -/
def projectPath (projectId : JString) : JString :=
  JString.ofString "/projects/" ++ projectId

/-- `f"/projects/{project_id}/apps"` -/
def appsPath (projectId : JString) : JString :=
  projectPath projectId ++ JString.ofString "/apps"

/-- `f"{apps_path}/{app_id}"` -/
def appPath (projectId appId : JString) : JString :=
  appsPath projectId ++ JString.ofString "/" ++ appId

/-- The last part of the path that creates an application. -/
def createAppSuffix : JString := JString.ofString "/apps/oidc"

/-- A request that creates the resource of a key: one posted to the path its
kind is created at. -/
def ResourceKey.Creates (key : ResourceKey) (request : Request) : Prop :=
  request.method = .post ∧ match key with
    | .project => request.path = projectsPath
    | .app => createAppSuffix <:+ request.path

instance (key : ResourceKey) (request : Request) : Decidable (key.Creates request) := by
  unfold ResourceKey.Creates
  cases key <;> infer_instance

/-- `self.request("POST", create_path, {"name": name} | body)` -/
def createRequest (path name : JString) (body : Record) : Request where
  method := .post
  api := managementApi
  path := path
  body := some (.obj (field "name" (.str name) :: body))

/-! ### The application's settings -/

/-- A value of the requested application configuration. -/
inductive Setting where
  | text (value : String)
  | texts (values : List JString)
  | enabled

/-- The value as it is sent. -/
def Setting.json : Setting → Json
  | .text value => .str (JString.ofString value)
  | .texts values => .arr (values.map .str)
  | .enabled => .bool true

/-- `found == value`; `True` equals the number one. -/
def Setting.agrees : Setting → Option Json → Bool
  | .text value, found => isText found (JString.ofString value)
  | .texts values, some (.arr items) =>
      items.length = values.length &&
        (items.zip values).all fun pair => isText (some pair.1) pair.2
  | .enabled, some (.bool value) => value
  | .enabled, some (.int value) => value = 1
  | .enabled, some (.float value) => value = 1
  | _, _ => false

end Docta.Dev
