/-
Module: Docta.Dev.Provisioning
Purpose: Whole sequences of provisioning runs, each complete or stopped anywhere:
  every resource is created at most once between two recoveries, saved
  identifiers stay, and a creation of unknown outcome is never repeated.
Trusted boundary: the identity service answers arbitrarily, but names one
  instance
Main exports: creations, Guarded, Follows, Unresolved, provisions_once
-/
import Docta.Dev.Provisioner
import Mathlib.Data.List.Infix

namespace Docta.Dev

open Contract

/-! ### Records -/

theorem get_cons (head : JString × Json) (rest : Record) (key : String) :
    Record.get (head :: rest) key =
      if head.1 = JString.ofString key then some head.2 else Record.get rest key := by
  by_cases same : head.1 = JString.ofString key
  · simp [Record.get, same]
  · simp [Record.get, same]

theorem get_map_replace (record : Record) (key other : String) (value : Json) :
    Record.get (record.map fun field =>
        if field.1 = JString.ofString key then (field.1, value) else field) other =
      if other = key then (record.get other).map fun _ => value else record.get other := by
  induction record with
  | nil => simp [Record.get]
  | cons head rest inductionHypothesis =>
      rw [List.map_cons, get_cons, get_cons, inductionHypothesis]
      by_cases isKey : head.1 = JString.ofString key
      · by_cases same : other = key
        · subst same
          simp [isKey]
        · have apart : ¬ JString.ofString key = JString.ofString other := fun equal =>
            same (JString.ofString_inj.mp equal).symm
          simp [isKey, same, apart]
      · by_cases same : other = key
        · subst same
          simp [isKey]
        · simp [isKey, same]

theorem get_append (record other : Record) (key : String) :
    Record.get (record ++ other) key = (record.get key).or (other.get key) := by
  induction record with
  | nil => simp [Record.get]
  | cons head rest inductionHypothesis =>
      rw [List.cons_append, get_cons, get_cons, inductionHypothesis]
      split <;> rfl

/-- A key that was set holds its value. -/
@[simp] theorem get_setItem_self (record : Record) (key : String) (value : Json) :
    (setItem record key value).get key = some value := by
  unfold setItem
  by_cases known : (record.get key).isSome
  · rcases Option.isSome_iff_exists.mp known with ⟨found, foundEq⟩
    rw [if_pos known, get_map_replace, if_pos rfl, foundEq, Option.map_some]
  · rw [if_neg known, get_append, Option.not_isSome_iff_eq_none.mp known, get_cons]
    simp

/-- Other keys hold what they held. -/
theorem get_setItem_of_ne {record : Record} {key other : String} {value : Json}
    (different : other ≠ key) : (setItem record key value).get other = record.get other := by
  unfold setItem
  by_cases known : (record.get key).isSome
  · rw [if_pos known, get_map_replace, if_neg different]
  · rw [if_neg known, get_append, get_cons, if_neg fun same =>
      different (JString.ofString_inj.mp same).symm]
    simp [Record.get]

/-- Removing a key leaves the others. -/
theorem get_popItem_of_ne {record : Record} {key other : String} (different : other ≠ key) :
    (popItem record key).get other = record.get other := by
  unfold popItem
  induction record with
  | nil => rfl
  | cons head rest inductionHypothesis =>
      have apart : ¬ JString.ofString key = JString.ofString other := fun equal =>
        different (JString.ofString_inj.mp equal).symm
      by_cases isKey : head.1 = JString.ofString key
      · rw [List.filter_cons_of_neg (by simpa using isKey), inductionHypothesis, get_cons, isKey,
          if_neg apart]
      · rw [List.filter_cons_of_pos (by simpa using isKey), get_cons, get_cons,
          inductionHypothesis]

theorem asDict_eq_ok {value : Json} {fields : Record} :
    asDict value = .ok fields ↔ value = .obj fields := by
  cases value with
  | obj found => simp [asDict]
  | _ => simp [asDict]

/-- What a key is worth depends on what it holds. -/
theorem given_congr {record other : Record} {key : String}
    (same : record.get key = other.get key) : given record key = given other key := by
  unfold given
  rw [same]

/-! ### The history -/

/-- The state a file holds, when it holds one. -/
def StateFile.state : StateFile → Record
  | .document (.obj fields) => fields
  | _ => []

def Event.isRecovery : Event → Bool
  | .recovered _ => true
  | _ => false

/-- The event sends a request that creates the resource of a key. -/
def Event.creates (key : ResourceKey) : Event → Bool
  | .sent request => decide (key.Creates request)
  | _ => false

/-- How many requests to create the resource of a key were sent since the last
recovery. -/
def creations (key : ResourceKey) (log : List Event) : Nat :=
  (log.takeWhile fun event => !event.isRecovery).countP (·.creates key)

/-- No stretch of the history without a recovery sends two requests to create
the resource of a key. -/
def OncePerRecovery (key : ResourceKey) (log : List Event) : Prop :=
  ∀ stretch, stretch <:+: log → (∀ event ∈ stretch, event.isRecovery = false) →
    stretch.countP (·.creates key) ≤ 1

section Creations

variable {key : ResourceKey} {log : List Event} {request : Request} {state : Record}

theorem creations_sent_of_not (harmless : ¬ key.Creates request) :
    creations key (.sent request :: log) = creations key log := by
  unfold creations
  rw [List.takeWhile_cons_of_pos rfl, List.countP_cons_of_neg]
  simpa [Event.creates] using harmless

theorem creations_sent_of (creating : key.Creates request) :
    creations key (.sent request :: log) = creations key log + 1 := by
  unfold creations
  rw [List.takeWhile_cons_of_pos rfl, List.countP_cons_of_pos]
  simpa [Event.creates] using creating

@[simp] theorem creations_saved : creations key (.saved state :: log) = creations key log := by
  unfold creations
  rw [List.takeWhile_cons_of_pos rfl, List.countP_cons_of_neg (by simp [Event.creates])]

@[simp] theorem creations_recovered : creations key (.recovered state :: log) = 0 := by
  unfold creations
  rw [List.takeWhile_cons_of_neg (by simp [Event.isRecovery]), List.countP_nil]

/-- The first entries without a recovery belong to the time since the last one. -/
theorem prefix_since {stretch : List Event} (first : stretch <+: log)
    (quiet : ∀ event ∈ stretch, event.isRecovery = false) :
    stretch <+: log.takeWhile fun event => !event.isRecovery := by
  rcases first with ⟨rest, rfl⟩
  rw [List.takeWhile_append_of_pos fun event member => by simp [quiet event member]]
  exact List.prefix_append _ _

/-- One more event keeps the promise when it holds since the last recovery. -/
theorem OncePerRecovery.cons {event : Event} (once : OncePerRecovery key log)
    (current : creations key (event :: log) ≤ 1) : OncePerRecovery key (event :: log) := by
  intro stretch within quiet
  rcases List.infix_cons_iff.mp within with first | earlier
  · exact (List.Sublist.countP_le (prefix_since first quiet).sublist).trans current
  · exact once stretch earlier quiet

/-- The promise bounds what was sent since the last recovery. -/
theorem OncePerRecovery.creations_le (once : OncePerRecovery key log) : creations key log ≤ 1 := by
  apply once _ (List.takeWhile_prefix _).isInfix
  intro event member
  simpa using List.mem_takeWhile_imp member

end Creations

/-! ### Which requests create -/

section Requests

variable {key : ResourceKey}

/-- Only a posted request creates. -/
theorem not_creates_of_method {request : Request} (notPost : request.method ≠ .post) :
    ¬ key.Creates request :=
  fun creating => notPost creating.1

theorem getLast?_searchPath (path : JString) : (searchPath path).getLast? = some (.scalar 'h') := by
  rw [searchPath, List.getLast?_append]
  rfl

/-- A search creates nothing. -/
theorem not_creates_search (path name : JString) : ¬ key.Creates (searchRequest path name) := by
  intro creating
  have last := getLast?_searchPath path
  have place := creating.2
  cases key with
  | project =>
      have same : searchPath path = projectsPath := place
      rw [same] at last
      exact absurd last (by decide)
  | app =>
      rcases place with ⟨front, same⟩
      have ends : (front ++ createAppSuffix).getLast? = some (.scalar 'c') := by
        rw [List.getLast?_append]
        rfl
      have whole : front ++ createAppSuffix = searchPath path := same
      rw [whole, last] at ends
      exact absurd ends (by decide)

/-- The request that creates one resource creates no other. -/
theorem creates_unique {request : Request} {other : ResourceKey} (creating : key.Creates request)
    (creatingOther : other.Creates request) : key = other := by
  have apart : ¬ createAppSuffix <:+ projectsPath := by decide
  cases key with
  | project =>
      cases other with
      | project => rfl
      | app =>
          have place : request.path = projectsPath := creating.2
          have suffix : createAppSuffix <:+ request.path := creatingOther.2
          rw [place] at suffix
          exact absurd suffix apart
  | app =>
      cases other with
      | project =>
          have place : request.path = projectsPath := creatingOther.2
          have suffix : createAppSuffix <:+ request.path := creating.2
          rw [place] at suffix
          exact absurd suffix apart
      | app => rfl

/-- The request `ensure` creates a resource with. -/
def Resource.createRequest (resource : Resource) : Request :=
  Dev.createRequest resource.createPath resource.name resource.body

theorem creates_project (values : Values) :
    ResourceKey.Creates .project (projectResource values).createRequest :=
  ⟨rfl, rfl⟩

theorem creates_app (values : Values) (projectId : JString) :
    ResourceKey.Creates .app (appResource values projectId).createRequest :=
  ⟨rfl, projectPath projectId, by
    change _ ++ createAppSuffix = (projectPath projectId ++ JString.ofString "/apps") ++ _
    rw [List.append_assoc]
    rfl⟩

end Requests

/-! ### The guard -/

/-- The state holds the resource's identifier. -/
def Saved (state : Record) (key : ResourceKey) : Prop :=
  (state.get key.stateKey).isSome = true

/-- The state after a creation whose outcome is unknown: the guard is set, and
the resource is not saved.  An application is only created once the project and
the instance are saved. -/
structure Unfinished (instanceId : JString) (state : Record) : Prop where
  pending : given state "pending" = true
  settled : movedInstance instanceId state = false
  unsaved : Saved state .project → (state.get "instance_id").isSome = true ∧ ¬ Saved state .app

/-- What the guard of a state keeps: a resource whose creation was asked for
since the last recovery is saved, or the guard is set. -/
structure Guarded (instanceId : JString) (log : List Event) (state : Record) : Prop where
  once : ∀ key, OncePerRecovery key log
  project : 0 < creations .project log → Saved state .project ∨ Unfinished instanceId state
  app : 0 < creations .app log →
    Saved state .app ∨ Saved state .project ∧ Unfinished instanceId state

/-- Every saved identifier is kept. -/
def Keeps (before after : Record) : Prop :=
  ∀ key : ResourceKey, ∀ value, before.get key.stateKey = some value →
    after.get key.stateKey = some value

/-- What a history and a state owe to the site they come from. -/
structure Follows (instanceId : JString) (origin : Site) (log : List Event) (state : Record) :
    Prop where
  guarded : Guarded instanceId log state
  kept : ∃ events, log = events ++ origin.log ∧
    ((∃ event ∈ events, event.isRecovery = true) ∨ Keeps origin.file.state state)

section Rules

variable {instanceId : JString} {log : List Event} {state : Record} {origin : Site}

theorem Guarded.empty (state : Record) : Guarded instanceId [] state where
  once _ := by
    intro stretch within _
    rw [List.eq_nil_of_infix_nil within]
    exact Nat.zero_le 1
  project positive := absurd positive (Nat.lt_irrefl 0)
  app positive := absurd positive (Nat.lt_irrefl 0)

/-- The guard speaks about the history only through what was created. -/
theorem Guarded.of_creations {later : List Event} (guarded : Guarded instanceId log state)
    (once : ∀ key, OncePerRecovery key later)
    (same : ∀ key, creations key later = creations key log) : Guarded instanceId later state where
  once := once
  project := by
    rw [same]
    exact guarded.project
  app := by
    rw [same]
    exact guarded.app

theorem Guarded.sent {request : Request} (guarded : Guarded instanceId log state)
    (harmless : ∀ key : ResourceKey, ¬ key.Creates request) :
    Guarded instanceId (.sent request :: log) state := by
  have same (key : ResourceKey) : creations key (.sent request :: log) = creations key log :=
    creations_sent_of_not (harmless key)
  apply guarded.of_creations _ same
  intro key
  apply (guarded.once key).cons
  rw [same]
  exact (guarded.once key).creations_le

theorem Guarded.saved (written : Record) (guarded : Guarded instanceId log state) :
    Guarded instanceId (.saved written :: log) state := by
  apply guarded.of_creations _ fun key => creations_saved
  intro key
  apply (guarded.once key).cons
  rw [creations_saved]
  exact (guarded.once key).creations_le

/-- After a recovery nothing was created yet. -/
theorem Guarded.recovered (written : Record) (guarded : Guarded instanceId log state)
    (fresh : Record) : Guarded instanceId (.recovered written :: log) fresh where
  once key := (guarded.once key).cons (by rw [creations_recovered]; exact Nat.zero_le 1)
  project positive := by
    rw [creations_recovered] at positive
    exact absurd positive (Nat.lt_irrefl 0)
  app positive := by
    rw [creations_recovered] at positive
    exact absurd positive (Nat.lt_irrefl 0)

/-- Without the guard only saved resources were created. -/
theorem Guarded.creations_eq_zero (guarded : Guarded instanceId log state)
    (clear : given state "pending" = false) {key : ResourceKey} (unsaved : ¬ Saved state key) :
    creations key log = 0 := by
  have finished : ¬ Unfinished instanceId state := fun unfinished =>
    Bool.false_ne_true (clear.symm.trans unfinished.pending)
  apply Nat.eq_zero_of_not_pos
  intro positive
  cases key with
  | project =>
      rcases guarded.project positive with saved | unfinished
      · exact unsaved saved
      · exact finished unfinished
  | app =>
      rcases guarded.app positive with saved | unfinished
      · exact unsaved saved
      · exact finished unfinished.2

/-! ### Changes of the state in memory -/

theorem stateKey_ne_instance (key : ResourceKey) : key.stateKey ≠ "instance_id" := by
  cases key <;> decide

theorem stateKey_ne_pending (key : ResourceKey) : key.stateKey ≠ "pending" := by
  cases key <;> decide

theorem stateKey_injective {key other : ResourceKey} (same : key.stateKey = other.stateKey) :
    key = other := by
  revert same
  cases key <;> cases other <;> decide

theorem saved_congr {other : Record} {key : ResourceKey}
    (same : other.get key.stateKey = state.get key.stateKey) :
    Saved other key ↔ Saved state key := by
  unfold Saved
  rw [same]

/-- The state once it names the instance. -/
theorem Guarded.bound (guarded : Guarded instanceId log state) :
    Guarded instanceId log (setItem state "instance_id" (.str instanceId)) := by
  have same (key : ResourceKey) : Saved (setItem state "instance_id" (.str instanceId)) key ↔
      Saved state key :=
    saved_congr (get_setItem_of_ne (stateKey_ne_instance key))
  have unfinished (before : Unfinished instanceId state) :
      Unfinished instanceId (setItem state "instance_id" (.str instanceId)) := by
    refine ⟨?_, ?_, fun saved => ⟨?_, ?_⟩⟩
    · rw [given_congr (get_setItem_of_ne (by decide))]
      exact before.pending
    · simp [movedInstance, isText]
    · rw [get_setItem_self]
      rfl
    · rw [same]
      exact (before.unsaved ((same .project).mp saved)).2
  refine ⟨guarded.once, fun positive => ?_, fun positive => ?_⟩
  · exact (guarded.project positive).imp (same .project).mpr unfinished
  · exact (guarded.app positive).imp (same .app).mpr
      fun both => ⟨(same .project).mpr both.1, unfinished both.2⟩

/-- The state with the guard set. -/
def withPending (state : Record) (key : ResourceKey) : Record :=
  setItem state "pending" (.str (JString.ofString key.stateKey))

theorem saved_withPending {key other : ResourceKey} :
    Saved (withPending state key) other ↔ Saved state other :=
  saved_congr (get_setItem_of_ne (stateKey_ne_pending other))

/-- Setting the guard loses nothing. -/
theorem Guarded.pended (guarded : Guarded instanceId log state)
    (clear : given state "pending" = false) (key : ResourceKey) :
    Guarded instanceId log (withPending state key) := by
  have finished : ¬ Unfinished instanceId state := fun unfinished =>
    Bool.false_ne_true (clear.symm.trans unfinished.pending)
  refine ⟨guarded.once, fun positive => ?_, fun positive => ?_⟩
  · rcases guarded.project positive with saved | unfinished
    · exact .inl (saved_withPending.mpr saved)
    · exact absurd unfinished finished
  · rcases guarded.app positive with saved | unfinished
    · exact .inl (saved_withPending.mpr saved)
    · exact absurd unfinished.2 finished

/-- When a run may ask for a resource: it is not saved, the state names no other
instance, and an application has its project and its instance. -/
structure Creatable (instanceId : JString) (state : Record) (key : ResourceKey) : Prop where
  unsaved : state.get key.stateKey = none
  settled : movedInstance instanceId state = false
  placed : key = .app → Saved state .project ∧ (state.get "instance_id").isSome = true

theorem Creatable.not_saved {key : ResourceKey} (creatable : Creatable instanceId state key) :
    ¬ Saved state key := by
  unfold Saved
  rw [creatable.unsaved]
  exact Bool.false_ne_true

/-- With the guard set the creation has an unknown outcome until it is saved. -/
theorem unfinished_withPending {key : ResourceKey} (creatable : Creatable instanceId state key) :
    Unfinished instanceId (withPending state key) := by
  have instanceSame : (withPending state key).get "instance_id" = state.get "instance_id" :=
    get_setItem_of_ne (by decide)
  refine ⟨?_, ?_, fun saved => ?_⟩
  · unfold given withPending
    rw [get_setItem_self]
    cases key <;> rfl
  · unfold movedInstance
    rw [given_congr instanceSame, instanceSame]
    exact creatable.settled
  · have savedBefore := saved_withPending.mp saved
    cases key with
    | project => exact absurd savedBefore creatable.not_saved
    | app =>
        rw [instanceSame, saved_withPending]
        exact ⟨(creatable.placed rfl).2, creatable.not_saved⟩

/-- The creation request is sent with the guard set, and is the first since the
last recovery. -/
theorem Guarded.created {key : ResourceKey} {request : Request}
    (guarded : Guarded instanceId log state) (clear : given state "pending" = false)
    (creatable : Creatable instanceId state key) (creating : key.Creates request) :
    Guarded instanceId (.sent request :: log) (withPending state key) := by
  have before := guarded.pended clear key
  have others (other : ResourceKey) (different : other ≠ key) :
      creations other (.sent request :: log) = creations other log :=
    creations_sent_of_not fun creatingOther =>
      different (creates_unique creatingOther creating)
  have unfinished := unfinished_withPending creatable
  refine ⟨fun other => ?_, fun positive => ?_, fun positive => ?_⟩
  · apply (guarded.once other).cons
    by_cases same : other = key
    · subst same
      rw [creations_sent_of creating, guarded.creations_eq_zero clear creatable.not_saved]
    · rw [others other same]
      exact (guarded.once other).creations_le
  · exact .inr unfinished
  · cases key with
    | project =>
        rw [others .app (by decide)] at positive
        rcases before.app positive with saved | ⟨saved, _⟩
        · exact .inl saved
        · exact .inr ⟨saved, unfinished⟩
    | app => exact .inr ⟨saved_withPending.mpr (creatable.placed rfl).1, unfinished⟩

/-- The state once a resource is known, with the guard cleared. -/
def concluded (state : Record) (key : ResourceKey) (resourceId : JString) : Record :=
  popItem (setItem state key.stateKey (.str resourceId)) "pending"

theorem get_concluded {key : ResourceKey} {resourceId : JString} {name : String}
    (notPending : name ≠ "pending") (different : name ≠ key.stateKey) :
    (concluded state key resourceId).get name = state.get name := by
  rw [concluded, get_popItem_of_ne notPending, get_setItem_of_ne different]

theorem saved_concluded {key : ResourceKey} {resourceId : JString} :
    Saved (concluded state key resourceId) key := by
  unfold Saved concluded
  rw [get_popItem_of_ne (stateKey_ne_pending key), get_setItem_self]
  rfl

theorem Saved.concluded {key other : ResourceKey} {resourceId : JString} (saved : Saved state other) :
    Saved (concluded state key resourceId) other := by
  by_cases same : other = key
  · rw [same]
    exact saved_concluded
  · unfold Saved
    rw [get_concluded (stateKey_ne_pending other) fun equal => same (stateKey_injective equal)]
    exact saved

/-- The guard may be cleared: the project is known before any application is
asked for. -/
theorem Guarded.concluded {key : ResourceKey} {resourceId : JString}
    (guarded : Guarded instanceId log state) (unsaved : ¬ Saved state key)
    (placed : key = .app → Saved state .project) :
    Guarded instanceId log (concluded state key resourceId) := by
  refine ⟨guarded.once, fun positive => ?_, fun positive => ?_⟩
  · cases key with
    | project => exact .inl saved_concluded
    | app => exact .inl (placed rfl).concluded
  · cases key with
    | project =>
        rcases guarded.app positive with saved | ⟨saved, _⟩
        · exact .inl saved.concluded
        · exact absurd saved unsaved
    | app => exact .inl saved_concluded

end Rules

/-! ### Where a run comes from -/

section Following

variable {instanceId : JString} {log : List Event} {state later : Record} {origin : Site}

theorem Follows.start {site : Site} (guarded : Guarded instanceId site.log site.file.state) :
    Follows instanceId site site.log site.file.state :=
  ⟨guarded, [], rfl, .inr fun _ _ found => found⟩

/-- A few more events, and a state that keeps what is saved or starts over. -/
theorem Follows.step (follows : Follows instanceId origin log state) (events : List Event)
    (guarded : Guarded instanceId (events ++ log) later)
    (keeps : (∃ event ∈ events, event.isRecovery = true) ∨ Keeps state later) :
    Follows instanceId origin (events ++ log) later := by
  rcases follows.kept with ⟨earlier, logEq, kept⟩
  refine ⟨guarded, events ++ earlier, by rw [logEq, List.append_assoc], ?_⟩
  rcases keeps with ⟨event, member, recovery⟩ | keeps
  · exact .inl ⟨event, List.mem_append_left _ member, recovery⟩
  · rcases kept with ⟨event, member, recovery⟩ | kept
    · exact .inl ⟨event, List.mem_append_right _ member, recovery⟩
    · exact .inr fun key value found => keeps key value (kept key value found)

theorem Keeps.refl (state : Record) : Keeps state state := fun _ _ found => found

/-- Setting a key that holds no identifier keeps the identifiers. -/
theorem Keeps.setItem {name : String} {value : Json}
    (different : ∀ key : ResourceKey, key.stateKey ≠ name) : Keeps state (setItem state name value) :=
  fun key _ found => by rw [get_setItem_of_ne (different key), found]

theorem Keeps.concluded {key : ResourceKey} {resourceId : JString}
    (unsaved : state.get key.stateKey = none) : Keeps state (concluded state key resourceId) := by
  intro other value found
  have different : other.stateKey ≠ key.stateKey := by
    intro same
    rw [same, unsaved] at found
    cases found
  rw [get_concluded (stateKey_ne_pending other) different, found]

theorem Follows.sent {request : Request} (follows : Follows instanceId origin log state)
    (harmless : ∀ key : ResourceKey, ¬ key.Creates request) :
    Follows instanceId origin (.sent request :: log) state :=
  follows.step [.sent request] (follows.guarded.sent harmless) (.inr (.refl state))

theorem Follows.saved (written : Record) (follows : Follows instanceId origin log state) :
    Follows instanceId origin (.saved written :: log) state :=
  follows.step [.saved written] (follows.guarded.saved written) (.inr (.refl state))

theorem Follows.recovered (written fresh : Record) (follows : Follows instanceId origin log state) :
    Follows instanceId origin (.recovered written :: log) fresh :=
  follows.step [.recovered written] (follows.guarded.recovered written fresh)
    (.inl ⟨_, List.mem_singleton_self _, rfl⟩)

theorem Follows.bound (follows : Follows instanceId origin log state) :
    Follows instanceId origin log (setItem state "instance_id" (.str instanceId)) :=
  follows.step [] follows.guarded.bound (.inr (.setItem stateKey_ne_instance))

theorem Follows.pended (follows : Follows instanceId origin log state)
    (clear : given state "pending" = false) (key : ResourceKey) :
    Follows instanceId origin log (withPending state key) :=
  follows.step [] (follows.guarded.pended clear key) (.inr (.setItem stateKey_ne_pending))

theorem Follows.created {key : ResourceKey} {request : Request}
    (follows : Follows instanceId origin log state) (clear : given state "pending" = false)
    (creatable : Creatable instanceId state key) (creating : key.Creates request) :
    Follows instanceId origin (.sent request :: log) (withPending state key) :=
  follows.step [.sent request] (follows.guarded.created clear creatable creating)
    (.inr (.setItem stateKey_ne_pending))

theorem Follows.concluded {key : ResourceKey} {resourceId : JString}
    (follows : Follows instanceId origin log state) (unsaved : state.get key.stateKey = none)
    (placed : key = .app → Saved state .project) :
    Follows instanceId origin log (concluded state key resourceId) := by
  refine follows.step [] (follows.guarded.concluded ?_ placed) (.inr (.concluded unsaved))
  unfold Saved
  rw [unsaved]
  exact Bool.false_ne_true

end Following

/-! ### What the parts of a run keep -/

/-- Every answer about the instance names the same one. -/
def OneInstance (instanceId : JString) (request : Request) (outcome : Outcome) : Prop :=
  request = instanceRequest → ∀ document, outcome.document request = .ok document →
    ∀ found, instanceOf document = .ok found → found = instanceId

/-- The state file owes the origin what a history and a state do. -/
def Sound (instanceId : JString) (origin site : Site) : Prop :=
  Follows instanceId origin site.log site.file.state

/-- So does the state that a run holds in memory. -/
structure Holds (instanceId : JString) (origin site : Site) (state : Record) : Prop where
  sound : Sound instanceId origin site
  memory : Follows instanceId origin site.log state

/-- Wherever the program is stopped the site is sound, and where it returns
`post` holds. -/
def Safe (answers : Request → Outcome → Prop) (instanceId : JString) (origin : Site) {α : Type}
    (post : α → Site → Prop) (program : Provisioning α) (site : Site) : Prop :=
  Program.Ensures (act answers) (Sound instanceId origin) (fun result after => match result with
    | .ok value => post value after
    | .error _ => True) program site

section Parts

variable {answers : Request → Outcome → Prop} {instanceId : JString} {origin site : Site}
  {state : Record} {α β : Type}

theorem Safe.pure {post : α → Site → Prop} {value : α} (holds : post value site) :
    Safe answers instanceId origin post (pure value) site := holds

theorem Safe.ofExcept {post : α → Site → Prop} {result : Except Failure α}
    (holds : ∀ value, result = .ok value → post value site) :
    Safe answers instanceId origin post (Program.ofExcept result) site := by
  cases result with
  | ok value => exact holds value rfl
  | error failure => exact trivial

/-- A check without effects leaves what holds. -/
theorem Safe.checked {result : Except Failure α} (holds : Holds instanceId origin site state) :
    Safe answers instanceId origin (fun _ after => Holds instanceId origin after state)
      (Program.ofExcept result) site :=
  .ofExcept fun _ _ => holds

theorem Safe.raise {post : α → Site → Prop} {failure : Failure} :
    Safe answers instanceId origin post (.raise failure) site := trivial

theorem Safe.raiseIf {post : Unit → Site → Prop} {condition : Prop} [Decidable condition]
    {failure : Failure} (holds : ¬ condition → post () site) :
    Safe answers instanceId origin post (Program.raiseIf condition failure) site := by
  unfold Program.raiseIf
  by_cases raises : condition
  · rw [if_pos raises]
    exact trivial
  · rw [if_neg raises]
    exact holds raises

theorem Safe.bind {post : α → Site → Prop} {final : β → Site → Prop} {program : Provisioning α}
    {next : α → Provisioning β} (first : Safe answers instanceId origin post program site)
    (second : ∀ value after, post value after →
      Safe answers instanceId origin final (next value) after) :
    Safe answers instanceId origin final (program >>= next) site :=
  Program.Ensures.bind first (fun _ _ _ => trivial) second

theorem Safe.mono {post final : α → Site → Prop} {program : Provisioning α}
    (safe : Safe answers instanceId origin post program site)
    (relaxes : ∀ value after, post value after → final value after) :
    Safe answers instanceId origin final program site := by
  apply Program.Ensures.mono safe fun _ sound => sound
  intro result after holds
  cases result with
  | ok value => exact relaxes value after holds
  | error failure => exact trivial

/-- A request and the document it is answered with. -/
theorem safe_sendRequest {request : Request} {post : Record → Site → Prop}
    (sound : Sound instanceId origin ⟨site.file, .sent request :: site.log⟩)
    (holds : ∀ outcome document, answers request outcome →
      outcome.document request = .ok document →
        post document ⟨site.file, .sent request :: site.log⟩) :
    Safe answers instanceId origin post (sendRequest request) site := by
  intro outcome after acted
  rcases acted with ⟨answered, rfl⟩
  exact ⟨sound, Safe.ofExcept fun document read => holds outcome document answered read⟩

/-- A request that creates nothing. -/
theorem safe_harmless {request : Request}
    (holds : Holds instanceId origin site state)
    (harmless : ∀ key : ResourceKey, ¬ key.Creates request) :
    Safe answers instanceId origin (fun document after =>
      Holds instanceId origin after state ∧
        ∃ outcome, answers request outcome ∧ outcome.document request = .ok document)
      (sendRequest request) site :=
  safe_sendRequest (holds.sound.sent harmless) fun outcome _ answered read =>
    ⟨⟨holds.sound.sent harmless, holds.memory.sent harmless⟩, outcome, answered, read⟩

/-- A write of the state file. -/
theorem safe_save {origin : Site} {written : Record} {kind : SaveOrigin} {post : Unit → Site → Prop}
    (sound : Sound instanceId origin ⟨.document (.obj written), kind.event written :: site.log⟩)
    (before : Sound instanceId origin site)
    (holds : post () ⟨.document (.obj written), kind.event written :: site.log⟩) :
    Safe answers instanceId origin post (save written kind) site := by
  intro done after acted
  have acted : after = if done then ⟨.document (.obj written), kind.event written :: site.log⟩
      else site := acted
  cases done with
  | true =>
      rw [acted, if_pos rfl]
      exact ⟨sound, Safe.raiseIf fun _ => holds⟩
  | false =>
      rw [acted, if_neg Bool.false_ne_true]
      exact ⟨before, trivial⟩

/-- A write of what the run holds. -/
theorem safe_progress {written : Record} (sound : Sound instanceId origin site)
    (follows : Follows instanceId origin site.log written) :
    Safe answers instanceId origin (fun _ after => Holds instanceId origin after written)
      (save written .progress) site :=
  safe_save (follows.saved written) sound ⟨follows.saved written, follows.saved written⟩

/-- The state once the resource is saved. -/
theorem safe_conclude {key : ResourceKey} {resourceId : JString}
    (holds : Holds instanceId origin site state) (unsaved : state.get key.stateKey = none)
    (placed : key = .app → Saved state .project) :
    Safe answers instanceId origin (fun result after =>
      Holds instanceId origin after result.2 ∧ result.2 = concluded state key resourceId)
      (conclude key state resourceId) site := by
  apply Safe.bind (safe_progress holds.sound (holds.memory.concluded unsaved placed))
  intro _ after held
  exact Safe.pure ⟨held, rfl⟩

/-- The guard is on disk before the creation is asked for. -/
theorem safe_create {resource : Resource} (holds : Holds instanceId origin site state)
    (creatable : Creatable instanceId state resource.key)
    (creating : resource.key.Creates resource.createRequest) :
    Safe answers instanceId origin (fun result after =>
      Holds instanceId origin after result.2 ∧
        ∃ resourceId, result.2 = concluded (withPending state resource.key) resource.key resourceId)
      (create resource state) site := by
  have checked : Safe answers instanceId origin
      (fun _ after => after = site ∧ given state "pending" = false)
      (Program.raiseIf (given state "pending" = true) (.dev unknownOutcome)) site :=
    .raiseIf fun notPending => ⟨rfl, Bool.eq_false_iff.mpr notPending⟩
  apply checked.bind
  intro _ here passed
  rcases passed with ⟨same, clear⟩
  rw [same]
  have pended := holds.memory.pended clear resource.key
  have written : Safe answers instanceId origin
      (fun _ after => after = ⟨.document (.obj (withPending state resource.key)),
        .saved (withPending state resource.key) :: site.log⟩)
      (save (withPending state resource.key) .progress) site :=
    safe_save (pended.saved _) holds.sound rfl
  apply written.bind
  intro _ guarded guardedEq
  rw [guardedEq]
  have created := (holds.memory.saved (withPending state resource.key)).created clear creatable
    creating
  have asked : Safe answers instanceId origin
      (fun _ after => Holds instanceId origin after (withPending state resource.key))
      (sendRequest resource.createRequest)
      ⟨.document (.obj (withPending state resource.key)),
        .saved (withPending state resource.key) :: site.log⟩ :=
    safe_sendRequest created fun _ _ _ _ => ⟨created, created⟩
  apply asked.bind
  intro _ answered heldAnswered
  apply Safe.bind (.checked heldAnswered)
  intro resourceId after held
  apply Safe.mono (safe_conclude held ?_ ?_)
  · intro result final both
    exact ⟨both.1, resourceId, both.2⟩
  · rw [withPending, get_setItem_of_ne (stateKey_ne_pending _)]
    exact creatable.unsaved
  · intro isApp
    exact saved_withPending.mpr (creatable.placed isApp).1

/-- What `ensure` leaves: the resource is saved, and the instance is as before. -/
structure Ensured (instanceId : JString) (origin : Site) (before : Record) (key : ResourceKey)
    (after : Site) (state : Record) : Prop where
  holds : Holds instanceId origin after state
  saved : Saved state key
  sameInstance : state.get "instance_id" = before.get "instance_id"

/-- One resource is found, created or known already. -/
theorem safe_ensure {resource : Resource} (holds : Holds instanceId origin site state)
    (settled : movedInstance instanceId state = false)
    (placed : resource.key = .app → Saved state .project ∧ (state.get "instance_id").isSome = true)
    (creating : resource.key.Creates resource.createRequest) :
    Safe answers instanceId origin (fun result after =>
      Ensured instanceId origin state resource.key after result.2) (ensure resource state) site := by
  unfold ensure
  cases known : state.get resource.key.stateKey with
  | some saved =>
      apply Safe.bind (.checked holds)
      intro resourceId after held
      refine Safe.pure ⟨held, ?_, rfl⟩
      unfold Saved
      rw [known]
      rfl
  | none =>
      have creatable : Creatable instanceId state resource.key := ⟨known, settled, placed⟩
      have searched : Safe answers instanceId origin
          (fun _ after => Holds instanceId origin after state) (find resource.path resource.name)
          site := by
        apply Safe.bind (safe_harmless holds fun key => not_creates_search _ _)
        intro document after answered
        exact .checked answered.1
      have keepsInstance (before : Record) (resourceId : JString) :
          (concluded before resource.key resourceId).get "instance_id" =
            before.get "instance_id" :=
        get_concluded (by decide) (stateKey_ne_instance resource.key).symm
      apply Safe.bind searched
      intro found after held
      cases found with
      | some row =>
          apply Safe.bind (.checked held)
          intro resourceId final heldStill
          apply Safe.mono (safe_conclude heldStill known fun isApp => (placed isApp).1)
          intro result last both
          refine ⟨both.1, ?_, ?_⟩
          · rw [both.2]
            exact saved_concluded
          · rw [both.2, keepsInstance]
      | none =>
          apply Safe.mono (safe_create held creatable creating)
          intro result last both
          rcases both with ⟨heldLast, resourceId, stateEq⟩
          refine ⟨heldLast, ?_, ?_⟩
          · rw [stateEq]
            exact saved_concluded
          · rw [stateEq, keepsInstance, withPending, get_setItem_of_ne (by decide)]

/-- The volumes are only listed. -/
theorem safe_guardIdentityRecovery (holds : Holds instanceId origin site state) :
    Safe answers instanceId origin (fun _ after => Holds instanceId origin after state)
      guardIdentityRecovery site := by
  intro listed after same
  have same : after = site := same
  rw [same]
  refine ⟨holds.sound, ?_⟩
  cases listed with
  | none => exact trivial
  | some volumes => exact Safe.raiseIf fun _ => holds

/-- A copy beside the state file changes nothing of it. -/
theorem safe_archive (copy : Archive) (holds : Holds instanceId origin site state) :
    Safe answers instanceId origin (fun _ after => Holds instanceId origin after state)
      (archive copy) site := by
  intro written after same
  have same : after = site := same
  rw [same]
  exact ⟨holds.sound, Safe.raiseIf fun _ => holds⟩

/-- What a run goes on with: a state that names no other instance. -/
structure Settled (instanceId : JString) (origin after : Site) (state : Record) : Prop where
  holds : Holds instanceId origin after state
  settled : movedInstance instanceId state = false

theorem movedInstance_of_isText (named : isText (state.get "instance_id") instanceId = true) :
    movedInstance instanceId state = false := by
  unfold movedInstance
  rw [named]
  exact Bool.and_false _

theorem movedInstance_recovered : movedInstance instanceId (recoveredState instanceId) = false :=
  movedInstance_of_isText (by
    have named : Record.get (recoveredState instanceId) "instance_id" = some (.str instanceId) := by
      rw [recoveredState, field, get_cons, if_pos rfl]
    rw [named]
    exact decide_eq_true rfl)

/-- A recovery starts over. -/
theorem safe_recover (hasEnvironment : Bool) (holds : Holds instanceId origin site state) :
    Safe answers instanceId origin (fun settled after => Settled instanceId origin after settled)
      (recover hasEnvironment instanceId) site := by
  apply Safe.bind (safe_guardIdentityRecovery holds)
  intro _ guarded heldGuarded
  apply Safe.bind (safe_archive .identity heldGuarded)
  intro _ archived heldArchived
  have environment : Safe answers instanceId origin
      (fun _ after => Holds instanceId origin after state)
      (archiveEnvironment hasEnvironment) archived := by
    cases hasEnvironment with
    | true => exact safe_archive .environment heldArchived
    | false => exact heldArchived
  apply environment.bind
  intro _ copied heldCopied
  have fresh := heldCopied.memory.recovered (recoveredState instanceId) (recoveredState instanceId)
  have written : Safe answers instanceId origin
      (fun _ after => Holds instanceId origin after (recoveredState instanceId))
      (save (recoveredState instanceId) .recovery) copied :=
    safe_save fresh heldCopied.sound ⟨fresh, fresh⟩
  apply written.bind
  intro _ after held
  exact Safe.pure ⟨held, movedInstance_recovered⟩

/-- The body of a `try` keeps what holds when it returns, and its error ends in
the handler. -/
theorem Safe.attempt {post : Except Failure α → Site → Prop} {program : Provisioning α}
    (kept : Program.Ensures (act answers) (Sound instanceId origin) post program site) :
    Safe answers instanceId origin post program.attempt site :=
  Program.ensures_attempt.mpr kept

/-- A request that creates nothing, in a `try`. -/
theorem kept_harmless {request : Request} (holds : Holds instanceId origin site state)
    (harmless : ∀ key : ResourceKey, ¬ key.Creates request) :
    Program.Ensures (act answers) (Sound instanceId origin)
      (fun _ after => Holds instanceId origin after state) (sendRequest request) site := by
  intro outcome after acted
  rcases acted with ⟨_, rfl⟩
  have held : Holds instanceId origin ⟨site.file, .sent request :: site.log⟩ state :=
    ⟨holds.sound.sent harmless, holds.memory.sent harmless⟩
  exact ⟨held.sound, Program.ensures_ofExcept.mpr held⟩

theorem not_creates_get (path : JString) (key : ResourceKey) : ¬ key.Creates (getRequest path) :=
  not_creates_of_method nofun

theorem not_creates_instance (key : ResourceKey) : ¬ key.Creates instanceRequest :=
  not_creates_of_method nofun

theorem not_creates_update (values : Values) (projectId appId : JString) (key : ResourceKey) :
    ¬ key.Creates (updateRequest values projectId appId) :=
  not_creates_of_method nofun

/-- The explicit recovery recovers or raises. -/
theorem safe_recoverLegacy (hasEnvironment : Bool) (holds : Holds instanceId origin site state) :
    Safe answers instanceId origin (fun settled after => Settled instanceId origin after settled)
      (recoverLegacy hasEnvironment instanceId state) site := by
  have checked : Safe answers instanceId origin
      (fun _ after => Holds instanceId origin after state)
      (Program.raiseIf (given state "instance_id" = true ∨ given state "pending" = true ∨
        (state.get "project_id").isNone) (.dev recoveryRefused)) site :=
    .raiseIf fun _ => holds
  apply checked.bind
  intro _ here held
  have looked : Safe answers instanceId origin
      (fun _ after => Holds instanceId origin after state)
      (Program.attempt do
        let projectId ← Program.ofExcept (checkIdentifier (state.get "project_id"))
        sendRequest (getRequest (projectPath projectId))) here := by
    apply Safe.attempt
    apply Program.ensures_bind.mpr
    apply Program.ensures_ofExcept.mpr
    cases checkIdentifier (state.get "project_id") with
    | ok projectId => exact kept_harmless held (not_creates_get _)
    | error failure => exact held
  apply looked.bind
  intro answer after heldAfter
  cases answer with
  | ok document => exact trivial
  | error failure =>
      cases failure with
      | dev message => exact trivial
      | raised exception => exact trivial
      | iamHttp message statusCode =>
          by_cases missing : statusCode = 404
          · simp only [if_pos missing]
            exact safe_recover hasEnvironment heldAfter
          · simp only [if_neg missing]
            exact trivial

/-- A run goes on with a state of the instance that answered. -/
theorem safe_settle (hasEnvironment recoverIdentity : Bool)
    (holds : Holds instanceId origin site state) :
    Safe answers instanceId origin (fun settled after => Settled instanceId origin after settled)
      (settle hasEnvironment instanceId recoverIdentity state) site := by
  unfold settle
  cases moved : movedInstance instanceId state with
  | true =>
      rw [if_pos rfl]
      exact safe_recover hasEnvironment holds
  | false =>
      rw [if_neg Bool.false_ne_true]
      cases recoverIdentity with
      | true =>
          rw [if_pos rfl]
          exact safe_recoverLegacy hasEnvironment holds
      | false =>
          rw [if_neg Bool.false_ne_true]
          exact Safe.pure ⟨holds, moved⟩

/-- The state once the instance is saved. -/
theorem safe_bindInstance (holds : Holds instanceId origin site state) :
    Safe answers instanceId origin (fun bound after =>
      Settled instanceId origin after bound ∧
        bound = setItem state "instance_id" (.str instanceId))
      (bindInstance instanceId state) site := by
  apply Safe.bind (safe_progress holds.sound holds.memory.bound)
  intro _ after held
  refine Safe.pure ⟨⟨held, movedInstance_of_isText ?_⟩, rfl⟩
  rw [get_setItem_self]
  exact decide_eq_true rfl

/-- The check of the saved project asks only. -/
theorem safe_checkProject (values : Values) (wasBound : Bool) (projectId : JString)
    (holds : Holds instanceId origin site state) :
    Safe answers instanceId origin (fun _ after => Holds instanceId origin after state)
      (checkProject values wasBound projectId) site := by
  apply Safe.bind (Safe.attempt (kept_harmless holds (not_creates_get _)))
  intro answer after held
  cases answer with
  | ok document =>
      apply Safe.bind (.checked held)
      intro project final heldFinal
      exact .raiseIf fun _ => heldFinal
  | error failure =>
      cases failure with
      | dev message => exact trivial
      | raised exception => exact trivial
      | iamHttp message statusCode =>
          by_cases missing : statusCode = 404
          · simp only [if_pos missing]
            exact trivial
          · simp only [if_neg missing]
            exact trivial

/-- A request that creates nothing leaves what holds. -/
theorem safe_ask {request : Request} (holds : Holds instanceId origin site state)
    (harmless : ∀ key : ResourceKey, ¬ key.Creates request) :
    Safe answers instanceId origin (fun _ after => Holds instanceId origin after state)
      (sendRequest request) site :=
  (safe_harmless holds harmless).mono fun _ _ answered => answered.1

/-- A condition that raises changes nothing. -/
theorem Safe.unless {condition : Prop} [Decidable condition] {failure : Failure}
    (holds : Holds instanceId origin site state) :
    Safe answers instanceId origin (fun _ after => Holds instanceId origin after state)
      (Program.raiseIf condition failure) site :=
  .raiseIf fun _ => holds

/-- The check of the saved application creates nothing. -/
theorem safe_checkApp (values : Values) (projectId appId : JString)
    (holds : Holds instanceId origin site state) :
    Safe answers instanceId origin (fun _ after => Holds instanceId origin after state)
      (checkApp values projectId appId) site := by
  apply Safe.bind (safe_ask holds (not_creates_get _))
  intro document afterDocument heldDocument
  apply Safe.bind (.checked heldDocument)
  intro app afterApp heldApp
  apply Safe.bind (.unless heldApp)
  intro _ afterNames heldNames
  apply Safe.bind (.unless heldNames)
  intro _ afterOidc heldOidc
  apply Safe.bind (.checked heldOidc)
  intro actual afterActual heldActual
  cases drifts : drifted values actual with
  | false =>
      rw [if_neg Bool.false_ne_true]
      exact heldActual
  | true =>
      rw [if_pos rfl]
      apply Safe.bind (safe_ask heldActual (not_creates_update _ _ _))
      intro _ afterUpdate heldUpdate
      apply Safe.bind (safe_ask heldUpdate (not_creates_get _))
      intro again afterAgain heldAgain
      apply Safe.bind (.checked heldAgain)
      intro confirmed afterConfirmed heldConfirmed
      apply Safe.bind (.checked heldConfirmed)
      intro updated afterUpdated heldUpdated
      apply Safe.bind (.unless heldUpdated)
      intro _ final heldFinal
      exact heldFinal

/-- Remembering a lost project saves nothing yet, and loses nothing. -/
theorem Follows.remembered {values : Values} {stored : Record}
    (follows : Follows instanceId origin site.log stored)
    (remembered : rememberProject values stored = .ok state) :
    Follows instanceId origin site.log state := by
  unfold rememberProject at remembered
  split at remembered
  · split at remembered
    · cases remembered
      exact follows
    · simp only [Fallible.bind_eq_ok] at remembered
      rcases remembered with ⟨checked, _, stateEq⟩
      cases stateEq
      have empty (key : ResourceKey) : ¬ Saved [] key := Bool.false_ne_true
      have finished : ¬ Unfinished instanceId [] := fun unfinished =>
        Bool.false_ne_true unfinished.pending
      apply follows.step []
      · refine ⟨follows.guarded.once, fun positive => ?_, fun positive => ?_⟩
        · rcases follows.guarded.project positive with saved | unfinished
          · exact absurd saved (empty _)
          · exact absurd unfinished finished
        · rcases follows.guarded.app positive with saved | unfinished
          · exact absurd saved (empty _)
          · exact absurd unfinished.2 finished
      · right
        intro key value found
        cases found
  · cases remembered
    exact follows

/-- A whole run leaves the site sound wherever it is stopped. -/
theorem safe_provision (hasEnvironment : Bool) (values : Values) (recoverIdentity : Bool)
    (stored : Json) (oneInstance : ∀ request outcome, answers request outcome →
      OneInstance instanceId request outcome)
    (sound : Sound instanceId origin site)
    (isStored : ∀ fields, stored = .obj fields → site.file.state = fields) :
    Safe answers instanceId origin (fun _ _ => True)
      (provision hasEnvironment values recoverIdentity stored) site := by
  have held : Holds instanceId origin site site.file.state := ⟨sound, sound⟩
  apply Safe.bind (safe_harmless held not_creates_instance)
  intro answer named answered
  rcases answered with ⟨heldNamed, outcome, allowed, read⟩
  have theInstance : Safe answers instanceId origin (fun found after =>
      Holds instanceId origin after site.file.state ∧ found = instanceId)
      (Program.ofExcept (instanceOf answer)) named :=
    .ofExcept fun found foundEq => ⟨heldNamed, oneInstance _ _ allowed rfl _ read _ foundEq⟩
  apply theInstance.bind
  intro found afterFound both
  rcases both with ⟨heldFound, rfl⟩
  have begins : Safe answers found origin (fun initial after => Holds found origin after initial)
      (Program.ofExcept (loaded values stored)) afterFound := by
    apply Safe.ofExcept
    intro initial isLoaded
    simp only [loaded, Fallible.bind_eq_ok] at isLoaded
    rcases isLoaded with ⟨fields, isDict, remembered⟩
    rw [isStored fields (asDict_eq_ok.mp isDict)] at heldFound
    exact ⟨heldFound.sound, heldFound.memory.remembered remembered⟩
  apply begins.bind
  intro initial afterInitial heldInitial
  apply Safe.bind (safe_settle hasEnvironment recoverIdentity heldInitial)
  intro settled afterSettled isSettled
  have fresh : Safe answers found origin (fun state after => Settled found origin after state)
      (nameFresh found settled) afterSettled := by
    unfold nameFresh
    cases settled.isEmpty with
    | true =>
        rw [if_pos rfl]
        exact (safe_bindInstance isSettled.holds).mono fun _ _ bound => bound.1
    | false =>
        rw [if_neg Bool.false_ne_true]
        exact Safe.pure isSettled
  apply fresh.bind
  intro state afterState isState
  apply Safe.bind (safe_ensure isState.holds isState.settled (fun isApp => by cases isApp)
    (creates_project values))
  intro project afterProject ensured
  apply Safe.bind (safe_checkProject _ _ _ ensured.holds)
  intro _ afterCheck heldCheck
  have settledProject : movedInstance found project.2 = false := by
    unfold movedInstance
    rw [given_congr ensured.sameInstance, ensured.sameInstance]
    exact isState.settled
  have legacy : Safe answers found origin (fun state after => Settled found origin after state ∧
      Saved state .project ∧ (state.get "instance_id").isSome = true)
      (nameLegacy found project.2) afterCheck := by
    unfold nameLegacy
    cases unnamed : (project.2.get "instance_id").isNone with
    | true =>
        rw [if_pos rfl]
        apply (safe_bindInstance heldCheck).mono
        intro bound after isBound
        rcases isBound with ⟨isSettledBound, rfl⟩
        refine ⟨isSettledBound, ?_, ?_⟩
        · exact (saved_congr (get_setItem_of_ne (stateKey_ne_instance _))).mpr ensured.saved
        · rw [get_setItem_self]
          rfl
    | false =>
        rw [if_neg Bool.false_ne_true]
        refine Safe.pure ⟨⟨heldCheck, settledProject⟩, ensured.saved, ?_⟩
        rw [← Option.not_isNone, unnamed]
        rfl
  apply legacy.bind
  intro bound afterBound isBound
  apply Safe.bind (safe_ensure isBound.1.holds isBound.1.settled (fun _ => isBound.2)
    (creates_app values project.1))
  intro app afterApp ensuredApp
  apply Safe.bind (safe_checkApp _ _ _ ensuredApp.holds)
  intro actual afterActual heldActual
  apply Safe.bind (.checked heldActual)
  intro clientId final _
  exact trivial

end Parts

/-! ### A creation of unknown outcome -/

/-- The service answers every search, and shows no match: the resource may have
been created a moment ago. -/
def Blind (instanceId : JString) (request : Request) (outcome : Outcome) : Prop :=
  OneInstance instanceId request outcome ∧
    ∀ path name, request = searchRequest path name →
      ∃ document, outcome.document request = .ok document ∧ matching name document = .ok none

/-- The file is as it was, and everything sent since satisfies `harmless`. -/
def Since (harmless : Request → Prop) (origin site : Site) : Prop :=
  site.file = origin.file ∧ ∃ events, site.log = events ++ origin.log ∧
    ∀ event ∈ events, ∃ request, event = .sent request ∧ harmless request

/-- Nothing was created. -/
abbrev Untouched : Site → Site → Prop :=
  Since fun request => ∀ key : ResourceKey, ¬ key.Creates request

/-- Nothing was even posted, so nothing was searched. -/
abbrev Quiet : Site → Site → Prop :=
  Since fun request => request.method ≠ .post

theorem Since.refl (harmless : Request → Prop) (site : Site) : Since harmless site site :=
  ⟨rfl, [], rfl, nofun⟩

theorem Since.sent {harmless : Request → Prop} {origin site : Site} {request : Request}
    (since : Since harmless origin site) (one : harmless request) :
    Since harmless origin ⟨site.file, .sent request :: site.log⟩ := by
  rcases since with ⟨sameFile, events, logEq, each⟩
  refine ⟨sameFile, .sent request :: events, by rw [logEq]; rfl, ?_⟩
  intro event member
  rcases List.mem_cons.mp member with first | earlier
  · exact ⟨request, first, one⟩
  · exact each event earlier

theorem Since.mono {harmless weaker : Request → Prop} {origin site : Site}
    (since : Since harmless origin site) (weakens : ∀ request, harmless request → weaker request) :
    Since weaker origin site := by
  rcases since with ⟨sameFile, events, logEq, each⟩
  refine ⟨sameFile, events, logEq, fun event member => ?_⟩
  rcases each event member with ⟨request, isSent, one⟩
  exact ⟨request, isSent, weakens request one⟩

theorem Quiet.untouched {origin site : Site} (quiet : Quiet origin site) : Untouched origin site :=
  quiet.mono fun _ notPost _ => not_creates_of_method notPost

/-- Wherever the program is stopped nothing was created; where it returns `post`
holds; and once it has searched, it raises the unknown outcome. -/
def Asks (answers : Request → Outcome → Prop) (origin : Site) {α : Type}
    (post : α → Site → Prop) (program : Provisioning α) (site : Site) : Prop :=
  Program.Ensures (act answers) (Untouched origin) (fun result after => match result with
    | .ok value => post value after
    | .error failure => Quiet origin after ∨ failure = .dev unknownOutcome) program site

section Refusal

variable {answers : Request → Outcome → Prop} {instanceId : JString} {origin site : Site}
  {state : Record} {α β : Type}

theorem Asks.bind {post : α → Site → Prop} {final : β → Site → Prop} {program : Provisioning α}
    {next : α → Provisioning β} (first : Asks answers origin post program site)
    (second : ∀ value after, post value after → Asks answers origin final (next value) after) :
    Asks answers origin final (program >>= next) site :=
  Program.Ensures.bind first (fun _ _ raised => raised) second

theorem Asks.ofExcept {post : α → Site → Prop} {result : Except Failure α}
    (quiet : Quiet origin site) (holds : ∀ value, result = .ok value → post value site) :
    Asks answers origin post (Program.ofExcept result) site := by
  cases result with
  | ok value => exact holds value rfl
  | error failure => exact .inl quiet

theorem asks_quiet {request : Request} (quiet : Quiet origin site)
    (notPost : request.method ≠ .post) :
    Asks answers origin (fun document after => Quiet origin after ∧
      ∃ outcome, answers request outcome ∧ outcome.document request = .ok document)
      (sendRequest request) site := by
  intro outcome after acted
  rcases acted with ⟨answered, rfl⟩
  have still : Quiet origin ⟨site.file, .sent request :: site.log⟩ := quiet.sent notPost
  exact ⟨still.untouched, Asks.ofExcept still fun document read => ⟨still, outcome, answered, read⟩⟩

/-- A search shows no match. -/
theorem asks_find {path name : JString} (quiet : Quiet origin site)
    (blind : ∀ request outcome, answers request outcome → Blind instanceId request outcome) :
    Asks answers origin (fun found _ => found = none) (find path name) site := by
  have searched : Asks answers origin (fun document _ => matching name document = .ok none)
      (sendRequest (searchRequest path name)) site := by
    intro outcome after acted
    rcases acted with ⟨answered, rfl⟩
    rcases (blind _ _ answered).2 _ _ rfl with ⟨document, read, noMatch⟩
    have rest : Asks answers origin (fun document _ => matching name document = .ok none)
        (Program.ofExcept (outcome.document (searchRequest path name)))
        ⟨site.file, .sent (searchRequest path name) :: site.log⟩ := by
      rw [read]
      exact noMatch
    exact ⟨quiet.untouched.sent fun key => not_creates_search _ _, rest⟩
  apply searched.bind
  intro document after noMatch
  rw [noMatch]
  exact rfl

/-- An unsaved resource is searched, not found, and refused. -/
theorem asks_ensure (resource : Resource) {post : JString × Record → Site → Prop}
    (quiet : Quiet origin site)
    (blind : ∀ request outcome, answers request outcome → Blind instanceId request outcome)
    (pending : given state "pending" = true) (unsaved : ¬ Saved state resource.key) :
    Asks answers origin post (ensure resource state) site := by
  have absent : state.get resource.key.stateKey = none := Option.not_isSome_iff_eq_none.mp unsaved
  unfold ensure
  rw [absent]
  apply (asks_find quiet blind).bind
  intro found after noMatch
  rw [noMatch]
  have refused : create resource state = .raise (.dev unknownOutcome) := by
    unfold create Program.raiseIf
    rw [if_pos pending]
    rfl
  simp only [refused]
  exact .inr rfl

/-- A saved resource is known. -/
theorem asks_known (resource : Resource) (quiet : Quiet origin site)
    (saved : Saved state resource.key) :
    Asks answers origin (fun result after => Quiet origin after ∧ result.2 = state)
      (ensure resource state) site := by
  rcases Option.isSome_iff_exists.mp saved with ⟨value, valueEq⟩
  unfold ensure
  rw [valueEq]
  apply Asks.bind (.ofExcept quiet fun _ _ => quiet)
  intro resourceId after still
  exact ⟨still, rfl⟩

theorem asks_checkProject (values : Values) (wasBound : Bool) (projectId : JString)
    (quiet : Quiet origin site) :
    Asks answers origin (fun _ after => Quiet origin after)
      (checkProject values wasBound projectId) site := by
  have looked : Asks answers origin (fun _ after => Quiet origin after)
      (Program.attempt (sendRequest (getRequest (projectPath projectId)))) site := by
    apply Program.ensures_attempt.mpr
    intro outcome after acted
    rcases acted with ⟨_, rfl⟩
    have still : Quiet origin ⟨site.file, .sent (getRequest (projectPath projectId)) :: site.log⟩ :=
      quiet.sent nofun
    exact ⟨still.untouched, Program.ensures_ofExcept.mpr still⟩
  apply looked.bind
  intro answer after still
  cases answer with
  | ok document =>
      apply Asks.bind (.ofExcept still fun _ _ => still)
      intro project final stillFinal
      unfold Program.raiseIf
      split
      · exact .inl stillFinal
      · exact stillFinal
  | error failure =>
      cases failure with
      | dev message => exact .inl still
      | raised exception => exact .inl still
      | iamHttp message statusCode =>
          by_cases missing : statusCode = 404
          · simp only [if_pos missing]
            exact .inl still
          · simp only [if_neg missing]
            exact .inl still

/-- The state is settled as it is, or the explicit recovery is refused. -/
theorem asks_settle (hasEnvironment recoverIdentity : Bool) (quiet : Quiet origin site)
    (unfinished : Unfinished instanceId state) :
    Asks answers origin (fun settled after => Quiet origin after ∧ settled = state)
      (settle hasEnvironment instanceId recoverIdentity state) site := by
  unfold settle
  rw [unfinished.settled, if_neg Bool.false_ne_true]
  cases recoverIdentity with
  | true =>
      rw [if_pos rfl]
      have refused : recoverLegacy hasEnvironment instanceId state =
          .raise (.dev recoveryRefused) := by
        unfold recoverLegacy Program.raiseIf
        rw [if_pos (.inr (.inl unfinished.pending))]
        rfl
      rw [refused]
      exact .inl quiet
  | false =>
      rw [if_neg Bool.false_ne_true]
      exact ⟨quiet, rfl⟩

/-- A state with the guard set holds something. -/
theorem ne_nil_of_pending (pending : given state "pending" = true) : state ≠ [] := by
  intro empty
  rw [empty] at pending
  exact Bool.false_ne_true pending

/-- A run that finds a creation of unknown outcome, and no match of it, refuses. -/
theorem asks_provision (hasEnvironment : Bool) (values : Values) (recoverIdentity : Bool)
    (blind : ∀ request outcome, answers request outcome → Blind instanceId request outcome)
    (quiet : Quiet origin site) (unfinished : Unfinished instanceId state) :
    Asks answers origin (fun _ _ => False)
      (provision hasEnvironment values recoverIdentity (.obj state)) site := by
  have nonempty := ne_nil_of_pending unfinished.pending
  have isLoaded : loaded values (.obj state) = .ok state := by
    cases state with
    | nil => exact absurd rfl nonempty
    | cons head rest => rfl
  have named : state.isEmpty = false := by
    cases state with
    | nil => exact absurd rfl nonempty
    | cons head rest => rfl
  have notPost : instanceRequest.method ≠ .post := nofun
  apply Asks.bind (asks_quiet quiet notPost)
  intro answer afterAnswer answered
  rcases answered with ⟨quietAnswer, outcome, allowed, read⟩
  have theInstance : Asks answers origin (fun found after => Quiet origin after ∧ found = instanceId)
      (Program.ofExcept (instanceOf answer)) afterAnswer :=
    .ofExcept quietAnswer fun found foundEq =>
      ⟨quietAnswer, (blind _ _ allowed).1 rfl _ read _ foundEq⟩
  apply theInstance.bind
  intro found afterFound both
  rcases both with ⟨quietFound, rfl⟩
  have begins : Asks answers origin (fun initial after => Quiet origin after ∧ initial = state)
      (Program.ofExcept (loaded values (.obj state))) afterFound := by
    rw [isLoaded]
    exact ⟨quietFound, rfl⟩
  apply begins.bind
  intro initial afterInitial both
  rcases both with ⟨quietInitial, rfl⟩
  apply (asks_settle hasEnvironment recoverIdentity quietInitial unfinished).bind
  intro settled afterSettled both
  rcases both with ⟨quietSettled, rfl⟩
  have fresh : Asks answers origin (fun state after => Quiet origin after ∧ state = settled)
      (nameFresh found settled) afterSettled := by
    unfold nameFresh
    rw [named, if_neg Bool.false_ne_true]
    exact ⟨quietSettled, rfl⟩
  apply fresh.bind
  intro state afterState both
  rcases both with ⟨quietState, rfl⟩
  by_cases saved : Saved state .project
  · apply Asks.bind (asks_known (projectResource values) quietState saved)
    intro project afterProject both
    rcases both with ⟨quietProject, same⟩
    apply Asks.bind (asks_checkProject _ _ _ quietProject)
    intro _ afterCheck quietCheck
    have legacy : Asks answers origin (fun bound after => Quiet origin after ∧ bound = state)
        (nameLegacy found project.2) afterCheck := by
      unfold nameLegacy
      rw [same, ← Option.not_isSome, (unfinished.unsaved saved).1]
      exact ⟨quietCheck, rfl⟩
    apply legacy.bind
    intro bound afterBound both
    rcases both with ⟨quietBound, rfl⟩
    have refused : Asks answers origin (fun _ _ => False)
        (ensure (appResource values project.1) bound) afterBound :=
      asks_ensure _ quietBound blind unfinished.pending (unfinished.unsaved saved).2
    exact refused.bind fun _ _ impossible => impossible.elim
  · have refused : Asks answers origin (fun _ _ => False)
        (ensure (projectResource values) state) afterState :=
      asks_ensure _ quietState blind unfinished.pending saved
    exact refused.bind fun _ _ impossible => impossible.elim

end Refusal

/-! ### Whole sequences of runs -/

/-- A creation has an unknown outcome: one was asked for since the last recovery
and its resource is not saved, or the file says so from an earlier run. -/
def Unresolved (instanceId : JString) (site : Site) : Prop :=
  (∃ key, 0 < creations key site.log ∧ ¬ Saved site.file.state key) ∨
    Unfinished instanceId site.file.state

theorem Guarded.unfinished {instanceId : JString} {log : List Event} {state : Record}
    {key : ResourceKey} (guarded : Guarded instanceId log state) (asked : 0 < creations key log)
    (unsaved : ¬ Saved state key) : Unfinished instanceId state := by
  cases key with
  | project =>
      rcases guarded.project asked with saved | unfinished
      · exact absurd saved unsaved
      · exact unfinished
  | app =>
      rcases guarded.app asked with saved | ⟨_, unfinished⟩
      · exact absurd saved unsaved
      · exact unfinished

/-- One run keeps what is owed to the origin. -/
theorem sound_of_run {instanceId : JString} {origin before after : Site}
    (sound : Sound instanceId origin before) (run : Run (OneInstance instanceId) before after) :
    Sound instanceId origin after := by
  rcases run with ⟨rest, hasEnvironment, values, recoverIdentity, executed⟩
  have safe : Safe (OneInstance instanceId) instanceId origin (fun _ _ => True)
      (provisioning hasEnvironment values recoverIdentity before.file) before := by
    cases file : before.file with
    | absent =>
        apply safe_provision _ _ _ _ (fun _ _ answered => answered) sound
        intro fields isObject
        cases isObject
        rw [file]
        rfl
    | unreadable => exact trivial
    | document value =>
        apply safe_provision _ _ _ _ (fun _ _ answered => answered) sound
        intro fields isObject
        rw [file, isObject]
        rfl
  exact (Program.Ensures.of_executes safe sound executed).1

/-- A sequence of runs keeps what is owed to the origin. -/
theorem sound_of_runs {instanceId : JString} {origin before after : Site}
    (sound : Sound instanceId origin before)
    (runs : Relation.ReflTransGen (Run (OneInstance instanceId)) before after) :
    Sound instanceId origin after := by
  induction runs with
  | refl => exact sound
  | tail _ run inductionHypothesis => exact sound_of_run inductionHypothesis run

/-- Over any sequence of runs from any state file, each complete or stopped
anywhere: a resource is asked for at most once between two recoveries; a saved
identifier stays until a recovery; and a run that finds a creation of unknown
outcome and no match of it changes nothing and refuses. -/
theorem provisions_once (instanceId : JString) (file : StateFile) {site : Site}
    (runs : Relation.ReflTransGen (Run (OneInstance instanceId)) ⟨file, []⟩ site) :
    (∀ key, OncePerRecovery key site.log) ∧
    (∀ later, Relation.ReflTransGen (Run (OneInstance instanceId)) site later →
      ∃ events, later.log = events ++ site.log ∧
        ((∃ event ∈ events, event.isRecovery = true) ∨ Keeps site.file.state later.file.state)) ∧
    (Unresolved instanceId site → ∀ rest later, Runs (Blind instanceId) site rest later →
      later.file = site.file ∧
      (∀ updates, rest ≠ .ret updates) ∧
      ∃ events, later.log = events ++ site.log ∧
        (∀ event ∈ events, ∀ key, event.creates key = false) ∧
        ∀ failure path name, rest = .raise failure → .sent (searchRequest path name) ∈ events →
          failure = .dev unknownOutcome) := by
  have sound : Sound instanceId ⟨file, []⟩ site := sound_of_runs (.start (.empty _)) runs
  refine ⟨sound.guarded.once, ?_, ?_⟩
  · intro later further
    exact (sound_of_runs (.start sound.guarded) further).kept
  · intro unresolved rest later run
    have unfinished : Unfinished instanceId site.file.state := by
      rcases unresolved with ⟨key, asked, unsaved⟩ | unfinished
      · exact sound.guarded.unfinished asked unsaved
      · exact unfinished
    rcases run with ⟨hasEnvironment, values, recoverIdentity, executed⟩
    have stored : site.file = .document (.obj site.file.state) := by
      have nonempty := ne_nil_of_pending unfinished.pending
      cases fileEq : site.file with
      | absent =>
          rw [fileEq] at nonempty
          exact absurd rfl nonempty
      | unreadable =>
          rw [fileEq] at nonempty
          exact absurd rfl nonempty
      | document value =>
          rw [fileEq] at nonempty
          cases value with
          | obj fields => rfl
          | _ => exact absurd rfl nonempty
    rw [stored] at executed
    have asks := asks_provision hasEnvironment values recoverIdentity
      (fun _ _ answered => answered) (Since.refl _ site) unfinished
    have left := Program.Ensures.of_executes asks (Since.refl _ site) executed
    rcases left with ⟨⟨sameFile, events, logEq, each⟩, ends⟩
    refine ⟨sameFile, ?_, events, logEq, ?_, ?_⟩
    · rintro updates rfl
      exact ends
    · intro event member key
      rcases each event member with ⟨request, isSent, harmless⟩
      rw [isSent]
      exact decide_eq_false (harmless key)
    · rintro failure path name rfl searched
      rcases ends with ⟨_, others, othersEq, quiet⟩ | refused
      · have same : others = events := List.append_cancel_right (othersEq.symm.trans logEq)
        rw [← same] at searched
        rcases quiet _ searched with ⟨request, isSent, notPost⟩
        cases isSent
        exact absurd rfl notPost
      · exact refused

/-! ### A creation without an answer -/

def sampleInstance : JString := JString.ofString "instance-1"

/-- The values of a checkout. -/
def sampleValues : Values where
  projectName := JString.ofString "isolated-project"
  appName := JString.ofString "isolated-application"
  webOrigin := JString.ofString "http://127.0.0.1:13000"
  redirectUri := JString.ofString "http://127.0.0.1:18765/callback"
  projectId := none

/-- A service that names its instance, finds nothing and answers a creation
without an identifier. -/
def sampleOutcome (request : Request) : Outcome :=
  match request.method with
  | .get => .response 200 (some (.obj [field "instance" (.obj [field "id" (.str sampleInstance)])]))
  | .post => .response 200 (some (.obj []))
  | .put => .failed

/-- The world of that service, where every write succeeds. -/
def sampleServe : (effect : Effect) → Site → Reply effect × Site
  | .request request, site => (sampleOutcome request, ⟨site.file, .sent request :: site.log⟩)
  | .volumes, site => (some [], site)
  | .archive _, site => (true, site)
  | .save state origin, site => (true, ⟨.document (.obj state), origin.event state :: site.log⟩)

theorem blind_sampleOutcome (request : Request) :
    Blind sampleInstance request (sampleOutcome request) := by
  refine ⟨?_, ?_⟩
  · intro isInstance document read found foundEq
    subst isInstance
    cases read
    cases foundEq
    rfl
  · intro path name isSearch
    subst isSearch
    exact ⟨[], rfl, rfl⟩

theorem serves_sample (effect : Effect) (site : Site) :
    act (Blind sampleInstance) effect site (sampleServe effect site).1 (sampleServe effect site).2 := by
  cases effect with
  | request request => exact ⟨blind_sampleOutcome request, rfl⟩
  | volumes => exact rfl
  | archive copy => exact rfl
  | save state origin => exact rfl

/-- A first run asks for the project and learns no identifier. -/
def sampleAsked : Site :=
  (Program.play sampleServe 9 (provisioning false sampleValues false .absent) ⟨.absent, []⟩).2

/-- The next run. -/
def sampleRefused : Provisioning (List (String × JString)) × Site :=
  Program.play sampleServe 9 (provisioning false sampleValues false sampleAsked.file) sampleAsked

theorem runs_sampleAsked : Run (OneInstance sampleInstance) ⟨.absent, []⟩ sampleAsked := by
  refine ⟨_, false, sampleValues, false, Program.executes_play ?_ 9 _ _⟩
  intro effect site
  cases effect with
  | request request => exact ⟨(blind_sampleOutcome request).1, rfl⟩
  | volumes => exact rfl
  | archive copy => exact rfl
  | save state origin => exact rfl

/-- The project was asked for, and the next run leaves the state file. -/
theorem provisions_once_of_sample :
    creations .project sampleAsked.log = 1 ∧ sampleRefused.2.file = sampleAsked.file := by
  have asked : creations .project sampleAsked.log = 1 := by decide +kernel
  have unsaved : ¬ Saved sampleAsked.file.state .project := by
    unfold Saved
    decide +kernel
  have refuses := (provisions_once sampleInstance .absent (.single runs_sampleAsked)).2.2
    (.inl ⟨.project, asked ▸ Nat.one_pos, unsaved⟩)
  exact ⟨asked, (refuses _ _ ⟨false, sampleValues, false,
    Program.executes_play serves_sample 9 _ _⟩).1⟩

end Docta.Dev
