/-
Module: Docta.Ingestion.Relays
Purpose: The publish fence. However relays overlap, crash and lose their leases,
  and whatever is rescheduled or reconciled meanwhile, only the holder of an
  event's current token marks it published, a late commit changes nothing, and
  no relay that is gone keeps another from publishing.
Trusted boundary: a publish token is drawn once
Main exports: EventChange, outboxWrite_of_step, StepWithout, PublishFence,
  publish_fenced
-/
import Docta.Ingestion.Delivery
import Mathlib.Data.List.Sort

namespace Docta

open Table Fallible Transition

/-! ### What a step does to an event -/

/-- How one step changes the row of an event. -/
inductive EventChange (deployment : Deployment) (before after : Backend) (event : OutboxEvent) :
    OutboxEvent → Prop where
  /-- A relay leases it under its token. -/
  | leased (publication : Publication) (now : Time) (eligible : event.eligible now = true)
      (started : after.relays = before.relays ++ [⟨publication, .leased⟩])
      (ofEvent : publication.envelope.eventId = event.id) :
      EventChange deployment before after event
        { event with
          publishToken := some publication.token
          publishLeaseUntil := some (now + seconds 30) }
  /-- The relay that holds its token marks it published. -/
  | published (publication : Publication) (now : Time)
      (appended : ⟨publication, .appended⟩ ∈ before.relays)
      (ofEvent : publication.envelope.eventId = event.id)
      (held : event.publishToken = some publication.token) :
      EventChange deployment before after event
        { event with publishedAt := some now, publishToken := none, publishLeaseUntil := none }
  /-- A worker that holds its job schedules a retry. -/
  | rescheduled (availableAt checked : Time) (job : IngestionJob) (claimed : ClaimedJob)
      (holding : claimed.Holding checked job) (own : event.jobId = job.id) :
      EventChange deployment before after event
        { event with
          availableAt, publishedAt := none, publishToken := none, publishLeaseUntil := none }
  /-- It was published so long ago that it is made publishable again. -/
  | reconciled (now published : Time) (isPublished : event.publishedAt = some published)
      (stale : published ≤ now - seconds deployment.staleSeconds) :
      EventChange deployment before after event
        { event with
          publishedAt := none, availableAt := now, publishToken := none, publishLeaseUntil := none }

/-- What one step does to the outbox. -/
inductive OutboxWrite (deployment : Deployment) (before after : Backend) : Prop where
  | unchanged (same : after.material.outboxEvents = before.material.outboxEvents)
  | inserted (event : OutboxEvent) (waiting : event.publishedAt = none ∧ event.publishToken = none)
      (outbox : after.material.outboxEvents = insertEvent event before.material.outboxEvents)
  | updated (condition : OutboxEvent → Bool) (assign : OutboxEvent → OutboxEvent)
      (outbox : after.material.outboxEvents =
        updateWhere before.material.outboxEvents condition assign)
      (changes : ∀ event ∈ before.material.outboxEvents, condition event = true →
        EventChange deployment before after event (assign event))

section Outbox

open IngestionWorker

variable {deployment : Deployment} {before after : Backend}

/-- An event keeps what its insert fixed. -/
theorem EventChange.sameInserted {event later : OutboxEvent}
    (change : EventChange deployment before after event later) :
    later.inserted = event.inserted := by
  cases change <;> rfl

theorem outboxWrite_of_deliveryStep {delivery : Delivery} {next : DeliveryPhase}
    {written : Material} {successes : List Success}
    (advance : DeliveryStep deployment delivery.envelope before.material delivery.phase next
      written successes) (material : after.material = written) :
    OutboxWrite deployment before after := by
  generalize delivery.phase = phase at advance
  subst material
  have claimed (now : Time) (stamp : Stamp) (result : Option ClaimedJob)
      (ok : claim deployment.worker delivery.envelope now stamp before.material =
        .ok (result, after.material)) : OutboxWrite deployment before after := by
    generalize writtenEq : after.material = written at ok
    cases claims_of_ok ok with
    | ignored job known own idle => exact .unchanged (by rw [writtenEq])
    | exhausted job known own unfinished due spent _ ok =>
        rw [exhaust, Material.commit_eq_ok] at ok
        refine .inserted _ ?_ (by rw [writtenEq, ← ok.2]; rfl)
        exact ⟨rfl, rfl⟩
    | taken job known own unfinished due unspent version storageVersionId constraints =>
        exact .unchanged (by rw [writtenEq]; rfl)
  generalize writtenEq : after.material = written at advance
  cases advance with
  | claim now stamp claim after' ok => exact claimed now stamp _ (writtenEq ▸ ok)
  | ignore now stamp after' ok => exact claimed now stamp _ (writtenEq ▸ ok)
  | work claim responses output ok => exact .unchanged (by rw [writtenEq])
  | reject claim responses rejection failed => exact .unchanged (by rw [writtenEq])
  | succeed claim output fresh now completedAt after' ok =>
      obtain ⟨job, _, _, _, same⟩ := persistSuccess_eq_ok ok
      exact .unchanged (by rw [writtenEq, same])
  | refuse claim output fresh now completedAt message failed =>
      exact .unchanged (by rw [writtenEq])
  | fail claim rejection checked now nextAttemptAt stamp after' ok =>
      rcases persistFailure_eq_ok ok with ⟨_, same⟩ | ⟨job, _, holding, _, retry, same⟩
      · exact .unchanged (by rw [writtenEq, same])
      · cases retry with
        | true =>
            refine .updated (fun row => row.jobId == job.id && row.kind == .ingestion) _
              (by rw [writtenEq, same]; rfl) fun event _ matched => ?_
            rw [Bool.and_eq_true, beq_iff_eq] at matched
            exact .rescheduled nextAttemptAt checked job claim holding matched.1
        | false =>
            refine .inserted _ ?_ (by rw [writtenEq, same]; rfl)
            exact ⟨rfl, rfl⟩

theorem outboxWrite_of_step (constraints : before.material.Constraints)
    (step : before.Step deployment after) :
    OutboxWrite deployment before after := by
  cases step with
  | createCourse course written first inactive ok =>
      rw [Material.commit_eq_ok] at ok
      exact .unchanged (by rw [← ok.2])
  | createUpload tables who courseId request key documentId versionId record written ok =>
      rcases createUpload_eq_ok ok with rfl | ⟨_, document, version, _, rfl⟩
      · exact .unchanged rfl
      · exact .unchanged rfl
  | confirm tables earlier later confirmation metadata jobId stamp confirmed running inspected ok =>
      obtain ⟨version, _, _, _, _, outcome⟩ := confirm_eq_ok ok
      rcases outcome with ⟨_, _, rfl⟩ | ⟨_, _, _, rfl⟩
      · exact .unchanged rfl
      · refine .inserted _ ?_ rfl
        exact ⟨rfl, rfl⟩
  | activate earlier later activation shown activated running ok =>
      obtain ⟨course, _, _, _, _, _, rfl⟩ := activate_eq_ok ok
      exact .unchanged rfl
  | lease locked token now publication written ok =>
      obtain ⟨event, known, job, _, _, eligible, rfl, _, rfl⟩ := lease_eq_ok ok
      refine .updated (·.id == event.id) _ rfl fun row rowKnown matched => ?_
      have isEvent := constraints.eventIds.eq_of_key rowKnown known (by simpa using matched)
      subst isEvent
      exact .leased (OutboxRelay.publication deployment.worker.zone token row job) now eligible
        rfl rfl
  | markPublished earlier later publication now marked running ok =>
      rw [OutboxRelay.markPublished, Material.commit_eq_ok] at ok
      refine .updated _ _ (by rw [← ok.2]) fun event _ matched => ?_
      rw [Bool.and_eq_true, beq_iff_eq, beq_iff_eq] at matched
      exact .published publication now (by rw [running]; simp) matched.1.symm matched.2
  | reconcile now written ok =>
      rw [OutboxRelay.reconcile, Material.commit_eq_ok] at ok
      refine .updated _ _ (by rw [← ok.2]) fun event _ matched => ?_
      rw [OutboxRelay.stale, Bool.and_eq_true] at matched
      cases published : event.publishedAt with
      | none =>
          rw [published] at matched
          cases matched.2
      | some publishedAt =>
          rw [published] at matched
          exact .reconciled now publishedAt published (by simpa using matched.2)
  | deliver earlier later delivery next written successes running advance =>
      exact outboxWrite_of_deliveryStep advance rfl
  | _ => exact .unchanged rfl

/-- Every event is still there after a step, changed as a step may. -/
theorem eventChange_of_step (sound : before.Sound deployment) (step : before.Step deployment after)
    {event : OutboxEvent} (known : event ∈ before.material.outboxEvents) :
    ∃ later ∈ after.material.outboxEvents, later.inserted = event.inserted ∧
      (later = event ∨ EventChange deployment before after event later) := by
  cases outboxWrite_of_step sound.coherent.constraints step with
  | unchanged same => exact ⟨event, same ▸ known, rfl, .inl rfl⟩
  | inserted added waiting outbox =>
      refine ⟨event, ?_, rfl, .inl rfl⟩
      rw [outbox]
      unfold insertEvent
      split
      · exact known
      · exact List.mem_append_left _ known
  | updated condition assign outbox changes =>
      by_cases matched : condition event = true
      · have change := changes event known matched
        exact ⟨assign event, outbox ▸ mem_updateWhere_of_matched known matched,
          change.sameInserted, .inr change⟩
      · exact ⟨event, outbox ▸ mem_updateWhere_of_not known (by simpa using matched), rfl, .inl rfl⟩

/-- Every event after a step was there, or is new and unpublished. -/
theorem eventOrigin_of_step (sound : before.Sound deployment) (step : before.Step deployment after)
    {later : OutboxEvent} (laterKnown : later ∈ after.material.outboxEvents) :
    (later.publishedAt = none ∧ later.publishToken = none) ∨
      ∃ event ∈ before.material.outboxEvents, later.inserted = event.inserted ∧
        (later = event ∨ EventChange deployment before after event later) := by
  cases outboxWrite_of_step sound.coherent.constraints step with
  | unchanged same => exact .inr ⟨later, same ▸ laterKnown, rfl, .inl rfl⟩
  | inserted added waiting outbox =>
      rw [outbox] at laterKnown
      unfold insertEvent at laterKnown
      split at laterKnown
      · exact .inr ⟨later, laterKnown, rfl, .inl rfl⟩
      · rcases List.mem_append.mp laterKnown with old | new
        · exact .inr ⟨later, old, rfl, .inl rfl⟩
        · rw [List.mem_singleton.mp new]
          exact .inl waiting
  | updated condition assign outbox changes =>
      rw [outbox] at laterKnown
      rcases mem_updateWhere_cases laterKnown with ⟨stays, _⟩ | ⟨event, known, matched, rfl⟩
      · exact .inr ⟨later, stays, rfl, .inl rfl⟩
      · have change := changes event known matched
        exact .inr ⟨event, known, change.sameInserted, .inr change⟩

end Outbox

/-! ### Late commits -/

/-- A step in which no relay starts under this token. -/
def StepWithout (deployment : Deployment) (token : UUID) (before after : Backend) : Prop :=
  before.Step deployment after ∧
    ∀ publication, after.relays = before.relays ++ [⟨publication, .leased⟩] →
      publication.token ≠ token

/-- The event is not under this token. -/
def Lost (eventId token : UUID) (backend : Backend) : Prop :=
  ∃ event ∈ backend.material.outboxEvents, event.id = eventId ∧ event.publishToken ≠ some token

section Late

variable {deployment : Deployment} {before after : Backend} {token eventId : UUID}

theorem EventChange.lost {event later : OutboxEvent}
    (without : StepWithout deployment token before after)
    (change : EventChange deployment before after event later) :
    later.publishToken ≠ some token := by
  cases change with
  | leased publication now eligible started ofEvent =>
      intro same
      exact without.2 publication started (Option.some.inj same)
  | published publication now appended ofEvent held => nofun
  | rescheduled availableAt checked job claimed holding own => nofun
  | reconciled now published isPublished stale => nofun

theorem lost_of_step (sound : before.Sound deployment) (lost : Lost eventId token before)
    (without : StepWithout deployment token before after) : Lost eventId token after := by
  obtain ⟨event, known, idEq, notHeld⟩ := lost
  obtain ⟨later, laterKnown, same, change⟩ := eventChange_of_step sound without.1 known
  refine ⟨later, laterKnown, ?_, ?_⟩
  · exact (OutboxEvent.column_of_inserted same (·.id) fun _ => rfl).trans idEq
  · rcases change with rfl | change
    · exact notHeld
    · exact change.lost without

/-- A run keeps the backend sound, and a lost token lost. -/
theorem lost_of_run (sound : before.Sound deployment) (lost : Lost eventId token before)
    (run : Relation.ReflTransGen (StepWithout deployment token) before after) :
    after.Sound deployment ∧ Lost eventId token after :=
  @run_preserves _ (StepWithout deployment token) (Backend.Sound deployment)
    (Lost eventId token) (fun _ _ sound without => sound_of_step sound without.1)
    (fun _ _ sound lost without => lost_of_step sound lost without) _ _ run sound lost

/-- Once the row of an event changed, whoever held a token before has lost it. -/
theorem lost_of_changed (sound : before.Sound deployment) {event : OutboxEvent}
    (known : event ∈ before.material.outboxEvents)
    (run : Relation.ReflTransGen (StepWithout deployment token) before after) :
    after.Sound deployment ∧
      (event ∈ after.material.outboxEvents ∨ Lost event.id token after) := by
  refine @run_preserves _ (StepWithout deployment token) (Backend.Sound deployment)
    (fun backend => event ∈ backend.material.outboxEvents ∨ Lost event.id token backend)
    (fun _ _ sound without => sound_of_step sound without.1)
    (fun here there sound held without => ?_) _ _ run sound (.inl known)
  rcases held with stays | lost
  · obtain ⟨later, laterKnown, same, change⟩ := eventChange_of_step sound without.1 stays
    rcases change with rfl | change
    · exact .inl laterKnown
    · refine .inr ⟨later, laterKnown, ?_, change.lost without⟩
      exact OutboxEvent.column_of_inserted same (·.id) fun _ => rfl
  · exact .inr (lost_of_step sound lost without)

/-- The commit of a relay that lost its token changes nothing. -/
theorem markPublished_of_lost (constraints : before.material.Constraints)
    (lost : Lost eventId token before) (now : Time) :
    OutboxRelay.markPublished eventId token now before.material = .ok before.material := by
  obtain ⟨event, known, idEq, notHeld⟩ := lost
  have unmatched : ∀ row ∈ before.material.outboxEvents,
      (row.id == eventId && row.publishToken == some token) = false := by
    intro row rowKnown
    by_contra matched
    simp only [Bool.not_eq_false, Bool.and_eq_true, beq_iff_eq] at matched
    have same := constraints.eventIds.eq_of_key rowKnown known (matched.1.trans idEq.symm)
    rw [same] at matched
    exact notHeld matched.2
  rw [OutboxRelay.markPublished, updateWhere_eq_self unmatched, Material.commit_eq_ok]
  exact ⟨constraints, rfl⟩

end Late

/-! ### The next selection -/

/-- What ends the wait of a rescheduled event: a relay selects it, not before its
time, or it is rescheduled again. -/
inductive Selection (event : OutboxEvent) : OutboxEvent → Prop where
  | leased (token : UUID) (now : Time) (available : event.availableAt ≤ now) :
      Selection event
        { event with publishToken := some token, publishLeaseUntil := some (now + seconds 30) }
  | rescheduled (availableAt : Time) :
      Selection event
        { event with
          availableAt, publishedAt := none, publishToken := none, publishLeaseUntil := none }

section Next

variable {deployment : Deployment} {before after : Backend}

/-- An unpublished event no relay holds changes only by a selection. -/
theorem EventChange.selection {event later : OutboxEvent}
    (change : EventChange deployment before after event later)
    (unpublished : event.publishedAt = none) (released : event.publishToken = none) :
    Selection event later := by
  cases change with
  | leased publication now eligible started ofEvent =>
      rw [OutboxEvent.eligible, Bool.and_eq_true, Bool.and_eq_true, decide_eq_true_iff] at eligible
      exact .leased publication.token now eligible.1.2
  | published publication now appended ofEvent held =>
      rw [released] at held
      cases held
  | rescheduled availableAt checked job claimed holding own => exact .rescheduled availableAt
  | reconciled now published isPublished stale =>
      rw [unpublished] at isPublished
      cases isPublished

/-- A rescheduled event waits unchanged until its next selection. -/
theorem waits_until_selection (sound : before.Sound deployment) {event : OutboxEvent}
    (known : event ∈ before.material.outboxEvents) (unpublished : event.publishedAt = none)
    (released : event.publishToken = none)
    (run : Relation.ReflTransGen (Backend.Step deployment) before after) :
    event ∈ after.material.outboxEvents ∨
      ∃ here there later, Relation.ReflTransGen (Backend.Step deployment) before here ∧
        event ∈ here.material.outboxEvents ∧ here.Step deployment there ∧
        later ∈ there.material.outboxEvents ∧ Selection event later ∧
        Relation.ReflTransGen (Backend.Step deployment) there after := by
  induction run with
  | refl => exact .inl known
  | tail prior step inductionHypothesis =>
      rcases inductionHypothesis with stays | ⟨here, there, later, first, stayed, selecting,
        laterKnown, selection, rest⟩
      · have soundHere := (materialAdvances_of_run sound prior).1
        obtain ⟨later, laterKnown, _, change⟩ := eventChange_of_step soundHere step stays
        rcases change with rfl | change
        · exact .inl laterKnown
        · exact .inr ⟨_, _, later, prior, stays, step, laterKnown,
            change.selection unpublished released, .refl⟩
      · exact .inr ⟨here, there, later, first, stayed, selecting, laterKnown, selection,
          rest.tail step⟩

end Next

/-! ### Progress -/

section Progress

instance : Std.Total dispatchOrder where
  total first second := by
    unfold dispatchOrder
    rcases lt_trichotomy first.1.availableAt second.1.availableAt with earlier | same | later
    · exact .inl (.inl earlier)
    · rcases le_total first.1.id.digits second.1.id.digits with below | above
      · exact .inl (.inr ⟨same, below⟩)
      · exact .inr (.inr ⟨same.symm, above⟩)
    · exact .inr (.inl later)

instance : IsTrans (OutboxEvent × IngestionJob) dispatchOrder where
  trans first second third := by
    unfold dispatchOrder
    intro one two
    rcases one with earlier | ⟨same, below⟩
    · rcases two with later | ⟨sameNext, _⟩
      · exact .inl (earlier.trans later)
      · exact .inl (sameNext ▸ earlier)
    · rcases two with later | ⟨sameNext, belowNext⟩
      · exact .inl (same ▸ later)
      · exact .inr ⟨same.trans sameNext, le_trans below belowNext⟩

variable {material : Material}

/-- A waiting event whose times have passed is eligible, whoever leased it before. -/
theorem eligible_of_past {event : OutboxEvent} {now : Time} (unpublished : event.publishedAt = none)
    (available : event.availableAt ≤ now)
    (leaseOver : ∀ expires ∈ event.publishLeaseUntil, expires ≤ now) :
    event.eligible now = true := by
  have expired : event.publishLeaseUntil.all (· ≤ now) = true := by
    cases lease : event.publishLeaseUntil with
    | none => rfl
    | some expires => simpa using leaseOver expires lease
  simp [OutboxEvent.eligible, unpublished, available, expired]

/-- A relay that looks for work while an event is eligible and not locked leases
it, or one that comes before it. -/
theorem lease_of_eligible (constraints : material.Constraints) {zone : TimeZone}
    {event : OutboxEvent} (known : event ∈ material.outboxEvents) {job : IngestionJob}
    (jobKnown : job ∈ material.ingestionJobs) (own : event.jobId = job.id) {now : Time}
    (eligible : event.eligible now = true) {locked : UUID → Bool}
    (unlocked : locked event.id = false) (token : UUID) :
    ∃ first ∈ material.outboxEvents, ∃ firstJob leased, first.eligible now = true ∧
      locked first.id = false ∧ dispatchOrder (first, firstJob) (event, job) ∧
      OutboxRelay.lease zone locked token now material =
        .ok (some (OutboxRelay.publication zone token first firstJob), leased) ∧
      leased =
        { material with
          outboxEvents := updateWhere material.outboxEvents (·.id == first.id) fun row =>
            { row with publishToken := some token
                       publishLeaseUntil := some (now + seconds 30) } } ∧
      leased.Constraints := by
  have candidate : (event, job) ∈ OutboxRelay.candidates locked now material := by
    refine List.mem_flatMap.mpr ⟨event, ?_, List.mem_map_of_mem ?_⟩
    · exact List.mem_filter.mpr ⟨known, by simp [eligible, unlocked]⟩
    · exact List.mem_filter.mpr ⟨jobKnown, by simp [own]⟩
  have sorted := List.pairwise_insertionSort dispatchOrder
    (OutboxRelay.candidates locked now material)
  have member := (List.mem_insertionSort dispatchOrder).mpr candidate
  cases order : (OutboxRelay.candidates locked now material).insertionSort dispatchOrder with
  | nil =>
      rw [order] at member
      cases member
  | cons head others =>
      obtain ⟨first, firstJob⟩ := head
      have inCandidates : (first, firstJob) ∈ OutboxRelay.candidates locked now material := by
        rw [← List.mem_insertionSort dispatchOrder, order]
        exact List.mem_cons_self
      obtain ⟨row, rowMember, inJobs⟩ := List.mem_flatMap.mp inCandidates
      obtain ⟨_, _, same⟩ := List.mem_map.mp inJobs
      cases same
      obtain ⟨firstKnown, selected⟩ := List.mem_filter.mp rowMember
      rw [Bool.and_eq_true, Bool.not_eq_true'] at selected
      have precedes : dispatchOrder (first, firstJob) (event, job) := by
        rw [order] at member sorted
        rcases List.mem_cons.mp member with same | later
        · rw [same]
          exact (total_of dispatchOrder (first, firstJob) (first, firstJob)).elim id id
        · exact List.rel_of_pairwise_cons sorted later
      have leasedConstraints := @Material.Constraints.dispatched material constraints
        (·.id == first.id)
        (fun row => { row with publishToken := some token
                               publishLeaseUntil := some (now + seconds 30) }) fun _ => rfl
      refine ⟨first, firstKnown, firstJob, _, selected.1, selected.2, precedes, ?_, rfl,
        leasedConstraints⟩
      rw [OutboxRelay.lease, order, List.head?_cons]
      dsimp only
      rw [Material.commit_eq_ok.mpr ⟨leasedConstraints, rfl⟩]
      rfl

/-- The relay that leased an event publishes it. -/
theorem markPublished_of_lease (constraints : material.Constraints) {event : OutboxEvent}
    (known : event ∈ material.outboxEvents) (token : UUID) (expires now : Time) :
    ∃ marked, OutboxRelay.markPublished event.id token now
        { material with
          outboxEvents := updateWhere material.outboxEvents (·.id == event.id) fun row =>
            { row with publishToken := some token, publishLeaseUntil := some expires } } =
        .ok marked ∧
      ∃ later ∈ marked.outboxEvents, later.inserted = event.inserted ∧
        later.publishedAt = some now := by
  have leased := @Material.Constraints.dispatched material constraints (·.id == event.id)
    (fun row => { row with publishToken := some token, publishLeaseUntil := some expires })
    fun _ => rfl
  refine ⟨_, Material.commit_eq_ok.mpr ⟨leased.dispatched fun _ => rfl, rfl⟩, _,
    mem_updateWhere_of_matched (mem_updateWhere_of_matched known (by simp)) (by simp), rfl, rfl⟩

end Progress

/-! ### The fence -/

/-- How publication is fenced. -/
structure PublishFence (deployment : Deployment) (backend : Backend) : Prop where
  /-- an event is marked published only by the relay that holds its current token,
  after its append -/
  setter : ∀ after, backend.Step deployment after → ∀ later ∈ after.material.outboxEvents,
    ∀ published, later.publishedAt = some published →
      ∃ event ∈ backend.material.outboxEvents, event.id = later.id ∧
        (event.publishedAt = some published ∨
          ∃ relay ∈ backend.relays, relay.phase = .appended ∧
            relay.publication.envelope.eventId = event.id ∧
            event.publishToken = some relay.publication.token)
  /-- once a retry, a reconciliation or a takeover changed an event's row, the
  commit of a relay that was publishing it changes nothing -/
  late : ∀ relay ∈ backend.relays, ∀ event ∈ backend.material.outboxEvents,
    event.id = relay.publication.envelope.eventId →
    ∀ changed, Relation.ReflTransGen (StepWithout deployment relay.publication.token) backend
        changed →
      event ∉ changed.material.outboxEvents ∨
        event.publishToken ≠ some relay.publication.token →
      ∀ later, Relation.ReflTransGen (StepWithout deployment relay.publication.token) changed
          later →
        ∀ now, OutboxRelay.markPublished event.id relay.publication.token now later.material =
          .ok later.material
  /-- a rescheduled event is next selected at its time at the earliest -/
  next : ∀ event ∈ backend.material.outboxEvents, event.publishedAt = none →
    event.publishToken = none →
    ∀ after, Relation.ReflTransGen (Backend.Step deployment) backend after →
      event ∈ after.material.outboxEvents ∨
        ∃ here there later, Relation.ReflTransGen (Backend.Step deployment) backend here ∧
          event ∈ here.material.outboxEvents ∧ here.Step deployment there ∧
          later ∈ there.material.outboxEvents ∧ Selection event later ∧
          Relation.ReflTransGen (Backend.Step deployment) there after
  /-- once an event's times have passed, a later relay leases it or one that comes
  before it, and publishes what it leased -/
  progress : ∀ event ∈ backend.material.outboxEvents, ∀ now, event.publishedAt = none →
    event.availableAt ≤ now → (∀ expires ∈ event.publishLeaseUntil, expires ≤ now) →
    ∀ locked : UUID → Bool, locked event.id = false → ∀ token, ∃ first ∈ backend.material.outboxEvents,
      ∃ job firstJob leased, first.eligible now = true ∧ locked first.id = false ∧
        dispatchOrder (first, firstJob) (event, job) ∧
        OutboxRelay.lease deployment.worker.zone locked token now backend.material =
          .ok (some (OutboxRelay.publication deployment.worker.zone token first firstJob),
            leased) ∧
        ∀ time, ∃ marked, OutboxRelay.markPublished first.id token time leased = .ok marked ∧
          ∃ later ∈ marked.outboxEvents, later.inserted = first.inserted ∧
            later.publishedAt = some time

section Fence

variable {deployment : Deployment} {backend : Backend}

theorem setter_of_step (sound : backend.Sound deployment) {after : Backend}
    (step : backend.Step deployment after) {later : OutboxEvent}
    (laterKnown : later ∈ after.material.outboxEvents) {published : Time}
    (isPublished : later.publishedAt = some published) :
    ∃ event ∈ backend.material.outboxEvents, event.id = later.id ∧
      (event.publishedAt = some published ∨
        ∃ relay ∈ backend.relays, relay.phase = .appended ∧
          relay.publication.envelope.eventId = event.id ∧
          event.publishToken = some relay.publication.token) := by
  rcases eventOrigin_of_step sound step laterKnown with ⟨unpublished, _⟩ | ⟨event, known, same,
    change⟩
  · rw [unpublished] at isPublished
    cases isPublished
  · have sameId : event.id = later.id :=
      (OutboxEvent.column_of_inserted same (·.id) fun _ => rfl).symm
    refine ⟨event, known, sameId, ?_⟩
    rcases change with rfl | change
    · exact .inl isPublished
    · cases change with
      | leased publication now eligible started ofEvent => exact .inl isPublished
      | published publication now appended ofEvent held =>
          exact .inr ⟨_, appended, rfl, ofEvent, held⟩
      | rescheduled availableAt checked job claimed holding own => cases isPublished
      | reconciled now published' wasPublished stale => cases isPublished

/-- The relay publish fence, in every state that any interleaving of relays,
workers, retries and reconciliations leads to. -/
theorem publish_fenced
    (reachable : Reachable Backend.Initial (Backend.Step deployment) backend) :
    PublishFence deployment backend := by
  have sound := sound_of_reachable reachable
  have constraints := sound.coherent.constraints
  refine
    { setter := fun after step later laterKnown published isPublished =>
        setter_of_step sound step laterKnown isPublished
      late := fun relay _ event known _ changed run lostAlready later rest now => ?_
      next := fun event known unpublished released after run =>
        waits_until_selection sound known unpublished released run
      progress := fun event known now unpublished available leaseOver locked unlocked token => ?_ }
  · obtain ⟨soundChanged, held⟩ := lost_of_changed sound known run
    have lost : Lost event.id relay.publication.token changed := by
      rcases held with stays | lost
      · rcases lostAlready with gone | notHeld
        · exact absurd stays gone
        · exact ⟨event, stays, rfl, notHeld⟩
      · exact lost
    obtain ⟨soundLater, stillLost⟩ := lost_of_run soundChanged lost rest
    exact markPublished_of_lost soundLater.coherent.constraints stillLost now
  · obtain ⟨job, jobKnown, _, own⟩ := constraints.eventJob event known
    obtain ⟨first, firstKnown, firstJob, leased, firstEligible, firstUnlocked, precedes, leaseOk,
      rfl, _⟩ := lease_of_eligible constraints known jobKnown own.symm
        (eligible_of_past unpublished available leaseOver) unlocked token
    exact ⟨first, firstKnown, job, firstJob, _, firstEligible, firstUnlocked, precedes, leaseOk,
      fun time => markPublished_of_lease constraints firstKnown token _ time⟩

/-- While the first document's event is in flight its publication is fenced. -/
theorem publish_fenced_of_sample : PublishFence sampleDeployment samplePublishing :=
  publish_fenced reachable_samplePublishing

end Fence

end Docta
