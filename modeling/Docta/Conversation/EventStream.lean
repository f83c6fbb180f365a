/-
Module: Docta.Conversation.EventStream
Purpose: The events of one question: the generator of its response, suspended at
  its reads, yields and sleeps, while the pipeline it was started with records
  its phases in the list they share.
Trusted boundary: control changes hands only where the generator is suspended
Main exports: EventStream, EventStream.resume, EventStream.run, Steady,
  phases_delivered_iff
-/
import Docta.Store.ConversationModels

namespace Docta

/-! ### The generator and the list -/

/-- What the generator yields. -/
inductive Frame where
  /-- `message.accepted` -/
  | accepted
  /-- a recorded phase -/
  | phase (name : String)
  /-- `message.{current.state}` -/
  | terminal (state : MessageState)
  | heartbeat
deriving DecidableEq, Repr

/-- Where the generator is suspended. -/
inductive Point where
  /-- before its first frame is asked for -/
  | created
  /-- at the yield of `message.accepted` -/
  | accepted
  /-- in `service.read` -/
  | reading
  /-- at the yield of a phase: what was read, and the rest of the slice -/
  | phase (current : MessageState) (left : List String)
  /-- in `asyncio.sleep` -/
  | sleeping
  /-- at the yield of a heartbeat -/
  | heartbeat
  /-- at the yield of the terminal event -/
  | terminal
  | closed
deriving DecidableEq, Repr

/-- The generator of a response with the list it shares with the pipeline. -/
structure EventStream where
  /-- the list that `runtime.progress` held when the message was started -/
  progress : List String := []
  /-- the list is still in `runtime.progress` -/
  registered : Bool := true
  point : Point := .created
  seen : Nat := 0
  heartbeat : Nat := 0
  /-- the frames yielded so far -/
  emitted : List Frame := []
  /-- the phases recorded when a read found the message finished; nothing reads it -/
  observed : Option (List String) := none
deriving DecidableEq, Repr

namespace EventStream

/-- After the slice: the cursor moves to the end of the list, and the terminal
event is yielded if the message is finished. -/
def finishRound (stream : EventStream) (current : MessageState) : EventStream :=
  if current = .pending then
    { stream with seen := stream.progress.length, point := .sleeping }
  else
    { stream with
      seen := stream.progress.length
      emitted := stream.emitted ++ [.terminal current]
      point := .terminal }

/-- The loop `for phase in progress[seen:]`, from where it stands to its next
yield: the slice was taken once. -/
def drain (stream : EventStream) (current : MessageState) : List String → EventStream
  | [] => stream.finishRound current
  | name :: left =>
      { stream with
        emitted := stream.emitted ++ [.phase name]
        point := .phase current left }

/-- What a read that found the message finished could have seen. -/
def observe (stream : EventStream) (current : MessageState) : EventStream :=
  if current = .pending then stream else { stream with observed := some stream.progress }

/-- The generator goes on to where it is suspended next. What a read returns is
given; without a result it failed. -/
def resume (stream : EventStream) (read : Option MessageState) : EventStream :=
  match stream.point with
  | .created => { stream with emitted := stream.emitted ++ [.accepted], point := .accepted }
  | .accepted => { stream with point := .reading }
  | .reading =>
      match read with
      | none => { stream with point := .closed }
      | some current =>
          (stream.observe current).drain current (stream.progress.drop stream.seen)
  | .phase current left => stream.drain current left
  | .sleeping =>
      if (stream.heartbeat + 1) % 50 = 0 then
        { stream with
          heartbeat := stream.heartbeat + 1
          emitted := stream.emitted ++ [.heartbeat]
          point := .heartbeat }
      else { stream with heartbeat := stream.heartbeat + 1, point := .reading }
  | .heartbeat => { stream with point := .reading }
  | .terminal => { stream with point := .closed }
  | .closed => stream

/-- `_phase`: the list is looked up in `runtime.progress` by the message. -/
def record (stream : EventStream) (name : String) : EventStream :=
  if stream.registered = true then { stream with progress := stream.progress ++ [name] }
  else stream

/-- `self.progress.pop`: the generator keeps its list. -/
def unregister (stream : EventStream) : EventStream :=
  { stream with registered := false }

end EventStream

/-- One step of the pipeline or of the generator. -/
inductive StreamAct where
  | record (name : String)
  | unregister
  | resume (read : Option MessageState)
deriving DecidableEq, Repr

namespace EventStream

def step (stream : EventStream) : StreamAct → EventStream
  | .record name => stream.record name
  | .unregister => stream.unregister
  | .resume read => stream.resume read

/-- The steps taken one after the other. -/
def run (stream : EventStream) (acts : List StreamAct) : EventStream :=
  acts.foldl step stream

/-- The phases among the frames. -/
def phases (frames : List Frame) : List String :=
  frames.filterMap fun frame =>
    match frame with
    | .phase name => some name
    | _ => none

/-- The terminal event has been yielded. -/
def Ended (stream : EventStream) : Prop :=
  ∃ current, Frame.terminal current ∈ stream.emitted

/-- Neither the first frame nor the last one. -/
def isInner : Frame → Bool
  | .phase _ => true
  | .heartbeat => true
  | _ => false

/-- The frames open with the acceptance and hold no terminal event. -/
def Opened (stream : EventStream) : Prop :=
  ∃ inner, stream.emitted = .accepted :: inner ∧ inner.all isInner = true

/-- The frames open with the acceptance and end with the only terminal event. -/
def Concluded (stream : EventStream) : Prop :=
  ∃ inner current, stream.emitted = .accepted :: inner ++ [.terminal current] ∧
    inner.all isInner = true ∧ current ≠ .pending

/-- The phases recorded before the read that found the message finished were
yielded once each, in order, between the acceptance and the terminal event. -/
def Delivered (stream : EventStream) : Prop :=
  stream.Concluded ∧ stream.observed = some (phases stream.emitted)

end EventStream

/-- The pipeline records a phase while the generator is suspended at the yield of
a phase, in a round that found the message pending. -/
def StreamAct.misses (stream : EventStream) : StreamAct → Bool
  | .record _ =>
      stream.registered &&
        match stream.point with
        | .phase current _ => current = .pending
        | _ => false
  | _ => false

/-- No step of the run misses a phase. -/
def Steady : EventStream → List StreamAct → Prop
  | _, [] => True
  | stream, act :: acts => act.misses stream = false ∧ Steady (stream.step act) acts

namespace EventStream

/-! ### What is accounted for -/

/-- The rest of the slice that a round is yielding. -/
def left : Point → List String
  | .phase _ left => left
  | _ => []

/-- The phases that have to be yielded once the round is over: those a finishing
read could have seen, else all of them inside a round and those before the
cursor outside. -/
def due (stream : EventStream) : List String :=
  match stream.observed with
  | some recorded => recorded
  | none =>
      match stream.point with
      | .phase _ _ => stream.progress
      | _ => stream.progress.take stream.seen

/-- The frames, and whether a read has found the message finished, by where the
generator is suspended. -/
def Shaped (stream : EventStream) : Prop :=
  match stream.point with
  | .created => stream.emitted = [] ∧ stream.seen = 0 ∧ stream.observed = none
  | .phase current _ => stream.Opened ∧ (current = .pending ↔ stream.observed = none)
  | .terminal => stream.Concluded ∧ stream.observed ≠ none
  | .closed =>
      (stream.Concluded ∧ stream.observed ≠ none) ∨ (stream.Opened ∧ stream.observed = none)
  | _ => stream.Opened ∧ stream.observed = none

/-- All phases due are yielded or about to be, but for the missed ones. -/
structure Accounted (missed : Nat) (stream : EventStream) : Prop where
  count : (phases stream.emitted).length + (left stream.point).length + missed = stream.due.length
  exact : missed = 0 → phases stream.emitted ++ left stream.point = stream.due
  within : stream.seen ≤ stream.progress.length
  shaped : stream.Shaped

/-- The same inside a round, for what its slice still holds. -/
structure InRound (missed : Nat) (current : MessageState) (slice : List String)
    (stream : EventStream) : Prop where
  count : (phases stream.emitted).length + slice.length + missed =
    (stream.observed.getD stream.progress).length
  exact : missed = 0 → phases stream.emitted ++ slice = stream.observed.getD stream.progress
  within : stream.seen ≤ stream.progress.length
  opened : stream.Opened
  pending : current = .pending ↔ stream.observed = none

@[simp] theorem phases_append (first second : List Frame) :
    phases (first ++ second) = phases first ++ phases second :=
  List.filterMap_append

@[simp] theorem phases_phase (name : String) : phases [.phase name] = [name] := rfl

@[simp] theorem phases_terminal (current : MessageState) : phases [.terminal current] = [] := rfl

@[simp] theorem phases_heartbeat : phases [.heartbeat] = [] := rfl

theorem opened_append {stream : EventStream} (opened : stream.Opened) {frame : Frame}
    (inner : isInner frame = true) :
    ∃ frames, stream.emitted ++ [frame] = .accepted :: frames ∧ frames.all isInner = true := by
  obtain ⟨frames, emitted, all⟩ := opened
  refine ⟨frames ++ [frame], by rw [emitted]; rfl, ?_⟩
  rw [List.all_append, all, List.all_cons, inner]
  rfl

/-- A round goes on to its next yield or ends. -/
theorem accounted_drain {missed : Nat} {current : MessageState} {slice : List String}
    {stream : EventStream} (round : InRound missed current slice stream) :
    Accounted missed (stream.drain current slice) := by
  obtain ⟨count, exact, within, opened, pending⟩ := round
  cases slice with
  | nil =>
      rw [List.length_nil, Nat.add_zero] at count
      rw [List.append_nil] at exact
      by_cases isPending : current = .pending
      · have none : stream.observed = none := pending.mp isPending
        rw [none, Option.getD_none] at count exact
        rw [drain, finishRound, if_pos isPending]
        exact
          { count := by simpa [due, left, none] using count
            exact := by simpa [due, left, none] using exact
            within := Nat.le_refl _
            shaped := ⟨opened, none⟩ }
      · cases observed : stream.observed with
        | none => exact absurd (pending.mpr observed) isPending
        | some recorded =>
            rw [observed, Option.getD_some] at count exact
            obtain ⟨frames, emitted, all⟩ := opened
            rw [drain, finishRound, if_neg isPending]
            exact
              { count := by simpa [due, left, observed] using count
                exact := by simpa [due, left, observed] using exact
                within := Nat.le_refl _
                shaped := ⟨⟨frames, current, by rw [emitted], all, isPending⟩, by
                  rw [observed]
                  exact Option.some_ne_none recorded⟩ }
  | cons name slice =>
      have isDue : ({ stream with
          emitted := stream.emitted ++ [.phase name]
          point := .phase current slice } : EventStream).due =
            stream.observed.getD stream.progress := by
        rw [due]
        cases stream.observed with
        | none => rfl
        | some recorded => rfl
      rw [drain]
      exact
        { count := by
            rw [isDue, ← count, phases_append, List.length_append, phases_phase]
            simp only [left, List.length_cons, List.length_nil]
            omega
          exact := by
            intro none
            rw [isDue, ← exact none, phases_append, phases_phase, List.append_assoc]
            rfl
          within := within
          shaped := ⟨opened_append opened rfl, pending⟩ }

/-- The generator goes on: nothing is missed. -/
theorem accounted_resume {missed : Nat} {stream : EventStream} (accounted : Accounted missed stream)
    (read : Option MessageState) : Accounted missed (stream.resume read) := by
  obtain ⟨count, exact, within, shaped⟩ := accounted
  cases isPoint : stream.point with
  | created =>
      simp only [Shaped, isPoint] at shaped
      obtain ⟨none, start, unread⟩ := shaped
      simp only [due, left, isPoint, none, unread, start] at count exact
      simp only [resume, isPoint]
      exact
        { count := by simpa [due, left, none, unread, start, phases] using count
          exact := by simp [due, left, none, unread, start, phases]
          within := within
          shaped := ⟨⟨[], by rw [none]; rfl, rfl⟩, unread⟩ }
  | reading =>
      simp only [Shaped, isPoint] at shaped
      obtain ⟨opened, unread⟩ := shaped
      simp only [due, left, isPoint, unread, List.length_nil, Nat.add_zero, List.append_nil,
        List.length_take, Nat.min_eq_left within] at count exact
      simp only [resume, isPoint]
      cases read with
      | none =>
          exact
            { count := by simpa [due, left, unread, Nat.min_eq_left within] using count
              exact := by simpa [due, left, unread] using exact
              within := within
              shaped := .inr ⟨opened, unread⟩ }
      | some current =>
          apply accounted_drain
          have whole : missed = 0 →
              phases stream.emitted ++ stream.progress.drop stream.seen = stream.progress := by
            intro none
            rw [exact none, List.take_append_drop]
          by_cases isPending : current = .pending
          · rw [observe, if_pos isPending]
            exact
              { count := by rw [unread, Option.getD_none, List.length_drop]; omega
                exact := by rw [unread, Option.getD_none]; exact whole
                within := within
                opened := opened
                pending := ⟨fun _ => unread, fun _ => isPending⟩ }
          · rw [observe, if_neg isPending]
            exact
              { count := by simp only [Option.getD_some, List.length_drop]; omega
                exact := whole
                within := within
                opened := opened
                pending := ⟨fun same => absurd same isPending, nofun⟩ }
  | phase current slice =>
      simp only [Shaped, isPoint] at shaped
      have isDue : stream.due = stream.observed.getD stream.progress := by
        rw [due, isPoint]
        cases stream.observed with
        | none => rfl
        | some recorded => rfl
      simp only [isDue, left, isPoint] at count exact
      simp only [resume, isPoint]
      exact accounted_drain ⟨count, exact, within, shaped.1, shaped.2⟩
  | sleeping =>
      simp only [Shaped, isPoint] at shaped
      obtain ⟨opened, unread⟩ := shaped
      simp only [due, left, isPoint, unread] at count exact
      simp only [resume, isPoint]
      split
      · exact
          { count := by simpa [due, left, unread] using count
            exact := by simpa [due, left, unread] using exact
            within := within
            shaped := ⟨opened_append opened rfl, unread⟩ }
      · exact
          { count := by simpa [due, left, unread] using count
            exact := by simpa [due, left, unread] using exact
            within := within
            shaped := ⟨opened, unread⟩ }
  | terminal =>
      simp only [Shaped, isPoint] at shaped
      simp only [due, left, isPoint] at count exact
      simp only [resume, isPoint]
      exact ⟨count, exact, within, .inl shaped⟩
  | closed =>
      simp only [resume, isPoint]
      exact ⟨count, exact, within, shaped⟩
  | accepted =>
      simp only [Shaped, isPoint] at shaped
      simp only [due, left, isPoint] at count exact
      simp only [resume, isPoint]
      exact ⟨count, exact, within, shaped⟩
  | heartbeat =>
      simp only [Shaped, isPoint] at shaped
      simp only [due, left, isPoint] at count exact
      simp only [resume, isPoint]
      exact ⟨count, exact, within, shaped⟩

/-- What is due, after a phase is recorded elsewhere than at the yield of a phase
of a pending round. -/
theorem due_record {stream : EventStream} {name : String} (within : stream.seen ≤ stream.progress.length)
    (shaped : stream.Shaped) (registered : stream.registered = true)
    (steady : (StreamAct.record name).misses stream = false) :
    (stream.record name).due = stream.due := by
  rw [record, if_pos registered]
  cases observed : stream.observed with
  | some recorded => simp only [due, observed]
  | none =>
      cases isPoint : stream.point with
      | phase current slice =>
          simp only [Shaped, isPoint] at shaped
          rw [StreamAct.misses, registered, isPoint, shaped.2.mpr observed] at steady
          cases steady
      | _ => simp only [due, observed, isPoint, List.take_append_of_le_length within]

/-- A recorded phase is due as long as it is not missed. -/
theorem accounted_record {missed : Nat} {stream : EventStream} (accounted : Accounted missed stream)
    (name : String) :
    Accounted (missed + if (StreamAct.record name).misses stream = true then 1 else 0)
      (stream.record name) := by
  obtain ⟨count, exact, within, shaped⟩ := accounted
  by_cases registered : stream.registered = true
  · have shapedAfter : (stream.record name).Shaped := by
      rw [record, if_pos registered]
      exact shaped
    have withinAfter : (stream.record name).seen ≤ (stream.record name).progress.length := by
      rw [record, if_pos registered]
      simp only [List.length_append, List.length_singleton]
      omega
    have sameEmitted : (stream.record name).emitted = stream.emitted := by
      rw [record, if_pos registered]
    have samePoint : (stream.record name).point = stream.point := by
      rw [record, if_pos registered]
    cases misses : (StreamAct.record name).misses stream with
    | true =>
        have isPhase : ∃ slice, stream.point = .phase .pending slice := by
          rw [StreamAct.misses, registered, Bool.true_and] at misses
          split at misses
          · rename_i current slice isPoint
            rw [decide_eq_true_eq] at misses
            rw [misses] at isPoint
            exact ⟨slice, isPoint⟩
          · cases misses
        obtain ⟨slice, isPoint⟩ := isPhase
        have unread : stream.observed = none := by
          simp only [Shaped, isPoint] at shaped
          exact shaped.2.mp trivial
        have longer : (stream.record name).due.length = stream.due.length + 1 := by
          rw [record, if_pos registered]
          simp [due, unread, isPoint]
        exact
          { count := by rw [sameEmitted, samePoint, longer, if_pos rfl]; omega
            exact := by intro none; rw [if_pos rfl] at none; omega
            within := withinAfter
            shaped := shapedAfter }
    | false =>
        have sameDue := due_record within shaped registered misses
        exact
          { count := by rw [sameEmitted, samePoint, sameDue]; simpa using count
            exact := by rw [sameEmitted, samePoint, sameDue]; simpa using exact
            within := withinAfter
            shaped := shapedAfter }
  · have unchanged : stream.record name = stream := by
      rw [record, if_neg registered]
    have notMissed : (StreamAct.record name).misses stream = false := by
      rw [StreamAct.misses, Bool.not_eq_true _ |>.mp registered, Bool.false_and]
    rw [unchanged, notMissed]
    exact ⟨count, exact, within, shaped⟩

/-- How many phases a run misses. -/
def missed (stream : EventStream) : List StreamAct → Nat
  | [] => 0
  | act :: acts => (if act.misses stream = true then 1 else 0) + missed (stream.step act) acts

theorem missed_eq_zero_iff {stream : EventStream} {acts : List StreamAct} :
    missed stream acts = 0 ↔ Steady stream acts := by
  induction acts generalizing stream with
  | nil => exact ⟨fun _ => trivial, fun _ => rfl⟩
  | cons act acts ih =>
      rw [missed, Steady, ← ih, Nat.add_eq_zero_iff]
      cases act.misses stream with
      | true => simp
      | false => simp

theorem accounted_step {count : Nat} {stream : EventStream} (accounted : Accounted count stream)
    (act : StreamAct) :
    Accounted (count + if act.misses stream = true then 1 else 0) (stream.step act) := by
  cases act with
  | record name => exact accounted_record accounted name
  | unregister => exact ⟨accounted.count, accounted.exact, accounted.within, accounted.shaped⟩
  | resume read => exact accounted_resume accounted read

/-- Along a run every phase is accounted for. -/
theorem accounted_run {count : Nat} {stream : EventStream} (accounted : Accounted count stream)
    (acts : List StreamAct) : Accounted (count + missed stream acts) (stream.run acts) := by
  induction acts generalizing count stream with
  | nil => exact accounted
  | cons act acts ih =>
      have later := ih (accounted_step accounted act)
      rw [Nat.add_assoc] at later
      exact later

theorem accounted_start : Accounted 0 {} where
  count := rfl
  exact := fun _ => rfl
  within := Nat.le_refl 0
  shaped := ⟨rfl, rfl, rfl⟩

/-- Once the terminal event is yielded the frames are complete. -/
theorem concluded_of_ended {count : Nat} {stream : EventStream} (accounted : Accounted count stream)
    (ended : stream.Ended) : stream.Concluded ∧ left stream.point = [] ∧
      stream.observed = some stream.due := by
  obtain ⟨current, member⟩ := ended
  have notOpened : ¬ stream.Opened := by
    intro opened
    obtain ⟨frames, emitted, all⟩ := opened
    rw [emitted] at member
    rcases List.mem_cons.mp member with isFirst | inner
    · cases isFirst
    · have isInner := List.all_eq_true.mp all _ inner
      cases isInner
  have shaped := accounted.shaped
  have isDue (read : stream.observed ≠ none) : stream.observed = some stream.due := by
    obtain ⟨recorded, observed⟩ := Option.ne_none_iff_exists'.mp read
    rw [due, observed]
  cases isPoint : stream.point with
  | created =>
      simp only [Shaped, isPoint] at shaped
      rw [shaped.1] at member
      cases member
  | terminal =>
      simp only [Shaped, isPoint] at shaped
      exact ⟨shaped.1, rfl, isDue shaped.2⟩
  | closed =>
      simp only [Shaped, isPoint] at shaped
      rcases shaped with concluded | opened
      · exact ⟨concluded.1, rfl, isDue concluded.2⟩
      · exact absurd opened.1 notOpened
  | _ =>
      simp only [Shaped, isPoint] at shaped
      exact absurd shaped.1 notOpened

end EventStream

open EventStream

/-- Once its terminal event is yielded, a run has delivered every phase recorded
before the read that found the message finished, once and in order between the
acceptance and the one terminal event, exactly when the pipeline recorded none
while a pending round was yielding. -/
theorem phases_delivered_iff (acts : List StreamAct) (ended : (EventStream.run {} acts).Ended) :
    (EventStream.run {} acts).Delivered ↔ Steady {} acts := by
  have accounted := accounted_run accounted_start acts
  rw [Nat.zero_add] at accounted
  obtain ⟨concluded, nothingLeft, observed⟩ := concluded_of_ended accounted ended
  have count := accounted.count
  have exact := accounted.exact
  rw [nothingLeft] at count exact
  rw [List.length_nil, Nat.add_zero] at count
  rw [List.append_nil] at exact
  rw [Delivered, observed, Option.some.injEq, ← missed_eq_zero_iff]
  constructor
  · intro delivered
    rw [delivered.2] at count
    omega
  · intro none
    exact ⟨concluded, (exact none).symm⟩

/-- A round that yields two phases and the terminal event. -/
theorem phases_delivered_iff_of_two :
    (EventStream.run {} [.resume none, .resume none, .record "retrieval.started",
      .record "retrieval.completed", .resume (some .completed), .resume none,
        .resume none]).Delivered :=
  (phases_delivered_iff _ ⟨.completed, by decide⟩).mpr ⟨rfl, rfl, rfl, rfl, rfl, rfl, rfl, trivial⟩

/-- A phase recorded while another one is sent is lost. -/
theorem not_every_phase_delivered :
    ¬ ∀ acts : List StreamAct, (EventStream.run {} acts).Ended →
      (EventStream.run {} acts).Delivered := by
  intro every
  have delivered := every [.resume none, .resume none, .record "retrieval.started",
    .resume (some .pending), .record "retrieval.completed", .resume none, .resume none,
      .resume (some .completed)] ⟨.completed, by decide⟩
  exact absurd delivered.2 (by decide)

end Docta
