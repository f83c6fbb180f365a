/-
Module: Docta.Dev.LegacySafety
Purpose: The import of a legacy profile survives crashes. A source is never modified,
  what the shared profile has is never replaced, the environment file is published
  last, and a profile that was imported in part is refused by every later call.
Trusted boundary: as in `LegacyImport`
Main exports: migrate_ensures_of_unimported, migrate_ensures_of_present, CrashSafe,
  legacy_import_crash_safe
-/
import Docta.Dev.LegacyPublication

namespace Docta.Dev.Legacy

open Contract Fallible Files Program Transition

/-! ### Calls -/

/-- None of the entries is there. -/
def Bare (disk : Disk Root) : Prop :=
  disk.find targetEnv = none ∧ disk.find targetState = none ∧ disk.find provenance = none

theorem find_entry (disk : Disk Root) (name : String) :
    disk.find ⟨.profile, [name]⟩ = (disk .profile name).now := by
  rw [Disk.find]
  cases (disk .profile name).now with
  | none => rfl
  | some node => rfl

theorem Unimported.bare {disk : Disk Root} (unimported : Unimported disk) : Bare disk := by
  rw [Bare, targetEnv, targetState, provenance, find_entry, find_entry, find_entry, unimported.env,
    unimported.state, unimported.record]
  exact ⟨rfl, rfl, rfl⟩

section Calls

variable {readers : Readers} {world : Disk Root} {index : Nat} {source : Source}
  {fingerprint : String}

/-- A managed profile that can be imported, with its fingerprint. -/
structure Source.Ready (readers : Readers) (source : Source) (fingerprint : String) : Prop where
  managed : ∃ values, managedValues readers source.env = .ok values
  isFingerprint : sourceFingerprint source.env source.state = .ok fingerprint

theorem Source.Ready.regular (ready : source.Ready readers fingerprint) :
    ∀ node, source.state = some node → isLink (some node) = false := by
  intro node isNode
  have isFingerprint := ready.isFingerprint
  unfold sourceFingerprint at isFingerprint
  rw [isNode] at isFingerprint
  cases isLinked : isLink (some node) with
  | false => rfl
  | true =>
      rw [failIf, if_pos isLinked] at isFingerprint
      cases isFingerprint

theorem put_profile_apply {temporary name : String} (apart : name ≠ temporary)
    (left : Option Node) : world.put .profile temporary left .profile name = world .profile name :=
  Disk.put_apply_of_ne (fun same => apart (Prod.mk.inj same).2) _ _

theorem Complete.put_temporary {temporary : String} (complete : Complete source fingerprint world)
    (apart : ∀ name ∈ entryNames, name ≠ temporary) (left : Option Node) :
    Complete source fingerprint (world.put .profile temporary left) where
  state := (put_profile_apply (apart "state" (by decide)) left).trans complete.state
  record := (put_profile_apply (apart ".legacy-import.json" (by decide)) left).trans complete.record
  env := (put_profile_apply (apart ".env" (by decide)) left).trans complete.env

/-- Only the three entries matter. -/
theorem Imported.congr {other : Disk Root} (imported : Imported source fingerprint world)
    (same : ∀ name ∈ entryNames, other .profile name = world .profile name) :
    Imported source fingerprint other := by
  have env := same ".env" (by decide)
  have state := same "state" (by decide)
  have record := same ".legacy-import.json" (by decide)
  cases imported with
  | nothing isEnv isState isRecord =>
      exact .nothing (env.trans isEnv) (state.trans isState) (record.trans isRecord)
  | state node isNode isEnv isRecord shown =>
      rw [← state] at shown
      exact .state node isNode (env.trans isEnv) (record.trans isRecord) shown
  | record isEnv isState shown =>
      rw [← record] at shown
      exact .record (env.trans isEnv) (state.trans isState) shown
  | env isState isRecord shown =>
      rw [← env] at shown
      exact .env (state.trans isState) (record.trans isRecord) shown

theorem ImportSafe.put_temporary {before : Disk Root} {temporary : String}
    (safe : ImportSafe world source fingerprint before)
    (apart : ∀ name ∈ entryNames, name ≠ temporary) (fresh : (world .profile temporary).now = none)
    (left : Option Node) : ImportSafe world source fingerprint (before.put .profile temporary left) := by
  refine ⟨⟨fun index => ?_, fun name node isNode => ?_⟩, ?_⟩
  · rw [← safe.kept.checkouts index]
    funext name
    apply Disk.put_apply_of_ne
    intro same
    cases (Prod.mk.inj same).1
  · rw [put_profile_apply]
    · exact safe.kept.entries name node isNode
    · rintro rfl
      rw [fresh] at isNode
      cases isNode
  · exact safe.imported.congr fun name member => put_profile_apply (apart name member) left

/-- The whole of the `with` statement. -/
theorem withTemporary_ensures (unimported : Unimported world)
    (isState : world.find ⟨.checkout index, ["state"]⟩ = source.state)
    (regular : ∀ node, source.state = some node → isLink (some node) = false) :
    Ensures Files.act (ImportSafe world source fingerprint) (Left world source fingerprint)
      (withTemporary (stage (.checkout index) source.env fingerprint)) world := by
  have here : ImportSafe world source fingerprint world :=
    ⟨Kept.refl world, unimported.imported source fingerprint⟩
  have made : Ensures Files.act (ImportSafe world source fingerprint)
      (fun (result : Except Failure String) after => match result with
        | .ok temporary => ".legacy-import-".toList <+: temporary.toList ∧
            (world .profile temporary).now = none ∧ after = emptied world temporary
        | .error _ => after = world)
      (Files.perform .os (.mkdtemp .profile ".legacy-import-" 0o700)) world := by
    apply ensures_perform
    · rintro temporary after ⟨front, fresh, rfl⟩
      exact ⟨⟨kept_staged fresh _,
        (unimported.staged (temporary_apart front) _).imported source fingerprint⟩, front, fresh, rfl⟩
    · rintro after rfl
      exact ⟨here, rfl⟩
  apply made.bind
  · rintro error after rfl
    exact ⟨here, nofun⟩
  rintro temporary after ⟨front, fresh, rfl⟩
  have body : Ensures Files.act (ImportSafe world source fingerprint) (Left world source fingerprint)
      (stage (.checkout index) source.env fingerprint temporary) (emptied world temporary) := by
    have inStaging : ∀ after, InStaging world temporary after →
        ImportSafe world source fingerprint after := by
      rintro after ⟨node, rfl⟩
      exact ⟨kept_staged fresh node,
        (unimported.staged (temporary_apart front) node).imported source fingerprint⟩
    apply ((prepare_ensures isState).mono inStaging fun _ _ left => left).bind
    · rintro error after ⟨left, _⟩
      exact ⟨inStaging after left, nofun⟩
    · rintro _ after ⟨_, done⟩
      rw [done rfl]
      exact publishAll_ensures front fresh unimported regular
  -- the directory is removed, in whole or in part
  have removed : ∀ before left, ImportSafe world source fingerprint before →
      ImportSafe world source fingerprint (before.put .profile temporary left) :=
    fun before left safe => safe.put_temporary (temporary_apart front) fresh left
  have attempted : Ensures Files.act (ImportSafe world source fingerprint)
      (fun (result : Except Failure (Except Failure Unit)) after => match result with
        | .ok result => Left world source fingerprint result after
        | .error _ => ImportSafe world source fingerprint after)
      (stage (.checkout index) source.env fingerprint temporary).attempt
      (emptied world temporary) := Program.ensures_attempt.mpr body
  apply attempted.bind
  · exact fun error after safe => ⟨safe, nofun⟩
  rintro result after ⟨safe, done⟩
  have cleaned : Ensures Files.act (ImportSafe world source fingerprint)
      (fun (cleaned : Except Failure Unit) after => ImportSafe world source fingerprint after ∧
        (result = .ok () → Complete source fingerprint after))
      (Files.perform .os (.rmtree .profile temporary)) after := by
    have complete : ∀ left, result = .ok () →
        Complete source fingerprint (after.put .profile temporary left) := fun left isOk =>
      (done () isOk).put_temporary (temporary_apart front) left
    apply ensures_perform
    · rintro _ _ rfl
      exact ⟨removed after none safe, removed after none safe, complete none⟩
    · rintro _ ⟨left, rfl⟩
      exact ⟨removed after left safe, removed after left safe, complete left⟩
  apply cleaned.bind
  · exact fun error after left => ⟨left.1, nofun⟩
  · rintro _ after ⟨safe, complete⟩
    apply ensures_ofExcept.mpr
    exact ⟨safe, fun _ isOk => complete isOk⟩

/-- Nothing changed. -/
def Untouched (world after : Disk Root) : Prop :=
  after = world

theorem eq_none_of_absent {found : Option Node} (regular : ¬ isLink found = true)
    (absent : ¬ present found = true) : found = none := by
  match found with
  | none => rfl
  | some (.link _) => exact absurd rfl regular
  | some (.file _ _ _) => exact absurd rfl absent
  | some (.dir _ _ _) => exact absurd rfl absent
  | some .special => exact absurd rfl absent

/-- What a call that leaves the disk alone ends with: it imports nothing, and without a
configuration it refuses. -/
def Refused (world : Disk Root) (result : Except Failure Bool) (after : Disk Root) : Prop :=
  after = world ∧ result ≠ .ok true ∧
    (world.find targetEnv = none → result = .error .os ∨ ∃ message, result = .error (.state message))

theorem compare_ensures {legacyValues shared : Values} {env : Node}
    (configured : world.find targetEnv = some env) :
    Ensures Files.act (Untouched world) (Refused world)
      (compare readers (.checkout index) legacyValues shared fingerprint) world := by
  have failed : ∀ failure, Refused world (.error failure) world :=
    fun failure => ⟨rfl, nofun, fun absent => by rw [configured] at absent; cases absent⟩
  have nothing : Refused world (.ok false) world :=
    ⟨rfl, nofun, fun absent => by rw [configured] at absent; cases absent⟩
  have here : Untouched world world := rfl
  apply ensures_look_bind here (failed _)
  apply ensures_ofExcept_bind fun failure _ => failed failure
  intro previous _
  split
  · exact nothing
  · apply ensures_look_bind here (failed _)
    apply ensures_ofExcept_bind fun failure _ => failed failure
    intro legacyIdentity _
    apply ensures_look_bind here (failed _)
    apply ensures_ofExcept_bind fun failure _ => failed failure
    intro sharedIdentity _
    apply ensures_raiseIf_bind fun _ => failed _
    intro _
    exact nothing

/-- A profile that has any of the entries is left alone, and refused when it has no
configuration. -/
theorem migrate_ensures_of_present
    (shown : ¬ Bare world) :
    Ensures Files.act (Untouched world) (Refused world) (migrate readers (.checkout index)) world := by
  have raised : ∀ message, Refused world (.error (.state message)) world :=
    fun message => ⟨rfl, nofun, fun _ => .inr ⟨message, rfl⟩⟩
  have failed : Refused world (.error .os) world := ⟨rfl, nofun, fun _ => .inl rfl⟩
  have here : Untouched world world := rfl
  apply ensures_mkdirs_bind here failed
  apply ensures_look_bind here failed
  apply ensures_look_bind here failed
  apply ensures_look_bind here failed
  apply ensures_raiseIf_bind fun _ => raised _
  intro regular
  apply ensures_raiseIf_bind fun _ => raised _
  intro complete
  have configured : ∃ env, world.find targetEnv = some env := by
    cases isEnv : world.find targetEnv with
    | some env => exact ⟨env, rfl⟩
    | none =>
        rw [isEnv] at regular complete
        push Not at regular complete
        obtain ⟨_, stateRegular, recordRegular⟩ := regular
        obtain ⟨stateAbsent, recordAbsent⟩ := complete rfl
        exact absurd ⟨isEnv, eq_none_of_absent stateRegular stateAbsent,
          eq_none_of_absent recordRegular recordAbsent⟩ shown
  obtain ⟨env, isEnv⟩ := configured
  have refused : ∀ failure, Refused world (.error failure) world :=
    fun failure => ⟨rfl, nofun, fun absent => by rw [isEnv] at absent; cases absent⟩
  have nothing : Refused world (.ok false) world :=
    ⟨rfl, nofun, fun absent => by rw [isEnv] at absent; cases absent⟩
  apply ensures_ofExcept_bind fun failure _ => refused failure
  intro shared isShared
  apply ensures_look_bind here failed
  split
  · exact nothing
  · next source _ =>
      rw [isEnv, sharedValues] at isShared
      cases managed : managedValues readers env with
      | error failure =>
          rw [managed] at isShared
          cases isShared
      | ok values =>
          rw [managed] at isShared
          cases isShared
          apply ensures_ofExcept_bind fun failure _ => refused failure
          intro legacyValues _
          apply ensures_look_bind here (refused _)
          apply ensures_ofExcept_bind fun failure _ => refused failure
          intro fingerprint _
          exact compare_ensures isEnv

/-- What a call may do to a disk without a shared profile: it imports what the checkout
has, if that is ready, or nothing. -/
def CallSafe (readers : Readers) (world : Disk Root) (legacy : Root) (after : Disk Root) : Prop :=
  after = world ∨ ∃ source fingerprint, sourceOf world legacy = some source ∧
    source.Ready readers fingerprint ∧ ImportSafe world source fingerprint after

/-- What such a call ends with. -/
def CallLeft (readers : Readers) (world : Disk Root) (legacy : Root)
    (result : Except Failure Bool) (after : Disk Root) : Prop :=
  CallSafe readers world legacy after ∧
    (result = .ok true → ∃ source fingerprint, sourceOf world legacy = some source ∧
      source.Ready readers fingerprint ∧ Complete source fingerprint after) ∧
    (result = .ok false → after = world)

/-- A call without a shared profile. -/
theorem migrate_ensures_of_unimported (unimported : Unimported world) :
    Ensures Files.act (CallSafe readers world (.checkout index))
      (CallLeft readers world (.checkout index)) (migrate readers (.checkout index)) world := by
  have here : CallSafe readers world (.checkout index) world := .inl rfl
  have failed : ∀ failure, CallLeft readers world (.checkout index) (.error failure) world :=
    fun failure => ⟨here, nofun, nofun⟩
  obtain ⟨noEnv, noState, noRecord⟩ := unimported.bare
  apply ensures_mkdirs_bind here (failed _)
  apply ensures_look_bind here (failed _)
  apply ensures_look_bind here (failed _)
  apply ensures_look_bind here (failed _)
  rw [noEnv, noState, noRecord]
  apply ensures_raiseIf_bind fun _ => failed _
  intro _
  apply ensures_raiseIf_bind fun _ => failed _
  intro _
  apply ensures_look_bind here (failed _)
  cases isEnv : world.find ⟨.checkout index, [".env"]⟩ with
  | none => exact ⟨here, nofun, fun _ => rfl⟩
  | some env =>
      apply ensures_ofExcept_bind fun failure _ => failed failure
      intro values managed
      apply ensures_look_bind here (failed _)
      apply ensures_ofExcept_bind fun failure _ => failed failure
      intro fingerprint isFingerprint
      have isSource : sourceOf world (.checkout index) =
          some ⟨env, world.find ⟨.checkout index, ["state"]⟩⟩ := by
        rw [sourceOf, isEnv]
        rfl
      have ready : Source.Ready readers ⟨env, world.find ⟨.checkout index, ["state"]⟩⟩ fingerprint :=
        ⟨⟨values, managed⟩, isFingerprint⟩
      have safe : ∀ after, ImportSafe world ⟨env, world.find ⟨.checkout index, ["state"]⟩⟩ fingerprint
          after → CallSafe readers world (.checkout index) after :=
        fun after safe => .inr ⟨_, fingerprint, isSource, ready, safe⟩
      apply ((withTemporary_ensures unimported rfl ready.regular).mono safe fun _ _ left => left).bind
      · exact fun failure after left => ⟨safe after left.1, nofun, nofun⟩
      · exact fun _ after left =>
          ⟨safe after left.1, fun _ => ⟨_, fingerprint, isSource, ready, left.2 _ rfl⟩, nofun⟩

/-- The handler changes what is raised, and nothing else. -/
theorem migrateLegacy_ensures {during : Disk Root → Prop}
    {outcome final : Except Failure Bool → Disk Root → Prop} {legacy : Root}
    (body : Ensures Files.act during outcome (migrate readers legacy) world)
    (returned : ∀ value after, outcome (.ok value) after → final (.ok value) after)
    (raised : ∀ failure after, outcome (.error failure) after →
      final (.error (caught failure)) after) :
    Ensures Files.act during final (migrateLegacy readers (some legacy)) world := by
  have attempted : Ensures Files.act during
      (fun (result : Except Failure (Except Failure Bool)) after => match result with
        | .ok result => outcome result after
        | .error _ => False)
      (migrate readers legacy).attempt world := Program.ensures_attempt.mpr body
  apply attempted.bind
  · exact fun _ _ impossible => impossible.elim
  · intro result after left
    cases result with
    | ok value => exact returned value after left
    | error failure => exact raised failure after left

end Calls

/-! ### Runs -/

section Runs

variable {readers : Readers} {origin world after : Disk Root} {history : History}
  {source : Source} {fingerprint : String}

/-- A disk at rest: nothing of the three entries can be lost. -/
def AtRest (disk : Disk Root) : Prop :=
  ∀ name ∈ entryNames, ∃ node, disk .profile name = .settled node ∧
    ∀ found, node = some found → found.stable = true

theorem survives_settled {slot : Slot} {node : Option Node}
    (stable : ∀ found, node = some found → found.stable = true)
    (survives : (Slot.settled node).Survives slot) : slot = .settled node := by
  obtain ⟨left, rfl, survivor | survivor⟩ := survives
  all_goals
    rcases survivor with rfl | ⟨found, isFound, lost⟩
    · rfl
    · rw [stable found isFound] at lost
      cases lost

/-- A crash keeps a published entry or loses it as a whole. -/
theorem survives_shown {slot after : Slot} {node : Node} (stable : node.stable = true)
    (shown : Shown slot node) (survives : slot.Survives after) :
    after = .settled (some node) ∨ after = .settled none := by
  have isStable : ∀ found, some node = some found → found.stable = true := by
    rintro found same
    cases same
    exact stable
  rcases shown with rfl | rfl
  · exact .inl (survives_settled isStable survives)
  · obtain ⟨left, rfl, survivor | survivor⟩ := survives
    · rcases survivor with rfl | ⟨found, isFound, _⟩
      · exact .inr rfl
      · cases isFound
    · rcases survivor with rfl | ⟨found, isFound, lost⟩
      · exact .inl rfl
      · rw [isStable found isFound] at lost
        cases lost

theorem stable_map_privateCopy (state : Option Node) :
    ∀ found, state.map privateCopy = some found → found.stable = true := by
  intro found isFound
  obtain ⟨node, _, rfl⟩ := Option.map_eq_some_iff.mp isFound
  exact stable_privateCopy node

/-- A crash in the middle of an import leaves an import. -/
theorem Imported.crash (imported : Imported source fingerprint world)
    (survives : world.Survives after) : Imported source fingerprint after := by
  have keeps : ∀ name node, (∀ found, node = some found → found.stable = true) →
      world .profile name = .settled node → after .profile name = .settled node := by
    intro name node stable isNode
    have left := survives .profile name
    rw [isNode] at left
    exact survives_settled stable left
  have empty : ∀ found : Node, none = some found → found.stable = true := nofun
  have isRecord : ∀ found, some (recordNode fingerprint) = some found → found.stable = true := by
    rintro found same
    cases same
    rfl
  cases imported with
  | nothing env state record =>
      exact .nothing (keeps _ _ empty env) (keeps _ _ empty state) (keeps _ _ empty record)
  | state node isState env record shown =>
      have isEnv := keeps _ _ empty env
      have isAbsent := keeps _ _ empty record
      rcases survives_shown (stable_privateCopy node) shown (survives _ _) with kept | lost
      · exact .state node isState isEnv isAbsent (.inl kept)
      · exact .nothing isEnv lost isAbsent
  | record env state shown =>
      have isEnv := keeps _ _ empty env
      have isState := keeps _ _ (stable_map_privateCopy _) state
      rcases survives_shown rfl shown (survives _ _) with kept | lost
      · exact .record isEnv isState (.inl kept)
      · cases isNode : source.state with
        | none =>
            rw [isNode] at isState
            exact .nothing isEnv isState lost
        | some node =>
            rw [isNode] at isState
            exact .state node isNode isEnv lost (.inl isState)
  | env state record shown =>
      have isState := keeps _ _ (stable_map_privateCopy _) state
      have isRecorded := keeps _ _ isRecord record
      rcases survives_shown (stable_privateCopy source.env) shown (survives _ _) with kept | lost
      · exact .env isState isRecorded (.inl kept)
      · exact .record lost isState (.inl isRecorded)

/-- What is imported in part shows. -/
theorem Imported.unimported_or (imported : Imported source fingerprint world) :
    Unimported world ∨ ¬ Bare world := by
  have shows : ∀ {name node}, Shown (world .profile name) node →
      world.find ⟨.profile, [name]⟩ ≠ none := by
    intro name node shown
    rw [find_entry]
    rcases shown with isSlot | isSlot
    · rw [isSlot]
      exact nofun
    · rw [isSlot]
      exact nofun
  cases imported with
  | nothing env state record => exact .inl ⟨env, state, record⟩
  | state _ _ _ _ shown => exact .inr fun bare => shows shown bare.2.1
  | record _ _ shown => exact .inr fun bare => shows shown bare.2.2
  | env _ _ shown => exact .inr fun bare => shows shown bare.1

/-- Once the environment file is there, the rest is, too, and durable. -/
theorem Imported.configured (imported : Imported source fingerprint world) {env : Node}
    (isEnv : world.find targetEnv = some env) : env = privateCopy source.env ∧
      world .profile "state" = .settled (source.state.map privateCopy) ∧
      world .profile ".legacy-import.json" = .settled (some (recordNode fingerprint)) := by
  rw [targetEnv, find_entry] at isEnv
  cases imported with
  | nothing absent =>
      rw [absent] at isEnv
      cases isEnv
  | state _ _ absent =>
      rw [absent] at isEnv
      cases isEnv
  | record absent =>
      rw [absent] at isEnv
      cases isEnv
  | env state record shown =>
      rcases shown with isSlot | isSlot
      · rw [isSlot] at isEnv
        cases isEnv
        exact ⟨rfl, state, record⟩
      · rw [isSlot] at isEnv
        cases isEnv
        exact ⟨rfl, state, record⟩

section Executed

variable {index : Nat} {rest : Importing Bool}
  (executed : Executes Files.act (migrateLegacy readers (some (.checkout index))) world rest after)

include executed

/-- A call on a profile that has any of the entries. -/
theorem untouched_of_present (shown : ¬ Bare world) : after = world ∧
    (world.find targetEnv = none → (∀ value, rest ≠ .ret value) ∧
      ∀ failure, rest = .raise failure → ∃ message, failure = .state message) := by
  have call : Ensures Files.act (Untouched world)
      (fun result after => after = world ∧ (world.find targetEnv = none →
        ∃ message, result = .error (.state message)))
      (migrateLegacy readers (some (.checkout index))) world := by
    apply migrateLegacy_ensures (migrate_ensures_of_present shown)
    · rintro value after ⟨rfl, _, refused⟩
      refine ⟨rfl, fun absent => ?_⟩
      rcases refused absent with impossible | ⟨_, impossible⟩
      · cases impossible
      · cases impossible
    · rintro failure after ⟨rfl, _, refused⟩
      refine ⟨rfl, fun absent => ?_⟩
      rcases refused absent with isOs | ⟨message, isState⟩
      · cases isOs
        exact ⟨_, rfl⟩
      · cases isState
        exact ⟨message, rfl⟩
  obtain ⟨same, left⟩ := call.of_executes rfl executed
  refine ⟨same, fun absent => ⟨?_, ?_⟩⟩
  · rintro value rfl
    obtain ⟨_, message⟩ := left.2 absent
    cases message
  · rintro failure rfl
    obtain ⟨message, isState⟩ := left.2 absent
    cases isState
    exact ⟨message, rfl⟩

/-- A call on a profile without any of them. -/
theorem callSafe_of_unimported (unimported : Unimported world) :
    CallSafe readers world (.checkout index) after := by
  have call : Ensures Files.act (CallSafe readers world (.checkout index))
      (fun _ after => CallSafe readers world (.checkout index) after)
      (migrateLegacy readers (some (.checkout index))) world := by
    apply migrateLegacy_ensures (migrate_ensures_of_unimported unimported)
    · exact fun _ after left => left.1
    · exact fun _ after left => left.1
  exact (call.of_executes (.inl rfl) executed).1

end Executed

/-- What every run keeps. -/
structure Invariant (readers : Readers) (origin : Disk Root) (history : History) : Prop where
  kept : ¬ Unimported origin → ∀ name ∈ entryNames,
    history.disk .profile name = origin .profile name
  imported : Unimported origin → Unimported history.disk ∨ ∃ source ∈ history.found,
    ∃ fingerprint, source.Ready readers fingerprint ∧ Imported source fingerprint history.disk

/-- A disk at rest has nothing of the three or shows it. -/
theorem AtRest.unimported_or (rest : AtRest world) : Unimported world ∨ ¬ Bare world := by
  obtain ⟨env, isEnv, _⟩ := rest ".env" (by decide)
  obtain ⟨state, isState, _⟩ := rest "state" (by decide)
  obtain ⟨record, isRecord, _⟩ := rest ".legacy-import.json" (by decide)
  by_cases bare : Bare world
  · obtain ⟨noEnv, noState, noRecord⟩ := bare
    rw [targetEnv, find_entry, isEnv] at noEnv
    rw [targetState, find_entry, isState] at noState
    rw [provenance, find_entry, isRecord] at noRecord
    cases noEnv
    cases noState
    cases noRecord
    exact .inl ⟨isEnv, isState, isRecord⟩
  · exact .inr bare

theorem bare_congr {other : Disk Root}
    (same : ∀ name ∈ entryNames, other .profile name = world .profile name) :
    Bare other ↔ Bare world := by
  rw [Bare, Bare, targetEnv, targetState, provenance, find_entry, find_entry, find_entry, find_entry,
    find_entry, find_entry, same ".env" (by decide), same "state" (by decide),
    same ".legacy-import.json" (by decide)]

/-- In every run the profile has nothing of the three or shows it. -/
theorem Invariant.unimported_or (invariant : Invariant readers origin history)
    (rest : AtRest origin) : Unimported history.disk ∨ ¬ Bare history.disk := by
  by_cases unimported : Unimported origin
  · rcases invariant.imported unimported with nothing | ⟨_, _, _, _, imported⟩
    · exact .inl nothing
    · exact imported.unimported_or
  · right
    rw [bare_congr (invariant.kept unimported)]
    exact rest.unimported_or.resolve_left unimported

theorem Unimported.congr {other : Disk Root} (unimported : Unimported world)
    (same : ∀ name ∈ entryNames, other .profile name = world .profile name) : Unimported other where
  env := (same ".env" (by decide)).trans unimported.env
  state := (same "state" (by decide)).trans unimported.state
  record := (same ".legacy-import.json" (by decide)).trans unimported.record

theorem Unimported.crash (unimported : Unimported world) (survives : world.Survives after) :
    Unimported after := by
  have empty : ∀ name, world .profile name = .settled none → after .profile name = .settled none := by
    intro name isNothing
    have left := survives .profile name
    rw [isNothing] at left
    exact survives_settled nofun left
  exact ⟨empty _ unimported.env, empty _ unimported.state, empty _ unimported.record⟩

/-- One event keeps it. -/
theorem Event.invariant {next : History} (rest : AtRest origin)
    (invariant : Invariant readers origin history) (event : Event readers history next) :
    Invariant readers origin next := by
  cases event with
  | call index program after executed =>
      rcases invariant.unimported_or rest with unimported | shown
      · refine ⟨fun present => ?_, fun absent => ?_⟩
        · exact absurd (unimported.congr fun name member =>
            (invariant.kept present name member).symm) present
        · rcases callSafe_of_unimported executed unimported with rfl | ⟨source, fingerprint, found,
            ready, safe⟩
          · exact .inl unimported
          · right
            refine ⟨source, ?_, fingerprint, ready, safe.imported⟩
            rw [found]
            exact List.mem_cons_self
      · obtain ⟨rfl, _⟩ := untouched_of_present executed shown
        refine ⟨invariant.kept, fun absent => ?_⟩
        rcases invariant.imported absent with nothing | ⟨source, member, imported⟩
        · exact .inl nothing
        · exact .inr ⟨source, List.mem_append_right _ member, imported⟩
  | crash after survives =>
      refine ⟨fun present name member => ?_, fun absent => ?_⟩
      · obtain ⟨node, isNode, stable⟩ := rest name member
        have left := survives .profile name
        rw [invariant.kept present name member, isNode] at left
        rw [isNode]
        exact survives_settled stable left
      · rcases invariant.imported absent with nothing | ⟨source, member, fingerprint, ready, imported⟩
        · exact .inl (nothing.crash survives)
        · exact .inr ⟨source, member, fingerprint, ready, imported.crash survives⟩
  | edit after same =>
      refine ⟨fun present name member => ?_, fun absent => ?_⟩
      · exact (same name member).trans (invariant.kept present name member)
      · rcases invariant.imported absent with nothing | ⟨source, member, fingerprint, ready, imported⟩
        · exact .inl (nothing.congr same)
        · exact .inr ⟨source, member, fingerprint, ready, imported.congr same⟩

theorem Invariant.of_reachable (rest : AtRest origin)
    (run : Reachable (· = ⟨origin, []⟩) (Event readers) history) :
    Invariant readers origin history := by
  apply run.holds
  · rintro _ rfl
    exact ⟨fun _ _ _ => rfl, fun unimported => .inl unimported⟩
  · exact fun _ _ invariant event => event.invariant rest invariant

/-- What calls and crashes can do to a profile, whatever happens to the checkouts. -/
structure CrashSafe (readers : Readers) (origin : Disk Root) (history : History) : Prop where
  /-- what was there at first is never replaced -/
  kept : ¬ Unimported origin → ∀ name ∈ entryNames,
    history.disk .profile name = origin .profile name
  /-- a configuration that was not there at first is the copy of one that a call found, with
  its state and the record of it in place -/
  configured : Unimported origin → ∀ env, history.disk.find targetEnv = some env →
    ∃ source ∈ history.found, ∃ fingerprint, source.Ready readers fingerprint ∧
      env = privateCopy source.env ∧
      history.disk .profile "state" = .settled (source.state.map privateCopy) ∧
      history.disk .profile ".legacy-import.json" = .settled (some (recordNode fingerprint))
  /-- no moment of a call changes a checkout or an entry that the profile has -/
  calls : ∀ index rest after, Executes Files.act (migrateLegacy readers (some (.checkout index)))
    history.disk rest after → Kept history.disk after
  /-- a state or a record without a configuration is refused by every call, which then
  changes nothing -/
  refused : history.disk.find targetEnv = none → ¬ Bare history.disk →
    ∀ index rest after, Executes Files.act (migrateLegacy readers (some (.checkout index)))
      history.disk rest after → after = history.disk ∧ (∀ value, rest ≠ .ret value) ∧
        ∀ failure, rest = .raise failure → ∃ message, failure = .state message

/-- The import is crash safe in every run of calls, each of them stopped anywhere, of
crashes, and of edits of the checkouts. -/
theorem legacy_import_crash_safe (rest : AtRest origin)
    (run : Reachable (· = ⟨origin, []⟩) (Event readers) history) :
    CrashSafe readers origin history := by
  have invariant := Invariant.of_reachable rest run
  refine ⟨invariant.kept, fun unimported env isEnv => ?_, fun index rest' after executed => ?_,
    fun absent shown index rest' after executed => ?_⟩
  · rcases invariant.imported unimported with nothing | ⟨source, member, fingerprint, ready, imported⟩
    · rw [targetEnv, find_entry, nothing.env] at isEnv
      cases isEnv
    · exact ⟨source, member, fingerprint, ready, imported.configured isEnv⟩
  · rcases invariant.unimported_or rest with unimported | shown
    · rcases callSafe_of_unimported executed unimported with rfl | ⟨_, _, _, _, safe⟩
      · exact Kept.refl _
      · exact safe.kept
    · rw [(untouched_of_present executed shown).1]
      exact Kept.refl _
  · obtain ⟨same, refused⟩ := untouched_of_present executed shown
    exact ⟨same, refused absent⟩

end Runs

end Docta.Dev.Legacy
