/-
Module: Docta.Dev.LegacyPublication
Purpose: The renames of an import. They publish the state, the record and the environment
  file one after the other, and at every moment the profile has a first part of these,
  of which only the last may still be lost.
Trusted boundary: as in `LegacyImport`
Main exports: Imported, Kept, ImportSafe, Complete, prepare_ensures, publishAll_ensures
-/
import Docta.Dev.LegacyCopy

namespace Docta.Dev.Legacy

open Contract Fallible Files Program

/-! ### What an import leaves -/

def recordNode (fingerprint : String) : Node :=
  .file 0o600 (provenanceText fingerprint) true

/-- The entry was published, and is durable or will be lost as a whole. -/
def Shown (slot : Slot) (node : Node) : Prop :=
  slot = .settled (some node) ∨ slot = .pending none (some node)

/-- How much of a source is imported: nothing, its state, also the record of it, or all.
Only the entry that was published last may still be lost. -/
inductive Imported (source : Source) (fingerprint : String) (disk : Disk Root) : Prop where
  | nothing (env : disk .profile ".env" = .settled none)
      (state : disk .profile "state" = .settled none)
      (record : disk .profile ".legacy-import.json" = .settled none)
  | state (node : Node) (isState : source.state = some node)
      (env : disk .profile ".env" = .settled none)
      (record : disk .profile ".legacy-import.json" = .settled none)
      (shown : Shown (disk .profile "state") (privateCopy node))
  | record (env : disk .profile ".env" = .settled none)
      (state : disk .profile "state" = .settled (source.state.map privateCopy))
      (shown : Shown (disk .profile ".legacy-import.json") (recordNode fingerprint))
  | env (state : disk .profile "state" = .settled (source.state.map privateCopy))
      (record : disk .profile ".legacy-import.json" = .settled (some (recordNode fingerprint)))
      (shown : Shown (disk .profile ".env") (privateCopy source.env))

/-- No checkout changed, and no entry that the profile had. -/
structure Kept (world after : Disk Root) : Prop where
  checkouts : ∀ index, after (.checkout index) = world (.checkout index)
  entries : ∀ name node, (world .profile name).now = some node →
    (after .profile name).now = some node

theorem Kept.refl (world : Disk Root) : Kept world world :=
  ⟨fun _ => rfl, fun _ _ known => known⟩

theorem Kept.trans {world between after : Disk Root} (first : Kept world between)
    (second : Kept between after) : Kept world after where
  checkouts := fun index => (second.checkouts index).trans (first.checkouts index)
  entries := fun name node known => second.entries name node (first.entries name node known)

section Publish

variable {world here after : Disk Root} {temporary name : String} {entries : List (String × Node)}
  {node : Node} {mode : Nat} {synced : Bool}

/-- The temporary directory is none of the entries. -/
theorem temporary_apart (front : ".legacy-import-".toList <+: temporary.toList) :
    ∀ name ∈ entryNames, name ≠ temporary := by
  rintro name member rfl
  rw [← List.isPrefixOf_iff_prefix] at front
  revert name
  decide

/-- The disk with something in the temporary directory. -/
def staged (world : Disk Root) (temporary : String) (node : Node) : Disk Root :=
  world.put .profile temporary (some node)

theorem staged_apply (apart : name ≠ temporary) (node : Node) :
    staged world temporary node .profile name = world .profile name :=
  Disk.put_apply_of_ne (fun same => apart (Prod.mk.inj same).2) _ _

theorem staged_checkout (index : Nat) (node : Node) :
    staged world temporary node (.checkout index) = world (.checkout index) := by
  funext name
  apply Disk.put_apply_of_ne
  intro same
  cases (Prod.mk.inj same).1

theorem kept_staged (fresh : (world .profile temporary).now = none) (node : Node) :
    Kept world (staged world temporary node) where
  checkouts := fun index => staged_checkout index node
  entries := by
    intro name known isKnown
    have apart : name ≠ temporary := by
      rintro rfl
      rw [fresh] at isKnown
      cases isKnown
    rw [staged_apply apart]
    exact isKnown

/-- The disk right after a rename. -/
def renamed (here : Disk Root) (temporary name : String) (mode : Nat)
    (entries : List (String × Node)) (node : Node) : Disk Root :=
  (here.set ⟨.profile, [temporary]⟩ (.dir mode (entries.filter (·.1 ≠ name)) false)).put .profile
    name (some node)

/-- A temporary directory with what is left to publish. -/
structure Staging (world : Disk Root) (temporary : String) (entries : List (String × Node))
    (here : Disk Root) : Prop where
  kept : Kept world here
  found : ∃ mode synced, here.find ⟨.profile, [temporary]⟩ = some (.dir mode entries synced)
  calm : ∀ name ∈ entryNames, ∃ node, here .profile name = .settled node

/-- While an entry is published, nothing else changes. -/
structure Publishing (world here : Disk Root) (name : String) (node : Node) (after : Disk Root) :
    Prop where
  kept : Kept world after
  others : ∀ other ∈ entryNames, other ≠ name → after .profile other = here .profile other
  slot : after .profile name = .settled none ∨ Shown (after .profile name) node

section Renamed

variable (here temporary mode entries node)

theorem renamed_apply_of_ne {other : String} (apart : other ≠ name) (apart' : other ≠ temporary) :
    renamed here temporary name mode entries node .profile other = here .profile other := by
  rw [renamed, Disk.put_apply_of_ne fun same => apart (Prod.mk.inj same).2,
    Disk.set_apply_of_ne fun same => apart' (Prod.mk.inj (Option.some.inj same)).2]

theorem renamed_checkout (index : Nat) :
    renamed here temporary name mode entries node (.checkout index) = here (.checkout index) := by
  funext other
  rw [renamed, Disk.put_apply_of_ne, Disk.set_apply_of_ne]
  · intro same
    cases (Prod.mk.inj (Option.some.inj same)).1
  · intro same
    cases (Prod.mk.inj same).1

theorem renamed_self (apart : name ≠ temporary) :
    renamed here temporary name mode entries node .profile name =
      .pending (here .profile name).old (some node) := by
  rw [renamed, Disk.put_self,
    Disk.set_apply_of_ne fun same => apart (Prod.mk.inj (Option.some.inj same)).2]

end Renamed

/-- What is left in the temporary directory. -/
theorem find_renamed {known : Node} (found : here.find ⟨.profile, [temporary]⟩ = some known)
    (apart : name ≠ temporary) (mode : Nat) (node : Node) :
    ((renamed here temporary name mode entries node).settle .profile).find
      ⟨.profile, [temporary]⟩ = some (.dir mode (entries.filter (·.1 ≠ name)) false) := by
  have isThere : (here.find ⟨.profile, [temporary]⟩).isSome = true := by
    rw [found]
    rfl
  have inSet := Disk.find_set isThere (.dir mode (entries.filter (·.1 ≠ name)) false)
  rw [Disk.find_settle, ← inSet]
  apply Disk.find_congr
  rintro top isTop
  cases isTop
  rw [renamed, Disk.put_apply_of_ne]
  exact fun same => apart (Prod.mk.inj same).2.symm

theorem Publishing.refl (kept : Kept world here) (free : here .profile name = .settled none) :
    Publishing world here name node here :=
  ⟨kept, fun _ _ _ => rfl, .inl free⟩

section Renames

variable (staging : Staging world temporary entries here)
  (front : ".legacy-import-".toList <+: temporary.toList)
  (fresh : (world .profile temporary).now = none) (isEntry : name ∈ entryNames)
  (free : here .profile name = .settled none)

include staging front fresh isEntry free

/-- Right after the rename the entry may still be lost. -/
theorem publishing_renamed (mode : Nat) (entries' : List (String × Node)) (node : Node) :
    Publishing world here name node (renamed here temporary name mode entries' node) := by
  have apart := temporary_apart front
  refine ⟨⟨fun index => ?_, fun other known isKnown => ?_⟩, fun other member different => ?_, ?_⟩
  · rw [renamed_checkout]
    exact staging.kept.checkouts index
  · have isHere := staging.kept.entries other known isKnown
    by_cases same : other = name
    · rw [same, free] at isHere
      cases isHere
    · rw [renamed_apply_of_ne _ _ _ _ _ same]
      · exact isHere
      · rintro rfl
        rw [fresh] at isKnown
        cases isKnown
  · exact renamed_apply_of_ne _ _ _ _ _ different (apart other member)
  · rw [renamed_self _ _ _ _ _ (apart name isEntry), free]
    exact .inr (.inr rfl)

/-- When the profile is synced, the entry stays. -/
theorem publishing_settled (mode : Nat) (node : Node) :
    Publishing world here name node
        ((renamed here temporary name mode entries node).settle .profile) ∧
      Staging world temporary (entries.filter (·.1 ≠ name))
        ((renamed here temporary name mode entries node).settle .profile) ∧
      (renamed here temporary name mode entries node).settle .profile .profile name =
        .settled (some node) := by
  have apart := temporary_apart front
  have before := publishing_renamed staging front fresh isEntry free mode entries node
  have checkouts : ∀ index,
      (renamed here temporary name mode entries node).settle .profile (.checkout index) =
        world (.checkout index) := by
    intro index
    rw [← before.kept.checkouts index]
    funext other
    apply Disk.settle_apply_of_ne
    exact Root.noConfusion
  have kept : Kept world ((renamed here temporary name mode entries node).settle .profile) := by
    refine ⟨checkouts, fun other known isKnown => ?_⟩
    rw [Disk.now_settle]
    exact before.kept.entries other known isKnown
  have isSlot : (renamed here temporary name mode entries node).settle .profile .profile name =
      .settled (some node) := by
    rw [Disk.settle_apply, renamed_self _ _ _ _ _ (apart name isEntry)]
    rfl
  refine ⟨⟨kept, fun other member different => ?_, ?_⟩, ⟨kept, ?_, fun other member => ?_⟩, isSlot⟩
  · obtain ⟨calm, isCalm⟩ := staging.calm other member
    rw [Disk.settle_apply, before.others other member different, isCalm]
    rfl
  · exact .inr (.inl isSlot)
  · obtain ⟨_, _, found⟩ := staging.found
    exact ⟨mode, false, find_renamed found (apart name isEntry) mode node⟩
  · exact ⟨_, Disk.settle_apply _ _ other⟩

/-- The rule of a publication. -/
theorem publish_ensures (listed : entries.lookup name = some node) :
    Ensures Files.act (Publishing world here name node)
      (fun result after => Publishing world here name node after ∧
        (result = .ok () → Staging world temporary (entries.filter (·.1 ≠ name)) after ∧
          after .profile name = .settled (some node)))
      (publish ⟨.profile, [temporary]⟩ name) here := by
  have here' : Publishing world here name node here := Publishing.refl staging.kept free
  obtain ⟨mode, synced, found⟩ := staging.found
  have rename : Ensures Files.act (Publishing world here name node)
      (fun (result : Except Failure Unit) after => match result with
        | .ok _ => after = renamed here temporary name mode entries node
        | .error _ => after = here)
      (Files.perform .os (.rename ⟨.profile, [temporary]⟩ name .profile name)) here := by
    apply ensures_perform
    · rintro answer after ⟨_, _, _, _, isDir, isListed, rfl⟩
      rw [found] at isDir
      cases isDir
      rw [listed] at isListed
      cases isListed
      exact ⟨publishing_renamed staging front fresh isEntry free mode entries node, rfl⟩
    · rintro after rfl
      exact ⟨here', rfl⟩
  apply rename.bind
  · rintro error after rfl
    exact ⟨here', nofun⟩
  · rintro _ after rfl
    apply ensures_perform
    · rintro answer after rfl
      obtain ⟨publishing, rest⟩ := publishing_settled staging front fresh isEntry free mode node
      exact ⟨publishing, publishing, fun _ => rest⟩
    · rintro after rfl
      have publishing := publishing_renamed staging front fresh isEntry free mode entries node
      exact ⟨publishing, publishing, nofun⟩

end Renames

end Publish

/-! ### Staging -/

section Stage

variable {world here after : Disk Root} {index : Nat} {temporary fingerprint : String}
  {source : Source}

/-- The disk before anything is imported. -/
structure Unimported (disk : Disk Root) : Prop where
  env : disk .profile ".env" = .settled none
  state : disk .profile "state" = .settled none
  record : disk .profile ".legacy-import.json" = .settled none

theorem Unimported.imported (unimported : Unimported world) (source : Source)
    (fingerprint : String) : Imported source fingerprint world :=
  .nothing unimported.env unimported.state unimported.record

/-- Everything is imported, and durable. -/
structure Complete (source : Source) (fingerprint : String) (disk : Disk Root) : Prop where
  state : disk .profile "state" = .settled (source.state.map privateCopy)
  record : disk .profile ".legacy-import.json" = .settled (some (recordNode fingerprint))
  env : disk .profile ".env" = .settled (some (privateCopy source.env))

theorem Complete.imported (complete : Complete source fingerprint world) :
    Imported source fingerprint world :=
  .env complete.state complete.record (.inl complete.env)

/-- What holds at every moment of an import. -/
structure ImportSafe (world : Disk Root) (source : Source) (fingerprint : String)
    (after : Disk Root) : Prop where
  kept : Kept world after
  imported : Imported source fingerprint after

/-- What the temporary directory holds in the end. -/
def stagedEntries (source : Source) (fingerprint : String) : List (String × Node) :=
  (source.state.map fun node => ("state", privateCopy node)).toList ++
    [(".env", privateCopy source.env)] ++ [(".legacy-import.json", recordNode fingerprint)]

theorem Unimported.staged (unimported : Unimported world)
    (apart : ∀ name ∈ entryNames, name ≠ temporary) (node : Node) :
    Unimported (staged world temporary node) where
  env := (staged_apply (apart ".env" (by decide)) node).trans unimported.env
  state := (staged_apply (apart "state" (by decide)) node).trans unimported.state
  record := (staged_apply (apart ".legacy-import.json" (by decide)) node).trans unimported.record

/-- What is made in a directory that has entries already. -/
theorem ensures_leaves_of_withEntries {program : Importing Unit} {parent : Path Root} {mode : Nat}
    {entries final : List (String × Node)}
    (ensures : Ensures Files.act (Below (withEntries world parent mode entries) parent)
      (Leaves (withEntries world parent mode entries) parent mode final) program
      (withEntries world parent mode entries)) :
    Ensures Files.act (Below world parent) (Leaves world parent mode final) program
      (withEntries world parent mode entries) := by
  apply ensures.mono
  · exact fun after below => (Below.set _ _ _).trans below
  · intro result after left
    cases result with
    | ok _ =>
        have isAfter : after = withEntries _ parent mode _ := left
        rw [isAfter, withEntries_withEntries]
        rfl
    | error _ => exact (Below.set _ _ _).trans left

theorem copyState_ensures {parent : Path Root} (state : Option Node)
    (isDir : world.find parent = some (.dir 0o700 [] false)) :
    Ensures Files.act (Below world parent)
      (Leaves world parent 0o700 (state.map fun node => ("state", privateCopy node)).toList)
      (copyState parent state) world := by
  cases state with
  | some node => exact copyPrivate_ensures node parent "state" world 0o700 [] false isDir
  | none => exact (Disk.set_find isDir).symm

/-- Nothing changed but the temporary directory. -/
def InStaging (world : Disk Root) (temporary : String) (after : Disk Root) : Prop :=
  ∃ node, after = staged world temporary node

/-- The temporary directory when it was made. -/
def emptied (world : Disk Root) (temporary : String) : Disk Root :=
  staged world temporary (.dir 0o700 [] false)

theorem find_emptied : (emptied world temporary).find ⟨.profile, [temporary]⟩ =
    some (.dir 0o700 [] false) :=
  Disk.find_put _ _ _ _

/-- A temporary directory in the profile does not change what a checkout has. -/
theorem find_emptied_state (isState : world.find ⟨.checkout index, ["state"]⟩ = source.state) :
    (emptied world temporary).find ⟨.checkout index, ["state"]⟩ = source.state := by
  rw [← isState]
  apply Disk.find_congr
  rintro top isTop
  cases isTop
  exact congrArg Slot.now (congrFun (staged_checkout index _) "state")

theorem Below.inStaging (below : Below (emptied world temporary) ⟨.profile, [temporary]⟩ after) :
    InStaging world temporary after := by
  obtain ⟨node, rfl⟩ := below
  exact ⟨node, Disk.set_put _ _ _ _ _⟩

/-- What the preparation leaves. -/
def Prepared (world : Disk Root) (temporary : String) (entries : List (String × Node))
    (result : Except Failure Unit) (after : Disk Root) : Prop :=
  InStaging world temporary after ∧
    (result = .ok () → after = staged world temporary (.dir 0o700 entries true))

/-- A part of the preparation, and the rest. -/
theorem ensures_prepared_bind {program : Importing Unit} {next : Unit → Importing Unit}
    {between final : List (String × Node)}
    (first : Ensures Files.act (Below (emptied world temporary) ⟨.profile, [temporary]⟩)
      (Leaves (emptied world temporary) ⟨.profile, [temporary]⟩ 0o700 between) program here)
    (second : Ensures Files.act (InStaging world temporary) (Prepared world temporary final) (next ())
      (withEntries (emptied world temporary) ⟨.profile, [temporary]⟩ 0o700 between)) :
    Ensures Files.act (InStaging world temporary) (Prepared world temporary final)
      (program >>= next) here := by
  apply (first.mono (fun _ => Below.inStaging) fun _ _ left => left).bind
  · exact fun error after below => ⟨Below.inStaging below, nofun⟩
  · rintro _ after rfl
    exact second

/-- The copies are made below the temporary directory. -/
theorem prepare_ensures (isState : world.find ⟨.checkout index, ["state"]⟩ = source.state) :
    Ensures Files.act (InStaging world temporary)
      (Prepared world temporary (stagedEntries source fingerprint))
      (prepare (.checkout index) source.env fingerprint ⟨.profile, [temporary]⟩)
      (emptied world temporary) := by
  have here : InStaging world temporary (emptied world temporary) := ⟨_, rfl⟩
  apply ensures_look_bind here ⟨here, nofun⟩
  rw [find_emptied_state isState]
  apply ensures_prepared_bind (copyState_ensures source.state find_emptied)
  apply ensures_prepared_bind
  · apply ensures_leaves_of_withEntries
    exact copyPrivate_ensures source.env _ ".env" _ _ _ _ (find_withEntries find_emptied _ _)
  apply ensures_prepared_bind
  · apply ensures_leaves_of_withEntries
    exact writePrivate_ensures (find_withEntries find_emptied _ _) _ _
  have isStaged : withEntries (emptied world temporary) ⟨.profile, [temporary]⟩ 0o700
      (stagedEntries source fingerprint) =
        staged world temporary (.dir 0o700 (stagedEntries source fingerprint) false) :=
    Disk.set_put _ _ _ _ _
  apply ensures_perform
  · rintro answer after ⟨node, isNode, rfl⟩
    have found := (find_withEntries find_emptied _ _).symm.trans isNode
    cases found
    have isAfter : (withEntries (emptied world temporary) ⟨.profile, [temporary]⟩ 0o700
        (stagedEntries source fingerprint)).set ⟨.profile, [temporary]⟩
          (.dir 0o700 (stagedEntries source fingerprint) true) =
            staged world temporary (.dir 0o700 (stagedEntries source fingerprint) true) := by
      rw [isStaged]
      exact Disk.set_put _ _ _ _ _
    exact ⟨⟨_, isAfter⟩, ⟨_, isAfter⟩, fun _ => isAfter⟩
  · rintro after rfl
    exact ⟨⟨_, isStaged⟩, ⟨_, isStaged⟩, nofun⟩

/-- What an import leaves at its end: everything when it succeeds. -/
def Left {α : Type} (world : Disk Root) (source : Source) (fingerprint : String)
    (result : Except Failure α) (after : Disk Root) : Prop :=
  ImportSafe world source fingerprint after ∧
    ∀ value, result = .ok value → Complete source fingerprint after

theorem present_privateCopy {node : Node} (regular : isLink (some node) = false) :
    present (some (privateCopy node)) = true := by
  cases node with
  | link => cases regular
  | _ => rfl

/-- The copy of the state is looked at before it is published. -/
theorem find_staged_state
    (isDir : here.find ⟨.profile, [temporary]⟩ =
      some (.dir 0o700 (stagedEntries source fingerprint) true)) :
    here.find (Path.child ⟨.profile, [temporary]⟩ "state") = source.state.map privateCopy := by
  rw [Disk.find_child isDir, Node.get, stagedEntries]
  cases source.state with
  | none => rfl
  | some node => rfl

section Publications

variable (front : ".legacy-import-".toList <+: temporary.toList)
  (fresh : (world .profile temporary).now = none)

include front fresh

/-- The last rename. -/
theorem publishEnv_ensures
    (staging : Staging world temporary [(".env", privateCopy source.env)] here)
    (state : here .profile "state" = .settled (source.state.map privateCopy))
    (record : here .profile ".legacy-import.json" = .settled (some (recordNode fingerprint)))
    (free : here .profile ".env" = .settled none) :
    Ensures Files.act (ImportSafe world source fingerprint) (Left world source fingerprint)
      (publish ⟨.profile, [temporary]⟩ ".env") here := by
  have safe : ∀ after, Publishing world here ".env" (privateCopy source.env) after →
      ImportSafe world source fingerprint after := by
    intro after publishing
    have isState := (publishing.others "state" (by decide) (by decide)).trans state
    have isRecord := (publishing.others ".legacy-import.json" (by decide) (by decide)).trans record
    refine ⟨publishing.kept, ?_⟩
    rcases publishing.slot with isFree | shown
    · exact .record isFree isState (.inl isRecord)
    · exact .env isState isRecord shown
  apply (publish_ensures staging front fresh (by decide) free rfl).mono safe
  rintro result after ⟨publishing, done⟩
  refine ⟨safe after publishing, fun value isOk => ?_⟩
  obtain ⟨_, isEnv⟩ := done isOk
  exact ⟨(publishing.others "state" (by decide) (by decide)).trans state,
    (publishing.others ".legacy-import.json" (by decide) (by decide)).trans record, isEnv⟩

/-- The last two renames. -/
theorem publishRecord_ensures
    (staging : Staging world temporary
      [(".env", privateCopy source.env), (".legacy-import.json", recordNode fingerprint)] here)
    (state : here .profile "state" = .settled (source.state.map privateCopy))
    (record : here .profile ".legacy-import.json" = .settled none)
    (free : here .profile ".env" = .settled none) :
    Ensures Files.act (ImportSafe world source fingerprint) (Left world source fingerprint)
      (do
        publish ⟨.profile, [temporary]⟩ ".legacy-import.json"
        publish ⟨.profile, [temporary]⟩ ".env")
      here := by
  have safe : ∀ after, Publishing world here ".legacy-import.json" (recordNode fingerprint) after →
      ImportSafe world source fingerprint after := by
    intro after publishing
    have isState := (publishing.others "state" (by decide) (by decide)).trans state
    have isEnv := (publishing.others ".env" (by decide) (by decide)).trans free
    refine ⟨publishing.kept, ?_⟩
    rcases publishing.slot with isFree | shown
    · cases isNode : source.state with
      | none =>
          rw [isNode] at isState
          exact .nothing isEnv isState isFree
      | some node =>
          rw [isNode] at isState
          exact .state node isNode isEnv isFree (.inl isState)
    · exact .record isEnv isState shown
  apply ((publish_ensures staging front fresh (by decide) record rfl).mono safe
    fun _ _ left => left).bind
  · rintro error after ⟨publishing, _⟩
    exact ⟨safe after publishing, nofun⟩
  · rintro _ after ⟨publishing, done⟩
    obtain ⟨left, isRecord⟩ := done rfl
    exact publishEnv_ensures front fresh left
      ((publishing.others "state" (by decide) (by decide)).trans state) isRecord
      ((publishing.others ".env" (by decide) (by decide)).trans free)

/-- All three renames. -/
theorem publishState_ensures {node : Node} (isNode : source.state = some node)
    (staging : Staging world temporary [("state", privateCopy node),
      (".env", privateCopy source.env), (".legacy-import.json", recordNode fingerprint)] here)
    (state : here .profile "state" = .settled none)
    (record : here .profile ".legacy-import.json" = .settled none)
    (free : here .profile ".env" = .settled none) :
    Ensures Files.act (ImportSafe world source fingerprint) (Left world source fingerprint)
      (do
        publish ⟨.profile, [temporary]⟩ "state"
        publish ⟨.profile, [temporary]⟩ ".legacy-import.json"
        publish ⟨.profile, [temporary]⟩ ".env")
      here := by
  have safe : ∀ after, Publishing world here "state" (privateCopy node) after →
      ImportSafe world source fingerprint after := by
    intro after publishing
    have isEnv := (publishing.others ".env" (by decide) (by decide)).trans free
    have isRecord := (publishing.others ".legacy-import.json" (by decide) (by decide)).trans record
    refine ⟨publishing.kept, ?_⟩
    rcases publishing.slot with isFree | shown
    · exact .nothing isEnv isFree isRecord
    · exact .state node isNode isEnv isRecord shown
  apply ((publish_ensures staging front fresh (by decide) state rfl).mono safe
    fun _ _ left => left).bind
  · rintro error after ⟨publishing, _⟩
    exact ⟨safe after publishing, nofun⟩
  · rintro _ after ⟨publishing, done⟩
    obtain ⟨left, isState⟩ := done rfl
    apply publishRecord_ensures front fresh left
    · rw [isNode]
      exact isState
    · exact (publishing.others ".legacy-import.json" (by decide) (by decide)).trans record
    · exact (publishing.others ".env" (by decide) (by decide)).trans free

/-- The renames, from the prepared directory on. -/
theorem publishAll_ensures (unimported : Unimported world)
    (regular : ∀ node, source.state = some node → isLink (some node) = false) :
    Ensures Files.act (ImportSafe world source fingerprint) (Left world source fingerprint)
      (publishAll ⟨.profile, [temporary]⟩)
      (staged world temporary (.dir 0o700 (stagedEntries source fingerprint) true)) := by
  have apart := temporary_apart front
  have start := unimported.staged apart (.dir 0o700 (stagedEntries source fingerprint) true)
  have isDir : (staged world temporary (.dir 0o700 (stagedEntries source fingerprint) true)).find
      ⟨.profile, [temporary]⟩ = some (.dir 0o700 (stagedEntries source fingerprint) true) :=
    Disk.find_put _ _ _ _
  have staging : Staging world temporary (stagedEntries source fingerprint)
      (staged world temporary (.dir 0o700 (stagedEntries source fingerprint) true)) := by
    refine ⟨kept_staged fresh _, ⟨_, _, isDir⟩, fun name member => ?_⟩
    have names : name = ".env" ∨ name = "state" ∨ name = ".legacy-import.json" := by
      simpa [entryNames] using member
    rcases names with rfl | rfl | rfl
    · exact ⟨_, start.env⟩
    · exact ⟨_, start.state⟩
    · exact ⟨_, start.record⟩
  have here : ImportSafe world source fingerprint
      (staged world temporary (.dir 0o700 (stagedEntries source fingerprint) true)) :=
    ⟨staging.kept, start.imported source fingerprint⟩
  apply ensures_look_bind here ⟨here, nofun⟩
  rw [find_staged_state isDir]
  cases isNode : source.state with
  | none =>
      have entries : stagedEntries source fingerprint =
          [(".env", privateCopy source.env), (".legacy-import.json", recordNode fingerprint)] := by
        rw [stagedEntries, isNode]
        rfl
      have isState := start.state
      rw [← Option.map_none (f := privateCopy), ← isNode] at isState
      rw [entries] at staging isState start ⊢
      exact publishRecord_ensures front fresh staging isState start.record start.env
  | some node =>
      have isPresent : present (some (privateCopy node)) = true :=
        present_privateCopy (regular node isNode)
      have entries : stagedEntries source fingerprint = [("state", privateCopy node),
          (".env", privateCopy source.env), (".legacy-import.json", recordNode fingerprint)] := by
        rw [stagedEntries, isNode]
        rfl
      rw [Option.map_some, publishState, if_pos isPresent]
      rw [entries] at staging start ⊢
      exact publishState_ensures front fresh isNode staging start.state start.record start.env

end Publications

end Stage

end Docta.Dev.Legacy
