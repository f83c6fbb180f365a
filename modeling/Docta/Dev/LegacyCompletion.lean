/-
Module: Docta.Dev.LegacyCompletion
Purpose: An import that nothing disturbs succeeds: it copies and publishes the whole
  profile of the checkout, and the next call recognises the checkout as imported.
Trusted boundary: as in `LegacyImport`
Main exports: Plain, copyPrivate_run, migrateLegacy_run, legacy_import_succeeds
-/
import Docta.Dev.LegacySafety

namespace Docta.Dev.Legacy

open Contract Fallible Files Program

/-! ### The copy -/

mutual

/-- Files and directories only, with every name once. -/
def Plain : Node → Prop
  | .file _ _ _ => True
  | .dir _ entries _ => (entries.map (·.1)).Nodup ∧ PlainEntries entries
  | _ => False

def PlainEntries : List (String × Node) → Prop
  | [] => True
  | entry :: rest => PlainEntry entry ∧ PlainEntries rest

def PlainEntry : String × Node → Prop
  | (_, node) => Plain node

end

section Copy

variable {suffix : String} {world : Disk Root} {parent : Path Root} {mode : Nat}
  {entries : List (String × Node)} {synced : Bool} {name : String}

/-- An effect that does not fail. -/
theorem run_perform {effect : Files.Effect Root} {answer : Answer effect} {after : Disk Root}
    (done : serve suffix effect world = (some answer, after)) :
    (Files.perform .os effect : Importing (Answer effect)).run (serve suffix) world =
      (.ok answer, after) := by
  rw [Files.perform, Program.run, done]
  rfl

theorem make_run (isDir : world.find parent = some (.dir mode entries synced))
    (fresh : entries.lookup name = none) (value : Node) :
    make world parent name value =
      (some (), withEntries world parent mode (entries ++ [(name, value)])) := by
  rw [make, isDir]
  simp only [fresh, Option.isNone_none, if_true]
  rfl

/-- An effect on the entry that was made last. -/
theorem run_child {effect : Files.Effect Root} {answer : Answer effect} {known node value : Node}
    (isKnown : world.find parent = some known) (fresh : entries.lookup name = none)
    (done : serve suffix effect (withEntries world parent mode (entries ++ [(name, node)])) =
      (some answer, (withEntries world parent mode (entries ++ [(name, node)])).set
        (parent.child name) value)) :
    (Files.perform .os effect : Importing (Answer effect)).run (serve suffix)
        (withEntries world parent mode (entries ++ [(name, node)])) =
      (.ok answer, withEntries world parent mode (entries ++ [(name, value)])) := by
  rw [run_perform done, set_child_withEntries isKnown fresh]

theorem chmod_run {known : Node} {own : Nat} {bytes : List UInt8}
    (isKnown : world.find parent = some known) (fresh : entries.lookup name = none) (new : Nat) :
    (Files.perform .os (.chmod (parent.child name) new) : Importing Unit).run (serve suffix)
        (withEntries world parent mode (entries ++ [(name, .file own bytes synced)])) =
      (.ok (), withEntries world parent mode (entries ++ [(name, .file new bytes synced)])) := by
  apply run_child isKnown fresh
  rw [serve, find_child_withEntries isKnown fresh mode]

theorem write_run {known : Node} {own : Nat} {other : List UInt8}
    (isKnown : world.find parent = some known) (fresh : entries.lookup name = none)
    (bytes : List UInt8) :
    (Files.perform .os (.write (parent.child name) bytes) : Importing Unit).run (serve suffix)
        (withEntries world parent mode (entries ++ [(name, .file own other synced)])) =
      (.ok (), withEntries world parent mode (entries ++ [(name, .file own bytes false)])) := by
  apply run_child isKnown fresh
  rw [serve, find_child_withEntries isKnown fresh mode]

theorem sync_run {known : Node} (isKnown : world.find parent = some known)
    (fresh : entries.lookup name = none) (node : Node) :
    (Files.perform .os (.sync (parent.child name)) : Importing Unit).run (serve suffix)
        (withEntries world parent mode (entries ++ [(name, node)])) =
      (.ok (), withEntries world parent mode (entries ++ [(name, node.sync)])) := by
  apply run_child isKnown fresh
  rw [serve, find_child_withEntries isKnown fresh mode]

theorem writePrivate_run (isDir : world.find parent = some (.dir mode entries synced))
    (fresh : entries.lookup name = none) (bytes : List UInt8) :
    (writePrivate parent name bytes).run (serve suffix) world =
      (.ok (), withEntries world parent mode (entries ++ [(name, .file 0o600 bytes true)])) := by
  have created : (Files.perform .os (.create parent name) : Importing Unit).run (serve suffix)
      world = (.ok (), withEntries world parent mode (entries ++ [(name, .file 0o644 [] false)])) :=
    run_perform (make_run isDir fresh _)
  rw [writePrivate, Program.run_bind created, Program.run_bind (chmod_run isDir fresh 0o600),
    Program.run_bind (write_run isDir fresh bytes), sync_run isDir fresh]
  rfl

theorem lookup_append_of_ne {other : String} (apart : other ≠ name) (node : Node) :
    (entries ++ [(name, node)]).lookup other = entries.lookup other := by
  rw [List.lookup_append, List.lookup_cons, beq_eq_false_iff_ne.mpr apart]
  cases entries.lookup other with
  | none => rfl
  | some node => rfl

mutual

/-- A plain object is copied in whole. -/
theorem copyPrivate_run : ∀ (source : Node) (parent : Path Root) (name : String)
    (world : Disk Root) (mode : Nat) (entries : List (String × Node)) (synced : Bool),
    Plain source → world.find parent = some (.dir mode entries synced) →
      entries.lookup name = none →
        (copyPrivate parent name source).run (serve suffix) world =
          (.ok (), withEntries world parent mode (entries ++ [(name, privateCopy source)]))
  | .link _, _, _, _, _, _, _, plain, _, _ => plain.elim
  | .special, _, _, _, _, _, _, plain, _, _ => plain.elim
  | .file _ bytes _, _, _, _, _, _, _, _, isDir, fresh => writePrivate_run isDir fresh bytes
  | .dir _ children _, parent, name, world, mode, entries, synced, plain, isDir, fresh => by
      have created : (Files.perform .os (.mkdir parent name 0o700) : Importing Unit).run
          (serve suffix) world =
            (.ok (), withEntries world parent mode (entries ++ [(name, .dir 0o700 [] false)])) :=
        run_perform (make_run isDir fresh _)
      have found := find_child_withEntries isDir fresh mode (.dir 0o700 [] false)
      have copied := copyEntries_run children (parent.child name) _ 0o700 [] plain.2 plain.1
        (fun _ _ => rfl) found
      have isCopy : withEntries (withEntries world parent mode
          (entries ++ [(name, .dir 0o700 [] false)])) (parent.child name) 0o700
            ([] ++ privateCopies children) =
          withEntries world parent mode
            (entries ++ [(name, .dir 0o700 (privateCopies children) false)]) :=
        set_child_withEntries isDir fresh _ _
      rw [isCopy] at copied
      rw [copyPrivate, Program.run_bind created, Program.run_bind copied, sync_run isDir fresh]
      rfl

theorem copyEntries_run : ∀ (children : List (String × Node)) (parent : Path Root)
    (world : Disk Root) (mode : Nat) (entries : List (String × Node)),
    PlainEntries children → (children.map (·.1)).Nodup →
      (∀ child ∈ children, entries.lookup child.1 = none) →
        world.find parent = some (.dir mode entries false) →
          (copyEntries parent children).run (serve suffix) world =
            (.ok (), withEntries world parent mode (entries ++ privateCopies children))
  | [], parent, world, mode, entries, _, _, _, isDir => by
      have same : withEntries world parent mode entries = world := Disk.set_find isDir
      rw [privateCopies, List.append_nil, same]
      rfl
  | entry :: rest, parent, world, mode, entries, plain, distinct, fresh, isDir => by
      rw [List.map_cons, List.nodup_cons] at distinct
      have copied := copyEntry_run entry parent world mode entries plain.1
        (fresh entry List.mem_cons_self) isDir
      have found := find_withEntries isDir mode (entries ++ [privateEntry entry])
      have others : ∀ child ∈ rest, (entries ++ [privateEntry entry]).lookup child.1 = none := by
        intro child member
        have apart : child.1 ≠ entry.1 := by
          intro same
          exact distinct.1 (same ▸ List.mem_map_of_mem member)
        obtain ⟨name, node⟩ := entry
        rw [privateEntry, lookup_append_of_ne apart]
        exact fresh child (List.mem_cons_of_mem _ member)
      rw [copyEntries, Program.run_bind copied,
        copyEntries_run rest parent _ mode _ plain.2 distinct.2 others found,
        withEntries_withEntries, List.append_assoc]
      rfl

theorem copyEntry_run : ∀ (entry : String × Node) (parent : Path Root) (world : Disk Root)
    (mode : Nat) (entries : List (String × Node)),
    PlainEntry entry → entries.lookup entry.1 = none →
      world.find parent = some (.dir mode entries false) →
        (copyEntry parent entry).run (serve suffix) world =
          (.ok (), withEntries world parent mode (entries ++ [privateEntry entry]))
  | (name, node), parent, world, mode, entries, plain, fresh, isDir =>
      copyPrivate_run node parent name world mode entries false plain isDir fresh

end

end Copy

/-! ### The whole import -/

section Import

variable {suffix : String} {world here : Disk Root} {index : Nat} {source : Source}
  {fingerprint temporary name : String} {entries : List (String × Node)} {node : Node}
  {mode : Nat} {synced : Bool} {α β : Type}

theorem run_look_bind (path : Path Root) (next : Option Node → Importing α) :
    (Files.perform .os (.look path) >>= next).run (serve suffix) world =
      (next (world.find path)).run (serve suffix) world :=
  Program.run_bind (run_perform rfl)

theorem run_ofExcept_bind {result : Except Failure β} {value : β} (isOk : result = .ok value)
    (next : β → Importing α) : (Program.ofExcept result >>= next).run (serve suffix) world =
      (next value).run (serve suffix) world := by
  rw [isOk]
  rfl

theorem run_raiseIf_bind {condition : Prop} [Decidable condition] (fails : ¬ condition)
    (error : Failure) (next : Unit → Importing α) :
    (Program.raiseIf condition error >>= next).run (serve suffix) world =
      (next ()).run (serve suffix) world := by
  rw [Program.raiseIf, if_neg fails]
  rfl

/-- A part of the preparation, in a directory that has entries already. -/
theorem run_withEntries {program : Importing Unit} {parent : Path Root} {final : List (String × Node)}
    (done : program.run (serve suffix) (withEntries world parent mode entries) =
      (.ok (), withEntries (withEntries world parent mode entries) parent mode final)) :
    program.run (serve suffix) (withEntries world parent mode entries) =
      (.ok (), withEntries world parent mode final) := by
  rw [done, withEntries_withEntries]

theorem copyState_run {parent : Path Root} (isDir : world.find parent = some (.dir 0o700 [] false))
    (state : Option Node) (plain : ∀ node, state = some node → Plain node) :
    (copyState parent state).run (serve suffix) world =
      (.ok (), withEntries world parent 0o700
        (state.map fun node => ("state", privateCopy node)).toList) := by
  cases state with
  | some node => exact copyPrivate_run node parent "state" world 0o700 [] false (plain node rfl) isDir rfl
  | none =>
      have same : withEntries world parent 0o700 [] = world := Disk.set_find isDir
      rw [Option.map_none, Option.toList_none, same]
      rfl

theorem prepare_run (isState : world.find ⟨.checkout index, ["state"]⟩ = source.state)
    (plainState : ∀ node, source.state = some node → Plain node) (plainEnv : Plain source.env) :
    (prepare (.checkout index) source.env fingerprint ⟨.profile, [temporary]⟩).run (serve suffix)
        (emptied world temporary) =
      (.ok (), staged world temporary (.dir 0o700 (stagedEntries source fingerprint) true)) := by
  have noEnv : ((source.state.map fun node => ("state", privateCopy node)).toList).lookup ".env" =
      none := by
    cases source.state with
    | none => rfl
    | some node => rfl
  have noRecord : ((source.state.map fun node => ("state", privateCopy node)).toList ++
      [(".env", privateCopy source.env)]).lookup ".legacy-import.json" = none := by
    cases source.state with
    | none => rfl
    | some node => rfl
  have isStaged : withEntries (emptied world temporary) ⟨.profile, [temporary]⟩ 0o700
      (stagedEntries source fingerprint) =
        staged world temporary (.dir 0o700 (stagedEntries source fingerprint) false) :=
    Disk.set_put _ _ _ _ _
  rw [prepare, run_look_bind, find_emptied_state isState,
    Program.run_bind (copyState_run find_emptied source.state plainState)]
  refine (Program.run_bind (run_withEntries (copyPrivate_run source.env _ ".env" _ _ _ _ plainEnv
    (find_withEntries find_emptied _ _) noEnv))).trans ?_
  refine (Program.run_bind (run_withEntries (writePrivate_run
    (find_withEntries find_emptied _ _) noRecord (provenanceText fingerprint)))).trans ?_
  have found : (withEntries (emptied world temporary) ⟨.profile, [temporary]⟩ 0o700
      (stagedEntries source fingerprint)).find ⟨.profile, [temporary]⟩ =
        some (.dir 0o700 (stagedEntries source fingerprint) false) :=
    find_withEntries find_emptied _ _
  have synced : serve suffix (.sync ⟨.profile, [temporary]⟩)
      (withEntries (emptied world temporary) ⟨.profile, [temporary]⟩ 0o700
        (stagedEntries source fingerprint)) =
      (some (), staged world temporary (.dir 0o700 (stagedEntries source fingerprint) true)) := by
    rw [serve, found, isStaged]
    exact congrArg (Prod.mk (some ())) (Disk.set_put _ _ _ _ _)
  exact run_perform synced

/-- An entry is published. -/
theorem publish_run (found : here.find ⟨.profile, [temporary]⟩ = some (.dir mode entries synced))
    (listed : entries.lookup name = some node) :
    (publish ⟨.profile, [temporary]⟩ name).run (serve suffix) here =
      (.ok (), (renamed here temporary name mode entries node).settle .profile) := by
  have rename : (Files.perform .os (.rename ⟨.profile, [temporary]⟩ name .profile name) :
      Importing Unit).run (serve suffix) here =
        (.ok (), renamed here temporary name mode entries node) := by
    apply run_perform
    rw [serve, found]
    simp only [listed]
    rfl
  rw [publish, Program.run_bind rename]
  exact run_perform rfl

/-- The last two entries are published. -/
theorem publishRecord_run (front : ".legacy-import-".toList <+: temporary.toList)
    (found : here.find ⟨.profile, [temporary]⟩ = some (.dir mode
      [(".env", privateCopy source.env), (".legacy-import.json", recordNode fingerprint)] synced)) :
    ∃ after, (do
      publish ⟨.profile, [temporary]⟩ ".legacy-import.json"
      publish ⟨.profile, [temporary]⟩ ".env" : Importing Unit).run (serve suffix) here =
        (.ok (), after) := by
  have apart := temporary_apart front ".legacy-import.json" (by decide)
  rw [Program.run_bind (publish_run found rfl)]
  exact ⟨_, publish_run (find_renamed found apart _ _) rfl⟩

/-- What was staged is published. -/
theorem publishAll_run (world : Disk Root) (suffix fingerprint : String)
    (front : ".legacy-import-".toList <+: temporary.toList)
    (regular : ∀ node, source.state = some node → isLink (some node) = false) :
    ∃ after, (publishAll ⟨.profile, [temporary]⟩).run (serve suffix)
      (staged world temporary (.dir 0o700 (stagedEntries source fingerprint) true)) =
        (.ok (), after) := by
  have apart := temporary_apart front
  have isDir : (staged world temporary (.dir 0o700 (stagedEntries source fingerprint) true)).find
      ⟨.profile, [temporary]⟩ = some (.dir 0o700 (stagedEntries source fingerprint) true) :=
    Disk.find_put _ _ _ _
  rw [publishAll, run_look_bind, find_staged_state isDir]
  cases isNode : source.state with
  | none =>
      have entries : stagedEntries source fingerprint =
          [(".env", privateCopy source.env), (".legacy-import.json", recordNode fingerprint)] := by
        rw [stagedEntries, isNode]
        rfl
      rw [entries] at isDir ⊢
      exact publishRecord_run front isDir
  | some node =>
      have isPresent : present (some (privateCopy node)) = true :=
        present_privateCopy (regular node isNode)
      have entries : stagedEntries source fingerprint = [("state", privateCopy node),
          (".env", privateCopy source.env), (".legacy-import.json", recordNode fingerprint)] := by
        rw [stagedEntries, isNode]
        rfl
      rw [entries] at isDir ⊢
      rw [Option.map_some, publishState, if_pos isPresent, Program.run_bind (publish_run isDir rfl)]
      exact publishRecord_run front (find_renamed isDir (apart "state" (by decide)) _ _)

theorem withTemporary_run (isState : world.find ⟨.checkout index, ["state"]⟩ = source.state)
    (plainState : ∀ node, source.state = some node → Plain node) (plainEnv : Plain source.env)
    (regular : ∀ node, source.state = some node → isLink (some node) = false)
    (free : (world .profile (".legacy-import-" ++ suffix)).now = none) :
    ∃ after, (withTemporary (stage (.checkout index) source.env fingerprint)).run (serve suffix)
      world = (.ok (), after) := by
  have made : (Files.perform .os (.mkdtemp .profile ".legacy-import-" 0o700) :
      Importing String).run (serve suffix) world =
        (.ok (".legacy-import-" ++ suffix), emptied world (".legacy-import-" ++ suffix)) := by
    apply run_perform
    rw [serve, free, Option.isNone_none, if_pos rfl]
    rfl
  have front : ".legacy-import-".toList <+: (".legacy-import-" ++ suffix).toList := by
    rw [String.toList_append]
    exact List.prefix_append _ _
  obtain ⟨published, isPublished⟩ := publishAll_run world suffix fingerprint front regular
  have body : (stage (.checkout index) source.env fingerprint (".legacy-import-" ++ suffix)).run
      (serve suffix) (emptied world (".legacy-import-" ++ suffix)) = (.ok (), published) :=
    (Program.run_bind (prepare_run isState plainState plainEnv)).trans isPublished
  have attempted : (stage (.checkout index) source.env fingerprint
      (".legacy-import-" ++ suffix)).attempt.run (serve suffix)
        (emptied world (".legacy-import-" ++ suffix)) = (.ok (.ok ()), published) := by
    rw [Program.run_attempt, body]
  have removed : (Files.perform .os (.rmtree .profile (".legacy-import-" ++ suffix)) :
      Importing Unit).run (serve suffix) published =
        (.ok (), published.put .profile (".legacy-import-" ++ suffix) none) := run_perform rfl
  rw [withTemporary, Program.run_bind made, Program.run_bind attempted, Program.run_bind removed]
  exact ⟨_, rfl⟩

/-! ### The fingerprint of a plain source -/

/-- A file or a directory. -/
def Regular : Node → Prop
  | .file _ _ _ => True
  | .dir _ _ _ => True
  | _ => False

theorem Plain.regular {node : Node} (plain : Plain node) : Regular node := by
  cases node with
  | file => exact trivial
  | dir => exact trivial
  | link => exact plain
  | special => exact plain

mutual

theorem regular_descendants : ∀ (node : Node) (front : List String), Plain node →
    ∀ entry ∈ descendants front node, Regular entry.2
  | .file _ _ _, _, _ => nofun
  | .link _, _, plain => plain.elim
  | .special, _, plain => plain.elim
  | .dir _ entries _, front, plain => regular_descendantsOf entries front plain.2

theorem regular_descendantsOf : ∀ (entries : List (String × Node)) (front : List String),
    PlainEntries entries → ∀ entry ∈ descendantsOf front entries, Regular entry.2
  | [], _, _ => nofun
  | first :: rest, front, plain => by
      intro entry member
      rw [descendantsOf, List.mem_append] at member
      rcases member with isFirst | isRest
      · exact regular_entryDescendants first front plain.1 entry isFirst
      · exact regular_descendantsOf rest front plain.2 entry isRest

theorem regular_entryDescendants : ∀ (entry : String × Node) (front : List String),
    PlainEntry entry → ∀ found ∈ entryDescendants front entry, Regular found.2
  | (name, node), front, plain => by
      intro found member
      rw [entryDescendants, List.mem_cons] at member
      rcases member with rfl | below
      · exact Plain.regular plain
      · exact regular_descendants node _ plain found below

end

/-- Files and directories have a message. -/
theorem messageOf_eq_ok : ∀ files : List (List String × Node), (∀ entry ∈ files, Regular entry.2) →
    ∃ message, messageOf files = .ok message
  | [], _ => ⟨[], rfl⟩
  | (_, .link _) :: _, regular => (regular _ List.mem_cons_self).elim
  | (_, .special) :: _, regular => (regular _ List.mem_cons_self).elim
  | (_, .dir _ _ _) :: rest, regular =>
      messageOf_eq_ok rest fun entry member => regular entry (List.mem_cons_of_mem _ member)
  | (names, .file _ bytes _) :: rest, regular => by
      obtain ⟨message, isMessage⟩ := messageOf_eq_ok rest fun entry member =>
        regular entry (List.mem_cons_of_mem _ member)
      refine ⟨fileRecord names bytes ++ message, ?_⟩
      rw [messageOf, isMessage]
      rfl

/-- A source with a plain directory as its state. -/
structure Source.Plain (source : Source) : Prop where
  env : ∃ mode bytes synced, source.env = .file mode bytes synced
  state : ∀ node, source.state = some node →
    Legacy.Plain node ∧ ∃ mode entries synced, node = .dir mode entries synced

theorem Source.Plain.has_fingerprint (plain : source.Plain) :
    ∃ fingerprint, sourceFingerprint source.env source.state = .ok fingerprint := by
  have regular : ∀ entry ∈ sourceFiles source.env source.state, Regular entry.2 := by
    intro entry member
    rw [sourceFiles, List.mem_cons] at member
    rcases member with rfl | below
    · obtain ⟨mode, bytes, synced, isFile⟩ := plain.env
      rw [isFile]
      exact trivial
    · rw [List.mem_insertionSort] at below
      cases isNode : source.state with
      | none =>
          rw [isNode] at below
          cases below
      | some node =>
          rw [isNode] at below
          exact regular_descendants node _ (plain.state node isNode).1 entry below
  obtain ⟨message, isMessage⟩ := messageOf_eq_ok _ regular
  refine ⟨String.ofList (Sha256.hexdigest message), ?_⟩
  cases isNode : source.state with
  | none =>
      rw [isNode] at isMessage
      simp only [sourceFingerprint, isMessage]
      rfl
  | some node =>
      obtain ⟨mode, entries, synced, rfl⟩ := (plain.state node isNode).2
      rw [isNode] at isMessage
      simp only [sourceFingerprint, isMessage]
      rfl

/-! ### Calls that nothing disturbs -/

theorem Source.Plain.unlinked (plain : source.Plain) :
    ∀ node, source.state = some node → isLink (some node) = false := by
  intro node isNode
  obtain ⟨mode, entries, synced, rfl⟩ := (plain.state node isNode).2
  rfl

theorem sourceOf_eq_some {legacy : Root} (isSource : sourceOf world legacy = some source) :
    world.find ⟨legacy, [".env"]⟩ = some source.env ∧
      world.find ⟨legacy, ["state"]⟩ = source.state := by
  rw [sourceOf, Option.map_eq_some_iff] at isSource
  obtain ⟨env, isEnv, rfl⟩ := isSource
  exact ⟨isEnv, rfl⟩

/-- The body of the first call. -/
theorem migrate_run {readers : Readers} {values : Values} (unimported : Unimported world)
    (isSource : sourceOf world (.checkout index) = some source) (plain : source.Plain)
    (managed : managedValues readers source.env = .ok values)
    (free : (world .profile (".legacy-import-" ++ suffix)).now = none) :
    ∃ after, (migrate readers (.checkout index)).run (serve suffix) world = (.ok true, after) := by
  obtain ⟨fingerprint, isFingerprint⟩ := plain.has_fingerprint
  obtain ⟨isEnv, isState⟩ := sourceOf_eq_some isSource
  have plainEnv : Legacy.Plain source.env := by
    obtain ⟨mode, bytes, synced, isFile⟩ := plain.env
    rw [isFile]
    exact trivial
  obtain ⟨noEnv, noState, noRecord⟩ := unimported.bare
  obtain ⟨after, imported⟩ := withTemporary_run isState (fun node isNode => (plain.state node isNode).1)
    plainEnv plain.unlinked free
  have made : (Files.perform .os (.mkdirs .profile) : Importing Unit).run (serve suffix) world =
      (.ok (), world) := run_perform rfl
  have absent : sharedValues readers none = .ok none := rfl
  rw [migrate, Program.run_bind made, run_look_bind, run_look_bind, run_look_bind, noEnv, noState,
    noRecord, run_raiseIf_bind (by decide), run_raiseIf_bind (by decide),
    run_ofExcept_bind absent, run_look_bind, isEnv]
  refine ⟨after, (run_ofExcept_bind managed _).trans ?_⟩
  rw [run_look_bind, isState, run_ofExcept_bind isFingerprint]
  exact Program.run_bind imported

/-- The first call imports the profile. -/
theorem migrateLegacy_run {readers : Readers} {values : Values} (unimported : Unimported world)
    (isSource : sourceOf world (.checkout index) = some source) (plain : source.Plain)
    (managed : managedValues readers source.env = .ok values)
    (free : (world .profile (".legacy-import-" ++ suffix)).now = none) :
    ∃ after, (migrateLegacy readers (some (.checkout index))).run (serve suffix) world =
      (.ok true, after) ∧ Kept world after ∧
        ∃ fingerprint, source.Ready readers fingerprint ∧ Complete source fingerprint after := by
  obtain ⟨after, ran⟩ := migrate_run unimported isSource plain managed free
  have attempted : (migrate readers (.checkout index)).attempt.run (serve suffix) world =
      (.ok (.ok true), after) := by
    rw [Program.run_attempt, ran]
  have executed := executes_run (act_serve suffix) (migrate readers (.checkout index)) world
  rw [ran] at executed
  have left := ((migrate_ensures_of_unimported unimported).of_executes (.inl rfl) executed).2
  obtain ⟨found, fingerprint, isFound, ready, complete⟩ := left.2.1 rfl
  have same : found = source := Option.some.inj (isFound.symm.trans isSource)
  rw [same] at ready complete
  refine ⟨after, ?_, ?_, fingerprint, ready, complete⟩
  · rw [migrateLegacy, Program.run_bind attempted]
    rfl
  · rcases left.1 with rfl | ⟨_, _, _, _, safe⟩
    · exact Kept.refl _
    · exact safe.kept

/-- What `json.load` reads from a provenance record. -/
def recordJson (fingerprint : String) : Json :=
  .obj [(JString.ofString "version", .int 1),
    (JString.ofString "sha256", .str (JString.ofString fingerprint))]

theorem length_fingerprint {env : Node} {state : Option Node}
    (isFingerprint : sourceFingerprint env state = .ok fingerprint) :
    (JString.ofString fingerprint).length = 64 := by
  have isHex : ∃ message, fingerprint = String.ofList (Sha256.hexdigest message) := by
    unfold sourceFingerprint at isFingerprint
    rw [bind_eq_ok] at isFingerprint
    obtain ⟨_, _, isFingerprint⟩ := isFingerprint
    split at isFingerprint
    · cases isFingerprint
    · cases isFingerprint
    · rw [bind_eq_ok] at isFingerprint
      obtain ⟨message, _, isFingerprint⟩ := isFingerprint
      cases isFingerprint
      exact ⟨message, rfl⟩
  obtain ⟨message, rfl⟩ := isHex
  rw [JString.ofString, List.length_map, String.toList_ofList, Sha256.length_hexdigest]

theorem previousSource_recordNode {readers : Readers}
    (reads : readers.loads (provenanceText fingerprint) = .ok (recordJson fingerprint))
    (long : (JString.ofString fingerprint).length = 64) :
    previousSource readers (some (recordNode fingerprint)) =
      .ok (some (JString.ofString fingerprint)) := by
  have version : Record.get [(JString.ofString "version", .int 1),
      (JString.ofString "sha256", .str (JString.ofString fingerprint))] "version" = some (.int 1) :=
    Record.get_cons_self _ _ _
  have sha256 : Record.get [(JString.ofString "version", .int 1),
      (JString.ofString "sha256", .str (JString.ofString fingerprint))] "sha256" =
        some (.str (JString.ofString fingerprint)) := by
    rw [Record.get_cons_of_ne _ _ (by decide), Record.get_cons_self]
  have isOne : (some (Json.int 1)).any (equals · (.int 1)) = true := by decide
  have isPresent : ¬ present (some (.file 0o600 (provenanceText fingerprint) true)) = false :=
    nofun
  rw [recordNode, previousSource, if_neg isPresent, reads]
  simp only [recordJson]
  rw [version, isOne, failIf_of_not (by decide), ok_bind, sha256]
  simp only []
  rw [failIf_of_not (not_not.mpr long), ok_bind]
  rfl

/-- A later call recognises the checkout. -/
theorem migrateLegacy_run_of_complete {readers : Readers} {values : Values}
    (complete : Complete source fingerprint world)
    (isSource : sourceOf world (.checkout index) = some source) (plain : source.Plain)
    (managed : managedValues readers source.env = .ok values)
    (isFingerprint : sourceFingerprint source.env source.state = .ok fingerprint)
    (reads : readers.loads (provenanceText fingerprint) = .ok (recordJson fingerprint)) :
    (migrateLegacy readers (some (.checkout index))).run (serve suffix) world =
      (.ok false, world) := by
  obtain ⟨isEnv, isState⟩ := sourceOf_eq_some isSource
  have atEnv : world.find targetEnv = some (privateCopy source.env) := by
    rw [targetEnv, find_entry, complete.env]
    rfl
  have atState : world.find targetState = source.state.map privateCopy := by
    rw [targetState, find_entry, complete.state]
    rfl
  have atRecord : world.find provenance = some (recordNode fingerprint) := by
    rw [provenance, find_entry, complete.record]
    rfl
  obtain ⟨mode, bytes, synced, isFile⟩ := plain.env
  have sameValues : sharedValues readers (some (privateCopy source.env)) = .ok (some values) := by
    rw [isFile] at managed ⊢
    rw [sharedValues, privateCopy]
    exact congrArg (Except.map some) managed
  have regular : ¬ (isLink (some (privateCopy source.env)) = true ∨
      isLink (source.state.map privateCopy) = true ∨
        isLink (some (recordNode fingerprint)) = true) := by
    rw [isFile]
    rintro (impossible | impossible | impossible)
    · cases impossible
    · cases isNode : source.state with
      | none =>
          rw [isNode] at impossible
          cases impossible
      | some node =>
          obtain ⟨_, _, _, rfl⟩ := (plain.state node isNode).2
          rw [isNode] at impossible
          cases impossible
    · cases impossible
  have configured : ¬ (present (some (privateCopy source.env)) = false ∧
      (present (source.state.map privateCopy) = true ∨
        present (some (recordNode fingerprint)) = true)) := by
    rw [isFile]
    rintro ⟨impossible, _⟩
    cases impossible
  have made : (Files.perform .os (.mkdirs .profile) : Importing Unit).run (serve suffix) world =
      (.ok (), world) := run_perform rfl
  have ran : (migrate readers (.checkout index)).run (serve suffix) world = (.ok false, world) := by
    rw [migrate, Program.run_bind made, run_look_bind, run_look_bind, run_look_bind, atEnv, atState,
      atRecord, run_raiseIf_bind regular, run_raiseIf_bind configured,
      run_ofExcept_bind sameValues, run_look_bind, isEnv]
    refine (run_ofExcept_bind managed _).trans ?_
    rw [run_look_bind, isState, run_ofExcept_bind isFingerprint]
    refine (run_look_bind _ _).trans ?_
    rw [atRecord, run_ofExcept_bind (previousSource_recordNode reads (length_fingerprint isFingerprint)),
      if_pos rfl]
    rfl
  have attempted : (migrate readers (.checkout index)).attempt.run (serve suffix) world =
      (.ok (.ok false), world) := by
    rw [Program.run_attempt, ran]
  rw [migrateLegacy, Program.run_bind attempted]
  rfl

/-- Nothing of a source depends on the profile. -/
theorem sourceOf_congr {after : Disk Root} (same : after (.checkout index) = world (.checkout index)) :
    sourceOf after (.checkout index) = sourceOf world (.checkout index) := by
  have finds : ∀ names, after.find ⟨.checkout index, names⟩ = world.find ⟨.checkout index, names⟩ := by
    intro names
    apply Disk.find_congr
    rintro top isTop
    obtain ⟨name, _, rfl⟩ := Option.map_eq_some_iff.mp isTop
    exact congrArg Slot.now (congrFun same name)
  rw [sourceOf, sourceOf, finds, finds]

/-- On a disk where nothing fails, a managed profile of plain files is imported by the first
call, in whole and durably, and the next call knows it and changes nothing. -/
theorem legacy_import_succeeds {readers : Readers} {values : Values} (unimported : Unimported world)
    (isSource : sourceOf world (.checkout index) = some source) (plain : source.Plain)
    (managed : managedValues readers source.env = .ok values)
    (free : (world .profile (".legacy-import-" ++ suffix)).now = none)
    (reads : ∀ fingerprint, sourceFingerprint source.env source.state = .ok fingerprint →
      readers.loads (provenanceText fingerprint) = .ok (recordJson fingerprint)) :
    ∃ fingerprint after,
      (migrateLegacy readers (some (.checkout index))).run (serve suffix) world = (.ok true, after) ∧
        sourceFingerprint source.env source.state = .ok fingerprint ∧
        Complete source fingerprint after ∧ Kept world after ∧
        (migrateLegacy readers (some (.checkout index))).run (serve suffix) after =
          (.ok false, after) := by
  obtain ⟨after, ran, kept, fingerprint, ready, complete⟩ :=
    migrateLegacy_run unimported isSource plain managed free
  have isSource' := (sourceOf_congr (kept.checkouts index)).trans isSource
  exact ⟨fingerprint, after, ran, ready.isFingerprint, complete, kept,
    migrateLegacy_run_of_complete complete isSource' plain managed ready.isFingerprint
      (reads fingerprint ready.isFingerprint)⟩

end Import

/-! ### A checkout -/

/-- A managed profile with one file in its state. -/
def sampleSource : Source where
  env := .file 0o644 [68] true
  state := some (.dir 0o755 [("identity.json", .file 0o644 [123, 125] true)] true)

/-- The fingerprint that a source has. -/
def fingerprintOf (source : Source) : String :=
  match sourceFingerprint source.env source.state with
  | .ok fingerprint => fingerprint
  | .error _ => ""

def sampleReaders : Readers where
  dotenvValues := fun _ => some [("DOCTA_DEV_MANAGED", some "1")]
  loads := fun _ => .ok (recordJson (fingerprintOf sampleSource))

/-- One checkout has the profile, and nothing is shared yet. -/
def sampleDisk : Disk Root := fun root name =>
  .settled (match root with
    | .checkout 0 =>
        if name = ".env" then some sampleSource.env
        else if name = "state" then sampleSource.state
        else none
    | _ => none)

theorem sampleSource_plain : sampleSource.Plain where
  env := ⟨_, _, _, rfl⟩
  state := by
    rintro node same
    cases same
    exact ⟨⟨by decide, trivial, trivial⟩, _, _, _, rfl⟩

theorem legacy_import_succeeds_of_sample : ∃ fingerprint after,
    (migrateLegacy sampleReaders (some (.checkout 0))).run (serve "0") sampleDisk =
        (.ok true, after) ∧
      sourceFingerprint sampleSource.env sampleSource.state = .ok fingerprint ∧
      Complete sampleSource fingerprint after ∧ Kept sampleDisk after ∧
      (migrateLegacy sampleReaders (some (.checkout 0))).run (serve "0") after =
        (.ok false, after) := by
  have managed : managedValues sampleReaders sampleSource.env =
      .ok [("DOCTA_DEV_MANAGED", some "1")] := by rfl
  apply legacy_import_succeeds ⟨rfl, rfl, rfl⟩ rfl sampleSource_plain managed rfl
  intro fingerprint isFingerprint
  have same : fingerprintOf sampleSource = fingerprint := by
    rw [fingerprintOf, isFingerprint]
  rw [← same]
  rfl

/-- The disk when the first call stops between the state and the environment file. -/
def cutDisk : Disk Root :=
  (Program.play (serve "0") 26 (migrateLegacy sampleReaders (some (.checkout 0))) sampleDisk).2

theorem legacy_import_crash_safe_of_sample :
    cutDisk.find targetEnv = none ∧ (cutDisk .profile "state").now.isSome = true ∧
      CrashSafe sampleReaders sampleDisk ⟨cutDisk, [sampleSource]⟩ := by
  have rest : AtRest sampleDisk := fun _ _ => ⟨none, rfl, nofun⟩
  have call : Event sampleReaders ⟨sampleDisk, []⟩ ⟨cutDisk, [sampleSource]⟩ :=
    .call ⟨sampleDisk, []⟩ 0 _ _ (Program.executes_play (act_serve "0") 26 _ sampleDisk)
  exact ⟨by rfl, by rfl, legacy_import_crash_safe rest ⟨_, rfl, .single call⟩⟩

end Docta.Dev.Legacy
