/-
Module: Docta.Dev.LegacyCopy
Purpose: The private copy of an import: when it succeeds it is complete, synced and nobody
  else's to read, and whatever happens nothing changes outside the directory it is
  made in.
Trusted boundary: as in `LegacyImport`
Main exports: privateCopy, Below, Leaves, writePrivate_ensures, copyPrivate_ensures,
  ensures_look_bind
-/
import Docta.Dev.LegacyImport

namespace Docta.Dev.Legacy

open Contract Fallible Files Program

/-! ### The private copy -/

mutual

/-- A synced copy that nobody else can read. -/
def privateCopy : Node → Node
  | .file _ bytes _ => .file 0o600 bytes true
  | .dir _ entries _ => .dir 0o700 (privateCopies entries) true
  | node => node

def privateCopies : List (String × Node) → List (String × Node)
  | [] => []
  | entry :: rest => privateEntry entry :: privateCopies rest

def privateEntry : String × Node → String × Node
  | (name, node) => (name, privateCopy node)

end

mutual

theorem stable_privateCopy : ∀ node, (privateCopy node).stable = true
  | .file _ _ _ => rfl
  | .dir _ entries _ => by
      rw [privateCopy, Node.stable, stable_privateCopies entries]
      rfl
  | .link _ => rfl
  | .special => rfl

theorem stable_privateCopies : ∀ entries, Node.stableEntries (privateCopies entries) = true
  | [] => rfl
  | entry :: rest => by
      rw [privateCopies, Node.stableEntries, stable_privateEntry entry, stable_privateCopies rest]
      rfl

theorem stable_privateEntry : ∀ entry, Node.stableEntry (privateEntry entry) = true
  | (_, node) => stable_privateCopy node

end

section Copy

variable {world : Disk Root} {parent : Path Root} {mode : Nat} {entries : List (String × Node)}
  {synced : Bool} {name : String}

/-- Nothing changed but what is below a path. -/
def Below (world : Disk Root) (path : Path Root) (after : Disk Root) : Prop :=
  ∃ node, after = world.set path node

theorem Below.refl {node : Node} (known : world.find parent = some node) :
    Below world parent world :=
  ⟨node, (Disk.set_find known).symm⟩

theorem Below.set (world : Disk Root) (path : Path Root) (node : Node) :
    Below world path (world.set path node) :=
  ⟨node, rfl⟩

theorem Below.trans {between after : Disk Root} {path : Path Root}
    (first : Below world path between) (second : Below between path after) :
    Below world path after := by
  obtain ⟨node, rfl⟩ := first
  obtain ⟨other, rfl⟩ := second
  exact ⟨other, Disk.set_set world path node other⟩

/-- The disk after some entries of a directory were made. -/
def withEntries (world : Disk Root) (parent : Path Root) (mode : Nat)
    (entries : List (String × Node)) : Disk Root :=
  world.set parent (.dir mode entries false)

theorem find_withEntries {node : Node} (known : world.find parent = some node) (mode : Nat)
    (entries : List (String × Node)) :
    (withEntries world parent mode entries).find parent = some (.dir mode entries false) :=
  Disk.find_set (by rw [known]; rfl) _

theorem withEntries_withEntries {other : List (String × Node)} {otherMode : Nat} :
    withEntries (withEntries world parent otherMode other) parent mode entries =
      withEntries world parent mode entries :=
  Disk.set_set world parent _ _

theorem lookup_append_self (fresh : entries.lookup name = none) (node : Node) :
    (entries ++ [(name, node)]).lookup name = some node := by
  rw [List.lookup_append, fresh, List.lookup_cons, beq_self_eq_true]
  rfl

/-- Changing the entry that was made last. -/
theorem set_child_withEntries {known : Node} (isKnown : world.find parent = some known)
    (fresh : entries.lookup name = none) (node value : Node) :
    (withEntries world parent mode (entries ++ [(name, node)])).set (parent.child name) value =
      withEntries world parent mode (entries ++ [(name, value)]) := by
  rw [Disk.set_child (find_withEntries isKnown _ _), Node.set,
    Node.alter_append_singleton (Node.set value []) fresh]
  exact withEntries_withEntries

theorem find_child_withEntries {known : Node} (isKnown : world.find parent = some known)
    (fresh : entries.lookup name = none) (mode : Nat) (node : Node) :
    (withEntries world parent mode (entries ++ [(name, node)])).find (parent.child name) =
      some node := by
  rw [Disk.find_child (find_withEntries isKnown _ _), Node.get, lookup_append_self fresh]
  rfl

/-- What a program leaves that makes entries of a directory: all of them when it succeeds. -/
def Leaves {α : Type} (world : Disk Root) (parent : Path Root) (mode : Nat)
    (entries : List (String × Node)) (result : Except Failure α) (after : Disk Root) : Prop :=
  match result with
  | .ok _ => after = withEntries world parent mode entries
  | .error _ => Below world parent after

/-- The rule of an effect on the entry that was made last. -/
theorem ensures_child {node value : Node} {known : Node} {effect : Files.Effect Root}
    (isKnown : world.find parent = some known) (fresh : entries.lookup name = none)
    (does : ∀ answer after, Does effect
      (withEntries world parent mode (entries ++ [(name, node)])) answer after →
        after = (withEntries world parent mode (entries ++ [(name, node)])).set (parent.child name)
          value)
    (fails : ∀ after, Fails effect
      (withEntries world parent mode (entries ++ [(name, node)])) after →
        after = withEntries world parent mode (entries ++ [(name, node)]) ∨
          ∃ left, after = (withEntries world parent mode (entries ++ [(name, node)])).set
            (parent.child name) left) :
    Ensures Files.act (Below world parent) (Leaves world parent mode (entries ++ [(name, value)]))
      (Files.perform .os effect) (withEntries world parent mode (entries ++ [(name, node)])) := by
  have below : ∀ value, Below world parent
      (withEntries world parent mode (entries ++ [(name, value)])) := fun _ => Below.set _ _ _
  apply ensures_perform
  · intro answer after done
    rw [does answer after done, set_child_withEntries isKnown fresh]
    exact ⟨below value, rfl⟩
  · intro after undone
    rcases fails after undone with rfl | ⟨left, rfl⟩
    · exact ⟨below node, below node⟩
    · rw [set_child_withEntries isKnown fresh]
      exact ⟨below left, below left⟩

/-- One program after the other. -/
theorem ensures_leaves_bind {α β : Type} {program : Importing α} {next : α → Importing β}
    {here : Disk Root} {between final : List (String × Node)}
    (first : Ensures Files.act (Below world parent) (Leaves world parent mode between) program here)
    (second : ∀ value, Ensures Files.act (Below world parent) (Leaves world parent mode final) (next value)
      (withEntries world parent mode between)) :
    Ensures Files.act (Below world parent) (Leaves world parent mode final) (program >>= next) here := by
  apply first.bind
  · intro error after below
    exact below
  · rintro value after rfl
    exact second value

/-- What the making of an entry leaves. -/
def Made {α : Type} (world : Disk Root) (parent : Path Root) (mode : Nat)
    (entries : List (String × Node)) (name : String) (kind : Node → Prop)
    (result : Except Failure α) (after : Disk Root) : Prop :=
  match result with
  | .ok _ => entries.lookup name = none ∧ ∃ made, kind made ∧
      after = withEntries world parent mode (entries ++ [(name, made)])
  | .error _ => Below world parent after

/-- A new entry. -/
theorem ensures_make {kind : Node → Prop} {effect : Files.Effect Root}
    (isDir : world.find parent = some (.dir mode entries synced))
    (does : ∀ answer after, Does effect world answer after →
      ∃ made, Makes world parent name made after ∧ kind made)
    (fails : ∀ after, Fails effect world after → after = world) :
    Ensures Files.act (Below world parent) (Made world parent mode entries name kind)
      (Files.perform .os effect) world := by
  apply ensures_perform
  · intro answer after done
    obtain ⟨made, ⟨other, others, isSynced, found, fresh, rfl⟩, isKind⟩ := does answer after done
    rw [isDir] at found
    cases found
    exact ⟨Below.set _ _ _, fresh, made, isKind, rfl⟩
  · intro after undone
    rw [fails after undone]
    exact ⟨Below.refl isDir, Below.refl isDir⟩

theorem ensures_create (isDir : world.find parent = some (.dir mode entries synced))
    (name : String) : Ensures Files.act (Below world parent)
      (Made world parent mode entries name fun made => ∃ own, made = .file own [] false)
      (Files.perform .os (.create parent name)) world := by
  apply ensures_make isDir
  · rintro answer after ⟨own, makes⟩
    exact ⟨_, makes, own, rfl⟩
  · exact fun after undone => undone

theorem ensures_mkdir (isDir : world.find parent = some (.dir mode entries synced))
    (name : String) (own : Nat) : Ensures Files.act (Below world parent)
      (Made world parent mode entries name (· = .dir own [] false))
      (Files.perform .os (.mkdir parent name own)) world := by
  apply ensures_make isDir
  · exact fun answer after makes => ⟨_, makes, rfl⟩
  · exact fun after undone => undone

section Child

variable {node known : Node} {bytes other : List UInt8} {own : Nat}

theorem ensures_chmod (isKnown : world.find parent = some known)
    (fresh : entries.lookup name = none) (new : Nat) :
    Ensures Files.act (Below world parent)
      (Leaves world parent mode (entries ++ [(name, .file new bytes synced)]))
      (Files.perform .os (.chmod (parent.child name) new))
      (withEntries world parent mode (entries ++ [(name, .file own bytes synced)])) := by
  have found := find_child_withEntries isKnown fresh mode (.file own bytes synced)
  apply ensures_child isKnown fresh
  · rintro answer after ⟨_, _, _, isFile, rfl⟩
    rw [found] at isFile
    cases isFile
    rfl
  · exact fun after undone => .inl undone

theorem ensures_write (isKnown : world.find parent = some known)
    (fresh : entries.lookup name = none) (bytes : List UInt8) :
    Ensures Files.act (Below world parent)
      (Leaves world parent mode (entries ++ [(name, .file own bytes false)]))
      (Files.perform .os (.write (parent.child name) bytes))
      (withEntries world parent mode (entries ++ [(name, .file own other synced)])) := by
  have found := find_child_withEntries isKnown fresh mode (.file own other synced)
  apply ensures_child isKnown fresh
  · rintro answer after ⟨_, _, _, isFile, rfl⟩
    rw [found] at isFile
    cases isFile
    rfl
  · rintro after (undone | ⟨_, _, _, written, _, rfl⟩)
    · exact .inl undone
    · exact .inr ⟨_, rfl⟩

theorem ensures_sync (isKnown : world.find parent = some known)
    (fresh : entries.lookup name = none) (node : Node) :
    Ensures Files.act (Below world parent)
      (Leaves world parent mode (entries ++ [(name, node.sync)]))
      (Files.perform .os (.sync (parent.child name)))
      (withEntries world parent mode (entries ++ [(name, node)])) := by
  have found := find_child_withEntries isKnown fresh mode node
  apply ensures_child isKnown fresh
  · rintro answer after ⟨_, isNode, rfl⟩
    rw [found] at isNode
    cases isNode
    rfl
  · exact fun after undone => .inl undone

end Child

/-- A private file is written in whole when it succeeds. -/
theorem writePrivate_ensures (isDir : world.find parent = some (.dir mode entries synced))
    (name : String) (bytes : List UInt8) :
    Ensures Files.act (Below world parent)
      (Leaves world parent mode (entries ++ [(name, .file 0o600 bytes true)]))
      (writePrivate parent name bytes) world := by
  apply (ensures_create isDir name).bind
  · exact fun error after below => below
  · rintro _ after ⟨fresh, made, ⟨own, rfl⟩, rfl⟩
    apply ensures_leaves_bind (ensures_chmod isDir fresh 0o600)
    intro _
    apply ensures_leaves_bind (ensures_write isDir fresh bytes)
    intro _
    exact ensures_sync isDir fresh _

/-- What happens below an entry of a directory happens below the directory. -/
theorem Below.of_child {after : Disk Root} {node known : Node}
    (isKnown : world.find parent = some known) (fresh : entries.lookup name = none)
    (below : Below (withEntries world parent mode (entries ++ [(name, node)]))
      (parent.child name) after) :
    ∃ left, after = withEntries world parent mode (entries ++ [(name, left)]) := by
  obtain ⟨left, rfl⟩ := below
  exact ⟨left, set_child_withEntries isKnown fresh node left⟩

mutual

/-- A copy is complete, synced and private when it succeeds, and in any case nothing else
changed. -/
theorem copyPrivate_ensures : ∀ (source : Node) (parent : Path Root) (name : String)
    (world : Disk Root) (mode : Nat) (entries : List (String × Node)) (synced : Bool),
    world.find parent = some (.dir mode entries synced) →
      Ensures Files.act (Below world parent)
        (Leaves world parent mode (entries ++ [(name, privateCopy source)]))
        (copyPrivate parent name source) world
  | .link _, _, _, _, _, _, _, isDir => Below.refl isDir
  | .special, _, _, _, _, _, _, isDir => Below.refl isDir
  | .file _ bytes _, _, name, _, _, _, _, isDir => writePrivate_ensures isDir name bytes
  | .dir _ children _, parent, name, world, mode, entries, synced, isDir => by
      apply (ensures_mkdir isDir name 0o700).bind
      · exact fun error after below => below
      · rintro _ after ⟨fresh, _, rfl, rfl⟩
        have found := find_child_withEntries isDir fresh mode (.dir 0o700 [] false)
        have copies := copyEntries_ensures children (parent.child name) _ 0o700 [] found
        have made : Ensures Files.act (Below world parent)
            (Leaves world parent mode
              (entries ++ [(name, .dir 0o700 (privateCopies children) false)]))
            (copyEntries (parent.child name) children)
            (withEntries world parent mode (entries ++ [(name, .dir 0o700 [] false)])) := by
          apply copies.mono
          · intro after below
            obtain ⟨left, rfl⟩ := Below.of_child isDir fresh below
            exact Below.set _ _ _
          · intro result after left
            cases result with
            | ok _ =>
                have isAfter : after = withEntries _ (parent.child name) 0o700 _ := left
                rw [isAfter, withEntries, set_child_withEntries isDir fresh]
                rfl
            | error _ =>
                obtain ⟨left, rfl⟩ := Below.of_child isDir fresh left
                exact Below.set _ _ _
        apply ensures_leaves_bind made
        intro _
        exact ensures_sync isDir fresh _

theorem copyEntries_ensures : ∀ (children : List (String × Node)) (parent : Path Root)
    (world : Disk Root) (mode : Nat) (entries : List (String × Node)),
    world.find parent = some (.dir mode entries false) →
      Ensures Files.act (Below world parent)
        (Leaves world parent mode (entries ++ privateCopies children))
        (copyEntries parent children) world
  | [], parent, world, mode, entries, isDir => by
      have same : world = withEntries world parent mode entries := (Disk.set_find isDir).symm
      rw [privateCopies, List.append_nil]
      exact same
  | entry :: rest, parent, world, mode, entries, isDir => by
      apply ensures_leaves_bind (copyEntry_ensures entry parent world mode entries isDir)
      intro _
      have found := find_withEntries isDir mode (entries ++ [privateEntry entry])
      apply (copyEntries_ensures rest parent _ mode _ found).mono
      · exact fun after below => (Below.set _ _ _).trans below
      · intro result after left
        cases result with
        | ok _ =>
            have isAfter : after = withEntries _ parent mode _ := left
            rw [isAfter, withEntries_withEntries, List.append_assoc]
            rfl
        | error _ => exact (Below.set _ _ _).trans left

theorem copyEntry_ensures : ∀ (entry : String × Node) (parent : Path Root) (world : Disk Root)
    (mode : Nat) (entries : List (String × Node)),
    world.find parent = some (.dir mode entries false) →
      Ensures Files.act (Below world parent) (Leaves world parent mode (entries ++ [privateEntry entry]))
        (copyEntry parent entry) world
  | (name, node), parent, world, mode, entries, isDir =>
      copyPrivate_ensures node parent name world mode entries false isDir

end

end Copy

/-! ### Rules -/

section Rules

variable {α β : Type} {world : Disk Root} {during : Disk Root → Prop}
  {final : Except Failure α → Disk Root → Prop}

/-- An effect that leaves the disk alone, and what comes after it. -/
theorem ensures_bind_of_unchanged {effect : Files.Effect Root} {next : Answer effect → Importing α}
    (answers : Answer effect → Prop) (here : during world) (failed : final (.error .os) world)
    (does : ∀ answer after, Does effect world answer after → after = world ∧ answers answer)
    (fails : ∀ after, Fails effect world after → after = world)
    (rest : ∀ answer, answers answer → Ensures Files.act during final (next answer) world) :
    Ensures Files.act during final (Files.perform .os effect >>= next) world := by
  have effected : Ensures Files.act during
      (fun (result : Except Failure (Answer effect)) after => after = world ∧ match result with
        | .ok answer => answers answer
        | .error error => error = .os)
      (Files.perform .os effect) world := by
    apply ensures_perform
    · intro answer after done
      obtain ⟨rfl, isAnswer⟩ := does answer after done
      exact ⟨here, rfl, isAnswer⟩
    · intro after undone
      obtain rfl := fails after undone
      exact ⟨here, rfl, rfl⟩
  apply effected.bind
  · rintro error after ⟨rfl, rfl⟩
    exact failed
  · rintro answer after ⟨rfl, isAnswer⟩
    exact rest answer isAnswer

theorem ensures_look_bind {path : Path Root} {next : Option Node → Importing α}
    (here : during world) (failed : final (.error .os) world)
    (rest : Ensures Files.act during final (next (world.find path)) world) :
    Ensures Files.act during final (Files.perform .os (.look path) >>= next) world := by
  apply ensures_bind_of_unchanged (· = world.find path) here failed
  · exact fun answer after done => done
  · exact fun after undone => undone
  · rintro answer rfl
    exact rest

theorem ensures_mkdirs_bind {root : Root} {next : Unit → Importing α} (here : during world)
    (failed : final (.error .os) world) (rest : Ensures Files.act during final (next ()) world) :
    Ensures Files.act during final (Files.perform .os (.mkdirs root) >>= next) world := by
  apply ensures_bind_of_unchanged (fun _ => True) here failed
  · exact fun answer after done => ⟨done, trivial⟩
  · exact fun after undone => undone
  · exact fun _ _ => rest

theorem ensures_ofExcept_bind {result : Except Failure β} {next : β → Importing α}
    (failed : ∀ error, result = .error error → final (.error error) world)
    (rest : ∀ value, result = .ok value → Ensures Files.act during final (next value) world) :
    Ensures Files.act during final (Program.ofExcept result >>= next) world := by
  cases result with
  | ok value => exact rest value rfl
  | error error => exact failed error rfl

theorem ensures_raiseIf_bind {condition : Prop} [Decidable condition] {error : Failure}
    {next : Unit → Importing α} (failed : condition → final (.error error) world)
    (rest : ¬ condition → Ensures Files.act during final (next ()) world) :
    Ensures Files.act during final (Program.raiseIf condition error >>= next) world := by
  by_cases holds : condition
  · rw [Program.raiseIf, if_pos holds]
    exact failed holds
  · rw [Program.raiseIf, if_neg holds]
    exact rest holds

end Rules

end Docta.Dev.Legacy
