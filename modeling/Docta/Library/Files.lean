/-
Module: Docta.Library.Files
Purpose: Directory trees that lose what was not synced. Every file and every directory
  says whether its content is on stable storage, every entry of a top directory
  remembers what storage still has under its name, and a crash keeps either the one
  or the other.
Trusted boundary: an entry is made, replaced or removed as a whole; a crash keeps what
  was synced
Main exports: Node, Slot, Disk, Disk.find, Disk.set, Effect, act, Disk.Survives
-/
import Docta.Library.Program

namespace Docta.Files

/-- An object of a file system, with its mode and whether its content was synced. -/
inductive Node where
  | file (mode : Nat) (bytes : List UInt8) (synced : Bool)
  | dir (mode : Nat) (entries : List (String × Node)) (synced : Bool)
  | link (dangling : Bool)
  | special

instance : Inhabited Node := ⟨.special⟩

namespace Node

mutual

/-- Everything in it was synced. -/
def stable : Node → Bool
  | .file _ _ synced => synced
  | .dir _ entries synced => synced && stableEntries entries
  | .link _ => true
  | .special => true

def stableEntries : List (String × Node) → Bool
  | [] => true
  | entry :: rest => stableEntry entry && stableEntries rest

def stableEntry : String × Node → Bool
  | (_, node) => node.stable

end

/-- The object with its own content synced. -/
def sync : Node → Node
  | .file mode bytes _ => .file mode bytes true
  | .dir mode entries _ => .dir mode entries true
  | node => node

/-- The object at the end of a path. -/
def get : List String → Node → Option Node
  | [], node => some node
  | name :: rest, .dir _ entries _ => (entries.lookup name).bind (get rest)
  | _ :: _, _ => none

/-- The entries with the first one of a name changed. -/
def alter (name : String) (change : Node → Node) : List (String × Node) → List (String × Node)
  | [] => []
  | entry :: rest =>
      if entry.1 = name then (entry.1, change entry.2) :: rest else entry :: alter name change rest

/-- The tree with another object at the end of a path. -/
def set (value : Node) : List String → Node → Node
  | [], _ => value
  | name :: rest, .dir mode entries synced => .dir mode (alter name (set value rest) entries) synced
  | _ :: _, node => node

section Paths

variable {name : String} {entries : List (String × Node)} {path rest : List String}
  {node value found : Node}

theorem lookup_alter (change : Node → Node) (other : String) :
    (alter name change entries).lookup other =
      if other = name then (entries.lookup name).map change else entries.lookup other := by
  induction entries with
  | nil => simp [alter]
  | cons entry entries inductionHypothesis =>
      obtain ⟨key, child⟩ := entry
      rw [alter]
      by_cases isName : key = name
      · subst isName
        by_cases same : other = key
        · simp [same]
        · simp [same, List.lookup_cons, beq_eq_false_iff_ne.mpr same]
      · rw [if_neg isName, List.lookup_cons, List.lookup_cons, List.lookup_cons,
          inductionHypothesis, beq_eq_false_iff_ne.mpr (Ne.symm isName)]
        by_cases same : other = name
        · simp [same, beq_eq_false_iff_ne.mpr (Ne.symm isName)]
        · rw [if_neg same, if_neg same]

/-- Only what happens to the first entry matters. -/
theorem alter_congr {change other : Node → Node} (known : entries.lookup name = some node)
    (same : change node = other node) : alter name change entries = alter name other entries := by
  induction entries with
  | nil => cases known
  | cons entry entries inductionHypothesis =>
      obtain ⟨key, child⟩ := entry
      rw [alter, alter]
      by_cases isName : key = name
      · rw [if_pos isName, if_pos isName]
        rw [List.lookup_cons, isName, beq_self_eq_true] at known
        cases known
        rw [same]
      · rw [List.lookup_cons, beq_eq_false_iff_ne.mpr (Ne.symm isName)] at known
        rw [if_neg isName, if_neg isName, inductionHypothesis known]

theorem alter_alter (change other : Node → Node) :
    alter name change (alter name other entries) = alter name (change ∘ other) entries := by
  induction entries with
  | nil => rfl
  | cons entry entries inductionHypothesis =>
      rw [alter, alter]
      by_cases isName : entry.1 = name
      · rw [if_pos isName, alter, if_pos isName, if_pos isName]
        rfl
      · rw [if_neg isName, alter, if_neg isName, if_neg isName, inductionHypothesis]

theorem alter_of_lookup (known : entries.lookup name = some node) :
    alter name (fun _ => node) entries = entries := by
  induction entries with
  | nil => rfl
  | cons entry entries inductionHypothesis =>
      obtain ⟨key, child⟩ := entry
      rw [alter]
      by_cases isName : key = name
      · rw [List.lookup_cons, isName, beq_self_eq_true] at known
        cases known
        rw [if_pos isName]
      · rw [List.lookup_cons, beq_eq_false_iff_ne.mpr (Ne.symm isName)] at known
        rw [if_neg isName, inductionHypothesis known]

/-- Changing the entry that was added last. -/
theorem alter_append_singleton (change : Node → Node) (fresh : entries.lookup name = none)
    (child : Node) :
    alter name change (entries ++ [(name, child)]) = entries ++ [(name, change child)] := by
  induction entries with
  | nil => simp [alter]
  | cons entry entries inductionHypothesis =>
      obtain ⟨key, other⟩ := entry
      rw [List.lookup_cons] at fresh
      by_cases isName : name = key
      · rw [isName, beq_self_eq_true] at fresh
        cases fresh
      · rw [beq_eq_false_iff_ne.mpr isName] at fresh
        rw [List.cons_append, alter, if_neg (Ne.symm isName), inductionHypothesis fresh,
          List.cons_append]

theorem get_append (path rest : List String) (node : Node) :
    get (path ++ rest) node = (get path node).bind (get rest) := by
  induction path generalizing node with
  | nil => rfl
  | cons name path inductionHypothesis =>
      cases node with
      | dir mode entries synced =>
          rw [List.cons_append, get, get]
          cases entries.lookup name with
          | none => rfl
          | some child => exact inductionHypothesis child
      | _ => rfl

theorem get_set (known : (get path node).isSome = true) (value : Node) :
    get path (set value path node) = some value := by
  induction path generalizing node with
  | nil => rfl
  | cons name path inductionHypothesis =>
      cases node with
      | dir mode entries synced =>
          rw [get] at known
          rw [set, get, lookup_alter, if_pos rfl]
          cases isChild : entries.lookup name with
          | none =>
              rw [isChild] at known
              cases known
          | some child =>
              rw [isChild] at known
              exact inductionHypothesis known
      | _ => cases known

theorem set_set (path : List String) (value other node : Node) :
    set value path (set other path node) = set value path node := by
  induction path generalizing node with
  | nil => rfl
  | cons name path inductionHypothesis =>
      cases node with
      | dir mode entries synced =>
          rw [set, set, set, alter_alter]
          congr 1
          exact congrArg (alter name · entries) (funext fun child => inductionHypothesis child)
      | _ => rfl

/-- Putting back what is there changes nothing. -/
theorem set_get (known : get path node = some found) : set found path node = node := by
  induction path generalizing node with
  | nil =>
      cases known
      rfl
  | cons name path inductionHypothesis =>
      cases node with
      | dir mode entries synced =>
          rw [get, Option.bind_eq_some_iff] at known
          obtain ⟨child, isChild, inChild⟩ := known
          rw [set]
          have kept : alter name (set found path) entries = alter name (fun _ => child) entries :=
            alter_congr isChild (inductionHypothesis inChild)
          rw [kept, alter_of_lookup isChild]
      | _ => rfl

/-- A change below an object is a change of the object. -/
theorem set_append (known : get path node = some found) (value : Node) (rest : List String) :
    set value (path ++ rest) node = set (set value rest found) path node := by
  induction path generalizing node with
  | nil =>
      cases known
      rfl
  | cons name path inductionHypothesis =>
      cases node with
      | dir mode entries synced =>
          rw [get, Option.bind_eq_some_iff] at known
          obtain ⟨child, isChild, inChild⟩ := known
          rw [List.cons_append, set, set, alter_congr isChild (inductionHypothesis inChild)]
      | _ => cases known

end Paths

end Node

/-! ### Disks -/

/-- An entry of a top directory: what is there, and what storage still has there. -/
inductive Slot where
  | settled (node : Option Node)
  | pending (old now : Option Node)

namespace Slot

def now : Slot → Option Node
  | .settled node => node
  | .pending _ now => now

/-- What storage has. -/
def old : Slot → Option Node
  | .settled node => node
  | .pending old _ => old

/-- A change inside of the entry. -/
def edit (change : Node → Node) : Slot → Slot
  | .settled node => .settled (node.map change)
  | .pending old now => .pending old (now.map change)

@[simp] theorem now_edit (change : Node → Node) (slot : Slot) :
    (slot.edit change).now = slot.now.map change := by
  cases slot <;> rfl

/-- What a crash may make of an object: what was not synced is lost. -/
def Survivor (before after : Option Node) : Prop :=
  after = before ∨ ∃ node, before = some node ∧ node.stable = false

/-- What a crash may make of an entry. -/
def Survives (slot after : Slot) : Prop :=
  ∃ node, after = .settled node ∧ (Survivor slot.old node ∨ Survivor slot.now node)

end Slot

/-- The top directories. -/
abbrev Disk (ρ : Type) : Type := ρ → String → Slot

structure Path (ρ : Type) where
  root : ρ
  names : List String
deriving DecidableEq, Repr

/-- The entry of a top directory that a path goes through. -/
def Path.top {ρ : Type} (path : Path ρ) : Option (ρ × String) :=
  path.names.head?.map (path.root, ·)

/-- The path of an entry of a directory. -/
def Path.child {ρ : Type} (path : Path ρ) (name : String) : Path ρ :=
  ⟨path.root, path.names ++ [name]⟩

namespace Disk

variable {ρ : Type} [DecidableEq ρ]

def update (disk : Disk ρ) (root : ρ) (name : String) (slot : Slot) : Disk ρ :=
  fun other entry => if other = root ∧ entry = name then slot else disk other entry

/-- The object at a path. -/
def find (disk : Disk ρ) : Path ρ → Option Node
  | ⟨_, []⟩ => none
  | ⟨root, name :: rest⟩ => (disk root name).now.bind (Node.get rest)

/-- The disk with another object at a path. -/
def set (disk : Disk ρ) : Path ρ → Node → Disk ρ
  | ⟨_, []⟩, _ => disk
  | ⟨root, name :: rest⟩, value =>
      disk.update root name ((disk root name).edit (Node.set value rest))

/-- An entry of a top directory made, replaced or removed. -/
def put (disk : Disk ρ) (root : ρ) (name : String) (value : Option Node) : Disk ρ :=
  disk.update root name (.pending (disk root name).old value)

/-- The entries of a top directory synced. -/
def settle (disk : Disk ρ) (root : ρ) : Disk ρ :=
  fun other entry => if other = root then .settled (disk other entry).now else disk other entry

/-- What a crash may make of a disk. -/
def Survives (disk after : Disk ρ) : Prop :=
  ∀ root name, (disk root name).Survives (after root name)

section Paths

variable {disk : Disk ρ} {root : ρ} {path : Path ρ} {name : String} {node value found : Node}

@[simp] theorem update_self (disk : Disk ρ) (root : ρ) (name : String) (slot : Slot) :
    disk.update root name slot root name = slot :=
  if_pos ⟨rfl, rfl⟩

theorem update_of_ne {other : ρ} {entry : String} (apart : (other, entry) ≠ (root, name))
    (disk : Disk ρ) (slot : Slot) : disk.update root name slot other entry = disk other entry := by
  apply if_neg
  rwa [← Prod.mk.injEq]

theorem update_update (disk : Disk ρ) (root : ρ) (name : String) (first second : Slot) :
    (disk.update root name first).update root name second = disk.update root name second := by
  funext other entry
  unfold update
  split
  · rfl
  · rfl

theorem update_eq_self (same : disk root name = slot) : disk.update root name slot = disk := by
  funext other entry
  unfold update
  split
  · next isEntry => rw [isEntry.1, isEntry.2, same]
  · rfl

theorem set_apply_of_ne {other : ρ} {entry : String} (apart : some (other, entry) ≠ path.top)
    (disk : Disk ρ) (value : Node) : disk.set path value other entry = disk other entry := by
  match path, apart with
  | ⟨_, []⟩, _ => rfl
  | ⟨root, name :: rest⟩, apart => exact update_of_ne (fun same => apart (congrArg some same)) disk _

theorem find_set (known : (disk.find path).isSome = true) (value : Node) :
    (disk.set path value).find path = some value := by
  match path, known with
  | ⟨root, name :: rest⟩, known =>
      rw [Disk.find, Option.isSome_bind] at known
      rw [set, Disk.find, update_self, Slot.now_edit]
      cases isNow : (disk root name).now with
      | none =>
          rw [isNow] at known
          cases known
      | some node =>
          rw [isNow] at known
          exact Node.get_set known value

theorem set_set (disk : Disk ρ) (path : Path ρ) (first second : Node) :
    (disk.set path first).set path second = disk.set path second := by
  match path with
  | ⟨_, []⟩ => rfl
  | ⟨root, name :: rest⟩ =>
      rw [set, set, set, update_self, update_update]
      congr 1
      cases disk root name with
      | settled node => cases node <;> simp [Slot.edit, Node.set_set]
      | pending old now => cases now <;> simp [Slot.edit, Node.set_set]

theorem set_find (known : disk.find path = some node) : disk.set path node = disk := by
  match path, known with
  | ⟨root, name :: rest⟩, known =>
      rw [Disk.find, Option.bind_eq_some_iff] at known
      obtain ⟨top, isTop, inTop⟩ := known
      rw [set]
      apply update_eq_self
      cases isSlot : disk root name with
      | settled node =>
          rw [isSlot, Slot.now] at isTop
          rw [isTop, Slot.edit, Option.map_some, Node.set_get inTop]
      | pending old now =>
          rw [isSlot, Slot.now] at isTop
          rw [isTop, Slot.edit, Option.map_some, Node.set_get inTop]

/-- A change of an entry of a directory is a change of the directory. -/
theorem set_child (known : disk.find path = some found) (name : String) (value : Node) :
    disk.set (path.child name) value = disk.set path (Node.set value [name] found) := by
  match path, known with
  | ⟨root, first :: rest⟩, known =>
      rw [Disk.find, Option.bind_eq_some_iff] at known
      obtain ⟨top, isTop, inTop⟩ := known
      rw [Path.child, List.cons_append, set, set]
      congr 1
      cases isSlot : disk root first with
      | settled node =>
          rw [isSlot, Slot.now] at isTop
          rw [isTop, Slot.edit, Slot.edit, Option.map_some, Option.map_some,
            Node.set_append inTop]
      | pending old now =>
          rw [isSlot, Slot.now] at isTop
          rw [isTop, Slot.edit, Slot.edit, Option.map_some, Option.map_some,
            Node.set_append inTop]

omit [DecidableEq ρ] in
theorem find_child (known : disk.find path = some found) (name : String) :
    disk.find (path.child name) = found.get [name] := by
  match path, known with
  | ⟨root, first :: rest⟩, known =>
      rw [Disk.find, Option.bind_eq_some_iff] at known
      obtain ⟨top, isTop, inTop⟩ := known
      rw [Path.child, List.cons_append, Disk.find, isTop, Option.bind_some, Node.get_append, inTop,
        Option.bind_some]

theorem put_self (disk : Disk ρ) (root : ρ) (name : String) (value : Option Node) :
    disk.put root name value root name = .pending (disk root name).old value :=
  update_self disk root name _

theorem put_apply_of_ne {other : ρ} {entry : String} (apart : (other, entry) ≠ (root, name))
    (disk : Disk ρ) (value : Option Node) : disk.put root name value other entry = disk other entry :=
  update_of_ne apart disk _

theorem find_put (disk : Disk ρ) (root : ρ) (name : String) (value : Node) :
    (disk.put root name (some value)).find ⟨root, [name]⟩ = some value := by
  rw [Disk.find, put_self]
  rfl

theorem set_put (disk : Disk ρ) (root : ρ) (name : String) (first second : Node) :
    (disk.put root name (some first)).set ⟨root, [name]⟩ second =
      disk.put root name (some second) := by
  rw [set, put_self, put, put, update_update]
  rfl

omit [DecidableEq ρ] in
theorem find_congr {other : Disk ρ} (same : ∀ top, path.top = some top →
    (disk top.1 top.2).now = (other top.1 top.2).now) : disk.find path = other.find path := by
  match path, same with
  | ⟨_, []⟩, _ => rfl
  | ⟨root, name :: rest⟩, same =>
      rw [Disk.find, Disk.find]
      exact congrArg (·.bind (Node.get rest)) (same (root, name) rfl)

@[simp] theorem now_settle (disk : Disk ρ) (root other : ρ) (entry : String) :
    (disk.settle root other entry).now = (disk other entry).now := by
  unfold settle
  split
  · rfl
  · rfl

theorem settle_apply (disk : Disk ρ) (root : ρ) (entry : String) :
    disk.settle root root entry = .settled (disk root entry).now :=
  if_pos rfl

theorem settle_apply_of_ne {other : ρ} (apart : other ≠ root) (disk : Disk ρ) (entry : String) :
    disk.settle root other entry = disk other entry :=
  if_neg apart

theorem find_settle (disk : Disk ρ) (root : ρ) (path : Path ρ) :
    (disk.settle root).find path = disk.find path :=
  find_congr fun top _ => now_settle disk root top.1 top.2

end Paths

end Disk

/-! ### Effects -/

/-- What a program does to the disk; every effect may fail. -/
inductive Effect (ρ : Type) where
  /-- make sure that a top directory is there -/
  | mkdirs (root : ρ)
  /-- everything at a path -/
  | look (path : Path ρ)
  /-- a new directory -/
  | mkdir (parent : Path ρ) (name : String) (mode : Nat)
  /-- a new empty file -/
  | create (parent : Path ρ) (name : String)
  | chmod (path : Path ρ) (mode : Nat)
  /-- the content of a file -/
  | write (path : Path ρ) (bytes : List UInt8)
  /-- `fsync` of a file or a directory -/
  | sync (path : Path ρ)
  /-- `fsync` of a top directory -/
  | syncTop (root : ρ)
  /-- an entry of a directory becomes an entry of a top directory, whatever was there -/
  | rename (parent : Path ρ) (name : String) (root : ρ) (target : String)
  /-- a new entry of a top directory, of a name that starts as asked -/
  | mkdtemp (root : ρ) (front : String) (mode : Nat)
  /-- an entry of a top directory with all that is in it -/
  | rmtree (root : ρ) (name : String)

/-- What an effect answers when it does not fail. -/
@[reducible] def Answer {ρ : Type} : Effect ρ → Type
  | .look _ => Option Node
  | .mkdtemp _ _ _ => String
  | _ => Unit

@[reducible] def Reply {ρ : Type} (effect : Effect ρ) : Type :=
  Option (Answer effect)

section Effects

variable {ρ : Type} [DecidableEq ρ]

/-- A new entry of a directory. -/
def Makes (before : Disk ρ) (parent : Path ρ) (name : String) (value : Node) (after : Disk ρ) :
    Prop :=
  ∃ mode entries synced, before.find parent = some (.dir mode entries synced) ∧
    entries.lookup name = none ∧
      after = before.set parent (.dir mode (entries ++ [(name, value)]) false)

/-- What an effect does when it does not fail. -/
def Does : (effect : Effect ρ) → Disk ρ → Answer effect → Disk ρ → Prop
  | .mkdirs _, before, _, after => after = before
  | .look path, before, found, after => after = before ∧ found = before.find path
  | .mkdir parent name mode, before, _, after => Makes before parent name (.dir mode [] false) after
  | .create parent name, before, _, after =>
      ∃ mode, Makes before parent name (.file mode [] false) after
  | .chmod path mode, before, _, after => ∃ other bytes synced,
      before.find path = some (.file other bytes synced) ∧
        after = before.set path (.file mode bytes synced)
  | .write path bytes, before, _, after => ∃ mode other synced,
      before.find path = some (.file mode other synced) ∧
        after = before.set path (.file mode bytes false)
  | .sync path, before, _, after => ∃ node, before.find path = some node ∧
      after = before.set path node.sync
  | .syncTop root, before, _, after => after = before.settle root
  | .rename parent name root target, before, _, after => ∃ mode entries synced node,
      before.find parent = some (.dir mode entries synced) ∧ entries.lookup name = some node ∧
        after = (before.set parent (.dir mode (entries.filter (·.1 ≠ name)) false)).put root target
          (some node)
  | .mkdtemp root front mode, before, name, after =>
      front.toList <+: name.toList ∧ (before root name).now = none ∧
        after = before.put root name (some (.dir mode [] false))
  | .rmtree root name, before, _, after => after = before.put root name none

/-- What an effect that fails may have done: a write may be half done, and so may a
removal. -/
def Fails : Effect ρ → Disk ρ → Disk ρ → Prop
  | .write path _, before, after => after = before ∨ ∃ mode other synced bytes,
      before.find path = some (.file mode other synced) ∧
        after = before.set path (.file mode bytes false)
  | .rmtree root name, before, after => ∃ left, after = before.put root name left
  | _, before, after => after = before

def act : Program.Action (Effect ρ) Reply (Disk ρ) := fun effect before reply after =>
  match reply with
  | some answer => Does effect before answer after
  | none => Fails effect before after

/-- A new entry, unless the name is taken. -/
def make (disk : Disk ρ) (parent : Path ρ) (name : String) (value : Node) : Option Unit × Disk ρ :=
  match disk.find parent with
  | some (.dir mode entries _) =>
      if (entries.lookup name).isNone then
        (some (), disk.set parent (.dir mode (entries ++ [(name, value)]) false))
      else (none, disk)
  | _ => (none, disk)

/-- A disk on which nothing fails without need; temporary names end as given. -/
def serve (suffix : String) : (effect : Effect ρ) → Disk ρ → Reply effect × Disk ρ
  | .mkdirs _, disk => (some (), disk)
  | .look path, disk => (some (disk.find path), disk)
  | .mkdir parent name mode, disk => make disk parent name (.dir mode [] false)
  | .create parent name, disk => make disk parent name (.file 0o644 [] false)
  | .chmod path mode, disk =>
      match disk.find path with
      | some (.file _ bytes synced) => (some (), disk.set path (.file mode bytes synced))
      | _ => (none, disk)
  | .write path bytes, disk =>
      match disk.find path with
      | some (.file mode _ _) => (some (), disk.set path (.file mode bytes false))
      | _ => (none, disk)
  | .sync path, disk =>
      match disk.find path with
      | some node => (some (), disk.set path node.sync)
      | none => (none, disk)
  | .syncTop root, disk => (some (), disk.settle root)
  | .rename parent name root target, disk =>
      match disk.find parent with
      | some (.dir mode entries _) =>
          match entries.lookup name with
          | some node =>
              (some (), (disk.set parent (.dir mode (entries.filter (·.1 ≠ name)) false)).put root
                target (some node))
          | none => (none, disk)
      | _ => (none, disk)
  | .mkdtemp root front mode, disk =>
      if (disk root (front ++ suffix)).now.isNone then
        (some (front ++ suffix), disk.put root (front ++ suffix) (some (.dir mode [] false)))
      else (none, disk)
  | .rmtree root name, disk => (some (), disk.put root name none)

/-- What is made is new. -/
theorem make_cases (disk : Disk ρ) (parent : Path ρ) (name : String) (value : Node) :
    ((make disk parent name value).1 = some () ∧
      Makes disk parent name value (make disk parent name value).2) ∨
    ((make disk parent name value).1 = none ∧ (make disk parent name value).2 = disk) := by
  unfold make
  split
  · next mode entries synced found =>
      split
      · next fresh =>
          exact .inl ⟨rfl, mode, entries, synced, found, Option.isNone_iff_eq_none.mp fresh, rfl⟩
      · exact .inr ⟨rfl, rfl⟩
  · exact .inr ⟨rfl, rfl⟩

theorem act_of_does {effect : Effect ρ} {before after : Disk ρ} {reply : Reply effect}
    {answer : Answer effect} (replied : reply = some answer)
    (does : Does effect before answer after) : act effect before reply after := by
  rw [replied]
  exact does

theorem act_of_fails {effect : Effect ρ} {before after : Disk ρ} {reply : Reply effect}
    (replied : reply = none) (fails : Fails effect before after) :
    act effect before reply after := by
  rw [replied]
  exact fails

/-- Such a disk does what a disk may do. -/
theorem act_serve (suffix : String) (effect : Effect ρ) (disk : Disk ρ) :
    act effect disk (serve suffix effect disk).1 (serve suffix effect disk).2 := by
  cases effect with
  | mkdirs root => exact rfl
  | look path => exact ⟨rfl, rfl⟩
  | mkdir parent name mode =>
      rcases make_cases disk parent name (.dir mode [] false) with ⟨done, makes⟩ | ⟨failed, same⟩
      · exact act_of_does done makes
      · exact act_of_fails failed same
  | create parent name =>
      rcases make_cases disk parent name (.file 0o644 [] false) with ⟨done, makes⟩ | ⟨failed, same⟩
      · exact act_of_does done ⟨0o644, makes⟩
      · exact act_of_fails failed same
  | chmod path mode =>
      rw [serve]
      split
      · next other bytes synced found => exact ⟨other, bytes, synced, found, rfl⟩
      · exact rfl
  | write path bytes =>
      rw [serve]
      split
      · next mode other synced found => exact ⟨mode, other, synced, found, rfl⟩
      · exact .inl rfl
  | sync path =>
      rw [serve]
      split
      · next node found => exact ⟨node, found, rfl⟩
      · exact rfl
  | syncTop root => exact rfl
  | rename parent name root target =>
      rw [serve]
      split
      · next mode entries synced found =>
          split
          · next node listed => exact ⟨mode, entries, synced, node, found, listed, rfl⟩
          · exact rfl
      · exact rfl
  | mkdtemp root front mode =>
      rw [serve]
      split
      · next fresh =>
          refine ⟨?_, Option.isNone_iff_eq_none.mp fresh, rfl⟩
          rw [String.toList_append]
          exact List.prefix_append _ _
      · exact rfl
  | rmtree root name => exact rfl

variable {Error : Type}

/-- An effect whose failure is raised. -/
def perform (error : Error) (effect : Effect ρ) : Program (Effect ρ) Reply Error (Answer effect) :=
  .perform effect fun reply =>
    match reply with
    | some answer => .ret answer
    | none => .raise error

/-- The rule of an effect. -/
theorem ensures_perform {during : Disk ρ → Prop} {error : Error} {effect : Effect ρ}
    {outcome : Except Error (Answer effect) → Disk ρ → Prop} {world : Disk ρ}
    (does : ∀ answer after, Does effect world answer after →
      during after ∧ outcome (.ok answer) after)
    (fails : ∀ after, Fails effect world after → during after ∧ outcome (.error error) after) :
    Program.Ensures act during outcome (perform error effect) world := by
  intro reply after acted
  cases reply with
  | some answer => exact does answer after acted
  | none => exact fails after acted

end Effects

end Docta.Files
