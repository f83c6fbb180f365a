/-
Module: Docta.Contract.LinearSequence
Purpose: The recognition of a diagram that is one path: the client walks along the
  edges from the only node without an incoming edge.
Trusted boundary: none
Main exports: Step, walk, linearSequence, FormsPath, linearSequence_iff
-/
import Docta.Contract.WebContract
import Docta.Library.Chains

namespace Docta.Contract.Web

open Chains

/-- One step of a sequence as it is shown. -/
structure Step where
  label : JString
  edgeLabel : JString
deriving DecidableEq, Repr

/-! ### The walk -/

section Walking

variable (nodes : List DiagramNode) (edges : List DiagramEdge)

theorem length_unvisited {nodes : List DiagramNode} {current : DiagramNode}
    (member : current ∈ nodes) {visited : List JString} (fresh : current.id ∉ visited) :
    (nodes.filter fun node => node.id ∉ current.id :: visited).length <
      (nodes.filter fun node => node.id ∉ visited).length := by
  have isFilter : (nodes.filter fun node => node.id ∉ current.id :: visited) =
      (nodes.filter fun node => node.id ∉ visited).filter fun node => node.id ≠ current.id := by
    rw [List.filter_filter]
    apply List.filter_congr
    intro node _
    simp only [List.mem_cons, not_or, ne_eq, Bool.decide_and]
  rw [isFilter, List.length_filter_lt_length_iff_exists]
  exact ⟨current, List.mem_filter.mpr ⟨member, decide_eq_true fresh⟩, by simp⟩

/-- The edges that leave a node. -/
def outgoing (id : JString) : List DiagramEdge :=
  edges.filter fun edge => edge.source = id

/-- The edges that enter a node. -/
def incoming (id : JString) : List DiagramEdge :=
  edges.filter fun edge => edge.target = id

/-- The node of an id. -/
def nodeOf (id : JString) : Option DiagramNode :=
  nodes.find? fun node => node.id = id

/-- The loop, entered at a node: the visited ids, the latest first, and the steps;
or nothing where it returns `null`. -/
def walk (current : DiagramNode) (_member : current ∈ nodes) (visited : List JString)
    (steps : List Step) : Option (List JString × List Step) :=
  if _fresh : current.id ∈ visited then some (visited, steps)
  else
    match outgoing edges current.id with
    | [] => some (current.id :: visited, steps ++ [{ label := current.label, edgeLabel := [] }])
    | [next] =>
        if (incoming edges next.target).length ≠ 1 then none
        else
          match found : nodeOf nodes next.target with
          | none =>
              some (current.id :: visited,
                steps ++ [{ label := current.label, edgeLabel := next.label }])
          | some node =>
              walk node (List.mem_of_find?_eq_some found) (current.id :: visited)
                (steps ++ [{ label := current.label, edgeLabel := next.label }])
    | _ :: _ :: _ => none
termination_by (nodes.filter fun node => node.id ∉ visited).length
decreasing_by exact length_unvisited _member _fresh

/-- The nodes without an incoming edge. -/
def starts : List DiagramNode :=
  nodes.filter fun node => ! edges.any fun edge => edge.target = node.id

/-- `linearSequence(nodes, edges)` -/
def linearSequence : Option (List Step) :=
  if edges.length + 1 ≠ nodes.length then none
  else
    match isStart : starts nodes edges with
    | [start] =>
        match walk nodes edges start
            (List.mem_of_mem_filter (isStart ▸ List.mem_singleton_self start)) [] [] with
        | none => none
        | some (visited, steps) => if visited.length = nodes.length then some steps else none
    | _ => none

end Walking

/-! ### Paths -/

/-- The nodes in this order, and the edges between neighbours, are the diagram. -/
structure FormsPath (nodes : List DiagramNode) (edges : List DiagramEdge)
    (order : List DiagramNode) : Prop where
  some : order ≠ []
  nodes : order.Perm nodes
  edges : (edges.map fun edge => (edge.source, edge.target)).Perm (links (order.map (·.id)))

/-- The steps of nodes in order: each with its label and the label of the edge to
the next node. -/
inductive Shown (edges : List DiagramEdge) : List DiagramNode → List Step → Prop where
  | last (node : DiagramNode) : Shown edges [node] [{ label := node.label, edgeLabel := [] }]
  | next {node other : DiagramNode} {rest : List DiagramNode} {steps : List Step}
      {edge : DiagramEdge} (known : edge ∈ edges) (source : edge.source = node.id)
      (target : edge.target = other.id) (shown : Shown edges (other :: rest) steps) :
      Shown edges (node :: other :: rest) ({ label := node.label, edgeLabel := edge.label } :: steps)

section Results

variable {nodes : List DiagramNode} {edges : List DiagramEdge}

/-- The ids at the ends of an edge. -/
def DiagramEdge.ends (edge : DiagramEdge) : JString × JString :=
  (edge.source, edge.target)

/-! ### A path is walked -/

theorem FormsPath.sources {order : List DiagramNode} (path : FormsPath nodes edges order) :
    (edges.map (·.source)).Perm (order.map (·.id)).dropLast := by
  have perm := path.edges.map Prod.fst
  rw [List.map_map, fst_links] at perm
  exact perm

theorem FormsPath.targets {order : List DiagramNode} (path : FormsPath nodes edges order) :
    (edges.map (·.target)).Perm (order.map (·.id)).tail := by
  have perm := path.edges.map Prod.snd
  rw [List.map_map, snd_links] at perm
  exact perm

theorem FormsPath.nodup {order : List DiagramNode} (path : FormsPath nodes edges order)
    (distinct : (nodes.map (·.id)).Nodup) : (order.map (·.id)).Nodup :=
  (path.nodes.map _).nodup_iff.mpr distinct

/-- A path is walked to its end. -/
theorem walk_of_path {order : List DiagramNode} (path : FormsPath nodes edges order)
    (distinct : (nodes.map (·.id)).Nodup) (front : List DiagramNode) {rest : List DiagramNode}
    {current : DiagramNode} (isOrder : order = front ++ current :: rest) (member : current ∈ nodes)
    (steps : List Step) :
    ∃ shown, Shown edges (current :: rest) shown ∧
      walk nodes edges current member (front.map (·.id)).reverse steps =
        some ((order.map (·.id)).reverse, steps ++ shown) := by
  have ids := path.nodup distinct
  have sources : (edges.map (·.source)).Nodup :=
    path.sources.nodup_iff.mpr (ids.sublist (List.dropLast_sublist _))
  have targets : (edges.map (·.target)).Nodup :=
    path.targets.nodup_iff.mpr (ids.sublist (List.tail_sublist _))
  induction rest generalizing front current steps with
  | nil =>
      have idsOrder : order.map (·.id) = front.map (·.id) ++ [current.id] := by
        rw [isOrder, List.map_append]
        rfl
      rw [idsOrder] at ids
      have fresh : current.id ∉ front.map (·.id) := by
        rw [List.nodup_append] at ids
        intro inFront
        exact ids.2.2 _ inFront _ (List.mem_singleton_self _) rfl
      have absent : current.id ∉ edges.map (·.source) := by
        rw [path.sources.mem_iff, idsOrder, List.dropLast_concat]
        exact fresh
      refine ⟨_, .last current, ?_⟩
      rw [walk, dif_neg (by rw [List.mem_reverse]; exact fresh), outgoing, filter_key_absent absent]
      simp only
      rw [idsOrder, List.reverse_append]
      rfl
  | cons other rest ih =>
      have idsOrder : order.map (·.id) =
          front.map (·.id) ++ current.id :: other.id :: rest.map (·.id) := by
        rw [isOrder, List.map_append]
        rfl
      have fresh : current.id ∉ front.map (·.id) := by
        rw [idsOrder, List.nodup_append] at ids
        intro inFront
        exact ids.2.2 _ inFront _ List.mem_cons_self rfl
      have linked : (current.id, other.id) ∈ links (order.map (·.id)) := by
        rw [idsOrder]
        exact mem_links_append _ _ _ _
      obtain ⟨edge, known, isEdge⟩ := List.mem_map.mp (path.edges.mem_iff.mpr linked)
      obtain ⟨source, target⟩ := Prod.mk.inj isEdge
      have otherMember : other ∈ nodes := by
        rw [← path.nodes.mem_iff, isOrder]
        simp
      obtain ⟨shown, isShown, walked⟩ := ih (front ++ [current])
        (by rw [isOrder, List.append_assoc]; rfl) otherMember
        (steps ++ [{ label := current.label, edgeLabel := edge.label }])
      refine ⟨_, .next known source target isShown, ?_⟩
      have leaves : outgoing edges current.id = [edge] := by
        rw [← source]
        exact filter_key sources known
      have enters : incoming edges edge.target = [edge] := filter_key targets known
      have next : nodeOf nodes edge.target = some other := by
        rw [target]
        exact find?_key distinct otherMember
      rw [walk, dif_neg (by rw [List.mem_reverse]; exact fresh), leaves]
      simp only
      rw [enters, if_neg (by simp)]
      split
      · rename_i absent
        rw [next] at absent
        cases absent
      · rename_i node found
        have same : node = other := Option.some.inj (found.symm.trans next)
        subst same
        rw [List.map_append, List.reverse_append] at walked
        have appended : steps ++ { label := current.label, edgeLabel := edge.label } :: shown =
            steps ++ [{ label := current.label, edgeLabel := edge.label }] ++ shown :=
          List.append_cons _ _ _
        rw [appended]
        exact walked

/-! ### What is walked is a path -/

/-- What a run of the loop visited: distinct nodes, each linked to the next one by
an edge. -/
theorem walk_chain {current : DiagramNode} {member : current ∈ nodes} {visited : List JString}
    {steps : List Step} {found : List JString × List Step}
    (ok : walk nodes edges current member visited steps = some found) :
    ∃ path : List DiagramNode, found.1 = (path.map (·.id)).reverse ++ visited ∧
      (∀ node ∈ path, node ∈ nodes) ∧ (visited.Nodup → found.1.Nodup) ∧
        (path = [] ∨ ∃ rest, path = current :: rest) ∧
          ∃ chosen : List DiagramEdge, (∀ edge ∈ chosen, edge ∈ edges) ∧
            chosen.map DiagramEdge.ends = links (path.map (·.id)) := by
  fun_induction walk nodes edges current member visited steps with
  | case1 current member visited steps isVisited =>
      cases ok
      exact ⟨[], rfl, by simp, id, .inl rfl, [], by simp, rfl⟩
  | case2 current member visited steps fresh noEdge =>
      cases ok
      refine ⟨[current], rfl, by simpa using member, ?_, .inr ⟨[], rfl⟩, [], by simp, rfl⟩
      exact fun distinct => List.nodup_cons.mpr ⟨fresh, distinct⟩
  | case3 => cases ok
  | case4 current member visited steps fresh next oneEdge single absent =>
      cases ok
      refine ⟨[current], rfl, by simpa using member, ?_, .inr ⟨[], rfl⟩, [], by simp, rfl⟩
      exact fun distinct => List.nodup_cons.mpr ⟨fresh, distinct⟩
  | case5 current member visited steps fresh next oneEdge single node isNode ih =>
      obtain ⟨path, isVisited, known, distinct, front, chosen, chosenKnown, isLinks⟩ := ih ok
      have nextMember : next ∈ outgoing edges current.id := by
        rw [oneEdge]
        exact List.mem_singleton_self next
      obtain ⟨nextKnown, nextSource⟩ := List.mem_filter.mp nextMember
      have source : next.source = current.id := of_decide_eq_true nextSource
      have target : node.id = next.target := by simpa using List.find?_some isNode
      refine ⟨current :: path, ?_, List.forall_mem_cons.mpr ⟨member, known⟩, ?_, .inr ⟨path, rfl⟩, ?_⟩
      · rw [isVisited, List.map_cons, List.reverse_cons, List.append_assoc]
        rfl
      · exact fun visitedDistinct => distinct (List.nodup_cons.mpr ⟨fresh, visitedDistinct⟩)
      · rcases front with rfl | ⟨rest, rfl⟩
        · exact ⟨[], by simp, rfl⟩
        · refine ⟨next :: chosen, List.forall_mem_cons.mpr ⟨nextKnown, chosenKnown⟩, ?_⟩
          rw [List.map_cons, isLinks, DiagramEdge.ends, source, ← target]
          rfl
  | case6 => cases ok

/-- A walk that visits all nodes of a diagram with one edge fewer is a path. -/
theorem formsPath_of_walk {start : DiagramNode} {member : start ∈ nodes}
    {visited : List JString} {steps : List Step}
    (ok : walk nodes edges start member [] [] = some (visited, steps))
    (count : edges.length + 1 = nodes.length) (all : visited.length = nodes.length) :
    ∃ order, FormsPath nodes edges order := by
  obtain ⟨path, isVisited, known, distinct, _, chosen, chosenKnown, isLinks⟩ := walk_chain ok
  simp only [List.append_nil] at isVisited
  have ids : (path.map (·.id)).Nodup := by
    rw [← List.nodup_reverse, ← isVisited]
    exact distinct List.nodup_nil
  have size : path.length = nodes.length := by
    rw [← all, isVisited, List.length_reverse, List.length_map]
  have chosenSize : chosen.length = edges.length := by
    rw [← List.length_map DiagramEdge.ends, isLinks, length_links, List.length_map, size]
    omega
  have sources : (chosen.map (·.source)).Nodup := by
    have isSources : chosen.map (·.source) = (chosen.map DiagramEdge.ends).map Prod.fst := by
      rw [List.map_map]
      rfl
    rw [isSources, isLinks, fst_links]
    exact ids.sublist (List.dropLast_sublist _)
  refine ⟨path, ?_, perm_of_keys ids known (Nat.le_of_eq size.symm), ?_⟩
  · rintro rfl
    simp only [List.length_nil] at size
    omega
  · have all : chosen.Perm edges := perm_of_keys sources chosenKnown (Nat.le_of_eq chosenSize.symm)
    have ends := (all.map DiagramEdge.ends).symm
    rw [isLinks] at ends
    exact ends

/-- A path has one node without an incoming edge, its first. -/
theorem starts_of_path {first : DiagramNode} {rest : List DiagramNode}
    (path : FormsPath nodes edges (first :: rest)) (distinct : (nodes.map (·.id)).Nodup) :
    starts nodes edges = [first] := by
  have ids := path.nodup distinct
  rw [List.map_cons, List.nodup_cons] at ids
  have entered (node : DiagramNode) :
      (! edges.any fun edge => edge.target = node.id) = decide (node.id ∉ rest.map (·.id)) := by
    have isTarget : node.id ∈ edges.map (·.target) ↔ node.id ∈ rest.map (·.id) :=
      path.targets.mem_iff
    rw [Bool.not_eq_eq_eq_not, ← decide_not, Bool.eq_iff_iff, List.any_eq_true, decide_eq_true_iff,
      not_not, ← isTarget, List.mem_map]
    simp only [decide_eq_true_eq]
  have perm : (starts nodes edges).Perm [first] := by
    have filtered := path.nodes.symm.filter fun node => ! edges.any fun edge => edge.target = node.id
    have others : (rest.filter fun node => ! edges.any fun edge => edge.target = node.id) = [] := by
      apply List.filter_eq_nil_iff.mpr
      intro node member
      rw [entered, decide_eq_true_iff, not_not]
      exact List.mem_map_of_mem member
    have isFirst : (! edges.any fun edge => edge.target = first.id) = true := by
      rw [entered, decide_eq_true_iff]
      exact ids.1
    rw [List.filter_cons, if_pos isFirst, others] at filtered
    exact filtered
  exact List.perm_singleton.mp perm

theorem linearSequence_of_path {order : List DiagramNode} (path : FormsPath nodes edges order)
    (distinct : (nodes.map (·.id)).Nodup) :
    ∃ steps, linearSequence nodes edges = some steps ∧ Shown edges order steps := by
  cases order with
  | nil => exact absurd rfl path.some
  | cons first rest =>
      have isStart := starts_of_path path distinct
      have member : first ∈ nodes := path.nodes.mem_iff.mp List.mem_cons_self
      have size : edges.length + 1 = nodes.length := by
        have count := path.edges.length_eq
        rw [List.length_map, length_links, List.length_map] at count
        rw [count, ← path.nodes.length_eq]
        rfl
      obtain ⟨shown, isShown, walked⟩ := walk_of_path path distinct [] rfl member []
      refine ⟨shown, ?_, isShown⟩
      rw [linearSequence, if_neg (by omega)]
      split
      · rename_i start isSingle
        have same : first = start := by
          rw [isStart] at isSingle
          exact (List.cons.inj isSingle).1
        subst same
        have visited : ((first :: rest).map (·.id)).reverse.length = nodes.length := by
          rw [List.length_reverse, List.length_map, path.nodes.length_eq]
        rw [List.map_nil, List.reverse_nil] at walked
        simp only [walked, visited, if_true, List.nil_append]
      · rename_i noStart
        exact absurd isStart (noStart first)

/-- A diagram is recognized exactly when it is one path through all its nodes along
all its edges, and then it is shown in the order of the path. -/
theorem linearSequence_iff (distinct : (nodes.map (·.id)).Nodup) :
    ((linearSequence nodes edges).isSome = true ↔ ∃ order, FormsPath nodes edges order) ∧
      ∀ order, FormsPath nodes edges order →
        ∃ steps, linearSequence nodes edges = some steps ∧ Shown edges order steps := by
  refine ⟨⟨fun recognized => ?_, ?_⟩, fun order path => linearSequence_of_path path distinct⟩
  · rw [linearSequence] at recognized
    split at recognized
    · cases recognized
    · rename_i count
      split at recognized
      · split at recognized
        · cases recognized
        · rename_i start isStart visited steps walked
          split at recognized
          · rename_i all
            exact formsPath_of_walk walked (by omega) all
          · cases recognized
      · cases recognized
  · rintro ⟨order, path⟩
    obtain ⟨steps, isSteps, _⟩ := linearSequence_of_path path distinct
    rw [isSteps]
    rfl

/-- Two nodes given in the other order than the path. -/
def sampleNodes : List DiagramNode :=
  [{ id := "b", label := [] }, { id := "a", label := [] }]

theorem linearSequence_iff_of_sample :
    (sampleNodes.map (·.id)).Nodup ∧
      ((linearSequence sampleNodes [{ source := "a", target := "b", label := [] }]).isSome =
          true ↔
        ∃ order, FormsPath sampleNodes [{ source := "a", target := "b", label := [] }] order) :=
  ⟨by decide +kernel, (linearSequence_iff (by decide +kernel)).1⟩

/-- A diagram in which two nodes point at each other and a third stands apart. -/
example :
    linearSequence [⟨"a", []⟩, ⟨"b", []⟩, ⟨"c", []⟩] [⟨"a", "b", []⟩, ⟨"b", "a", []⟩] = none := by
  decide +kernel

end Results

end Docta.Contract.Web
