import Mathlib.Logic.Relation
import StaticScheduling.Problem.Digraph

/-! # Searching for cycles

A node under way stays pending below everything that is reached from it.  So when
it is finished, each of its targets is finished as well or leads back to it, and
an edge that leads backward in the list of finished nodes starts on a cycle.
Searching against the edges in that order visits a second node only over such an
edge; if it never does, every node has only finitely many predecessors, one
before the other.
-/

namespace StaticScheduling

namespace Digraph

open Relation (ReflTransGen TransGen)

variable {Label : Type} {graph : Digraph Label}

/-- Some edge leads from one node to the other. -/
def Adjacent (graph : Digraph Label) (source target : Nat) : Prop :=
  ∃ edge ∈ graph.edges, edge.source = source ∧ edge.target = target

/-- A number of edges, maybe none, lead from one node to the other. -/
def Leads (graph : Digraph Label) : Nat → Nat → Prop := ReflTransGen graph.Adjacent

/-- At least one edge is needed to come back to the node. -/
def OnCycle (graph : Digraph Label) (node : Nat) : Prop := TransGen graph.Adjacent node node

/-- The edges lead from nodes of the graph to nodes of the graph. -/
def Bounded (graph : Digraph Label) : Prop :=
  ∀ edge ∈ graph.edges, edge.source < graph.size ∧ edge.target < graph.size

theorem Bounded.source_lt (bounded : graph.Bounded) {source target : Nat}
    (adjacent : graph.Adjacent source target) : source < graph.size := by
  obtain ⟨edge, member, rfl, _⟩ := adjacent
  exact (bounded edge member).1

theorem Bounded.target_lt (bounded : graph.Bounded) {source target : Nat}
    (adjacent : graph.Adjacent source target) : target < graph.size := by
  obtain ⟨edge, member, _, rfl⟩ := adjacent
  exact (bounded edge member).2

@[simp] theorem mem_targets {node target : Nat} :
    target ∈ graph.targets node ↔ graph.Adjacent node target := by
  simp [targets, Adjacent, and_assoc]

@[simp] theorem mem_sources {node source : Nat} :
    source ∈ graph.sources node ↔ graph.Adjacent source node := by
  simp only [sources, Adjacent, List.mem_map, List.mem_filter, decide_eq_true_eq, and_assoc]
  exact exists_congr fun edge => and_congr_right fun _ => And.comm

@[simp] theorem mem_remove {node other : Nat} {nodes : List Nat} :
    other ∈ remove node nodes ↔ other ∈ nodes ∧ other ≠ node := by
  simp [remove]

/-! ## The search along the edges -/

section Search

variable {state : Search} {node : Nat} {below : List Nat}

theorem search_of_empty (empty : state.pending = []) : graph.search state = .ok state := by
  rw [search]
  split
  · rfl
  · rename_i top
    cases empty.symm.trans top

theorem search_of_unseen (top : state.pending = node :: below) (unseen : node ∈ state.unseen) :
    graph.search state =
      if node ∈ graph.targets node then .error node
      else graph.search (state.discover graph node) := by
  rw [search]
  split
  · rename_i empty
    cases empty.symm.trans top
  · rename_i split
    cases top.symm.trans split
    rw [dif_pos unseen]

theorem search_of_seen (top : state.pending = node :: below) (seen : node ∉ state.unseen) :
    graph.search state = graph.search (state.finish node below) := by
  rw [search]
  split
  · rename_i empty
    cases empty.symm.trans top
  · rename_i split
    cases top.symm.trans split
    rw [dif_neg seen]

end Search

namespace Search

theorem not_mem_unseen_discover {state : Search} {node other : Nat} :
    other ∉ (state.discover graph node).unseen ↔ other = node ∨ other ∉ state.unseen := by
  rw [discover, mem_remove]
  by_cases same : other = node
  · simp [same]
  · simp [same]

theorem mem_finish {state : Search} {node other : Nat} {below : List Nat} :
    other ∈ (state.finish node below).finished ↔ other = node ∨ other ∈ state.finished := by
  unfold finish
  by_cases before : node ∈ state.finished
  · rw [if_pos before, or_iff_right_of_imp]
    rintro rfl
    exact before
  · rw [if_neg before, List.mem_cons]

/-- What holds at every step of a search that meets no edge from a node to itself. -/
structure Sound (graph : Digraph Label) (state : Search) : Prop where
  seen : ∀ node < graph.size, node ∉ state.unseen → node ∈ state.finished ∨ node ∈ state.pending
  loopless : ∀ node < graph.size, node ∉ state.unseen → ¬ graph.Adjacent node node
  settled : ∀ node ∈ state.finished, ∀ target, graph.Adjacent node target →
    target ∈ state.finished ∨ graph.Leads target node
  ordered : state.finished.Pairwise fun later earlier =>
    graph.Adjacent earlier later → graph.Leads later earlier
  /-- A node under way, where it is pending for the first time. -/
  underWay : ∀ above node below, state.pending = above ++ node :: below → node ∉ above →
    node ∉ state.unseen → node ∉ state.finished →
      (∀ other ∈ above, graph.Leads node other) ∧
      ∀ target, graph.Adjacent node target →
        target ∈ above ∨ target ∈ state.finished ∨ graph.Leads target node

variable {state result : Search} {node : Nat} {below : List Nat}

/-- Where a node that is not in front stands for the first time. -/
theorem split_behind {front pending above rest : List Nat}
    (split : front ++ pending = above ++ node :: rest) (absent : node ∉ front) :
    ∃ between, above = front ++ between ∧ pending = between ++ node :: rest := by
  rcases List.append_eq_append_iff.mp split with ⟨between, before, behind⟩ | ⟨between, before, behind⟩
  · exact ⟨between, before, behind⟩
  · cases between with
    | nil => exact ⟨[], by simpa using before.symm, by simpa using behind.symm⟩
    | cons first between =>
      cases behind
      exact absurd (before ▸ List.mem_append_right _ List.mem_cons_self) absent

/-- A target of a node that is seen next is pending above it then, is finished, or leads to it. -/
theorem Sound.target_of_discover (sound : Sound graph state) (bounded : graph.Bounded)
    (top : state.pending = node :: below) (loopless : ¬ graph.Adjacent node node) {target : Nat}
    (adjacent : graph.Adjacent node target) :
    target ∈ (graph.targets node).filter (· ∈ remove node state.unseen) ∨
      target ∈ state.finished ∨ graph.Leads target node := by
  have different : target ≠ node := by
    rintro rfl
    exact loopless adjacent
  by_cases unseen : target ∈ state.unseen
  · left
    simp [adjacent, unseen, different]
  right
  by_cases finished : target ∈ state.finished
  · exact .inl finished
  -- the target is under way, and the node on top is pending above it
  right
  have pending := (sound.seen target (bounded.target_lt adjacent) unseen).resolve_left finished
  obtain ⟨above, rest, split, first⟩ := List.eq_append_cons_of_mem pending
  obtain ⟨reached, _⟩ := sound.underWay above target rest split first unseen finished
  cases above with
  | nil =>
    cases top.symm.trans split
    exact absurd rfl different
  | cons head above =>
    cases top.symm.trans split
    exact reached node List.mem_cons_self

theorem Sound.discover (sound : Sound graph state) (bounded : graph.Bounded)
    (top : state.pending = node :: below) (loopless : ¬ graph.Adjacent node node) :
    Sound graph (state.discover graph node) where
  seen := by
    intro other inside seen
    rcases not_mem_unseen_discover.mp seen with rfl | before
    · exact .inr (List.mem_append_right _ (top ▸ List.mem_cons_self))
    · exact (sound.seen other inside before).imp_right (List.mem_append_right _)
  loopless := by
    intro other inside seen
    rcases not_mem_unseen_discover.mp seen with rfl | before
    · exact loopless
    · exact sound.loopless other inside before
  settled := sound.settled
  ordered := sound.ordered
  underWay := by
    intro above other rest split first seen unfinished
    have reached : ∀ target ∈ (graph.targets node).filter (· ∈ remove node state.unseen),
        graph.Leads node target := by
      intro target member
      exact ReflTransGen.single (mem_targets.mp (List.mem_filter.mp member).1)
    have absent : other ∉ (graph.targets node).filter (· ∈ remove node state.unseen) := by
      intro member
      exact seen (of_decide_eq_true (List.mem_filter.mp member).2)
    obtain ⟨between, rfl, behind⟩ := split_behind split absent
    cases between with
    | nil =>
      -- the node that was on top, above which now its targets are pending
      cases top.symm.trans behind
      rw [List.append_nil]
      exact ⟨reached, fun target => sound.target_of_discover bounded top loopless⟩
    | cons head between =>
      -- a node further down, with the node that was on top above it
      cases top.symm.trans behind
      have later : other ∉ node :: between := fun member => first (List.mem_append_right _ member)
      have seenBefore : other ∉ state.unseen :=
        (not_mem_unseen_discover.mp seen).resolve_left fun same => later (same ▸ List.mem_cons_self)
      obtain ⟨leads, targets⟩ := sound.underWay _ other rest behind later seenBefore unfinished
      constructor
      · intro target member
        rcases List.mem_append.mp member with member | member
        · exact (leads node List.mem_cons_self).trans (reached target member)
        · exact leads target member
      · intro target adjacent
        exact (targets target adjacent).imp_left (List.mem_append_right _)

theorem Sound.finish (sound : Sound graph state) (top : state.pending = node :: below)
    (seen : node ∉ state.unseen) : Sound graph (state.finish node below) where
  seen := by
    intro other inside seen
    rw [mem_finish]
    rcases sound.seen other inside seen with finished | pending
    · exact .inl (.inr finished)
    · rw [top] at pending
      exact (List.mem_cons.mp pending).imp_left .inl
  loopless := sound.loopless
  settled := by
    intro other member target adjacent
    rw [mem_finish] at member ⊢
    by_cases finished : other ∈ state.finished
    · exact (sound.settled other finished target adjacent).imp_left .inr
    · cases member.resolve_right finished
      -- nothing is pending above the node, so its targets are finished or lead to it
      obtain ⟨_, targets⟩ := sound.underWay [] _ below top List.not_mem_nil seen finished
      exact ((targets target adjacent).resolve_left List.not_mem_nil).imp_left .inr
  ordered := by
    unfold Search.finish
    split
    · exact sound.ordered
    · rename_i unfinished
      refine .cons ?_ sound.ordered
      intro earlier finished adjacent
      exact (sound.settled earlier finished node adjacent).resolve_left unfinished
  underWay := by
    intro above other rest split first seen unfinished
    rw [mem_finish, not_or] at unfinished
    obtain ⟨different, unfinished⟩ := unfinished
    have later : other ∉ node :: above := by
      rw [List.mem_cons, not_or]
      exact ⟨different, first⟩
    have whole : state.pending = (node :: above) ++ other :: rest :=
      top.trans (congrArg (node :: ·) split)
    obtain ⟨leads, targets⟩ := sound.underWay _ other rest whole later seen unfinished
    constructor
    · intro target member
      exact leads target (List.mem_cons_of_mem _ member)
    · intro target adjacent
      rw [mem_finish]
      rcases targets target adjacent with above | finished | back
      · rcases List.mem_cons.mp above with rfl | above
        · exact .inr (.inl (.inl rfl))
        · exact .inl above
      · exact .inr (.inl (.inr finished))
      · exact .inr (.inr back)

/-- A search that goes on from one with pending nodes until nothing is pending. -/
structure Exhausts (before after : Search) : Prop where
  pending : after.pending = []
  unseen : after.unseen ⊆ before.unseen
  seen : ∀ node ∈ before.pending, node ∉ after.unseen

theorem Sound.search (sound : Sound graph state) (bounded : graph.Bounded)
    (answers : graph.search state = .ok result) :
    Sound graph result ∧ state.Exhausts result := by
  induction state using search.induct graph with
  | case1 state empty =>
    rw [search_of_empty empty] at answers
    cases answers
    refine ⟨sound, empty, List.Subset.refl _, ?_⟩
    rw [empty]
    nofun
  | case2 state node below top unseen looped =>
    rw [search_of_unseen top unseen, if_pos looped] at answers
    cases answers
  | case3 state node below top unseen straight inductionHypothesis =>
    rw [search_of_unseen top unseen, if_neg straight] at answers
    have loopless : ¬ graph.Adjacent node node := mt mem_targets.mpr straight
    obtain ⟨after, exhausts⟩ :=
      inductionHypothesis (sound.discover bounded top loopless) answers
    refine ⟨after, exhausts.pending, fun other member => ?_, fun other member => ?_⟩
    · exact (mem_remove.mp (exhausts.unseen member)).1
    · exact exhausts.seen other (List.mem_append_right _ member)
  | case4 state node below top seen inductionHypothesis =>
    rw [search_of_seen top seen] at answers
    obtain ⟨after, exhausts⟩ := inductionHypothesis (sound.finish top seen) answers
    refine ⟨after, exhausts.pending, exhausts.unseen, fun other member => ?_⟩
    rw [top] at member
    rcases List.mem_cons.mp member with rfl | member
    · exact fun unseen => seen (exhausts.unseen unseen)
    · exact exhausts.seen other member

/-- Nothing is seen yet. -/
theorem sound_start (graph : Digraph Label) : Sound graph ⟨List.range graph.size, [], []⟩ where
  seen := fun _ inside seen => absurd (List.mem_range.mpr inside) seen
  loopless := fun _ inside seen => absurd (List.mem_range.mpr inside) seen
  settled := nofun
  ordered := .nil
  underWay := by
    intro above node below split
    cases above <;> cases split

/-- A search goes on from a node that was not seen. -/
theorem Sound.restart (sound : Sound graph state) (empty : state.pending = []) {root : Nat}
    (unseen : root ∈ state.unseen) : Sound graph { state with pending := [root] } where
  seen := by
    intro node inside seen
    have found := sound.seen node inside seen
    rw [empty] at found
    exact .inl (found.resolve_right List.not_mem_nil)
  loopless := sound.loopless
  settled := sound.settled
  ordered := sound.ordered
  underWay := by
    intro above node below split _ seen
    -- only the root is pending, and it was not seen
    have member : node ∈ above ++ node :: below := List.mem_append_right _ List.mem_cons_self
    rw [← split] at member
    rw [List.mem_singleton.mp member] at seen
    exact absurd unseen seen

theorem Sound.searchFrom (sound : Sound graph state) (bounded : graph.Bounded)
    (empty : state.pending = []) {roots : List Nat}
    (answers : graph.searchFrom roots state = .ok result) :
    Sound graph result ∧ result.pending = [] ∧ result.unseen ⊆ state.unseen ∧
      ∀ root ∈ roots, root ∉ result.unseen := by
  induction roots generalizing state with
  | nil =>
    cases answers
    exact ⟨sound, empty, List.Subset.refl _, nofun⟩
  | cons root roots inductionHypothesis =>
    rw [Digraph.searchFrom] at answers
    split at answers
    · rename_i unseen
      split at answers
      · cases answers
      · rename_i next searched
        obtain ⟨after, exhausts⟩ := (sound.restart empty unseen).search bounded searched
        obtain ⟨whole, done, fewer, seen⟩ := inductionHypothesis after exhausts.pending answers
        refine ⟨whole, done, List.Subset.trans fewer exhausts.unseen, ?_⟩
        refine List.forall_mem_cons.mpr ⟨fun member => ?_, seen⟩
        exact exhausts.seen root List.mem_cons_self (fewer member)
    · rename_i before
      obtain ⟨whole, done, fewer, seen⟩ := inductionHypothesis sound empty answers
      exact ⟨whole, done, fewer, List.forall_mem_cons.mpr ⟨fun member => before (fewer member), seen⟩⟩

end Search

theorem adjacent_of_search_eq_error {state : Search} {node : Nat}
    (fails : graph.search state = .error node) : graph.Adjacent node node := by
  induction state using search.induct graph with
  | case1 state empty =>
    rw [search_of_empty empty] at fails
    cases fails
  | case2 state node below top unseen looped =>
    rw [search_of_unseen top unseen, if_pos looped] at fails
    cases fails
    exact mem_targets.mp looped
  | case3 state node below top unseen straight inductionHypothesis =>
    rw [search_of_unseen top unseen, if_neg straight] at fails
    exact inductionHypothesis fails
  | case4 state node below top seen inductionHypothesis =>
    rw [search_of_seen top seen] at fails
    exact inductionHypothesis fails

theorem adjacent_of_searchFrom_eq_error {state : Search} {roots : List Nat} {node : Nat}
    (fails : graph.searchFrom roots state = .error node) : graph.Adjacent node node := by
  induction roots generalizing state with
  | nil => cases fails
  | cons root roots inductionHypothesis =>
    rw [searchFrom] at fails
    split at fails
    · split at fails
      · rename_i searched
        cases fails
        exact adjacent_of_search_eq_error searched
      · exact inductionHypothesis fails
    · exact inductionHypothesis fails

/-- Every node comes in the order, and an edge that leads backward in it starts on a cycle. -/
theorem order_spec (bounded : graph.Bounded) {order : List Nat} (answers : graph.order = .ok order) :
    (∀ node < graph.size, node ∈ order ∧ ¬ graph.Adjacent node node) ∧
      order.Pairwise fun later earlier =>
        graph.Adjacent earlier later → graph.Leads later earlier := by
  unfold Digraph.order at answers
  cases searched : graph.searchFrom (List.range graph.size) ⟨List.range graph.size, [], []⟩ with
  | error node =>
    rw [searched] at answers
    cases answers
  | ok result =>
    rw [searched] at answers
    cases answers
    obtain ⟨sound, done, _, seen⟩ :=
      (Search.sound_start graph).searchFrom bounded rfl searched
    refine ⟨fun node inside => ?_, sound.ordered⟩
    have seen := seen node (List.mem_range.mpr inside)
    have found := sound.seen node inside seen
    rw [done] at found
    exact ⟨found.resolve_right List.not_mem_nil, sound.loopless node inside seen⟩

theorem adjacent_of_order_eq_error {node : Nat} (fails : graph.order = .error node) :
    graph.Adjacent node node := by
  unfold order at fails
  cases searched : graph.searchFrom (List.range graph.size) ⟨List.range graph.size, [], []⟩ with
  | error _ =>
    rw [searched] at fails
    cases fails
    exact adjacent_of_searchFrom_eq_error searched
  | ok _ =>
    rw [searched] at fails
    cases fails

/-! ## The search against the edges -/

theorem retreat_eq_none_iff {visited pending : List Nat} :
    graph.retreat visited pending = none ↔ ∀ node ∈ pending, node ∈ visited := by
  induction pending with
  | nil => exact ⟨fun _ => nofun, fun _ => rfl⟩
  | cons node below inductionHypothesis =>
    rw [retreat, List.forall_mem_cons]
    by_cases before : node ∈ visited
    · rw [if_pos before, inductionHypothesis, and_iff_right before]
    · rw [if_neg before]
      exact ⟨nofun, fun ⟨member, _⟩ => absurd member before⟩

theorem mem_of_retreat_eq_some {visited pending after rest : List Nat} {node : Nat}
    (found : graph.retreat visited pending = some (node, after, rest)) :
    node ∈ pending ∧ node ∉ visited := by
  induction pending with
  | nil => cases found
  | cons first below inductionHypothesis =>
    rw [retreat] at found
    split at found
    · obtain ⟨member, new⟩ := inductionHypothesis found
      exact ⟨List.mem_cons_of_mem _ member, new⟩
    · rename_i new
      cases found
      exact ⟨List.mem_cons_self, new⟩

theorem secondVisited?_cons (visited roots : List Nat) (root : Nat) :
    graph.secondVisited? visited (root :: roots) =
      if root ∈ visited then graph.secondVisited? visited roots
      else match graph.retreat (root :: visited)
          ((graph.sources root).filter (· ∉ root :: visited)) with
        | some (second, _, _) => some second
        | none => graph.secondVisited? (root :: visited) roots := by
  rw [secondVisited?, retreat, retreat]
  by_cases before : root ∈ visited
  · simp only [if_pos before]
  · simp only [if_neg before]
    -- below the sources of the root nothing is pending
    exact congrArg (fun pending =>
      match graph.retreat (root :: visited) pending with
      | some (second, _, _) => some second
      | none => graph.secondVisited? (root :: visited) roots) (List.append_nil _)

/-- The node that is answered is the source of an edge that leads backward among the roots. -/
theorem secondVisited?_eq_some {visited roots : List Nat} {node : Nat}
    (found : graph.secondVisited? visited roots = some node) :
    node ∉ visited ∧ ∃ front root later, roots = front ++ root :: later ∧
      graph.Adjacent node root ∧ node ≠ root ∧ node ∉ front := by
  induction roots generalizing visited with
  | nil => cases found
  | cons root roots inductionHypothesis =>
    rw [secondVisited?_cons] at found
    split at found
    · rename_i before
      obtain ⟨new, front, next, later, rfl, adjacent, different, absent⟩ :=
        inductionHypothesis found
      refine ⟨new, root :: front, next, later, rfl, adjacent, different, ?_⟩
      exact List.not_mem_cons_of_ne_of_not_mem (fun same => new (same ▸ before)) absent
    · split at found
      · rename_i second _ _ entered
        cases found
        obtain ⟨member, new⟩ := mem_of_retreat_eq_some entered
        have adjacent := mem_sources.mp (List.mem_filter.mp member).1
        exact ⟨List.not_mem_of_not_mem_cons new, [], root, roots, rfl, adjacent,
          List.ne_of_not_mem_cons new, List.not_mem_nil⟩
      · obtain ⟨new, front, next, later, rfl, adjacent, different, absent⟩ :=
          inductionHypothesis found
        refine ⟨List.not_mem_of_not_mem_cons new, root :: front, next, later, rfl, adjacent,
          different, ?_⟩
        exact List.not_mem_cons_of_ne_of_not_mem (List.ne_of_not_mem_cons new) absent

/-- If no search visits a second node, predecessors were visited before, and so on until there are
none. -/
theorem acc_of_secondVisited?_eq_none {visited roots : List Nat}
    (missing : graph.secondVisited? visited roots = none)
    (loopless : ∀ root ∈ roots, ¬ graph.Adjacent root root)
    (founded : ∀ node ∈ visited, Acc graph.Adjacent node) :
    ∀ root ∈ roots, Acc graph.Adjacent root := by
  induction roots generalizing visited with
  | nil => nofun
  | cons root roots inductionHypothesis =>
    obtain ⟨looplessHere, loopless⟩ := List.forall_mem_cons.mp loopless
    rw [secondVisited?_cons] at missing
    split at missing
    · rename_i before
      exact List.forall_mem_cons.mpr
        ⟨founded root before, inductionHypothesis missing loopless founded⟩
    · split at missing
      · cases missing
      · rename_i entered
        have here : Acc graph.Adjacent root := by
          refine .intro root fun source adjacent => ?_
          have different : source ≠ root := by
            rintro rfl
            exact looplessHere adjacent
          by_cases before : source ∈ root :: visited
          · exact founded source ((List.mem_cons.mp before).resolve_left different)
          · refine absurd (retreat_eq_none_iff.mp entered source ?_) before
            exact List.mem_filter.mpr ⟨mem_sources.mpr adjacent, decide_eq_true before⟩
        exact List.forall_mem_cons.mpr ⟨here, inductionHypothesis missing loopless
          (List.forall_mem_cons.mpr ⟨here, founded⟩)⟩

/-! ## Both searches -/

/-- The node that is found lies on a cycle. -/
theorem onCycle_of_faulty? (bounded : graph.Bounded) {node : Nat}
    (found : graph.faulty? = some node) : graph.OnCycle node := by
  unfold faulty? at found
  split at found
  · rename_i fails
    cases found
    exact TransGen.single (adjacent_of_order_eq_error fails)
  · rename_i order answers
    obtain ⟨complete, ordered⟩ := order_spec bounded answers
    obtain ⟨_, front, root, later, rfl, adjacent, different, absent⟩ :=
      secondVisited?_eq_some found
    -- the node comes behind the root, to which an edge leads from it
    have behind : node ∈ later := by
      have member := (complete node (bounded.source_lt adjacent)).1
      have tail := (List.mem_append.mp member).resolve_left absent
      exact (List.mem_cons.mp tail).resolve_left different
    have leads := (List.pairwise_cons.mp (List.pairwise_append.mp ordered).2.1).1 node behind
    exact TransGen.head' adjacent (leads adjacent)

/-- A node on a cycle would be its own predecessor's predecessor, over and over. -/
theorem not_onCycle_of_acc {node : Nat} (founded : Acc graph.Adjacent node) :
    ¬ graph.OnCycle node := by
  induction founded with
  | intro node _ inductionHypothesis =>
    intro cycle
    obtain ⟨source, leads, adjacent⟩ := TransGen.tail'_iff.mp cycle
    exact inductionHypothesis source adjacent (TransGen.head' adjacent leads)

/-- If no node is found, there is no cycle. -/
theorem not_onCycle_of_faulty?_eq_none (bounded : graph.Bounded) (missing : graph.faulty? = none)
    (node : Nat) : ¬ graph.OnCycle node := by
  unfold faulty? at missing
  split at missing
  · cases missing
  · rename_i order answers
    obtain ⟨complete, _⟩ := order_spec bounded answers
    intro cycle
    obtain ⟨_, _, adjacent⟩ := TransGen.tail'_iff.mp cycle
    have loopless : ∀ root ∈ order, ¬ graph.Adjacent root root :=
      fun root _ loop => (complete root (bounded.source_lt loop)).2 loop
    have member := (complete node (bounded.target_lt adjacent)).1
    exact not_onCycle_of_acc
      (acc_of_secondVisited?_eq_none missing loopless nofun node member) cycle

end Digraph

end StaticScheduling
