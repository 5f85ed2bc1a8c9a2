import Mathlib.Data.List.Nodup
import Mathlib.Logic.Relation
import Mathlib.Order.Lattice.Nat
import WorkflowStudio.Topology

/-!
The ancestors of an id, nearest first. The search visits the ids in the order in which it saw
them, so the seen ones are the visited ones followed by the waiting ones, and along them the
distance to the start never falls. When no id waits any more, everything that leads to the start
has been seen. An id comes to wait once only, which bounds the number of visits by the edges.
-/
namespace WorkflowStudio.Topology

variable {ι : Type}

section Distance

variable {edge : ι → ι → Prop} {source middle target : ι} {n : ℕ}

/-- So many edges lead, one after the other, from one id to another. -/
inductive Walk (edge : ι → ι → Prop) : ℕ → ι → ι → Prop
  | refl (id : ι) : Walk edge 0 id id
  | head {n : ℕ} {source middle target : ι} :
      edge source middle → Walk edge n middle target → Walk edge (n + 1) source target

/-- The length of the shortest walk. -/
noncomputable def distance (edge : ι → ι → Prop) (source target : ι) : ℕ :=
  sInf {n | Walk edge n source target}

theorem exists_walk_iff :
    (∃ n, Walk edge n source target) ↔ Relation.ReflTransGen edge source target := by
  constructor
  · rintro ⟨n, hwalk⟩
    induction hwalk with
    | refl id => exact .refl
    | head hedge _ ih => exact .head hedge ih
  · intro hpath
    induction hpath using Relation.ReflTransGen.head_induction_on with
    | refl => exact ⟨0, .refl target⟩
    | head hedge _ ih =>
      obtain ⟨n, hwalk⟩ := ih
      exact ⟨n + 1, .head hedge hwalk⟩

theorem distance_le (h : Walk edge n source target) : distance edge source target ≤ n :=
  Nat.sInf_le h

theorem walk_distance (h : Relation.ReflTransGen edge source target) :
    Walk edge (distance edge source target) source target :=
  Nat.sInf_mem (exists_walk_iff.mpr h)

theorem distance_head_le (hedge : edge source middle)
    (h : Relation.ReflTransGen edge middle target) :
    distance edge source target ≤ distance edge middle target + 1 :=
  distance_le (.head hedge (walk_distance h))

/-- The first edge of a shortest walk leads to an id that is nearer by one. -/
theorem exists_nearer (h : Relation.ReflTransGen edge source target) (hne : source ≠ target) :
    ∃ middle, edge source middle ∧ Relation.ReflTransGen edge middle target ∧
      distance edge source target = distance edge middle target + 1 := by
  have hwalk := walk_distance h
  generalize hn : distance edge source target = n at hwalk
  cases hwalk with
  | refl => exact absurd rfl hne
  | @head n _ middle _ hedge hrest =>
    have hpath := exists_walk_iff.mp ⟨n, hrest⟩
    have hshort := distance_le hrest
    have hlong := distance_head_le hedge hpath
    exact ⟨middle, hedge, hpath, by omega⟩

end Distance

variable [BEq ι]

/-! Topologies are built by adding nodes and edges. -/

inductive Addition (ι : Type) where
  | node (id : ι)
  | edge (source target : ι)

def Addition.apply (t : Topology ι) : Addition ι → Topology ι
  | .node id => t.addNode id
  | .edge source target => t.addEdge source target

def build (additions : List (Addition ι)) : Topology ι := additions.foldl Addition.apply empty

/-- An edge is among the additions. -/
def Records (additions : List (Addition ι)) (source target : ι) : Prop :=
  .edge source target ∈ additions

/-- Listed ids and edges are added one by one. -/
theorem ofLists_eq_build (ids : List ι) (edges : List (ι × ι)) :
    ofLists ids edges =
      build (ids.map .node ++ edges.map fun edge => .edge edge.1 edge.2) := by
  rw [ofLists, build, List.foldl_append, List.foldl_map, List.foldl_map]
  rfl

omit [BEq ι] in
theorem records_lists (ids : List ι) (edges : List (ι × ι)) :
    Records (ids.map .node ++ edges.map fun edge => .edge edge.1 edge.2) =
      fun source target => (source, target) ∈ edges := by
  funext source target
  simp [Records]

/-! The search. -/

/-- An edge from one id to another was recorded. -/
def Feeds (t : Topology ι) (source target : ι) : Prop := source ∈ t.predecessors.of target

/-- The search goes on as long as an id waits, and this is what it has seen in the end. -/
inductive Explores (t : Topology ι) : List ι → List ι → List ι → Prop
  | stop (seen : List ι) : Explores t seen [] seen
  | visit {seen waiting found : List ι} {next : ι} :
      Explores t (discover seen waiting (t.predecessors.of next)).1
        (discover seen waiting (t.predecessors.of next)).2 found →
      Explores t seen (next :: waiting) found

/-- What holds of the search between two visits. All waiting ids are in two layers, and the
neighbours of the visited ones have been seen. -/
structure Searched (t : Topology ι) (start : ι) (visited waiting : List ι) : Prop where
  start_first : (visited ++ waiting).head? = some start
  nodup : (visited ++ waiting).Nodup
  leads : ∀ id ∈ visited ++ waiting, Relation.ReflTransGen t.Feeds id start
  closed : ∀ id ∈ visited, ∀ source, t.Feeds source id → source ∈ visited ++ waiting
  ordered : (visited ++ waiting).Pairwise fun near far =>
    distance t.Feeds near start ≤ distance t.Feeds far start
  layered : ∀ near ∈ waiting, ∀ far ∈ waiting,
    distance t.Feeds far start ≤ distance t.Feeds near start + 1

theorem searched_start (t : Topology ι) (start : ι) : t.Searched start [] [start] where
  start_first := rfl
  nodup := List.nodup_singleton start
  leads := by simp [Relation.ReflTransGen.refl]
  closed := by simp
  ordered := List.pairwise_singleton _ start
  layered := by simp

namespace Searched

variable {t : Topology ι} {start next : ι} {visited waiting found : List ι}

theorem start_mem (h : t.Searched start visited waiting) : start ∈ visited ++ waiting :=
  List.mem_of_mem_head? h.start_first

theorem distance_next_le (h : t.Searched start visited (next :: waiting)) {id : ι}
    (hid : id ∈ next :: waiting) :
    distance t.Feeds next start ≤ distance t.Feeds id start := by
  rcases List.mem_cons.mp hid with rfl | hlater
  · exact le_rfl
  · have hrest := (List.pairwise_append.mp h.ordered).2.1
    exact (List.pairwise_cons.mp hrest).1 id hlater

/-- Whatever is not farther away than the next id has been seen. -/
theorem seen_of_distance_le (h : t.Searched start visited (next :: waiting)) {id : ι}
    (hid : Relation.ReflTransGen t.Feeds id start)
    (hnear : distance t.Feeds id start ≤ distance t.Feeds next start) :
    id ∈ visited ++ next :: waiting := by
  generalize hn : distance t.Feeds id start = n at hnear
  induction n using Nat.strong_induction_on generalizing id with
  | h n ih =>
    by_cases heq : id = start
    · exact heq ▸ h.start_mem
    · obtain ⟨middle, hedge, hmiddle, hstep⟩ := exists_nearer hid heq
      have hseen : middle ∈ visited ++ next :: waiting :=
        ih (distance t.Feeds middle start) (by omega) hmiddle rfl (by omega)
      rcases List.mem_append.mp hseen with hvisited | hwaits
      · exact h.closed middle hvisited id hedge
      · have hfar := h.distance_next_le hwaits
        omega

/-- A neighbour that was not seen before is one edge farther away than the visited id. -/
theorem distance_of_unseen (h : t.Searched start visited (next :: waiting)) {id : ι}
    (hedge : t.Feeds id next) (hunseen : id ∉ visited ++ next :: waiting) :
    distance t.Feeds id start = distance t.Feeds next start + 1 := by
  have hnext : Relation.ReflTransGen t.Feeds next start := h.leads next (by simp)
  have hlong := distance_head_le hedge hnext
  by_contra hne
  exact hunseen (h.seen_of_distance_le (.head hedge hnext) (by omega))

/-- A visit makes the unseen neighbours wait behind the other ids. -/
theorem visit (h : t.Searched start visited (next :: waiting)) {added : List ι}
    (hnodup : added.Nodup)
    (hadded : ∀ id, id ∈ added ↔ t.Feeds id next ∧ id ∉ visited ++ next :: waiting) :
    t.Searched start (visited ++ [next]) (waiting ++ added) := by
  have hseen : (visited ++ [next]) ++ (waiting ++ added) =
      (visited ++ next :: waiting) ++ added := by simp
  have hdistance : ∀ id ∈ added,
      distance t.Feeds id start = distance t.Feeds next start + 1 := fun id hid =>
    h.distance_of_unseen ((hadded id).mp hid).1 ((hadded id).mp hid).2
  have hlayers : ∀ id ∈ waiting ++ added,
      distance t.Feeds next start ≤ distance t.Feeds id start ∧
        distance t.Feeds id start ≤ distance t.Feeds next start + 1 := by
    intro id hid
    rcases List.mem_append.mp hid with hwaits | hnew
    · exact ⟨h.distance_next_le (List.mem_cons_of_mem _ hwaits),
        h.layered next List.mem_cons_self id (List.mem_cons_of_mem _ hwaits)⟩
    · have := hdistance id hnew
      omega
  have hold : ∀ id ∈ visited ++ next :: waiting,
      distance t.Feeds id start ≤ distance t.Feeds next start + 1 := by
    intro id hid
    rcases List.mem_append.mp hid with hvisited | hwaits
    · have hbefore := (List.pairwise_append.mp h.ordered).2.2 id hvisited next List.mem_cons_self
      omega
    · exact h.layered next List.mem_cons_self id hwaits
  constructor
  case start_first =>
    rw [hseen, List.head?_append, h.start_first]
    rfl
  case nodup =>
    rw [hseen]
    exact h.nodup.append hnodup fun id hid hnew => ((hadded id).mp hnew).2 hid
  case leads =>
    rw [hseen]
    intro id hid
    rcases List.mem_append.mp hid with hid | hnew
    · exact h.leads id hid
    · exact .head ((hadded id).mp hnew).1 (h.leads next (by simp))
  case closed =>
    rw [hseen]
    intro id hid source hedge
    rcases List.mem_append.mp hid with hvisited | hlast
    · exact List.mem_append_left _ (h.closed id hvisited source hedge)
    · rw [List.mem_singleton.mp hlast] at hedge
      by_cases hold : source ∈ visited ++ next :: waiting
      · exact List.mem_append_left _ hold
      · exact List.mem_append_right _ ((hadded source).mpr ⟨hedge, hold⟩)
  case ordered =>
    rw [hseen]
    refine List.pairwise_append.mpr ⟨h.ordered, ?_, fun near hnear far hfar => ?_⟩
    · refine List.pairwise_of_forall_mem_list fun near hnear far hfar => ?_
      rw [hdistance near hnear, hdistance far hfar]
    · rw [hdistance far hfar]
      exact hold near hnear
  case layered =>
    intro near hnear far hfar
    have hlow := (hlayers near hnear).1
    have hhigh := (hlayers far hfar).2
    omega

/-- In the end exactly the ids that lead to the start have been seen. -/
theorem mem_iff (h : t.Searched start found []) {id : ι} :
    id ∈ found ↔ Relation.ReflTransGen t.Feeds id start := by
  have hall := h.leads
  have hclosed := h.closed
  rw [List.append_nil] at hall hclosed
  refine ⟨hall id, fun hpath => ?_⟩
  induction hpath using Relation.ReflTransGen.head_induction_on with
  | refl => simpa using h.start_mem
  | head hedge _ ih => exact hclosed _ ih _ hedge

end Searched

variable {t : Topology ι} {start : ι} {visited waiting seen found : List ι}

/-! An id is seen at most once, and all but the start are sources of edges. -/

/-- The count of the edges is not too low. -/
def Counted (t : Topology ι) : Prop :=
  ∃ sources : List ι, sources.length ≤ t.edgeCount ∧
    ∀ source target, t.Feeds source target → source ∈ sources

theorem Searched.length_le (h : t.Searched start visited waiting) (hcounted : t.Counted) :
    (visited ++ waiting).length ≤ t.edgeCount + 1 := by
  obtain ⟨sources, hlength, hsources⟩ := hcounted
  have hsub : visited ++ waiting ⊆ start :: sources := by
    intro id hid
    rcases (h.leads id hid).cases_head with rfl | ⟨middle, hedge, -⟩
    · exact List.mem_cons_self
    · exact List.mem_cons_of_mem _ (hsources id middle hedge)
  have hle := (List.subperm_of_subset h.nodup hsub).length_le
  rw [List.length_cons] at hle
  omega

variable [LawfulBEq ι]

theorem exists_discover (seen waiting ids : List ι) :
    ∃ added : List ι, discover seen waiting ids = (seen ++ added, waiting ++ added) ∧
      added.Nodup ∧ ∀ id, id ∈ added ↔ id ∈ ids ∧ id ∉ seen := by
  induction ids generalizing seen waiting with
  | nil => exact ⟨[], by simp [discover]⟩
  | cons first rest ih =>
    by_cases hfirst : first ∈ seen
    · obtain ⟨added, heq, hnodup, hadded⟩ := ih seen waiting
      refine ⟨added, by simp [discover, hfirst, heq], hnodup, fun id => ?_⟩
      rw [hadded, List.mem_cons]
      by_cases hid : id = first
      · simp [hid, hfirst]
      · simp [hid]
    · obtain ⟨added, heq, hnodup, hadded⟩ := ih (seen ++ [first]) (waiting ++ [first])
      have hnew : first ∉ added := fun hmem => ((hadded first).mp hmem).2 (by simp)
      refine ⟨first :: added, by simp [discover, hfirst, heq],
        List.nodup_cons.mpr ⟨hnew, hnodup⟩, fun id => ?_⟩
      rw [List.mem_cons, hadded, List.mem_cons, List.mem_append, List.mem_singleton]
      by_cases hid : id = first
      · simp [hid, hfirst]
      · simp [hid]

theorem Searched.of_explores (hrun : t.Explores seen waiting found)
    (h : t.Searched start visited waiting) (hseen : seen = visited ++ waiting) :
    t.Searched start found [] := by
  induction hrun generalizing visited with
  | stop seen =>
    rw [List.append_nil] at hseen
    exact hseen ▸ h
  | @visit seen waiting found next _ ih =>
    obtain ⟨added, heq, hnodup, hadded⟩ := exists_discover seen waiting (t.predecessors.of next)
    rw [heq] at ih
    subst hseen
    exact ih (h.visit hnodup hadded) (by simp)

/-- As many visits as there are edges, and one more, leave no id waiting. -/
theorem Searched.explores_visit (hcounted : t.Counted) {steps : ℕ}
    (h : t.Searched start visited waiting) (hsteps : steps + visited.length = t.edgeCount + 1) :
    t.Explores (visited ++ waiting) waiting
      (Topology.visit t steps (visited ++ waiting) waiting) := by
  induction steps generalizing visited waiting with
  | zero =>
    have hle := h.length_le hcounted
    rw [List.length_append] at hle
    obtain rfl : waiting = [] := List.eq_nil_of_length_eq_zero (by omega)
    exact .stop _
  | succ steps ih =>
    cases waiting with
    | nil => exact .stop _
    | cons next waiting =>
      obtain ⟨added, heq, hnodup, hadded⟩ :=
        exists_discover (visited ++ next :: waiting) waiting (t.predecessors.of next)
      have hrest := ih (h.visit hnodup hadded) (by rw [List.length_append]; simp; omega)
      refine .visit ?_
      rw [Topology.visit, heq]
      simpa using hrest

theorem explores_ancestors (hcounted : t.Counted) (id : ι) :
    t.Explores [id] [id] (id :: t.ancestors id) ∧ t.Searched id (id :: t.ancestors id) [] := by
  have hrun : t.Explores [id] [id] (Topology.visit t (t.edgeCount + 1) [id] [id]) :=
    (searched_start t id).explores_visit hcounted (by simp)
  have hend := Searched.of_explores hrun (searched_start t id) rfl
  have hfirst := hend.start_first
  rw [List.append_nil] at hfirst
  obtain ⟨rest, hfound⟩ := List.head?_eq_some_iff.mp hfirst
  have hancestors : id :: t.ancestors id = Topology.visit t (t.edgeCount + 1) [id] [id] := by
    rw [ancestors, hfound, List.drop_one, List.tail_cons]
  rw [hancestors]
  exact ⟨hrun, hend⟩

theorem nodup_ancestors (hcounted : t.Counted) (id : ι) : (id :: t.ancestors id).Nodup := by
  simpa using (explores_ancestors hcounted id).2.nodup

theorem mem_ancestors (hcounted : t.Counted) {id other : ι} :
    other ∈ t.ancestors id ↔ other ≠ id ∧ Relation.TransGen t.Feeds other id := by
  have hmem : other ∈ id :: t.ancestors id ↔ Relation.ReflTransGen t.Feeds other id :=
    (explores_ancestors hcounted id).2.mem_iff
  have hself : id ∉ t.ancestors id := (List.nodup_cons.mp (nodup_ancestors hcounted id)).1
  rw [List.mem_cons, Relation.reflTransGen_iff_eq_or_transGen] at hmem
  constructor
  · intro hother
    have hne : other ≠ id := fun heq => hself (heq ▸ hother)
    exact ⟨hne, (hmem.mp (Or.inr hother)).resolve_left (Ne.symm hne)⟩
  · rintro ⟨hne, hpath⟩
    exact (hmem.mpr (Or.inr hpath)).resolve_left hne

/-! Every addition keeps the count, so it holds of whatever was built. -/

theorem feeds_apply {addition : Addition ι} {source target : ι} :
    (addition.apply t).Feeds source target ↔
      t.Feeds source target ∨ .edge source target = addition := by
  cases addition with
  | node id =>
    have hkept : (t.addNode id).predecessors = t.predecessors := by
      rw [addNode]
      split <;> rfl
    simp [Feeds, Addition.apply, hkept]
  | edge first second =>
    by_cases htarget : target = second
    · subst htarget
      simp [Feeds, Addition.apply, addEdge, Neighbours.of_add_self]
    · simp [Feeds, Addition.apply, addEdge, Neighbours.of_add_of_ne _ _ htarget, htarget]

theorem counted_apply (h : t.Counted) (addition : Addition ι) : (addition.apply t).Counted := by
  obtain ⟨sources, hlength, hsources⟩ := h
  cases addition with
  | node id =>
    have hkept : (t.addNode id).edgeCount = t.edgeCount := by
      rw [addNode]
      split <;> rfl
    refine ⟨sources, hlength.trans_eq hkept.symm, fun source target hedge => ?_⟩
    exact hsources source target ((feeds_apply.mp hedge).resolve_right nofun)
  | edge first second =>
    refine ⟨first :: sources, Nat.succ_le_succ hlength, fun source target hedge => ?_⟩
    rcases feeds_apply.mp hedge with hold | hnew
    · exact List.mem_cons_of_mem _ (hsources source target hold)
    · cases hnew
      exact List.mem_cons_self

theorem feeds_foldl_apply {additions : List (Addition ι)} {source target : ι} :
    (additions.foldl Addition.apply t).Feeds source target ↔
      t.Feeds source target ∨ Records additions source target := by
  induction additions generalizing t with
  | nil => simp [Records]
  | cons first rest ih =>
    rw [List.foldl_cons, ih, feeds_apply, or_assoc, Records, Records, List.mem_cons]

theorem feeds_build (additions : List (Addition ι)) :
    (build additions).Feeds = Records additions := by
  funext source target
  rw [build, feeds_foldl_apply, eq_iff_iff]
  exact or_iff_right List.not_mem_nil

theorem counted_foldl_apply (h : t.Counted) (additions : List (Addition ι)) :
    (additions.foldl Addition.apply t).Counted := by
  induction additions generalizing t with
  | nil => exact h
  | cons first rest ih => exact ih (counted_apply h first)

theorem counted_build (additions : List (Addition ι)) : (build additions).Counted :=
  counted_foldl_apply ⟨[], le_rfl, fun _ _ h => absurd h List.not_mem_nil⟩ additions

theorem mem_ancestors_ofLists {ids : List ι} {edges : List (ι × ι)} {id other : ι} :
    other ∈ (ofLists ids edges).ancestors id ↔
      other ≠ id ∧ Relation.TransGen (fun source target => (source, target) ∈ edges) other id := by
  rw [ofLists_eq_build, mem_ancestors (counted_build _), feeds_build, records_lists]

theorem nodup_ancestors_ofLists (ids : List ι) (edges : List (ι × ι)) (id : ι) :
    ((ofLists ids edges).ancestors id).Nodup := by
  rw [ofLists_eq_build]
  exact (nodup_ancestors (counted_build _) id).of_cons

/-- Whatever nodes and edges were added, in any order, the search for ancestors ends. It gives
every other id from which a path of added edges leads to the start, each one once, and none before
another one that is nearer. -/
theorem ancestors_nearest_first {ι : Type} [DecidableEq ι] (additions : List (Addition ι))
    (id : ι) :
    (build additions).Explores [id] [id] (id :: (build additions).ancestors id) ∧
      ((build additions).ancestors id).Nodup ∧
      (∀ other, other ∈ (build additions).ancestors id ↔
        other ≠ id ∧ Relation.TransGen (Records additions) other id) ∧
      ((build additions).ancestors id).Pairwise fun near far =>
        distance (Records additions) near id ≤ distance (Records additions) far id := by
  have hcounted := counted_build additions
  obtain ⟨hrun, hend⟩ := explores_ancestors hcounted id
  have hordered := hend.ordered
  rw [List.append_nil, feeds_build] at hordered
  refine ⟨hrun, (nodup_ancestors hcounted id).of_cons, fun other => ?_,
    (List.pairwise_cons.mp hordered).2⟩
  rw [mem_ancestors hcounted, feeds_build]

/-- A loop, a second edge between two ids and a way back repeat no id. -/
example : (build [.edge "b" "c", .edge "a" "b", .edge "b" "b", .edge "d" "c", .edge "c" "a",
    .node "a", .edge "d" "c", .edge "a" "d"]).ancestors "c" = ["b", "d", "a"] := by
  decide

end WorkflowStudio.Topology
