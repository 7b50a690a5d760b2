import RetentionEngine.Common.Counting
import RetentionEngine.Common.SortKeys
import RetentionEngine.Contracts.Decision
import RetentionEngine.Contracts.Event
import Mathlib.Algebra.Order.BigOperators.Group.List
import Mathlib.Algebra.Order.Field.Basic
import Mathlib.Data.List.Sort
import Mathlib.Data.Set.Card
import Mathlib.Data.String.Basic

/-!
# Edges of the transaction graph

`graph_signal.build`: the edges of the events in a window, and the
neighbours of a user. The weight an interaction has at an age is a
parameter, `decay`; what `0.5 ** (age_days / half_life_days)` is rounded
to is a matter of floats.
-/

namespace RetentionEngine

namespace GraphSignal

/-- `Edge`, with its weight and its number of interactions. -/
structure WeightedEdge (K : Type*) extends Edge where
  weight : K
  interactionCount : ℕ
  deriving DecidableEq, Repr

/-- **What `build_edges` is told**: how long a day is, the window, the
weight of an interaction by its age and `min_interactions`. -/
structure EdgeSettings (K : Type*) where
  clock : Clock
  windowDays : ℤ
  decay : ℤ → K
  minInteractions : ℤ

/-- The endpoints an event links in the window from `start` to `now`, sorted. -/
def link (start now : Timestamp) (e : CanonicalEvent) : Option (String × String) :=
  match e.counterpartyPseudonym with
  | none => none
  | some counterparty =>
      if e.eventType ∉ counterpartyEventTypes ∨ counterparty = "" then none
      else if ¬ (start ≤ e.occurredAt ∧ e.occurredAt ≤ now) ∨ counterparty = e.userPseudonym then
        none
      else some (min e.userPseudonym counterparty, max e.userPseudonym counterparty)

section Build

variable {K : Type*} [Zero K] [Add K]

/-- The body of the loop over the events: `weights` and `counts` after `e`. -/
def tallyLink (decay : ℤ → K) (start now : Timestamp)
    (tally : Dict (String × String) K × Dict (String × String) ℕ) (e : CanonicalEvent) :
    Dict (String × String) K × Dict (String × String) ℕ :=
  match link start now e with
  | none => tally
  | some pair =>
      (tally.1.alter pair fun w => w.getD 0 + decay (now - e.occurredAt),
        tally.2.alter pair fun n => n.getD 0 + 1)

/-- The edge of a pair, where there are interactions enough. -/
def edgeOf (minInteractions : ℤ) (weights : Dict (String × String) K)
    (counts : Dict (String × String) ℕ) (pair : String × String) : Option (WeightedEdge K) :=
  let count := (counts.get? pair).getD 0
  if minInteractions ≤ count then some
    { userPseudonym := pair.1
      counterpartyPseudonym := pair.2
      weight := (weights.get? pair).getD 0
      interactionCount := count }
  else none

/-- `build_edges`. -/
def buildEdges (s : EdgeSettings K) (events : List CanonicalEvent) (now : Timestamp) :
    List (WeightedEdge K) :=
  let start := now - s.windowDays * s.clock.day
  let (weights, counts) := events.foldl (tallyLink s.decay start now) (.empty, .empty)
  (weights.keys.insertionSort (LexLe Prod.fst Prod.snd)).filterMap
    (edgeOf s.minInteractions weights counts)

/-- The body of the loop of `neighbors`. -/
def addNeighbor (userPseudonym : String) (result : Dict String K) (edge : WeightedEdge K) :
    Dict String K :=
  if edge.userPseudonym = userPseudonym then result.set edge.counterpartyPseudonym edge.weight
  else if edge.counterpartyPseudonym = userPseudonym then
    result.set edge.userPseudonym edge.weight
  else result

/-- `neighbors`: neighbour and edge weight. -/
def neighbors (userPseudonym : String) (edges : List (WeightedEdge K)) : Dict String K :=
  edges.foldl (addNeighbor userPseudonym) .empty

end Build

/-! ## Edges read the events of their window -/

/-- What the events of a window link, with their ages. -/
def links (start now : Timestamp) (events : List CanonicalEvent) :
    List ((String × String) × ℤ) :=
  events.filterMap fun e => (link start now e).map fun pair => (pair, now - e.occurredAt)

variable {start now : Timestamp} {e : CanonicalEvent} {events : List CanonicalEvent}

/-- **What links is in the window**, both ends included, and links two. -/
theorem of_link {pair : String × String} (h : link start now e = some pair) :
    (start ≤ e.occurredAt ∧ e.occurredAt ≤ now) ∧ pair.1 ≠ pair.2 := by
  unfold link at h
  split at h
  · simp at h
  · rename_i counterparty _
    split at h
    · simp at h
    · split at h
      · simp at h
      · rename_i hskip
        rw [not_or, not_not] at hskip
        obtain rfl := Option.some.inj h
        refine ⟨hskip.1, fun heq => hskip.2 ?_⟩
        show counterparty = e.userPseudonym
        rcases le_total e.userPseudonym counterparty with hle | hle
        · simpa only [min_eq_left hle, max_eq_right hle, eq_comm] using heq
        · simpa only [min_eq_right hle, max_eq_left hle] using heq

/-- **Links do not depend on what is outside their window.** -/
theorem links_filter {p : CanonicalEvent → Bool}
    (hp : ∀ e, start ≤ e.occurredAt → e.occurredAt ≤ now → p e = true) :
    links start now (events.filter p) = links start now events := by
  unfold links
  rw [List.filterMap_filter]
  refine List.filterMap_congr fun e _ => ?_
  cases hlink : link start now e with
  | none => simp
  | some pair =>
      obtain ⟨⟨hstart, hnow⟩, -⟩ := of_link hlink
      simp [hp e hstart hnow]

variable {K : Type*}

/-- The two counters of `build_edges`. -/
theorem foldl_tallyLink [Zero K] [Add K] (decay : ℤ → K) (start now : Timestamp)
    (events : List CanonicalEvent) :
    events.foldl (tallyLink decay start now) (.empty, .empty) =
      (tally Prod.fst (fun p => decay p.2) (links start now events),
        tally Prod.fst (fun _ => 1) (links start now events)) := by
  induction events using List.reverseRecOn with
  | nil => rfl
  | append_singleton events e ih =>
      rw [List.foldl_append, ih]
      unfold links tally tallyLink
      rw [List.filterMap_append, List.foldl_append, List.foldl_append]
      cases hlink : link start now e <;> simp [hlink]

/-- The edges of the two counters. -/
theorem buildEdges_eq [Zero K] [Add K] (s : EdgeSettings K) (events : List CanonicalEvent)
    (now : Timestamp) : buildEdges s events now =
      let counted := links (now - s.windowDays * s.clock.day) now events
      ((tally Prod.fst (fun p => s.decay p.2) counted).keys.insertionSort
        (LexLe Prod.fst Prod.snd)).filterMap
          (edgeOf s.minInteractions (tally Prod.fst (fun p => s.decay p.2) counted)
            (tally Prod.fst (fun _ => 1) counted)) := by
  unfold buildEdges
  simp only [foldl_tallyLink]

/-- **Edges do not depend on what is outside their window.** -/
theorem buildEdges_filter [Zero K] [Add K] {s : EdgeSettings K} {p : CanonicalEvent → Bool}
    (hp : ∀ e, now - s.windowDays * s.clock.day ≤ e.occurredAt → e.occurredAt ≤ now →
      p e = true) : buildEdges s (events.filter p) now = buildEdges s events now := by
  rw [buildEdges_eq, buildEdges_eq, links_filter hp]

/-! ## Edges -/

section Weights

variable [AddMonoid K] {s : EdgeSettings K} {edge : WeightedEdge K}

/-- The interactions of a pair in the window that ends at `now`. -/
def interactions (s : EdgeSettings K) (events : List CanonicalEvent) (now : Timestamp)
    (pair : String × String) : List ((String × String) × ℤ) :=
  (links (now - s.windowDays * s.clock.day) now events).filter fun p => p.1 = pair

/-- The edge of a pair whose interactions are known. -/
theorem edgeOf_tally (s : EdgeSettings K) (events : List CanonicalEvent) (now : Timestamp)
    (pair : String × String) :
    let counted := links (now - s.windowDays * s.clock.day) now events
    edgeOf s.minInteractions (tally Prod.fst (fun p => s.decay p.2) counted)
      (tally Prod.fst (fun _ => 1) counted) pair =
        if s.minInteractions ≤ (interactions s events now pair).length then
          some ⟨⟨pair.1, pair.2⟩,
            ((interactions s events now pair).map fun p => s.decay p.2).sum,
            (interactions s events now pair).length⟩
        else none := by
  unfold edgeOf interactions
  simp only [getD_tally, List.map_const', List.sum_replicate_nat, mul_one]

/-- **What the edges are**: the pairs that interacted, often enough, with the
number of their interactions and the sum of the weights. -/
theorem mem_buildEdges : edge ∈ buildEdges s events now ↔
    let between := interactions s events now (edge.userPseudonym, edge.counterpartyPseudonym)
    between ≠ [] ∧ s.minInteractions ≤ between.length ∧
      edge.interactionCount = between.length ∧
      edge.weight = (between.map fun p => s.decay p.2).sum := by
  have hpair : ∀ pair, pair ∈ (tally Prod.fst (fun p => s.decay p.2)
      (links (now - s.windowDays * s.clock.day) now events)).keys ↔
        interactions s events now pair ≠ [] := by
    intro pair
    rw [mem_keys_tally]
    unfold interactions
    rw [ne_eq, List.filter_eq_nil_iff]
    simp only [List.mem_map, decide_eq_true_eq, not_forall, not_not, exists_prop]
  rw [buildEdges_eq]
  simp only [List.mem_filterMap, (List.perm_insertionSort _ _).mem_iff, hpair, edgeOf_tally]
  constructor
  · rintro ⟨pair, hne, hedge⟩
    split at hedge
    · rename_i hcount
      obtain rfl := Option.some.inj hedge
      exact ⟨hne, hcount, rfl, rfl⟩
    · simp at hedge
  · rintro ⟨hne, hcount, hlength, hweight⟩
    refine ⟨(edge.userPseudonym, edge.counterpartyPseudonym), hne, ?_⟩
    rw [if_pos hcount, ← hweight, ← hlength]

/-- **Edges weigh something** where every interaction does. -/
theorem weight_pos {K : Type*} [Field K] [LinearOrder K] [IsStrictOrderedRing K]
    {s : EdgeSettings K} {edge : WeightedEdge K} (hdecay : ∀ age, 0 < s.decay age)
    (hedge : edge ∈ buildEdges s events now) : 0 < edge.weight := by
  obtain ⟨hne, -, -, hweight⟩ := mem_buildEdges.mp hedge
  rw [hweight]
  refine List.sum_pos _ (fun w hw => ?_) (by simpa using hne)
  obtain ⟨p, -, rfl⟩ := List.mem_map.mp hw
  exact hdecay p.2

end Weights

/-! ## Neighbours -/

section Neighbors

variable {user v : String} {w : K} {edges : List (WeightedEdge K)}

/-- An edge links `user` and `v`. -/
def WeightedEdge.Links (edge : WeightedEdge K) (user v : String) : Prop :=
  edge.userPseudonym = user ∧ edge.counterpartyPseudonym = v ∨
    edge.counterpartyPseudonym = user ∧ edge.userPseudonym = v

theorem neighbors_concat (user : String) (edges : List (WeightedEdge K)) (edge : WeightedEdge K) :
    neighbors user (edges ++ [edge]) = addNeighbor user (neighbors user edges) edge := by
  unfold neighbors
  rw [List.foldl_append, List.foldl_cons, List.foldl_nil]

/-- **The neighbours of a user** are who an edge links it with. -/
theorem mem_keys_neighbors :
    v ∈ (neighbors user edges).keys ↔ ∃ edge ∈ edges, edge.Links user v := by
  induction edges using List.reverseRecOn with
  | nil => simp [neighbors]
  | append_singleton edges edge ih =>
      have hkeys : v ∈ (addNeighbor user (neighbors user edges) edge).keys ↔
          v ∈ (neighbors user edges).keys ∨ edge.Links user v := by
        unfold addNeighbor WeightedEdge.Links
        split
        · rw [Dict.set, Dict.mem_keys_alter]
          grind
        · split
          · rw [Dict.set, Dict.mem_keys_alter]
            grind
          · grind
      rw [neighbors_concat, hkeys, ih]
      simp only [List.mem_append, List.mem_singleton]
      grind

/-- The weight of a neighbour is that of an edge. -/
theorem exists_of_mem_neighbors (h : (v, w) ∈ (neighbors user edges).entries) :
    ∃ edge ∈ edges, edge.weight = w := by
  rw [← Dict.get?_eq_some] at h
  induction edges using List.reverseRecOn with
  | nil => simp [neighbors, Dict.get?, Dict.empty, Dict.find] at h
  | append_singleton edges edge ih =>
      have hcases : (neighbors user edges).get? v = some w ∨ edge.weight = w := by
        rw [neighbors_concat] at h
        unfold addNeighbor at h
        split at h
        · rw [Dict.get?_set] at h
          grind
        · split at h
          · rw [Dict.get?_set] at h
            grind
          · exact Or.inl h
      rcases hcases with hget | rfl
      · obtain ⟨edge', hedge', rfl⟩ := ih hget
        exact ⟨edge', by simp [hedge'], rfl⟩
      · exact ⟨edge, by simp, rfl⟩

/-- The number of neighbours. -/
theorem length_neighbors : (neighbors user edges).entries.length =
    {v | ∃ edge ∈ edges, edge.Links user v}.ncard := by
  have hnodup : (neighbors user edges).keys.Nodup := (neighbors user edges).nodup
  have hset : {v | ∃ edge ∈ edges, edge.Links user v} =
      ((neighbors user edges).keys.toFinset : Set String) := by
    ext v
    rw [List.coe_toFinset]
    exact mem_keys_neighbors.symm
  rw [hset, Set.ncard_coe_finset, List.toFinset_card_of_nodup hnodup]
  exact (List.length_map _).symm

/-- A user has no neighbour where no edge has it. -/
theorem length_neighbors_eq_zero :
    (neighbors user edges).entries.length = 0 ↔ ¬ ∃ v, ∃ edge ∈ edges, edge.Links user v := by
  have hkeys : (neighbors user edges).entries.length = 0 ↔ (neighbors user edges).keys = [] := by
    unfold Dict.keys
    rw [List.length_eq_zero_iff, List.map_eq_nil_iff]
  rw [hkeys, List.eq_nil_iff_forall_not_mem, not_exists]
  simp only [mem_keys_neighbors]

end Neighbors

end GraphSignal

end RetentionEngine
