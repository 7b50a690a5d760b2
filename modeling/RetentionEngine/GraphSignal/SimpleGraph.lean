import Mathlib.Analysis.SpecialFunctions.Pow.Real
import RetentionEngine.GraphSignal.Edges

/-!
# The transaction graph is simple

What `build_edges` makes of events, said without its dictionaries: one edge
for two users with enough events between them, `between`, weighing what the
decay leaves of each. Which of the two sent and which received is lost at
`link`, and the order of the events in the two counters, so neither shows
in the edges (`buildEdges_congr`).
-/

namespace RetentionEngine

namespace GraphSignal

/-- What an interaction weighs at an age: `0.5 ** (age_days / half_life_days)`. -/
noncomputable def halfLifeDecay (clock : Clock) (halfLifeDays : ℝ) (age : ℤ) : ℝ :=
  ((2 : ℕ) : ℝ)⁻¹ ^ ((age : ℝ) / clock.day / halfLifeDays)

/-- **The arguments of `build_edges`**, with its weights as exact reals. -/
noncomputable def halfLifeSettings (clock : Clock) (windowDays : ℤ) (halfLifeDays : ℝ)
    (minInteractions : ℤ) : EdgeSettings ℝ where
  clock := clock
  windowDays := windowDays
  decay := halfLifeDecay clock halfLifeDays
  minInteractions := minInteractions

/-- An event that bears a counterparty. -/
def Bears (e : CanonicalEvent) : Prop :=
  e.eventType ∈ counterpartyEventTypes ∧ e.counterpartyPseudonym.getD "" ≠ ""

/-- An event between two users, in either direction. -/
def Joins (e : CanonicalEvent) (u v : String) : Prop :=
  e.userPseudonym = u ∧ e.counterpartyPseudonym = some v ∨
    e.userPseudonym = v ∧ e.counterpartyPseudonym = some u

instance : DecidablePred Bears := fun _ => inferInstanceAs (Decidable (_ ∧ _))

instance (e : CanonicalEvent) (u v : String) : Decidable (Joins e u v) :=
  inferInstanceAs (Decidable (_ ∨ _))

/-- **The events between two users** from `start` to `now`. -/
def between (start now : Timestamp) (events : List CanonicalEvent) (u v : String) :
    List CanonicalEvent :=
  events.filter fun e => Bears e ∧ (start ≤ e.occurredAt ∧ e.occurredAt ≤ now) ∧ Joins e u v

/-- The event with user and counterparty swapped. -/
def swapEnds (e : CanonicalEvent) : CanonicalEvent :=
  match e.counterpartyPseudonym with
  | none => e
  | some counterparty =>
      { e with userPseudonym := counterparty, counterpartyPseudonym := some e.userPseudonym }

/-- The order `sorted` puts the pairs of endpoints in. -/
def WeightedEdge.Before {K : Type*} (a b : WeightedEdge K) : Prop :=
  a.userPseudonym < b.userPseudonym ∨
    a.userPseudonym = b.userPseudonym ∧ a.counterpartyPseudonym < b.counterpartyPseudonym

/-! ## Links and events -/

section Links

variable {start now : Timestamp} {e : CanonicalEvent} {events : List CanonicalEvent} {u v : String}

/-- Two sorted pairs are the same where they hold the same two. -/
theorem sorted_eq_sorted_iff {a b : String} :
    (min a b, max a b) = (min u v, max u v) ↔ a = u ∧ b = v ∨ a = v ∧ b = u := by
  rw [Prod.mk.injEq]
  rcases le_total a b with hab | hab <;> rcases le_total u v with huv | huv
  all_goals
    simp only [min_eq_left, min_eq_right, max_eq_left, max_eq_right, hab, huv]
    grind

/-- **What an event links**: two users it is between. -/
theorem link_eq_some_iff (hne : u ≠ v) : link start now e = some (min u v, max u v) ↔
    Bears e ∧ (start ≤ e.occurredAt ∧ e.occurredAt ≤ now) ∧ Joins e u v := by
  unfold link Bears Joins
  cases hcp : e.counterpartyPseudonym with
  | none => simp
  | some c =>
      simp only [Option.getD_some, Option.some.injEq]
      by_cases hbears : e.eventType ∉ counterpartyEventTypes ∨ c = ""
      · rw [if_pos hbears]
        simp only [reduceCtorEq, false_iff]
        grind
      · rw [if_neg hbears]
        by_cases hskip : ¬ (start ≤ e.occurredAt ∧ e.occurredAt ≤ now) ∨ c = e.userPseudonym
        · rw [if_pos hskip]
          simp only [reduceCtorEq, false_iff]
          grind
        · rw [if_neg hskip, Option.some.injEq, sorted_eq_sorted_iff]
          grind

/-- **The interactions of a pair are the events between the two.** -/
theorem interactions_eq {K : Type*} (s : EdgeSettings K) (events : List CanonicalEvent)
    (now : Timestamp) (hne : u ≠ v) : interactions s events now (min u v, max u v) =
      (between (now - s.windowDays * s.clock.day) now events u v).map fun e =>
        ((min u v, max u v), now - e.occurredAt) := by
  unfold interactions links between
  induction events with
  | nil => rfl
  | cons e events ih =>
      rw [List.filterMap_cons]
      by_cases hjoin : Bears e ∧ (now - s.windowDays * s.clock.day ≤ e.occurredAt ∧
          e.occurredAt ≤ now) ∧ Joins e u v
      · rw [(link_eq_some_iff hne).mpr hjoin, Option.map_some, List.filter_cons_of_pos (by simp),
          List.filter_cons_of_pos (a := e) (by simpa using hjoin), List.map_cons]
        exact congrArg _ ih
      · rw [List.filter_cons_of_neg (a := e) (by simpa using hjoin), ← ih]
        cases hpair : link (now - s.windowDays * s.clock.day) now e with
        | none => rfl
        | some pair =>
            have hother : ¬ pair = (min u v, max u v) := by
              rintro rfl
              exact hjoin ((link_eq_some_iff hne).mp hpair)
            rw [Option.map_some, List.filter_cons_of_neg (by simpa using hother)]

/-- **An event links as it does swapped**, where both ends have a name. -/
theorem link_swapEnds (huser : e.userPseudonym ≠ "") (hcp : e.counterpartyPseudonym ≠ some "") :
    link start now (swapEnds e) = link start now e := by
  unfold swapEnds
  cases hc : e.counterpartyPseudonym with
  | none => rfl
  | some c =>
      have hne : c ≠ "" := fun h => hcp (by rw [hc, h])
      unfold link
      simp only [hc, huser, hne, or_false, eq_comm (a := c), min_comm c, max_comm c]

end Links

/-! ## Edges -/

section Build

variable {K : Type*} {s : EdgeSettings K} {now : Timestamp} {events events' : List CanonicalEvent}
variable {edge : WeightedEdge K} {u v : String} {w : K}

/-- **Edges do not depend on the order of their links.** -/
theorem buildEdges_congr [AddCommMonoid K]
    (hlinks : (links (now - s.windowDays * s.clock.day) now events).Perm
      (links (now - s.windowDays * s.clock.day) now events')) :
    buildEdges s events now = buildEdges s events' now := by
  have hkeys : (tally Prod.fst (fun p => s.decay p.2)
      (links (now - s.windowDays * s.clock.day) now events)).keys.Perm
        (tally Prod.fst (fun p => s.decay p.2)
          (links (now - s.windowDays * s.clock.day) now events')).keys := by
    refine (List.perm_ext_iff_of_nodup (Dict.nodup _) (Dict.nodup _)).mpr fun k => ?_
    exact mem_keys_tally.trans ((hlinks.map Prod.fst).mem_iff.trans mem_keys_tally.symm)
  rw [buildEdges_eq, buildEdges_eq]
  dsimp only
  rw [insertionSort_eq_of_perm hkeys fun a _ b _ hab hba => ?_]
  · refine List.filterMap_congr fun pair _ => ?_
    rw [edgeOf_tally, edgeOf_tally]
    have hbetween : (interactions s events now pair).Perm (interactions s events' now pair) :=
      hlinks.filter _
    rw [hbetween.length_eq, (hbetween.map fun p => s.decay p.2).sum_eq]
  · exact Prod.ext_iff.mpr (LexLe.keys_eq hab hba)

/-- The ends of an edge are sorted. -/
theorem lt_of_mem_buildEdges [AddMonoid K] (hedge : edge ∈ buildEdges s events now) :
    edge.userPseudonym < edge.counterpartyPseudonym := by
  obtain ⟨hne, -⟩ := mem_buildEdges.mp hedge
  obtain ⟨p, hp⟩ := List.exists_mem_of_ne_nil _ hne
  unfold interactions at hp
  obtain ⟨hmem, hpair⟩ := List.mem_filter.mp hp
  obtain ⟨e, -, hlink⟩ := List.mem_filterMap.mp hmem
  obtain ⟨pair, hlinked, rfl⟩ := Option.map_eq_some_iff.mp hlink
  obtain rfl := of_decide_eq_true hpair
  have hends := (of_link hlinked).2
  unfold link at hlinked
  split at hlinked
  · cases hlinked
  · split at hlinked
    · cases hlinked
    · split at hlinked
      · cases hlinked
      · have hsorted := Option.some.inj hlinked
        rw [Prod.mk.injEq] at hsorted
        refine lt_of_le_of_ne ?_ hends
        rw [← hsorted.1, ← hsorted.2]
        exact min_le_max

/-- Sorted, the ends of an edge are known from what it links. -/
theorem same_ends {a b : WeightedEdge K} (ha : a.userPseudonym < a.counterpartyPseudonym)
    (hb : b.userPseudonym < b.counterpartyPseudonym) (hua : a.Links u v) (hub : b.Links u v) :
    a.userPseudonym = b.userPseudonym ∧ a.counterpartyPseudonym = b.counterpartyPseudonym := by
  unfold WeightedEdge.Links at hua hub
  rcases hua with ⟨hu, hv⟩ | ⟨hu, hv⟩ <;> rcases hub with ⟨hu', hv'⟩ | ⟨hu', hv'⟩
  · exact ⟨hu.trans hu'.symm, hv.trans hv'.symm⟩
  · rw [hu, hv] at ha
    rw [hu', hv'] at hb
    exact absurd hb ha.not_gt
  · rw [hu, hv] at ha
    rw [hu', hv'] at hb
    exact absurd hb ha.not_gt
  · exact ⟨hv.trans hv'.symm, hu.trans hu'.symm⟩

/-- The ends of an edge say what it weighs. -/
theorem eq_of_mem_buildEdges [AddMonoid K] {a b : WeightedEdge K}
    (ha : a ∈ buildEdges s events now) (hb : b ∈ buildEdges s events now)
    (hends : a.userPseudonym = b.userPseudonym ∧
      a.counterpartyPseudonym = b.counterpartyPseudonym) : a = b := by
  obtain ⟨-, -, hcount, hweight⟩ := mem_buildEdges.mp ha
  obtain ⟨-, -, hcount', hweight'⟩ := mem_buildEdges.mp hb
  rw [hends.1, hends.2, ← hcount'] at hcount
  rw [hends.1, hends.2, ← hweight'] at hweight
  obtain ⟨⟨au, ac⟩, aw, an⟩ := a
  obtain ⟨⟨bu, bc⟩, bw, bn⟩ := b
  simp only at hends hcount hweight
  rw [hends.1, hends.2, hcount, hweight]

/-- **The edge of two users** is what is between them. -/
theorem mem_buildEdges_between [AddMonoid K] (hedge : edge ∈ buildEdges s events now) :
    let joint := between (now - s.windowDays * s.clock.day) now events edge.userPseudonym
      edge.counterpartyPseudonym
    s.minInteractions ≤ joint.length ∧ edge.interactionCount = joint.length ∧
      edge.weight = (joint.map fun e => s.decay (now - e.occurredAt)).sum := by
  have hlt := lt_of_mem_buildEdges hedge
  obtain ⟨-, hmin, hcount, hweight⟩ := mem_buildEdges.mp hedge
  have hjoint := interactions_eq s events now hlt.ne
  rw [min_eq_left hlt.le, max_eq_right hlt.le] at hjoint
  rw [hjoint, List.length_map] at hmin hcount
  rw [hjoint, List.map_map] at hweight
  exact ⟨hmin, hcount, hweight⟩

/-- **Two users with events enough have an edge.** -/
theorem exists_edge [AddMonoid K] (hne : u ≠ v) (hpos : 1 ≤ s.minInteractions)
    (hmin : s.minInteractions ≤
      (between (now - s.windowDays * s.clock.day) now events u v).length) :
    ∃ edge ∈ buildEdges s events now, edge.Links u v := by
  have hjoint := interactions_eq s events now hne
  refine ⟨⟨⟨min u v, max u v⟩,
    ((interactions s events now (min u v, max u v)).map fun p => s.decay p.2).sum,
    (interactions s events now (min u v, max u v)).length⟩,
    mem_buildEdges.mpr ⟨?_, ?_, rfl, rfl⟩, ?_⟩
  · dsimp only
    rw [hjoint, ← List.length_pos_iff, List.length_map]
    omega
  · dsimp only
    rwa [hjoint, List.length_map]
  · unfold WeightedEdge.Links
    dsimp only
    rcases le_total u v with hle | hle
    · rw [min_eq_left hle, max_eq_right hle]
      exact .inl ⟨rfl, rfl⟩
    · rw [min_eq_right hle, max_eq_left hle]
      exact .inr ⟨rfl, rfl⟩

/-- **Edges come sorted**, no pair twice. -/
theorem pairwise_before [Zero K] [Add K] (s : EdgeSettings K) (events : List CanonicalEvent)
    (now : Timestamp) : (buildEdges s events now).Pairwise WeightedEdge.Before := by
  unfold buildEdges
  dsimp only
  generalize events.foldl _ _ = counted
  have hsorted := List.pairwise_insertionSort (LexLe Prod.fst Prod.snd) counted.1.keys
  have hnodup : (counted.1.keys.insertionSort (LexLe Prod.fst Prod.snd)).Nodup :=
    (List.perm_insertionSort _ _).nodup_iff.mpr counted.1.nodup
  refine (hsorted.and hnodup).filterMap _ fun pair pair' hpairs edge hedge edge' hedge' => ?_
  unfold edgeOf at hedge hedge'
  rw [Option.ite_none_right_eq_some] at hedge hedge'
  obtain rfl := Option.some.inj hedge.2
  obtain rfl := Option.some.inj hedge'.2
  obtain ⟨hlt | ⟨heq, hle⟩, hne⟩ := hpairs
  · exact .inl hlt
  · exact .inr ⟨heq, lt_of_le_of_ne hle fun h => hne (Prod.ext heq h)⟩

/-! ## Neighbours from both sides -/

theorem WeightedEdge.Links.symm (h : edge.Links u v) : edge.Links v u := by
  unfold WeightedEdge.Links at h ⊢
  exact h.symm.imp And.symm And.symm

/-- **Of a simple graph the neighbours are those an edge links to**, with its
weight. -/
theorem get?_neighbors {edges : List (WeightedEdge K)}
    (hone : ∀ a ∈ edges, ∀ b ∈ edges, a.Links u v → b.Links u v → a = b) :
    (neighbors u edges).get? v = some w ↔ ∃ edge ∈ edges, edge.Links u v ∧ edge.weight = w := by
  induction edges using List.reverseRecOn with
  | nil =>
      refine iff_of_false (fun h => by cases h) ?_
      rintro ⟨edge, hedge, -⟩
      cases hedge
  | append_singleton edges edge ih =>
      have hadd : (addNeighbor u (neighbors u edges) edge).get? v =
          if edge.userPseudonym = u ∧ edge.counterpartyPseudonym = v ∨
            edge.counterpartyPseudonym = u ∧ edge.userPseudonym = v then some edge.weight
          else (neighbors u edges).get? v := by
        unfold addNeighbor
        split
        · rw [Dict.get?_set]
          grind
        · split
          · rw [Dict.get?_set]
            grind
          · grind
      rw [neighbors_concat, hadd]
      split
      · rename_i hlinks
        constructor
        · intro hw
          exact ⟨edge, by simp, hlinks, Option.some.inj hw⟩
        · rintro ⟨edge', hedge', hlinks', rfl⟩
          rw [hone edge (by simp) edge' hedge' hlinks hlinks']
      · rename_i hlinks
        rw [ih fun a ha b hb => hone a (by simp [ha]) b (by simp [hb])]
        constructor
        · rintro ⟨edge', hedge', hrest⟩
          exact ⟨edge', by simp [hedge'], hrest⟩
        · rintro ⟨edge', hedge', hlinks', hw⟩
          rcases List.mem_append.mp hedge' with hmem | hlast
          · exact ⟨edge', hmem, hlinks', hw⟩
          · rw [List.mem_singleton.mp hlast] at hlinks'
            exact absurd hlinks' hlinks

end Build

/-! ## The decay -/

/-- **What an interaction weighs is in `(0, 1]`.** -/
theorem halfLifeDecay_mem_Ioc (clock : Clock) {halfLifeDays : ℝ} (hhalf : 0 < halfLifeDays)
    {age : ℤ} (hage : 0 ≤ age) : halfLifeDecay clock halfLifeDays age ∈ Set.Ioc (0 : ℝ) 1 := by
  have hday : (0 : ℝ) < clock.day := by exact_mod_cast clock.day_pos
  have hage' : (0 : ℝ) ≤ age := by exact_mod_cast hage
  have hlives : 0 ≤ (age : ℝ) / clock.day / halfLifeDays :=
    div_nonneg (div_nonneg hage' hday.le) hhalf.le
  have hbase : (0 : ℝ) < ((2 : ℕ) : ℝ)⁻¹ := by positivity
  have hbase' : ((2 : ℕ) : ℝ)⁻¹ ≤ 1 := by norm_num
  exact ⟨Real.rpow_pos_of_pos hbase _, Real.rpow_le_one hbase.le hbase' hlives⟩

/-! ## The graph -/

/-- **The same events**, in another order, some of them with user and
counterparty swapped. An end without a name is no counterparty, so events
with one stay as they are. -/
def SameUndirected (events events' : List CanonicalEvent) : Prop :=
  ∃ turned, List.Forall₂ (fun e e' => e' = e ∨ e' = swapEnds e ∧ e.userPseudonym ≠ "" ∧
    e.counterpartyPseudonym ≠ some "") events turned ∧ turned.Perm events'

theorem SameUndirected.perm_links {events events' : List CanonicalEvent}
    (h : SameUndirected events events') (start now : Timestamp) :
    (links start now events).Perm (links start now events') := by
  obtain ⟨turned, hturned, hperm⟩ := h
  have hsame : links start now events = links start now turned := by
    clear hperm
    unfold links
    induction hturned with
    | nil => rfl
    | @cons e e' events turned hstep _ ih =>
        have hlink : link start now e' = link start now e ∧ e'.occurredAt = e.occurredAt := by
          rcases hstep with rfl | ⟨rfl, huser, hcp⟩
          · exact ⟨rfl, rfl⟩
          · refine ⟨link_swapEnds huser hcp, ?_⟩
            unfold swapEnds
            split <;> rfl
        rw [List.filterMap_cons, List.filterMap_cons, hlink.1, hlink.2, ih]
  rw [hsame]
  exact hperm.filterMap _

/-- **`build_edges` builds a simple undirected graph.** -/
theorem buildEdges_simpleGraph {clock : Clock} {windowDays : ℤ} {halfLifeDays : ℝ}
    {minInteractions : ℤ} (hhalf : 0 < halfLifeDays) (hmin : 1 ≤ minInteractions)
    (events : List CanonicalEvent) (now : Timestamp) :
    let s := halfLifeSettings clock windowDays halfLifeDays minInteractions
    let edges := buildEdges s events now
    let joint := between (now - windowDays * clock.day) now events
    (∀ edge ∈ edges, edge.userPseudonym < edge.counterpartyPseudonym) ∧
    edges.Pairwise WeightedEdge.Before ∧
    (∀ u v, ∀ a ∈ edges, ∀ b ∈ edges, a.Links u v → b.Links u v → a = b) ∧
    (∀ edge ∈ edges,
      edge.interactionCount = (joint edge.userPseudonym edge.counterpartyPseudonym).length ∧
      minInteractions ≤ edge.interactionCount ∧
      edge.weight = ((joint edge.userPseudonym edge.counterpartyPseudonym).map fun e =>
        halfLifeDecay clock halfLifeDays (now - e.occurredAt)).sum) ∧
    (∀ u v, ∀ e ∈ joint u v,
      halfLifeDecay clock halfLifeDays (now - e.occurredAt) ∈ Set.Ioc (0 : ℝ) 1) ∧
    (∀ u v, u ≠ v → minInteractions ≤ (joint u v).length → ∃ edge ∈ edges, edge.Links u v) ∧
    (∀ events', SameUndirected events events' → buildEdges s events' now = edges) ∧
    ∀ u v w, (neighbors u edges).get? v = some w ↔ (neighbors v edges).get? u = some w := by
  intro s edges joint
  have hsorted : ∀ edge ∈ edges, edge.userPseudonym < edge.counterpartyPseudonym :=
    fun edge hedge => lt_of_mem_buildEdges hedge
  have hbefore : edges.Pairwise WeightedEdge.Before := pairwise_before s events now
  have hone : ∀ u v, ∀ a ∈ edges, ∀ b ∈ edges, a.Links u v → b.Links u v → a = b := by
    intro u v a ha b hb hua hub
    exact eq_of_mem_buildEdges ha hb (same_ends (hsorted a ha) (hsorted b hb) hua hub)
  refine ⟨hsorted, hbefore, hone, fun edge hedge => ?_, fun u v e he => ?_,
    fun u v hne hcount => ?_, fun events' hsame => ?_, fun u v w => ?_⟩
  · obtain ⟨hle, hcount, hweight⟩ := mem_buildEdges_between hedge
    exact ⟨hcount, hcount ▸ hle, hweight⟩
  · have hmem := of_decide_eq_true (List.mem_filter.mp he).2
    exact halfLifeDecay_mem_Ioc clock hhalf (Int.sub_nonneg_of_le hmem.2.1.2)
  · exact exists_edge hne hmin hcount
  · exact (buildEdges_congr (hsame.perm_links _ now)).symm
  · rw [get?_neighbors (hone u v), get?_neighbors (hone v u)]
    constructor
    · rintro ⟨edge, hedge, hlinks, hw⟩
      exact ⟨edge, hedge, hlinks.symm, hw⟩
    · rintro ⟨edge, hedge, hlinks, hw⟩
      exact ⟨edge, hedge, hlinks.symm, hw⟩

/-- A transfer of a day ago and one back, in a window of ninety days. -/
def p2p (id payer payee : String) : CanonicalEvent where
  clientEventId := id
  eventType := .p2pTransfer
  occurredAt := 913600
  userPseudonym := payer
  amountIdr := some 1000
  counterpartyPseudonym := some payee
  attributes := []

/-- Two transfers, one each way, are one edge of two interactions. -/
theorem buildEdges_simpleGraph_pair :
    let edges := buildEdges (halfLifeSettings secondsClock 90 21 2)
      [p2p "1" "a" "b", p2p "2" "b" "a"] 1000000
    (∃ edge ∈ edges, edge.Links "a" "b") ∧ edges.Pairwise WeightedEdge.Before := by
  have hgraph := @buildEdges_simpleGraph secondsClock 90 21 2 (by norm_num) (by decide)
    [p2p "1" "a" "b", p2p "2" "b" "a"] 1000000
  exact ⟨hgraph.2.2.2.2.2.1 "a" "b" (by decide) (by decide), hgraph.2.1⟩

/-- **An end without a name is none**: a transfer from the user `""` is an
interaction with `a`, and swapped it is one with nobody. -/
theorem buildEdges_swapEnds_ne :
    let s := halfLifeSettings secondsClock 90 21 1
    buildEdges s [swapEnds (p2p "1" "" "a")] 1000000 ≠
      buildEdges s [p2p "1" "" "a"] 1000000 := by
  intro s hsame
  obtain ⟨edge, hedge, -⟩ : ∃ edge ∈ buildEdges s [p2p "1" "" "a"] 1000000, edge.Links "" "a" :=
    exists_edge (by decide) (by decide) (by decide)
  rw [← hsame, mem_buildEdges] at hedge
  have hnone : links (1000000 - s.windowDays * s.clock.day) 1000000
      [swapEnds (p2p "1" "" "a")] = [] := by decide
  obtain ⟨hsome, -⟩ := hedge
  unfold interactions at hsome
  rw [hnone] at hsome
  exact hsome rfl

end GraphSignal

end RetentionEngine
