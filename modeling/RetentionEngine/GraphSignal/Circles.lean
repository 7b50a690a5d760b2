import RetentionEngine.Common.Dict
import RetentionEngine.Contracts.Decision
import RetentionEngine.Contracts.Hashes
import Mathlib.Data.List.Pairwise
import Mathlib.Data.List.Sort
import Mathlib.Data.Int.Basic

/-!
# Circles

`graph_signal.circles.find_circles`: union-find over the edges, and a
circle for every group of nodes with one root. The `while` of `find` is
given as many turns as there are nodes. That circles share no member, and
hold none twice, does not depend on the roots being right: every node is
put into one group, the group of whatever root `find` returns.
-/

namespace RetentionEngine

namespace GraphSignal

/-- `parent[x]`. -/
def parentOf (parent : Dict String String) (x : String) : String := (parent.get? x).getD x

/-- The `while` of `find`, path halving included. -/
def findLoop : ℕ → Dict String String → String → Dict String String × String
  | 0, parent, x => (parent, x)
  | fuel + 1, parent, x =>
      if parentOf parent x = x then (parent, x)
      else
        let up := parentOf parent (parentOf parent x)
        findLoop fuel (parent.set x up) up

/-- `find`. -/
def find (parent : Dict String String) (x : String) : Dict String String × String :=
  let parent := parent.setDefault x x
  findLoop parent.keys.length parent x

/-- The body of the loop over the edges. -/
def union (parent : Dict String String) (edge : Edge) : Dict String String :=
  let (parent, ra) := find parent edge.userPseudonym
  let (parent, rb) := find parent edge.counterpartyPseudonym
  if ra ≠ rb then parent.set (max ra rb) (min ra rb) else parent

/-- The roots of the nodes, each found in the forest the ones before left. -/
def roots : Dict String String → List String → List (String × String)
  | _, [] => []
  | parent, node :: nodes =>
      let (parent, root) := find parent node
      (root, node) :: roots parent nodes

/-- The nodes by root. -/
def groups (edges : List Edge) : Dict String (List (String × String)) :=
  let parent := edges.foldl union .empty
  Dict.groupBy Prod.fst (roots parent parent.keys)

variable (h : Hashes)

/-- The circle of a group. -/
def circleOf (group : List (String × String)) : Circle :=
  let ordered := (group.map Prod.snd).insertionSort (· ≤ ·)
  { circleId := h.circleId ordered, members := ordered }

/-- `find_circles`. -/
def findCircles (edges : List Edge) (minSize : ℤ) : List Circle :=
  (((groups edges).values.filter fun group => minSize ≤ group.length).map
    (circleOf h)).insertionSort fun c c' => c.circleId ≤ c'.circleId

/-! ## Circles are disjoint -/

variable {h} {edges : List Edge} {minSize : ℤ} {c c' : Circle}

theorem map_snd_roots (parent : Dict String String) (nodes : List String) :
    (roots parent nodes).map Prod.snd = nodes := by
  induction nodes generalizing parent with
  | nil => rfl
  | cons node nodes ih =>
      unfold roots
      dsimp only
      rw [List.map_cons, ih]

/-- The node of a pair is a node once. -/
theorem nodup_roots (parent : Dict String String) :
    ((roots parent parent.keys).map Prod.snd).Nodup := by
  rw [map_snd_roots]
  exact parent.nodup

theorem mem_circleOf {group : List (String × String)} {u : String} :
    u ∈ (circleOf h group).members ↔ ∃ root, (root, u) ∈ group := by
  unfold circleOf
  simp only [(List.perm_insertionSort _ _).mem_iff, List.mem_map, Prod.exists, exists_eq_right]

/-- **A circle holds no member twice.** -/
theorem nodup_members (hc : c ∈ findCircles h edges minSize) : c.members.Nodup := by
  unfold findCircles at hc
  obtain ⟨group, hgroup, rfl⟩ := List.mem_map.mp ((List.perm_insertionSort _ _).mem_iff.mp hc)
  obtain ⟨p, hp, rfl⟩ := List.mem_map.mp (List.mem_of_mem_filter hgroup)
  obtain ⟨-, hfilter⟩ := Dict.mem_entries_groupBy.mp (show (p.1, p.2) ∈ _ from hp)
  unfold circleOf
  rw [(List.perm_insertionSort _ _).nodup_iff, hfilter]
  exact (List.filter_sublist.map _).nodup (nodup_roots _)

/-- **Two circles share no member.** -/
theorem pairwise_disjoint_findCircles (h : Hashes) (edges : List Edge) (minSize : ℤ) :
    (findCircles h edges minSize).Pairwise fun c c' => c.members.Disjoint c'.members := by
  unfold findCircles
  refine ((List.perm_insertionSort _ _).pairwise_iff fun hd => List.disjoint_symm hd).mpr ?_
  refine List.pairwise_map.mpr (List.Pairwise.filter _ ?_)
  unfold Dict.values
  refine List.pairwise_map.mpr ?_
  -- entries of different roots; a shared node would be under both
  refine (List.pairwise_map.mp (groups edges).nodup).imp_of_mem fun {p q} hp hq hne u hu hu' => ?_
  obtain ⟨root, hroot⟩ := mem_circleOf.mp hu
  obtain ⟨root', hroot'⟩ := mem_circleOf.mp hu'
  obtain ⟨-, hp'⟩ := Dict.mem_entries_groupBy.mp (show (p.1, p.2) ∈ _ from hp)
  obtain ⟨-, hq'⟩ := Dict.mem_entries_groupBy.mp (show (q.1, q.2) ∈ _ from hq)
  rw [hp'] at hroot
  rw [hq'] at hroot'
  obtain ⟨hmem, hkey⟩ := List.mem_filter.mp hroot
  obtain ⟨hmem', hkey'⟩ := List.mem_filter.mp hroot'
  have heq := List.inj_on_of_nodup_map (nodup_roots _) hmem hmem' rfl
  rw [Prod.mk.injEq] at heq
  exact hne ((of_decide_eq_true hkey).symm.trans (heq.1.trans (of_decide_eq_true hkey')))

/-- Circles that share a member are one circle. -/
theorem eq_of_mem_members (hc : c ∈ findCircles h edges minSize)
    (hc' : c' ∈ findCircles h edges minSize) {u : String} (hu : u ∈ c.members)
    (hu' : u ∈ c'.members) : c = c' := by
  by_contra hne
  have : Std.Symm fun c c' : Circle => c.members.Disjoint c'.members :=
    ⟨fun _ _ hd => List.disjoint_symm hd⟩
  exact (pairwise_disjoint_findCircles h edges minSize).forall hc hc' hne hu hu'

/-! ## Circles are made of endpoints -/

/-- Every node and every parent meets `P`. -/
def Within (P : String → Prop) (parent : Dict String String) : Prop :=
  ∀ k v, parent.get? k = some v → P k ∧ P v

variable {P : String → Prop} {parent : Dict String String} {x y : String}

theorem Within.parentOf (hw : Within P parent) (hx : P x) : P (parentOf parent x) := by
  unfold GraphSignal.parentOf
  cases hget : parent.get? x with
  | none => exact hx
  | some v => exact (hw x v hget).2

theorem Within.set (hw : Within P parent) (hx : P x) (hy : P y) : Within P (parent.set x y) := by
  intro k v hget
  rw [Dict.get?_set] at hget
  split at hget
  · rename_i hk
    obtain rfl := Option.some.inj hget
    exact ⟨hk ▸ hx, hy⟩
  · exact hw k v hget

theorem Within.setDefault (hw : Within P parent) (hx : P x) : Within P (parent.setDefault x x) := by
  intro k v hget
  rw [Dict.get?_setDefault] at hget
  split at hget
  · rename_i hk
    obtain rfl := Option.some.inj hget
    exact ⟨hk ▸ hx, hw.parentOf hx⟩
  · exact hw k v hget

theorem Within.findLoop (fuel : ℕ) (hw : Within P parent) (hx : P x) :
    Within P (findLoop fuel parent x).1 ∧ P (GraphSignal.findLoop fuel parent x).2 := by
  induction fuel generalizing parent x with
  | zero => exact ⟨hw, hx⟩
  | succ fuel ih =>
      unfold GraphSignal.findLoop
      split
      · exact ⟨hw, hx⟩
      · have hup := hw.parentOf (hw.parentOf hx)
        exact ih (hw.set hx hup) hup

/-- `find` stays within what it is given. -/
theorem Within.find (hw : Within P parent) (hx : P x) :
    Within P (find parent x).1 ∧ P (GraphSignal.find parent x).2 :=
  (hw.setDefault hx).findLoop _ hx

theorem Within.union {edge : Edge} (hw : Within P parent) (hu : P edge.userPseudonym)
    (hc : P edge.counterpartyPseudonym) : Within P (union parent edge) := by
  obtain ⟨hwa, ha⟩ := hw.find hu
  obtain ⟨hwb, hb⟩ := hwa.find hc
  unfold GraphSignal.union
  dsimp only
  split
  · rcases le_total (GraphSignal.find parent edge.userPseudonym).2
      (GraphSignal.find (GraphSignal.find parent edge.userPseudonym).1
        edge.counterpartyPseudonym).2 with hle | hle
    · rw [max_eq_right hle, min_eq_left hle]
      exact hwb.set hb ha
    · rw [max_eq_left hle, min_eq_right hle]
      exact hwb.set ha hb
  · exact hwb

/-- **A member of a circle is an endpoint of an edge.** -/
theorem of_mem_members (hc : c ∈ findCircles h edges minSize) {u : String} (hu : u ∈ c.members)
    (hedges : ∀ edge ∈ edges, P edge.userPseudonym ∧ P edge.counterpartyPseudonym) : P u := by
  have hwithin : Within P (edges.foldl union .empty) := by
    refine List.foldlRecOn edges union ?_ fun parent hw edge hedge =>
      hw.union (hedges edge hedge).1 (hedges edge hedge).2
    intro k v hget
    cases hget
  unfold findCircles at hc
  obtain ⟨group, hgroup, rfl⟩ := List.mem_map.mp ((List.perm_insertionSort _ _).mem_iff.mp hc)
  obtain ⟨p, hp, rfl⟩ := List.mem_map.mp (List.mem_of_mem_filter hgroup)
  obtain ⟨-, hfilter⟩ := Dict.mem_entries_groupBy.mp (show (p.1, p.2) ∈ _ from hp)
  obtain ⟨root, hroot⟩ := mem_circleOf.mp hu
  rw [hfilter] at hroot
  have hkey := List.mem_map_of_mem (f := Prod.snd) (List.mem_of_mem_filter hroot)
  rw [map_snd_roots] at hkey
  obtain ⟨v, hv⟩ := Dict.mem_keys.mp hkey
  exact (hwithin u v (Dict.get?_eq_some.mpr hv)).1

/-- A circle has a member. -/
theorem members_ne_nil (hc : c ∈ findCircles h edges minSize) : c.members ≠ [] := by
  unfold findCircles at hc
  obtain ⟨group, hgroup, rfl⟩ := List.mem_map.mp ((List.perm_insertionSort _ _).mem_iff.mp hc)
  obtain ⟨p, hp, rfl⟩ := List.mem_map.mp (List.mem_of_mem_filter hgroup)
  obtain ⟨hkey, hfilter⟩ := Dict.mem_entries_groupBy.mp (show (p.1, p.2) ∈ _ from hp)
  obtain ⟨q, hq, hroot⟩ := List.mem_map.mp hkey
  refine List.ne_nil_of_mem (a := q.2) (mem_circleOf.mpr ⟨q.1, ?_⟩)
  rw [hfilter]
  exact List.mem_filter.mpr ⟨hq, decide_eq_true hroot⟩

/-- The id of a circle is cut from a digest. -/
theorem circleId_eq (hc : c ∈ findCircles h edges minSize) : c.circleId = h.circleId c.members := by
  unfold findCircles at hc
  obtain ⟨group, -, rfl⟩ := List.mem_map.mp ((List.perm_insertionSort _ _).mem_iff.mp hc)
  rfl

end GraphSignal

end RetentionEngine
