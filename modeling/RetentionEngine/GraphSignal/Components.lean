import RetentionEngine.Common.Lists
import RetentionEngine.Common.UnionFind
import RetentionEngine.GraphSignal.Circles
import Mathlib.Data.Set.Card

/-!
# Circles are the connected components

The dictionary of `find_circles` is a forest in the sense of
`Common.UnionFind`: a parent never comes after its child, `find` halves
paths until it stands at a root, and the loop over the edges links the
later root under the earlier. `Sound` is kept by every turn, the `while`
of `find` runs out within as many turns as there are nodes before its
argument, and after the edges two nodes have one root exactly if the
edges connect them.
-/

namespace RetentionEngine

namespace GraphSignal

open UnionFind

variable {parent parent' : Dict String String} {x y r : String}

/-! ## The dictionary as a forest -/

theorem parentOf_set (parent : Dict String String) (x y : String) :
    parentOf (parent.set x y) = Function.update (parentOf parent) x y := by
  funext z
  unfold parentOf
  rw [Dict.get?_set]
  by_cases hz : z = x
  · subst hz
    rw [if_pos rfl, Function.update_self]
    rfl
  · rw [if_neg hz, Function.update_of_ne hz]

/-- A node that is new is its own parent, as it was. -/
theorem parentOf_setDefault (parent : Dict String String) (x : String) :
    parentOf (parent.setDefault x x) = parentOf parent := by
  funext z
  unfold parentOf
  rw [Dict.get?_setDefault]
  by_cases hz : z = x
  · subst hz
    rw [if_pos rfl]
    rfl
  · rw [if_neg hz]

/-- **The forest of a run**: parents are nodes. -/
structure Sound (parent : Dict String String) : Prop where
  forest : Forest (parentOf parent)
  closed : ∀ x ∈ parent.keys, parentOf parent x ∈ parent.keys

/-- **The forest changed, its nodes and roots did not.** -/
structure Same (parent parent' : Dict String String) : Prop where
  keys_eq : parent'.keys = parent.keys
  reaches_iff : ∀ x r, Reaches (parentOf parent') x r ↔ Reaches (parentOf parent) x r

theorem Same.trans {parent'' : Dict String String} (h : Same parent parent')
    (h' : Same parent' parent'') : Same parent parent'' where
  keys_eq := h'.keys_eq.trans h.keys_eq
  reaches_iff x r := (h'.reaches_iff x r).trans (h.reaches_iff x r)

theorem keys_set_of_mem (hx : x ∈ parent.keys) : (parent.set x y).keys = parent.keys := by
  unfold Dict.set
  rw [Dict.keys_alter, if_pos hx]

/-- **One turn of the `while`.** -/
theorem Sound.halve (hs : Sound parent) (hx : x ∈ parent.keys) :
    Sound (parent.set x (parentOf parent (parentOf parent x))) ∧
      Same parent (parent.set x (parentOf parent (parentOf parent x))) := by
  obtain ⟨hforest, hreaches⟩ := hs.forest.halve x
  rw [← parentOf_set] at hforest hreaches
  refine ⟨⟨hforest, fun y hy => ?_⟩, ⟨keys_set_of_mem hx, hreaches⟩⟩
  rw [keys_set_of_mem hx] at hy ⊢
  rw [parentOf_set]
  by_cases hyx : y = x
  · subst hyx
    rw [Function.update_self]
    exact hs.closed _ (hs.closed _ hy)
  · rw [Function.update_of_ne hyx]
    exact hs.closed _ hy

/-! ## `find` -/

/-- **A `while` that ends**: from `parent` and `x`, with `parent'` and `r`. -/
inductive Finds : Dict String String → String → Dict String String → String → Prop
  | done {parent : Dict String String} {x : String} (h : parentOf parent x = x) :
      Finds parent x parent x
  | turn {parent parent' : Dict String String} {x r : String} (hne : parentOf parent x ≠ x)
      (h : Finds (parent.set x (parentOf parent (parentOf parent x)))
        (parentOf parent (parentOf parent x)) parent' r) : Finds parent x parent' r

/-- How many nodes come before `x`. -/
def before (keys : List String) (x : String) : ℕ := (keys.filter fun k => k < x).length

theorem before_lt {keys : List String} (hmem : y ∈ keys) (hlt : y < x) :
    before keys y < before keys x := by
  have hsub : (keys.filter fun k => k < y) =
      (keys.filter fun k => k < x).filter fun k => k < y := by
    rw [List.filter_filter]
    refine List.filter_congr fun k _ => ?_
    by_cases hk : k < y
    · simp [hk, hk.trans hlt]
    · simp [hk]
  unfold before
  rw [hsub, List.length_filter_lt_length_iff_exists]
  refine ⟨y, List.mem_filter.mpr ⟨hmem, decide_eq_true hlt⟩, ?_⟩
  simp

/-- **`find` ends at the root**, with turns for every node before `x`. -/
theorem findLoop_spec (fuel : ℕ) (hs : Sound parent) (hx : x ∈ parent.keys)
    (hfuel : before parent.keys x ≤ fuel) :
    Finds parent x (findLoop fuel parent x).1 (findLoop fuel parent x).2 ∧
      Sound (findLoop fuel parent x).1 ∧ Same parent (findLoop fuel parent x).1 ∧
      Reaches (parentOf parent) x (findLoop fuel parent x).2 := by
  induction fuel generalizing parent x with
  | zero =>
      have hroot : parentOf parent x = x := by
        by_contra hne
        have hlt := before_lt (hs.closed x hx) (hs.forest.parent_lt hne)
        omega
      exact ⟨.done hroot, hs, ⟨rfl, fun _ _ => .rfl⟩, .root hroot⟩
  | succ fuel ih =>
      unfold findLoop
      split
      · rename_i hroot
        exact ⟨.done hroot, hs, ⟨rfl, fun _ _ => .rfl⟩, .root hroot⟩
      · rename_i hne
        obtain ⟨hs', hsame⟩ := hs.halve hx
        have hup := hs.closed _ (hs.closed x hx)
        have hlt : parentOf parent (parentOf parent x) < x :=
          (hs.forest.descends _).trans_lt (hs.forest.parent_lt hne)
        have hbefore := before_lt hup hlt
        obtain ⟨hfinds, hsound, hthen, hreaches⟩ := ih hs' (hsame.keys_eq ▸ hup)
          (by rw [hsame.keys_eq]; omega)
        refine ⟨.turn hne hfinds, hsound, hsame.trans hthen, ?_⟩
        exact .of_parent (.of_parent ((hsame.reaches_iff _ _).mp hreaches))

theorem Sound.setDefault (hs : Sound parent) (x : String) : Sound (parent.setDefault x x) where
  forest := by
    rw [parentOf_setDefault]
    exact hs.forest
  closed y hy := by
    rw [parentOf_setDefault]
    rw [Dict.mem_keys_setDefault] at hy ⊢
    by_cases hmem : y ∈ parent.keys
    · exact Or.inr (hs.closed y hmem)
    · left
      unfold parentOf
      rw [Dict.get?_eq_none.mpr hmem]
      exact hy.resolve_right hmem

/-- **What `find` does**: it adds its argument to the nodes, keeps every root
and returns that of its argument. -/
structure FindSpec (parent : Dict String String) (x : String) (parent' : Dict String String)
    (r : String) : Prop where
  finds : Finds (parent.setDefault x x) x parent' r
  sound : Sound parent'
  mem_keys : ∀ y, y ∈ parent'.keys ↔ y = x ∨ y ∈ parent.keys
  reaches_iff : ∀ y s, Reaches (parentOf parent') y s ↔ Reaches (parentOf parent) y s
  reaches : Reaches (parentOf parent) x r

theorem find_spec (hs : Sound parent) (x : String) :
    FindSpec parent x (find parent x).1 (find parent x).2 := by
  have hx : x ∈ (parent.setDefault x x).keys := Dict.mem_keys_setDefault.mpr (Or.inl rfl)
  obtain ⟨hfinds, hsound, hsame, hreaches⟩ := findLoop_spec _ (hs.setDefault x) hx
    (List.length_filter_le _ _)
  rw [parentOf_setDefault] at hreaches
  refine ⟨hfinds, hsound, fun y => ?_, fun y s => ?_, hreaches⟩
  · rw [show (find parent x).1.keys = _ from hsame.keys_eq, Dict.mem_keys_setDefault]
  · rw [show Reaches (parentOf (find parent x).1) y s ↔ _ from hsame.reaches_iff y s,
      parentOf_setDefault]

/-! ## The loop over the edges -/

/-- The body of the loop over the edges, where both `while` loops end. -/
inductive UnionsOne (parent : Dict String String) (edge : Edge) : Dict String String → Prop
  | mk {p₁ p₂ : Dict String String} {ra rb : String}
      (ha : Finds (parent.setDefault edge.userPseudonym edge.userPseudonym)
        edge.userPseudonym p₁ ra)
      (hb : Finds (p₁.setDefault edge.counterpartyPseudonym edge.counterpartyPseudonym)
        edge.counterpartyPseudonym p₂ rb) :
      UnionsOne parent edge (if ra ≠ rb then p₂.set (max ra rb) (min ra rb) else p₂)

/-- **What one edge does**: its ends are nodes, and their classes are one. -/
structure UnionSpec (parent : Dict String String) (edge : Edge) (parent' : Dict String String) :
    Prop where
  unions : UnionsOne parent edge parent'
  sound : Sound parent'
  mem_keys : ∀ y, y ∈ parent'.keys ↔
    (y = edge.userPseudonym ∨ y = edge.counterpartyPseudonym) ∨ y ∈ parent.keys
  sameRoot_iff : ∀ y z, SameRoot (parentOf parent') y z ↔ SameRoot (parentOf parent) y z ∨
    (SameRoot (parentOf parent) y edge.userPseudonym ∧
      SameRoot (parentOf parent) z edge.counterpartyPseudonym) ∨
    (SameRoot (parentOf parent) y edge.counterpartyPseudonym ∧
      SameRoot (parentOf parent) z edge.userPseudonym)

theorem Sound.mem_keys_of_reaches (hs : Sound parent) (hx : x ∈ parent.keys)
    (h : Reaches (parentOf parent) x r) : r ∈ parent.keys := by
  induction h with
  | root _ => exact hx
  | step _ _ ih => exact ih (hs.closed _ hx)

/-- A root linked under another. -/
theorem Sound.link {a b : String} (hs : Sound parent) (ha : parentOf parent a = a)
    (hb : parentOf parent b = b) (hlt : a < b) (hmema : a ∈ parent.keys) (hmemb : b ∈ parent.keys) :
    Sound (parent.set b a) := by
  refine ⟨?_, fun y hy => ?_⟩
  · rw [parentOf_set]
    exact hs.forest.link ha hb hlt
  · rw [keys_set_of_mem hmemb] at hy ⊢
    rw [parentOf_set]
    by_cases hyb : y = b
    · subst hyb
      rwa [Function.update_self]
    · rw [Function.update_of_ne hyb]
      exact hs.closed y hy

theorem sameRoot_of_reaches {f : String → String} (hx : Reaches f x r) (y : String) :
    SameRoot f y x ↔ Reaches f y r :=
  ⟨fun ⟨_, hy, hx'⟩ => hx'.unique hx ▸ hy, fun hy => ⟨r, hy, hx⟩⟩

theorem union_spec (hs : Sound parent) (edge : Edge) :
    UnionSpec parent edge (union parent edge) := by
  have ha := find_spec hs edge.userPseudonym
  have hb := find_spec ha.sound edge.counterpartyPseudonym
  have hunions : UnionsOne parent edge (union parent edge) := .mk ha.finds hb.finds
  unfold union at hunions ⊢
  dsimp only at hunions ⊢
  generalize find parent edge.userPseudonym = pa at ha hb hunions ⊢
  obtain ⟨p₁, ra⟩ := pa
  dsimp only at ha hb hunions ⊢
  generalize find p₁ edge.counterpartyPseudonym = pb at hb hunions ⊢
  obtain ⟨p₂, rb⟩ := pb
  dsimp only at hb hunions ⊢
  have hiff : ∀ y s, Reaches (parentOf p₂) y s ↔ Reaches (parentOf parent) y s := fun y s =>
    (hb.reaches_iff y s).trans (ha.reaches_iff y s)
  have hra := ha.reaches
  have hrb := (ha.reaches_iff _ _).mp hb.reaches
  have hsame : ∀ y z, SameRoot (parentOf p₂) y z ↔ SameRoot (parentOf parent) y z := by
    intro y z
    unfold SameRoot
    simp only [hiff]
  have hkeys : ∀ y, y ∈ p₂.keys ↔
      (y = edge.userPseudonym ∨ y = edge.counterpartyPseudonym) ∨ y ∈ parent.keys := by
    intro y
    rw [hb.mem_keys, ha.mem_keys]
    tauto
  have hmema : ra ∈ p₂.keys := hb.sound.mem_keys_of_reaches ((hkeys _).mpr (Or.inl (Or.inl rfl)))
    ((hiff _ _).mpr hra)
  have hmemb : rb ∈ p₂.keys := hb.sound.mem_keys_of_reaches ((hkeys _).mpr (Or.inl (Or.inr rfl)))
    ((hiff _ _).mpr hrb)
  have hroota := ((hiff _ _).mpr hra).isRoot
  have hrootb := ((hiff _ _).mpr hrb).isRoot
  by_cases heq : ra = rb
  · rw [if_neg (not_not.mpr heq)] at hunions ⊢
    subst heq
    refine ⟨hunions, hb.sound, hkeys, fun y z => ?_⟩
    rw [hsame]
    simp only [sameRoot_of_reaches hra, sameRoot_of_reaches hrb]
    refine ⟨Or.inl, fun h => ?_⟩
    rcases h with h | ⟨hy, hz⟩ | ⟨hy, hz⟩
    · exact h
    · exact ⟨ra, hy, hz⟩
    · exact ⟨ra, hy, hz⟩
  · rw [if_pos heq] at hunions ⊢
    rcases lt_or_gt_of_ne heq with hlt | hlt
    · rw [max_eq_right hlt.le, min_eq_left hlt.le] at hunions ⊢
      refine ⟨hunions, hb.sound.link hroota hrootb hlt hmema hmemb, ?_, fun y z => ?_⟩
      · rwa [keys_set_of_mem hmemb]
      · rw [parentOf_set, hb.sound.forest.sameRoot_link hroota hrootb hlt, hsame]
        simp only [sameRoot_of_reaches hra, sameRoot_of_reaches hrb, hiff]
    · rw [max_eq_left hlt.le, min_eq_right hlt.le] at hunions ⊢
      refine ⟨hunions, hb.sound.link hrootb hroota hlt hmemb hmema, ?_, fun y z => ?_⟩
      · rwa [keys_set_of_mem hmema]
      · rw [parentOf_set, hb.sound.forest.sameRoot_link hrootb hroota hlt, hsame]
        simp only [sameRoot_of_reaches hra, sameRoot_of_reaches hrb, hiff]
        exact or_congr_right or_comm

/-- An edge leads from `u` to `v`. -/
def Linked (edges : List Edge) (u v : String) : Prop :=
  ∃ e ∈ edges, e.userPseudonym = u ∧ e.counterpartyPseudonym = v

/-- **`u` and `v` are connected** in the undirected graph of the edges. -/
def Connected (edges : List Edge) : String → String → Prop := Relation.EqvGen (Linked edges)

/-- A node of the graph. -/
def IsNode (edges : List Edge) (u : String) : Prop :=
  ∃ e ∈ edges, u = e.userPseudonym ∨ u = e.counterpartyPseudonym

/-- The loop over the edges, where every `while` loop ends. -/
inductive UnionsAll : List Edge → Dict String String → Prop
  | nil : UnionsAll [] .empty
  | concat {edges : List Edge} {parent parent' : Dict String String} {edge : Edge}
      (h : UnionsAll edges parent) (hone : UnionsOne parent edge parent') :
      UnionsAll (edges ++ [edge]) parent'

theorem linked_concat (edges : List Edge) (e : Edge) : Linked (edges ++ [e]) =
    fun u v => Linked edges u v ∨ u = e.userPseudonym ∧ v = e.counterpartyPseudonym := by
  funext u v
  refine propext ?_
  unfold Linked
  simp only [List.mem_append, List.mem_singleton, or_and_right, exists_or, exists_eq_left]
  exact or_congr_right (and_congr eq_comm eq_comm)

theorem isNode_concat (edges : List Edge) (e : Edge) (u : String) : IsNode (edges ++ [e]) u ↔
    (u = e.userPseudonym ∨ u = e.counterpartyPseudonym) ∨ IsNode edges u := by
  unfold IsNode
  simp only [List.mem_append, List.mem_singleton, or_and_right, exists_or, exists_eq_left]
  exact or_comm

/-- **After the edges the classes of the forest are the components.** -/
structure ForestOf (edges : List Edge) (parent : Dict String String) : Prop where
  unions : UnionsAll edges parent
  sound : Sound parent
  mem_keys : ∀ u, u ∈ parent.keys ↔ IsNode edges u
  sameRoot_iff : ∀ u v, SameRoot (parentOf parent) u v ↔ Connected edges u v

theorem parentOf_empty (x : String) : parentOf .empty x = x := rfl

theorem forestOf_empty : ForestOf [] .empty where
  unions := .nil
  sound := ⟨⟨fun _ => le_rfl, fun x => ⟨x, .root (parentOf_empty x)⟩⟩, fun x hx => by simp at hx⟩
  mem_keys u := by simp [IsNode]
  sameRoot_iff u v := by
    constructor
    · rintro ⟨r, hu, hv⟩
      rw [← hu.eq_of_isRoot (parentOf_empty u), ← hv.eq_of_isRoot (parentOf_empty v)]
      exact .refl r
    · intro h
      induction h with
      | rel u v h => simp [Linked] at h
      | refl u => exact ⟨u, .root (parentOf_empty u), .root (parentOf_empty u)⟩
      | symm u v _ ih => exact ih.imp fun _ h => h.symm
      | trans u v w _ _ ih ih' =>
          obtain ⟨r, hu, hv⟩ := ih
          obtain ⟨s, hv', hw⟩ := ih'
          exact ⟨r, hu, hv.unique hv' ▸ hw⟩

theorem forestOf_union (edges : List Edge) : ForestOf edges (edges.foldl union .empty) := by
  induction edges using List.reverseRecOn with
  | nil => exact forestOf_empty
  | append_singleton edges e ih =>
      rw [List.foldl_append, List.foldl_cons, List.foldl_nil]
      have hunion := union_spec ih.sound e
      refine ⟨.concat ih.unions hunion.unions, hunion.sound, fun u => ?_, fun u v => ?_⟩
      · rw [hunion.mem_keys, ih.mem_keys, isNode_concat]
      · unfold Connected
        rw [hunion.sameRoot_iff, linked_concat, eqvGen_or]
        simp only [ih.sameRoot_iff]
        rfl

/-! ## The circles -/

/-- The loop over the nodes, where every `while` loop ends: the nodes with
their roots. -/
inductive FindsAll : Dict String String → List String → List (String × String) → Prop
  | nil {parent : Dict String String} : FindsAll parent [] []
  | cons {parent parent' : Dict String String} {node root : String} {nodes : List String}
      {pairs : List (String × String)} (h : Finds (parent.setDefault node node) node parent' root)
      (hrest : FindsAll parent' nodes pairs) :
      FindsAll parent (node :: nodes) ((root, node) :: pairs)

theorem roots_spec (hs : Sound parent) (nodes : List String) :
    FindsAll parent nodes (roots parent nodes) ∧
      ∀ p ∈ roots parent nodes, Reaches (parentOf parent) p.2 p.1 := by
  induction nodes generalizing parent with
  | nil => exact ⟨.nil, by simp [roots]⟩
  | cons node nodes ih =>
      have hfind := find_spec hs node
      obtain ⟨hall, hreaches⟩ := ih hfind.sound
      refine ⟨.cons hfind.finds hall, fun p hp => ?_⟩
      rcases List.mem_cons.mp hp with rfl | hp
      · exact hfind.reaches
      · exact (hfind.reaches_iff _ _).mp (hreaches p hp)

variable {h : Hashes} {edges edges' : List Edge} {minSize : ℤ} {c c' : Circle} {u v : String}

theorem isNode_iff (huv : Connected edges u v) : IsNode edges u ↔ IsNode edges v := by
  induction huv with
  | rel u v huv =>
      obtain ⟨e, he, rfl, rfl⟩ := huv
      exact iff_of_true ⟨e, he, Or.inl rfl⟩ ⟨e, he, Or.inr rfl⟩
  | refl u => exact .rfl
  | symm u v _ ih => exact ih.symm
  | trans u v w _ _ ih ih' => exact ih.trans ih'

/-- The nodes with their roots. -/
def rootPairs (edges : List Edge) : List (String × String) :=
  roots (edges.foldl union .empty) (edges.foldl union .empty).keys

theorem mem_map_snd_rootPairs : u ∈ (rootPairs edges).map Prod.snd ↔ IsNode edges u := by
  unfold rootPairs
  rw [map_snd_roots]
  exact (forestOf_union edges).mem_keys u

/-- **The group of a node's root** holds the component of the node. -/
theorem mem_group_iff (hu : (r, u) ∈ rootPairs edges) :
    (∃ root, (root, v) ∈ (rootPairs edges).filter fun p => p.1 = r) ↔ Connected edges u v := by
  have hforest := forestOf_union edges
  have hreaches : ∀ p ∈ rootPairs edges, Reaches (parentOf (edges.foldl union .empty)) p.2 p.1 :=
    (roots_spec hforest.sound _).2
  constructor
  · rintro ⟨root, hv⟩
    obtain ⟨hmem, hroot⟩ := List.mem_filter.mp hv
    obtain rfl : root = r := of_decide_eq_true hroot
    exact (hforest.sameRoot_iff u v).mp ⟨root, hreaches _ hu, hreaches _ hmem⟩
  · intro huv
    have hnode : v ∈ (rootPairs edges).map Prod.snd := by
      rw [mem_map_snd_rootPairs, ← isNode_iff huv, ← mem_map_snd_rootPairs]
      exact List.mem_map_of_mem (f := Prod.snd) hu
    obtain ⟨⟨root, v'⟩, hmem, rfl⟩ := List.mem_map.mp hnode
    obtain ⟨s, hus, hvs⟩ := (hforest.sameRoot_iff u v').mpr huv
    have hrs : root = s := (hreaches _ hmem).unique hvs
    have hr : r = s := (hreaches _ hu).unique hus
    exact ⟨root, List.mem_filter.mpr ⟨hmem, decide_eq_true (hrs.trans hr.symm)⟩⟩

theorem length_circleOf (group : List (String × String)) :
    (circleOf h group).members.length = group.length :=
  ((List.perm_insertionSort _ _).length_eq).trans (List.length_map _)

/-- **A circle is a component**, large enough. -/
theorem of_mem_findCircles (hc : c ∈ findCircles h edges minSize) :
    (∃ u, IsNode edges u ∧ ∀ v, v ∈ c.members ↔ Connected edges u v) ∧
      minSize ≤ c.members.length := by
  unfold findCircles at hc
  obtain ⟨group, hgroup, rfl⟩ := List.mem_map.mp ((List.perm_insertionSort _ _).mem_iff.mp hc)
  obtain ⟨hvalue, hsize⟩ := List.mem_filter.mp hgroup
  obtain ⟨⟨root, group⟩, hentry, rfl⟩ := List.mem_map.mp hvalue
  obtain ⟨hkey, rfl⟩ := Dict.mem_entries_groupBy.mp hentry
  obtain ⟨⟨r, u⟩, hu, rfl⟩ := List.mem_map.mp hkey
  refine ⟨⟨u, ?_, fun v => ?_⟩, ?_⟩
  · exact mem_map_snd_rootPairs.mp (List.mem_map_of_mem (f := Prod.snd) hu)
  · rw [mem_circleOf]
    exact mem_group_iff hu
  · rw [length_circleOf]
    exact of_decide_eq_true hsize

/-- The size of a component that is listed. -/
theorem ncard_connected {l : List String} (hnodup : l.Nodup)
    (hl : ∀ v, v ∈ l ↔ Connected edges u v) : {v | Connected edges u v}.ncard = l.length := by
  have hset : {v | Connected edges u v} = (l.toFinset : Set String) := by
    ext v
    rw [List.coe_toFinset]
    exact (hl v).symm
  rw [hset, Set.ncard_coe_finset, List.toFinset_card_of_nodup hnodup]

/-- **Every component that is large enough is a circle.** -/
theorem exists_mem_findCircles (hu : IsNode edges u)
    (hsize : minSize ≤ {v | Connected edges u v}.ncard) :
    ∃ c ∈ findCircles h edges minSize, u ∈ c.members := by
  obtain ⟨⟨r, u⟩, hpair, rfl⟩ := List.mem_map.mp (mem_map_snd_rootPairs.mpr hu)
  have hmem : ∀ v, v ∈ (circleOf h ((rootPairs edges).filter fun p => p.1 = r)).members ↔
      Connected edges u v := fun v => mem_circleOf.trans (mem_group_iff hpair)
  have hnodup : (circleOf h ((rootPairs edges).filter fun p => p.1 = r)).members.Nodup := by
    unfold circleOf
    rw [(List.perm_insertionSort _ _).nodup_iff]
    exact (List.filter_sublist.map _).nodup (nodup_roots _)
  rw [ncard_connected hnodup hmem, length_circleOf] at hsize
  refine ⟨circleOf h ((rootPairs edges).filter fun p => p.1 = r), ?_,
    (hmem u).mpr (.refl u)⟩
  unfold findCircles
  rw [(List.perm_insertionSort _ _).mem_iff]
  refine List.mem_map_of_mem (List.mem_filter.mpr ⟨?_, decide_eq_true hsize⟩)
  refine List.mem_map.mpr ⟨(r, _), Dict.mem_entries_groupBy.mpr ⟨?_, rfl⟩, rfl⟩
  exact List.mem_map_of_mem (f := Prod.fst) hpair

/-- Members are sorted. -/
theorem pairwise_members (hc : c ∈ findCircles h edges minSize) : c.members.Pairwise (· < ·) := by
  have hnodup := nodup_members hc
  unfold findCircles at hc
  obtain ⟨group, -, rfl⟩ := List.mem_map.mp ((List.perm_insertionSort _ _).mem_iff.mp hc)
  have hsorted : (circleOf h group).members.Pairwise (· ≤ ·) := List.pairwise_insertionSort _ _
  exact (hsorted.and hnodup).imp fun ⟨hle, hne⟩ => lt_of_le_of_ne hle hne

/-- **A run of `find_circles`**, where every `while` loop ends. -/
inductive Runs (h : Hashes) (edges : List Edge) (minSize : ℤ) : List Circle → Prop
  | mk {parent : Dict String String} {pairs : List (String × String)}
      (hunions : UnionsAll edges parent) (hfinds : FindsAll parent parent.keys pairs) :
      Runs h edges minSize ((((Dict.groupBy Prod.fst pairs).values.filter fun group =>
        minSize ≤ group.length).map (circleOf h)).insertionSort
          fun c c' => c.circleId ≤ c'.circleId)

/-- **The circles are the components** of at least `minSize` nodes, each once. -/
structure AreComponents (h : Hashes) (edges : List Edge) (minSize : ℤ) (circles : List Circle) :
    Prop where
  runs : Runs h edges minSize circles
  component : ∀ c ∈ circles, (∃ u, IsNode edges u ∧ ∀ v, v ∈ c.members ↔ Connected edges u v) ∧
    minSize ≤ c.members.length
  complete : ∀ u, IsNode edges u → minSize ≤ {v | Connected edges u v}.ncard →
    ∃! c, c ∈ circles ∧ u ∈ c.members
  nodup : circles.Nodup
  sorted : ∀ c ∈ circles, c.members.Pairwise (· < ·)
  disjoint : circles.Pairwise fun c c' => c.members.Disjoint c'.members
  circleId_eq : ∀ c ∈ circles, c.circleId = h.circleId c.members

/-- The other way round. -/
def flipped (e : Edge) : Edge := ⟨e.counterpartyPseudonym, e.userPseudonym⟩

/-- **The same edges in another order**, some of them the other way round. -/
def Rearranged (edges edges' : List Edge) : Prop :=
  ∃ l, edges.Perm l ∧ List.Forall₂ (fun e e' => e' = e ∨ e' = flipped e) l edges'

theorem nodup_findCircles (h : Hashes) (edges : List Edge) (minSize : ℤ) :
    (findCircles h edges minSize).Nodup := by
  refine (pairwise_disjoint_findCircles h edges minSize).imp_of_mem fun {c c'} hc _ hd heq => ?_
  obtain ⟨u, hu⟩ := List.exists_mem_of_ne_nil _ (members_ne_nil hc)
  exact hd hu (heq ▸ hu)

/-- **Circles depend on the components only**, where circles have ids of
their own. -/
theorem findCircles_eq (hnode : ∀ u, IsNode edges u ↔ IsNode edges' u)
    (hconn : ∀ u v, Connected edges u v ↔ Connected edges' u v)
    (hinj : Set.InjOn h.circleId {m | ∃ c ∈ findCircles h edges minSize, c.members = m}) :
    findCircles h edges' minSize = findCircles h edges minSize := by
  -- a circle of one list is a circle of the other
  have hsub : ∀ {es es' : List Edge}, (∀ u, IsNode es u ↔ IsNode es' u) →
      (∀ u v, Connected es u v ↔ Connected es' u v) →
        findCircles h es minSize ⊆ findCircles h es' minSize := by
    intro es es' hnode hconn c hc
    obtain ⟨⟨u, hu, hmem⟩, hsize⟩ := of_mem_findCircles hc
    have hcard := ncard_connected (nodup_members hc) hmem
    simp only [hconn] at hmem hcard
    obtain ⟨c', hc', huc'⟩ : ∃ c ∈ findCircles h es' minSize, u ∈ c.members :=
      exists_mem_findCircles ((hnode u).mp hu) (by rw [hcard]; exact hsize)
    obtain ⟨⟨u', -, hmem'⟩, -⟩ := of_mem_findCircles hc'
    have hmembers : c.members = c'.members := by
      refine (List.perm_ext_iff_of_nodup (nodup_members hc) (nodup_members hc')).mpr
        (fun v => ?_) |>.eq_of_pairwise (fun _ _ _ _ hlt hlt' => absurd hlt' hlt.asymm)
          (pairwise_members hc) (pairwise_members hc')
      rw [hmem, hmem']
      have huu' := (hmem' u).mp huc'
      exact ⟨fun hv => huu'.trans _ _ _ hv, fun hv => (huu'.symm).trans _ _ _ hv⟩
    have heq : c = c' := by
      have hid := circleId_eq hc
      have hid' := circleId_eq hc'
      obtain ⟨id, members⟩ := c
      obtain ⟨id', members'⟩ := c'
      dsimp only at hid hid' hmembers
      rw [hid, hid', hmembers]
    exact heq ▸ hc'
  have hperm : (findCircles h edges' minSize).Perm (findCircles h edges minSize) :=
    (List.perm_ext_iff_of_nodup (nodup_findCircles h edges' minSize)
      (nodup_findCircles h edges minSize)).mpr fun c =>
        ⟨fun hc => hsub (fun u => (hnode u).symm) (fun u v => (hconn u v).symm) hc,
          fun hc => hsub hnode hconn hc⟩
  have hsorted : ∀ es : List Edge,
      (findCircles h es minSize).Pairwise fun c c' => c.circleId ≤ c'.circleId := fun es =>
    have : IsTrans Circle fun c c' => c.circleId ≤ c'.circleId := ⟨fun _ _ _ => le_trans⟩
    have : Std.Total fun c c' : Circle => c.circleId ≤ c'.circleId :=
      ⟨fun c c' => le_total c.circleId c'.circleId⟩
    List.pairwise_insertionSort _ _
  refine hperm.eq_of_pairwise (fun c c' hc hc' hle hle' => ?_) (hsorted _) (hsorted _)
  have hc := hperm.mem_iff.mp hc
  have hid : h.circleId c.members = h.circleId c'.members := by
    rw [← circleId_eq hc, ← circleId_eq hc']
    exact le_antisymm hle hle'
  obtain ⟨u, hu⟩ := List.exists_mem_of_ne_nil _ (members_ne_nil hc)
  exact eq_of_mem_members hc hc' hu (hinj ⟨c, hc, rfl⟩ ⟨c', hc', rfl⟩ hid ▸ hu)

/-- Edges that are found in another list, this or the other way round. -/
theorem connected_of_found (hfound : ∀ e ∈ edges, e ∈ edges' ∨ flipped e ∈ edges') :
    (∀ u, IsNode edges u → IsNode edges' u) ∧
      ∀ u v, Connected edges u v → Connected edges' u v := by
  constructor
  · rintro u ⟨e, he, hu⟩
    rcases hfound e he with h | h
    · exact ⟨e, h, hu⟩
    · exact ⟨flipped e, h, hu.symm⟩
  · intro u v huv
    induction huv with
    | rel u v h =>
        obtain ⟨e, he, rfl, rfl⟩ := h
        rcases hfound e he with h | h
        · exact .rel _ _ ⟨e, h, rfl, rfl⟩
        · exact .symm _ _ (.rel _ _ ⟨flipped e, h, rfl, rfl⟩)
    | refl u => exact .refl u
    | symm u v _ ih => exact ih.symm
    | trans u v w _ _ ih ih' => exact ih.trans _ _ _ ih'

theorem Rearranged.found (hre : Rearranged edges edges') :
    (∀ e ∈ edges, e ∈ edges' ∨ flipped e ∈ edges') ∧
      ∀ e ∈ edges', e ∈ edges ∨ flipped e ∈ edges := by
  obtain ⟨l, hperm, hflip⟩ := hre
  constructor
  · intro e he
    obtain ⟨e', he', rfl | rfl⟩ := exists_right_of_forall₂ hflip (hperm.mem_iff.mp he)
    · exact Or.inl he'
    · exact Or.inr he'
  · intro e' he'
    obtain ⟨e, he, rfl | rfl⟩ := exists_left_of_forall₂ hflip he'
    · exact Or.inl (hperm.mem_iff.mpr he)
    · exact Or.inr (hperm.mem_iff.mpr he)

/-- **`find_circles` computes the connected components**, the same ones for
any order and any orientation of the edges, where the circles have ids of
their own. -/
theorem findCircles_components (h : Hashes) (edges : List Edge) (minSize : ℤ) :
    AreComponents h edges minSize (findCircles h edges minSize) ∧
      ∀ edges', Rearranged edges edges' →
        Set.InjOn h.circleId {m | ∃ c ∈ findCircles h edges minSize, c.members = m} →
          findCircles h edges' minSize = findCircles h edges minSize := by
  refine ⟨?_, fun edges' hre hinj => ?_⟩
  · have hforest := forestOf_union edges
    refine ⟨.mk hforest.unions (roots_spec hforest.sound _).1, fun c hc => of_mem_findCircles hc,
      fun u hu hsize => ?_, nodup_findCircles h edges minSize, fun c hc => pairwise_members hc,
      pairwise_disjoint_findCircles h edges minSize, fun c hc => circleId_eq hc⟩
    obtain ⟨c, hc, huc⟩ := exists_mem_findCircles (h := h) hu hsize
    exact ⟨c, ⟨hc, huc⟩, fun c' hc' => eq_of_mem_members hc'.1 hc hc'.2 huc⟩
  · obtain ⟨hfound, hfound'⟩ := hre.found
    obtain ⟨hnode, hconn⟩ := connected_of_found hfound
    obtain ⟨hnode', hconn'⟩ := connected_of_found hfound'
    exact findCircles_eq (fun u => ⟨hnode u, hnode' u⟩) (fun u v => ⟨hconn u v, hconn' u v⟩) hinj

/-- SHA-256 of the one text it is asked for. -/
def chainHashes : Hashes where
  sha256 s := if s = "u1|u2|u3" then
    "f4ddfa96c5087978542196969cc7c714209536b00333e9a497d6fa9bb0e089e9" else ""
  hmacSha256 _ _ := 0
  sha256_hex s := by
    split <;> decide

/-- A chain of three, and the same chain from its other end. -/
theorem findCircles_components_chain :
    AreComponents chainHashes [⟨"u1", "u2"⟩, ⟨"u2", "u3"⟩, ⟨"u4", "u5"⟩] 3
        [⟨"circle-f4ddfa96c508", ["u1", "u2", "u3"]⟩] ∧
      findCircles chainHashes [⟨"u5", "u4"⟩, ⟨"u3", "u2"⟩, ⟨"u1", "u2"⟩] 3 =
        findCircles chainHashes [⟨"u1", "u2"⟩, ⟨"u2", "u3"⟩, ⟨"u4", "u5"⟩] 3 := by
  have hcircles : findCircles chainHashes [⟨"u1", "u2"⟩, ⟨"u2", "u3"⟩, ⟨"u4", "u5"⟩] 3 =
      [⟨"circle-f4ddfa96c508", ["u1", "u2", "u3"]⟩] := by
    decide +kernel
  obtain ⟨hcomponents, hsame⟩ := findCircles_components chainHashes
    [⟨"u1", "u2"⟩, ⟨"u2", "u3"⟩, ⟨"u4", "u5"⟩] 3
  rw [hcircles] at hcomponents
  refine ⟨hcomponents, hsame _ ⟨[⟨"u4", "u5"⟩, ⟨"u2", "u3"⟩, ⟨"u1", "u2"⟩], by decide, ?_⟩ ?_⟩
  · exact .cons (Or.inr rfl) (.cons (Or.inr rfl) (.cons (Or.inl rfl) .nil))
  · rw [hcircles]
    rintro _ ⟨c, hc, rfl⟩ _ ⟨c', hc', rfl⟩ _
    rw [List.mem_singleton.mp hc, List.mem_singleton.mp hc']

end GraphSignal

end RetentionEngine
