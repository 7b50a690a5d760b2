import Mathlib.Data.List.Nodup
import Mathlib.Data.List.Induction

/-!
# Insertion-ordered dictionaries

A dictionary that remembers the order its keys came in: an association
list whose keys are distinct. Every update is an `alter`, so `get?_alter`
and `keys_alter` are all that needs an induction; `set`, `setDefault` and
`groupBy` (a list sorted into one list per key) follow from them.
-/

namespace RetentionEngine

/-- **A dictionary**: its entries in insertion order, no key twice. -/
@[ext] structure Dict (κ : Type*) (α : Type*) where
  entries : List (κ × α)
  nodup : (entries.map Prod.fst).Nodup

namespace Dict

variable {κ α β : Type*}

/-- `{}`. -/
def empty : Dict κ α := ⟨[], List.nodup_nil⟩

/-- `list(d)`. -/
def keys (d : Dict κ α) : List κ := d.entries.map Prod.fst

/-- `list(d.values())`. -/
def values (d : Dict κ α) : List α := d.entries.map Prod.snd

@[simp] theorem keys_empty : (empty : Dict κ α).keys = [] := rfl

theorem mem_keys {d : Dict κ α} {k : κ} : k ∈ d.keys ↔ ∃ v, (k, v) ∈ d.entries := by
  simp [keys]

variable [DecidableEq κ]

/-- The first value under `k`. -/
def find (k : κ) : List (κ × α) → Option α
  | [] => none
  | (k', v) :: l => if k' = k then some v else find k l

/-- `d.get(k)`. -/
def get? (d : Dict κ α) (k : κ) : Option α := find k d.entries

/-- The entries with `k` updated in place, or added at the end. -/
def alterEntries (k : κ) (f : Option α → α) : List (κ × α) → List (κ × α)
  | [] => [(k, f none)]
  | (k', v) :: l => if k' = k then (k', f (some v)) :: l else (k', v) :: alterEntries k f l

theorem keys_alterEntries (k : κ) (f : Option α → α) (l : List (κ × α)) :
    (alterEntries k f l).map Prod.fst =
      if k ∈ l.map Prod.fst then l.map Prod.fst else l.map Prod.fst ++ [k] := by
  induction l with
  | nil => rfl
  | cons p l ih =>
      obtain ⟨k', v⟩ := p
      unfold alterEntries
      by_cases hk : k' = k
      · simp [hk]
      · rw [if_neg hk, List.map_cons, ih]
        by_cases hmem : k ∈ l.map Prod.fst
        · simp [hmem]
        · have hne : ¬ k = k' := fun h => hk h.symm
          simp [hmem, hne]

/-- `d[k] = f(d.get(k))`. -/
def alter (d : Dict κ α) (k : κ) (f : Option α → α) : Dict κ α where
  entries := alterEntries k f d.entries
  nodup := by
    rw [keys_alterEntries]
    split
    · exact d.nodup
    · rename_i hmem
      refine List.nodup_append.mpr ⟨d.nodup, List.nodup_singleton k, ?_⟩
      rintro k₁ h₁ k₂ h₂ rfl
      exact hmem (List.mem_singleton.mp h₂ ▸ h₁)

/-- `d[k] = v`. -/
def set (d : Dict κ α) (k : κ) (v : α) : Dict κ α := d.alter k fun _ => v

/-- `d.setdefault(k, v)`. -/
def setDefault (d : Dict κ α) (k : κ) (v : α) : Dict κ α := d.alter k fun o => o.getD v

/-- `{key(a): value(a) for a in l}`. -/
def ofList (key : α → κ) (value : α → β) (l : List α) : Dict κ β :=
  l.foldl (fun d a => d.set (key a) (value a)) empty

/-- `for a in l: d.setdefault(key(a), []).append(a)`. -/
def groupBy (key : α → κ) (l : List α) : Dict κ (List α) :=
  l.foldl (fun d a => d.alter (key a) fun o => o.getD [] ++ [a]) empty

variable {d : Dict κ α} {k k' : κ} {v : α} {f : Option α → α} {key : α → κ} {l : List α} {a : α}

/-! ## Lookups -/

/-- **What a dictionary holds at a key is the entry of that key.** -/
theorem get?_eq_some : d.get? k = some v ↔ (k, v) ∈ d.entries := by
  obtain ⟨entries, nodup⟩ := d
  unfold get?
  dsimp only
  induction entries with
  | nil => simp [find]
  | cons p l ih =>
      obtain ⟨k', v'⟩ := p
      rw [List.map_cons, List.nodup_cons] at nodup
      unfold find
      by_cases hk : k' = k
      · subst hk
        have hnot : (k', v) ∉ l := fun hmem => nodup.1 (List.mem_map.mpr ⟨_, hmem, rfl⟩)
        simp [hnot, eq_comm]
      · have hne : ¬ k = k' := fun h => hk h.symm
        simp [hk, hne, ih nodup.2]

/-- The entries of a key. -/
theorem filter_entries : (d.entries.filter fun p => p.1 = k) =
    (d.get? k).toList.map fun v => (k, v) := by
  cases hget : d.get? k with
  | none =>
      rw [Option.toList_none, List.map_nil, List.filter_eq_nil_iff]
      intro p hp hk
      have hv := get?_eq_some.mpr (show (p.1, p.2) ∈ d.entries from hp)
      rw [of_decide_eq_true hk, hget] at hv
      cases hv
  | some v =>
      have hperm : (d.entries.filter fun p => p.1 = k).Perm [(k, v)] := by
        refine (List.perm_ext_iff_of_nodup (d.nodup.of_map.filter _)
          (List.nodup_singleton _)).mpr ?_
        rintro ⟨k', v'⟩
        rw [List.mem_filter, decide_eq_true_iff, List.mem_singleton, Prod.mk.injEq]
        constructor
        · rintro ⟨hmem, rfl⟩
          have hsame := (get?_eq_some.mpr hmem).symm.trans hget
          exact ⟨rfl, Option.some.inj hsame⟩
        · rintro ⟨rfl, rfl⟩
          exact ⟨get?_eq_some.mp hget, rfl⟩
      exact List.perm_singleton.mp hperm

theorem get?_eq_none : d.get? k = none ↔ k ∉ d.keys := by
  simp only [Option.eq_none_iff_forall_ne_some, ne_eq, get?_eq_some, mem_keys, not_exists]

/-- **An update changes its own key only.** -/
theorem get?_alter : (d.alter k f).get? k' = if k' = k then some (f (d.get? k)) else d.get? k' := by
  obtain ⟨entries, nodup⟩ := d
  unfold alter get?
  dsimp only
  clear nodup
  induction entries with
  | nil => simp [alterEntries, find, eq_comm]
  | cons p l ih =>
      obtain ⟨k₀, v₀⟩ := p
      unfold alterEntries
      by_cases hk₀ : k₀ = k
      · subst hk₀
        by_cases hk : k' = k₀
        · subst hk
          simp [find]
        · have hne : ¬ k₀ = k' := fun h => hk h.symm
          simp [find, hk, hne]
      · rw [if_neg hk₀]
        by_cases hk : k₀ = k'
        · subst hk
          simp [find, hk₀]
        · simp [find, hk, hk₀, ih]

/-- A new key comes last. -/
theorem keys_alter : (d.alter k f).keys = if k ∈ d.keys then d.keys else d.keys ++ [k] :=
  keys_alterEntries k f d.entries

theorem mem_keys_alter : k' ∈ (d.alter k f).keys ↔ k' = k ∨ k' ∈ d.keys := by
  rw [keys_alter]
  split
  · rename_i hmem
    exact ⟨Or.inr, fun h => h.elim (fun heq => heq ▸ hmem) id⟩
  · simp [or_comm]

/-- So does its entry. -/
theorem entries_set_of_notMem (hk : k ∉ d.keys) : (d.set k v).entries = d.entries ++ [(k, v)] := by
  obtain ⟨entries, nodup⟩ := d
  unfold keys at hk
  show alterEntries k (fun _ => v) entries = entries ++ [(k, v)]
  dsimp only at hk
  clear nodup
  induction entries with
  | nil => rfl
  | cons p l ih =>
      obtain ⟨k', v'⟩ := p
      rw [List.map_cons, List.mem_cons, not_or] at hk
      unfold alterEntries
      rw [if_neg (Ne.symm hk.1), ih hk.2]
      rfl

/-- **What holds of every entry** holds after an update, if it does of the new
one. -/
theorem forall_entries_alter {p : κ × α → Prop} (hd : ∀ e ∈ d.entries, p e)
    (hk : p (k, f (d.get? k))) : ∀ e ∈ (d.alter k f).entries, p e := by
  rintro ⟨k', v'⟩ he
  rw [← get?_eq_some, get?_alter] at he
  split at he
  · rename_i heq
    subst heq
    obtain rfl := Option.some.inj he
    exact hk
  · exact hd _ (get?_eq_some.mp he)

theorem forall_entries_setDefault {p : κ × α → Prop} (hd : ∀ e ∈ d.entries, p e) (hk : p (k, v)) :
    ∀ e ∈ (d.setDefault k v).entries, p e := by
  refine forall_entries_alter hd ?_
  cases hget : d.get? k with
  | none => exact hk
  | some v' => exact hd _ (get?_eq_some.mp hget)

theorem get?_set : (d.set k v).get? k' = if k' = k then some v else d.get? k' := get?_alter

theorem get?_setDefault :
    (d.setDefault k v).get? k' = if k' = k then some ((d.get? k).getD v) else d.get? k' :=
  get?_alter

/-- **Defaults set one after the other**: the first one for a key counts,
where nothing is set yet. -/
theorem get?_foldl_setDefault (key : α → κ) (value : α → β) (l : List α) (d : Dict κ β) (k : κ) :
    (l.foldl (fun d a => d.setDefault (key a) (value a)) d).get? k =
      (d.get? k).or ((l.find? fun a => key a = k).map value) := by
  induction l generalizing d with
  | nil => simp
  | cons a l ih =>
      rw [List.foldl_cons, ih, get?_setDefault, List.find?_cons]
      by_cases hk : key a = k
      · subst hk
        cases d.get? (key a) <;> simp
      · have hne : ¬ k = key a := fun h => hk h.symm
        simp [hk, hne]

/-- **Entries set where there is none yet**: for each key the first that
satisfies `p`. -/
theorem get?_foldl_set_absent {p : α → Prop} [DecidablePred p] (key : α → κ) (value : α → β)
    (l : List α) (d : Dict κ β) (k : κ) :
    (l.foldl (fun d a => if p a ∧ d.get? (key a) = none then d.set (key a) (value a)
      else d) d).get? k =
        (d.get? k).or ((l.find? fun a => p a ∧ key a = k).map value) := by
  induction l generalizing d with
  | nil => simp
  | cons a l ih =>
      rw [List.foldl_cons, ih, List.find?_cons]
      by_cases hk : key a = k
      · subst hk
        by_cases hp : p a
        · cases hget : d.get? (key a) <;> simp [hp, hget, get?_alter, set]
        · simp [hp]
      · have hne : ¬ k = key a := fun h => hk h.symm
        by_cases hset : p a ∧ d.get? (key a) = none
        · simp [hset, hk, hne, get?_alter, set]
        · simp [hset, hk]

theorem find_eq_find? (k : κ) (l : List (κ × α)) :
    find k l = (l.find? fun p => p.1 = k).map Prod.snd := by
  induction l with
  | nil => rfl
  | cons p l ih =>
      unfold find
      rw [List.find?_cons]
      by_cases hk : p.1 = k
      · simp [hk]
      · simp [hk, ih]

/-- **Defaults taken from a dictionary**. -/
theorem get?_foldl_setDefault_entries {κ' : Type*} [DecidableEq κ'] {g : κ → κ'}
    (hg : Function.Injective g) (a : Dict κ α) (d : Dict κ' α) (k : κ) :
    (a.entries.foldl (fun d p => d.setDefault (g p.1) p.2) d).get? (g k) =
      (d.get? (g k)).or (a.get? k) := by
  rw [get?_foldl_setDefault (fun p => g p.1) Prod.snd]
  unfold get?
  rw [find_eq_find? k a.entries]
  simp only [hg.eq_iff]

omit [DecidableEq κ] in
theorem length_keys : d.keys.length = d.values.length := by
  unfold keys values
  rw [List.length_map, List.length_map]

/-- New keys come last, in their order. -/
theorem keys_foldl_setDefault {key : α → κ} {value : α → β} {l : List α} {d : Dict κ β}
    (hnodup : (l.map key).Nodup) (hnew : ∀ a ∈ l, key a ∉ d.keys) :
    (l.foldl (fun d a => d.setDefault (key a) (value a)) d).keys = d.keys ++ l.map key := by
  induction l generalizing d with
  | nil => simp
  | cons a l ih =>
      rw [List.map_cons, List.nodup_cons] at hnodup
      have hkeys : (d.setDefault (key a) (value a)).keys = d.keys ++ [key a] := by
        unfold setDefault
        rw [keys_alter, if_neg (hnew a List.mem_cons_self)]
      rw [List.foldl_cons, ih hnodup.2, hkeys, List.append_assoc, List.map_cons]
      · rfl
      · intro b hb
        rw [hkeys, List.mem_append, List.mem_singleton, not_or]
        refine ⟨hnew b (List.mem_cons_of_mem _ hb), fun heq => hnodup.1 ?_⟩
        exact heq ▸ List.mem_map_of_mem hb

/-- A key stays where it is set. -/
theorem mem_keys_setDefault : k' ∈ (d.setDefault k v).keys ↔ k' = k ∨ k' ∈ d.keys := mem_keys_alter

/-! ## Lists sorted into a dictionary -/

/-- A lookup in a dictionary built of a list, before whose construction
there was `d`. -/
theorem get?_foldl_set {value : α → β} (l : List α) (d : Dict κ β)
    (hinj : ∀ a ∈ l, ∀ a' ∈ l, key a = key a' → value a = value a') (ha : a ∈ l) :
    (l.foldl (fun d a => d.set (key a) (value a)) d).get? (key a) = some (value a) := by
  induction l using List.reverseRecOn with
  | nil => cases ha
  | append_singleton l b ih =>
      rw [List.foldl_append, List.foldl_cons, List.foldl_nil, get?_set]
      by_cases hkey : key a = key b
      · rw [if_pos hkey, hinj a ha b (by simp) hkey]
      · rw [if_neg hkey]
        refine ih (fun a₁ h₁ a₂ h₂ => hinj a₁ (by simp [h₁]) a₂ (by simp [h₂])) ?_
        rcases List.mem_append.mp ha with hmem | hmem
        · exact hmem
        · exact absurd (congrArg key (List.mem_singleton.mp hmem)) hkey

/-- Setting other keys. -/
theorem get?_foldl_set_of_notMem {value : α → β} (l : List α) (d : Dict κ β)
    (hk : ∀ a ∈ l, key a ≠ k) :
    (l.foldl (fun d a => d.set (key a) (value a)) d).get? k = d.get? k := by
  induction l generalizing d with
  | nil => rfl
  | cons a l ih =>
      have hne : ¬ k = key a := fun h => hk a List.mem_cons_self h.symm
      rw [List.foldl_cons, ih _ fun b hb => hk b (List.mem_cons_of_mem _ hb), get?_set, if_neg hne]

/-- **A dictionary built of a list with distinct keys holds each element
under its key.** -/
theorem get?_ofList {value : α → β} (hnodup : (l.map key).Nodup) (ha : a ∈ l) :
    (ofList key value l).get? (key a) = some (value a) :=
  get?_foldl_set l empty
    (fun _ h₁ _ h₂ heq => by rw [List.inj_on_of_nodup_map hnodup h₁ h₂ heq]) ha

/-- What a dictionary built of a list holds comes from the list. -/
theorem exists_of_get?_ofList {value : α → β} {b : β} (h : (ofList key value l).get? k = some b) :
    ∃ a ∈ l, key a = k ∧ value a = b := by
  induction l using List.reverseRecOn with
  | nil => cases h
  | append_singleton l a ih =>
      unfold ofList at h ih
      rw [List.foldl_append, List.foldl_cons, List.foldl_nil, get?_set] at h
      split at h
      · rename_i hk
        exact ⟨a, by simp, hk.symm, Option.some.inj h⟩
      · obtain ⟨a', ha', hkey, hval⟩ := ih h
        exact ⟨a', by simp [ha'], hkey, hval⟩

/-- **It holds nothing else**, in the order of the list. -/
theorem entries_ofList {value : α → β} (hnodup : (l.map key).Nodup) :
    (ofList key value l).entries = l.map fun a => (key a, value a) := by
  induction l using List.reverseRecOn with
  | nil => rfl
  | append_singleton l a ih =>
      rw [List.map_append, List.nodup_append] at hnodup
      obtain ⟨hl, -, hdisjoint⟩ := hnodup
      have hnew : key a ∉ (ofList key value l).keys := by
        unfold keys
        rw [ih hl, List.map_map]
        intro hmem
        exact hdisjoint (key a) hmem (key a) (by simp) rfl
      have hstep : ofList key value (l ++ [a]) = (ofList key value l).set (key a) (value a) := by
        unfold ofList
        rw [List.foldl_append, List.foldl_cons, List.foldl_nil]
      rw [hstep, entries_set_of_notMem hnew, ih hl, List.map_append]
      rfl

/-- **A lookup does not depend on the order of the list**, where its keys
are distinct. -/
theorem get?_ofList_perm {value : α → β} {l' : List α} (hnodup : (l.map key).Nodup)
    (hperm : l.Perm l') : (ofList key value l).get? k = (ofList key value l').get? k := by
  have hentries : (ofList key value l).entries.Perm (ofList key value l').entries := by
    rw [entries_ofList hnodup, entries_ofList (((hperm.map key).nodup_iff).mp hnodup)]
    exact hperm.map _
  refine Option.ext fun v => ?_
  rw [get?_eq_some, get?_eq_some, hentries.mem_iff]

theorem mem_keys_ofList {value : α → β} : k ∈ (ofList key value l).keys ↔ k ∈ l.map key := by
  induction l using List.reverseRecOn with
  | nil => rfl
  | append_singleton l a ih =>
      unfold ofList at ih ⊢
      rw [List.foldl_append, List.foldl_cons, List.foldl_nil, set, mem_keys_alter, ih]
      simp [or_comm]

/-- **A group holds the elements of its key, in order.** -/
theorem get?_groupBy :
    (groupBy key l).get? k =
      if k ∈ l.map key then some (l.filter fun a => key a = k) else none := by
  induction l using List.reverseRecOn with
  | nil => rfl
  | append_singleton l a ih =>
      unfold groupBy at ih ⊢
      rw [List.foldl_append, List.foldl_cons, List.foldl_nil, get?_alter]
      by_cases hk : k = key a
      · subst hk
        have hlast : key a ∈ (l ++ [a]).map key := List.mem_map_of_mem (by simp)
        rw [ih, if_pos rfl, if_pos hlast, List.filter_append]
        by_cases hmem : key a ∈ l.map key
        · rw [if_pos hmem]
          simp
        · -- no element of `l` has the new key
          have hnil : l.filter (fun b => key b = key a) = [] := by
            rw [List.filter_eq_nil_iff]
            intro b hb hkey
            exact hmem (List.mem_map.mpr ⟨b, hb, by simpa using hkey⟩)
          rw [if_neg hmem, hnil]
          simp
      · have hne : ¬ key a = k := fun h => hk h.symm
        rw [if_neg hk, ih, List.filter_append]
        simp [hk, hne]

/-- **The entries of a grouping.** -/
theorem mem_entries_groupBy {vs : List α} :
    (k, vs) ∈ (groupBy key l).entries ↔ k ∈ l.map key ∧ vs = l.filter fun a => key a = k := by
  rw [← get?_eq_some, get?_groupBy]
  split
  · rename_i hmem
    simp only [Option.some.injEq, hmem, true_and, eq_comm]
  · rename_i hmem
    simp [hmem]

theorem mem_keys_groupBy : k ∈ (groupBy key l).keys ↔ k ∈ l.map key := by
  rw [mem_keys]
  simp [mem_entries_groupBy]

/-- The keys of a grouping do not depend on the order of the list, up to
their own. -/
theorem perm_keys_groupBy {l' : List α} (hperm : l.Perm l') :
    (groupBy key l).keys.Perm (groupBy key l').keys := by
  refine (List.perm_ext_iff_of_nodup (groupBy key l).nodup (groupBy key l').nodup).mpr fun k => ?_
  exact mem_keys_groupBy.trans ((hperm.map key).mem_iff.trans mem_keys_groupBy.symm)

/-- Appending to one group appends to the elements of all. -/
theorem perm_flatMap_alterEntries (k : κ) (a : α) (es : List (κ × List α)) :
    ((alterEntries k (fun o => o.getD [] ++ [a]) es).flatMap Prod.snd).Perm
      (es.flatMap Prod.snd ++ [a]) := by
  induction es with
  | nil => exact .refl _
  | cons p es ih =>
      obtain ⟨k', vs⟩ := p
      unfold alterEntries
      split
      · simp only [List.flatMap_cons, Option.getD_some, List.append_assoc]
        exact (List.perm_append_comm).append_left vs
      · simp only [List.flatMap_cons, List.append_assoc]
        exact ih.append_left vs

/-- **A grouping holds every element once.** -/
theorem perm_flatMap_groupBy (key : α → κ) (l : List α) :
    ((groupBy key l).entries.flatMap Prod.snd).Perm l := by
  induction l using List.reverseRecOn with
  | nil => exact .refl _
  | append_singleton l a ih =>
      unfold groupBy at ih ⊢
      rw [List.foldl_append, List.foldl_cons, List.foldl_nil]
      exact (perm_flatMap_alterEntries (key a) a _).trans (ih.append_right [a])

end Dict

end RetentionEngine
