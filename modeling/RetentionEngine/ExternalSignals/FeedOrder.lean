import Mathlib.Data.List.Perm.Basic
import RetentionEngine.ExternalSignals.Feed

/-!
# The order of the feed

The signal `resolve_for_user` picks is the best one of those that match
(`Best`), in any order of the feed. Between two best ones the id decides,
and the id is hashed of everything but the value: `orderFree_iff` says that
the order matters exactly where the signals of one scope, key and instant
that have the greatest id do not have one value.
-/

namespace RetentionEngine

namespace ExternalSignals

open Python

variable {K : Type} [Ring K] [LinearOrder K]

/-- `[to_signal(item) for item in items]`. -/
def toSignals (lib : Library K) (items : List Json) : Except Unusable (List (ExternalSignal K)) :=
  items.mapM (toSignal lib)

/-- What `resolve_for_user` is asked: the user's attributes, the tenant and
the window. -/
structure Query where
  tenantSlug : Text
  regionCode : Json
  cohortKey : Json
  now : ℤ
  maxAgeDays : ℤ

namespace Query

variable (q : Query) (s : ExternalSignal K)

/-- `now - timedelta(days=max_age_days)`, in microseconds. -/
def oldest : ℤ := q.now - 86400000000 * q.maxAgeDays

/-- The key wanted of a scope. -/
def keyOf : ScopeType → Json
  | .cohort => q.cohortKey
  | .region => q.regionCode
  | .client => .str q.tenantSlug

/-- The signal is fresh. -/
def Fresh : Prop := q.oldest ≤ instant s.observedAt ∧ instant s.observedAt ≤ q.now

/-- The signal has the key wanted of its scope. -/
def Matches : Prop := (q.keyOf s.scopeType).isText s.scopeKey = true

/-- `resolve_for_user`. -/
def resolve (signals : List (ExternalSignal K)) : Option (ExternalSignal K) :=
  resolveForUser signals q.tenantSlug q.regionCode q.cohortKey q.now q.oldest

end Query

/-- How specific a scope is. -/
def specificity : ScopeType → ℕ
  | .cohort => 2
  | .region => 1
  | .client => 0

/-- `t` is of a more specific scope, or of the same one and later. -/
def Beats (t s : ExternalSignal K) : Prop :=
  specificity s.scopeType < specificity t.scopeType ∨
    t.scopeType = s.scopeType ∧ instant s.observedAt < instant t.observedAt

/-- **A best signal**: a fresh match that no fresh match beats. -/
structure Best (signals : List (ExternalSignal K)) (q : Query) (s : ExternalSignal K) : Prop where
  mem : s ∈ signals
  fresh : q.Fresh s
  isMatch : q.Matches s
  unbeaten : ∀ t ∈ signals, q.Fresh t → q.Matches t → ¬ Beats t s

/-- The two signals say the same. -/
structure SaysSame (s t : ExternalSignal K) : Prop where
  scopeType : s.scopeType = t.scopeType
  scopeKey : s.scopeKey = t.scopeKey
  signalType : s.signalType = t.signalType
  value : s.value = t.value
  observedAt : instant s.observedAt = instant t.observedAt

/-- **The order of the items does not matter**: any other order gives no
signal where the first gives none, else one that says the same, and the
signal is a best one. -/
def OrderFree (lib : Library K) (items : List Json) : Prop :=
  ∀ items', items.Perm items' → ∀ signals signals', toSignals lib items = .ok signals →
    toSignals lib items' = .ok signals' → ∀ q : Query,
      Option.Rel SaysSame (q.resolve signals) (q.resolve signals') ∧
        ∀ s ∈ q.resolve signals, Best signals q s

/-- The signals are of one scope, key and instant. -/
def SamePlace (s t : ExternalSignal K) : Prop :=
  s.scopeType = t.scopeType ∧ s.scopeKey = t.scopeKey ∧
    instant s.observedAt = instant t.observedAt

instance : DecidableRel (SamePlace : ExternalSignal K → ExternalSignal K → Prop) :=
  fun _ _ => inferInstanceAs (Decidable (_ ∧ _ ∧ _))

/-- **One value where the id decides**: the signals of a scope, key and
instant with the greatest id have one value. -/
def OneValue (signals : List (ExternalSignal K)) : Prop :=
  ∀ s ∈ signals, ∀ t ∈ signals, SamePlace s t → s.signalId = t.signalId →
    (∀ r ∈ signals, SamePlace r s → r.signalId ≤ s.signalId) → s.value = t.value

instance (signals : List (ExternalSignal K)) : Decidable (OneValue signals) := by
  unfold OneValue
  infer_instance

/-- The text a signal's id is hashed of. -/
def hashedText (lib : Library K) (s : ExternalSignal K) : Text :=
  s.source ++ text "|" ++ text s.scopeType.value ++ text "|" ++ s.scopeKey ++ text "|" ++
    text s.signalType.value ++ text "|" ++ lib.isoformat s.observedAt

/-! ## The newest of a list -/

variable {l l' : List (ExternalSignal K)} {s t : ExternalSignal K}

theorem NotOlder.trans {r : ExternalSignal K} (h : NotOlder s t) (h' : NotOlder t r) :
    NotOlder s r := by
  unfold NotOlder at *
  rcases h with hlt | ⟨heq, hle⟩
  · rcases h' with hlt' | ⟨heq', -⟩
    · exact Or.inl (hlt'.trans hlt)
    · exact Or.inl (heq' ▸ hlt)
  · rcases h' with hlt' | ⟨heq', hle'⟩
    · exact Or.inl (heq ▸ hlt')
    · exact Or.inr ⟨heq'.trans heq, hle'.trans hle⟩

theorem notOlder_of_not (h : ¬ NotOlder s t) : NotOlder t s := by
  unfold NotOlder at *
  rw [not_or, not_and_or, not_lt, not_le] at h
  rcases h.1.lt_or_eq with hlt | heq
  · exact Or.inl hlt
  · rcases h.2 with hne | hlt
    · exact absurd heq.symm hne
    · exact Or.inr ⟨heq, hlt.le⟩

theorem newest_append_singleton : newest (l ++ [s]) = some (match newest l with
    | none => s
    | some t => if NotOlder t s then t else s) := by
  unfold newest
  rw [List.foldl_append, List.foldl_cons, List.foldl_nil]
  cases l.foldl _ none <;> rfl

theorem newest_eq_none : newest l = none ↔ l = [] := by
  induction l using List.reverseRecOn with
  | nil => exact ⟨fun _ => rfl, fun _ => rfl⟩
  | append_singleton l s ih => simp [newest_append_singleton]

/-- **The newest is not older than any other.** -/
theorem newest_spec (h : newest l = some s) : s ∈ l ∧ ∀ t ∈ l, NotOlder s t := by
  induction l using List.reverseRecOn generalizing s with
  | nil => cases h
  | append_singleton l a ih =>
      rw [newest_append_singleton] at h
      have hrefl : NotOlder a a := Or.inr ⟨rfl, le_rfl⟩
      cases hl : newest l with
      | none =>
          rw [hl] at h
          obtain rfl := Option.some.inj h
          rw [newest_eq_none.mp hl]
          simpa using hrefl
      | some b =>
          rw [hl] at h
          obtain ⟨hb, hbest⟩ := ih hl
          have hs := Option.some.inj h
          dsimp only at hs
          split at hs
          · rename_i hba
            subst hs
            refine ⟨List.mem_append_left _ hb, fun t ht => ?_⟩
            rcases List.mem_append.mp ht with ht | ht
            · exact hbest t ht
            · exact List.mem_singleton.mp ht ▸ hba
          · rename_i hba
            subst hs
            refine ⟨by simp, fun t ht => ?_⟩
            rcases List.mem_append.mp ht with ht | ht
            · exact (notOlder_of_not hba).trans (hbest t ht)
            · exact List.mem_singleton.mp ht ▸ hrefl

/-- The first of those that are not older than any is the newest. -/
theorem newest_cons (h : ∀ t ∈ l, NotOlder s t) : newest (s :: l) = some s := by
  induction l using List.reverseRecOn with
  | nil => rfl
  | append_singleton l t ih =>
      rw [← List.cons_append, newest_append_singleton, ih fun r hr => h r (by simp [hr])]
      dsimp only
      rw [if_pos (h t (by simp))]

/-! ## The signal that is picked -/

variable {signals signals' : List (ExternalSignal K)} {q : Query} {scope : ScopeType}

/-- The fresh matches of a scope. -/
def candidates (signals : List (ExternalSignal K)) (q : Query) (scope : ScopeType) :
    List (ExternalSignal K) :=
  signals.filter fun s => s.scopeType = scope ∧ (q.keyOf scope).isText s.scopeKey ∧
    q.oldest ≤ instant s.observedAt ∧ instant s.observedAt ≤ q.now

theorem mem_candidates : s ∈ candidates signals q scope ↔
    s ∈ signals ∧ s.scopeType = scope ∧ q.Fresh s ∧ q.Matches s := by
  unfold candidates Query.Fresh Query.Matches
  rw [List.mem_filter, decide_eq_true_iff]
  constructor
  · rintro ⟨hs, rfl, hkey, hfresh⟩
    exact ⟨hs, rfl, hfresh, hkey⟩
  · rintro ⟨hs, rfl, hfresh, hkey⟩
    exact ⟨hs, rfl, hkey, hfresh⟩

theorem resolve_eq : q.resolve signals = (newest (candidates signals q .cohort)).or
    ((newest (candidates signals q .region)).or (newest (candidates signals q .client))) := by
  have hor : ∀ (f : ScopeType × Json → Option (ExternalSignal K)) a l,
      List.findSome? f (a :: l) = (f a).or (List.findSome? f l) := by
    intro f a l
    rw [List.findSome?_cons]
    cases f a <;> rfl
  unfold Query.resolve resolveForUser
  rw [hor, hor, hor, List.findSome?_nil, Option.or_none]
  rfl

/-- No signal is picked where nothing matches. -/
theorem resolve_eq_none : q.resolve signals = none ↔ ∀ scope, candidates signals q scope = [] := by
  rw [resolve_eq, Option.or_eq_none_iff, Option.or_eq_none_iff, newest_eq_none, newest_eq_none,
    newest_eq_none]
  constructor
  · rintro ⟨hcohort, hregion, hclient⟩ (_ | _ | _)
    · exact hclient
    · exact hregion
    · exact hcohort
  · intro h
    exact ⟨h _, h _, h _⟩

/-- **The signal that is picked** is the newest of the most specific scope
that has any. -/
theorem resolve_spec (h : q.resolve signals = some s) :
    newest (candidates signals q s.scopeType) = some s ∧
      ∀ scope, specificity s.scopeType < specificity scope → candidates signals q scope = [] := by
  have hscope : ∀ {scope}, newest (candidates signals q scope) = some s → s.scopeType = scope :=
    fun h => (mem_candidates.mp (newest_spec h).1).2.1
  rw [resolve_eq] at h
  cases hcohort : newest (candidates signals q .cohort) with
  | some t =>
      rw [hcohort] at h
      obtain rfl := Option.some.inj h
      rw [hscope hcohort]
      exact ⟨hcohort, by rintro (_ | _ | _) hlt <;> simp [specificity] at hlt⟩
  | none =>
      rw [hcohort, Option.none_or] at h
      have hcohort := newest_eq_none.mp hcohort
      cases hregion : newest (candidates signals q .region) with
      | some t =>
          rw [hregion] at h
          obtain rfl := Option.some.inj h
          rw [hscope hregion]
          refine ⟨hregion, ?_⟩
          rintro (_ | _ | _) hlt
          · simp [specificity] at hlt
          · simp at hlt
          · exact hcohort
      | none =>
          rw [hregion, Option.none_or] at h
          have hregion := newest_eq_none.mp hregion
          rw [hscope h]
          refine ⟨h, ?_⟩
          rintro (_ | _ | _) hlt
          · simp at hlt
          · exact hregion
          · exact hcohort

/-- **It is a best one.** -/
theorem best_of_resolve (h : q.resolve signals = some s) : Best signals q s := by
  obtain ⟨hnewest, hspecific⟩ := resolve_spec h
  obtain ⟨hmem, hnewer⟩ := newest_spec hnewest
  obtain ⟨hs, -, hfresh, hmatches⟩ := mem_candidates.mp hmem
  refine ⟨hs, hfresh, hmatches, ?_⟩
  rintro t ht htfresh htmatches (hlt | ⟨hscope, hlt⟩)
  · have htmem : t ∈ candidates signals q t.scopeType :=
      mem_candidates.mpr ⟨ht, rfl, htfresh, htmatches⟩
    rw [hspecific _ hlt] at htmem
    cases htmem
  · rcases hnewer t (mem_candidates.mpr ⟨ht, hscope, htfresh, htmatches⟩) with hlt' | ⟨heq, -⟩
    · exact absurd hlt hlt'.asymm
    · exact absurd heq hlt.ne'

theorem Query.Matches.scopeKey_eq (h : q.Matches s) (h' : q.Matches t)
    (hscope : s.scopeType = t.scopeType) : s.scopeKey = t.scopeKey := by
  unfold Query.Matches at h h'
  rw [hscope] at h
  cases hkey : q.keyOf t.scopeType with
  | str k =>
      rw [hkey] at h h'
      exact (of_decide_eq_true h).symm.trans (of_decide_eq_true h')
  | null | bool _ | int _ | float _ | list _ | dict _ =>
      rw [hkey] at h
      cases h

theorem specificity_injective : Function.Injective specificity := by
  rintro (_ | _ | _) (_ | _ | _) h <;> first | rfl | cases h

/-- **Two orders pick signals of one place and id**, the greatest there. -/
theorem resolve_perm (hperm : signals.Perm signals') (hs : q.resolve signals = some s) :
    ∃ t ∈ signals, q.resolve signals' = some t ∧ SamePlace s t ∧ s.signalId = t.signalId ∧
      ∀ r ∈ signals, SamePlace r s → r.signalId ≤ s.signalId := by
  have hcandidates : ∀ scope, (candidates signals q scope).Perm (candidates signals' q scope) :=
    fun scope => hperm.filter _
  obtain ⟨hnewest, hspecific⟩ := resolve_spec hs
  obtain ⟨hmem, hnewer⟩ := newest_spec hnewest
  obtain ⟨-, -, hfresh, hmatches⟩ := mem_candidates.mp hmem
  cases ht : q.resolve signals' with
  | none =>
      have hnone := resolve_eq_none.mp ht s.scopeType
      have hmem := (hcandidates s.scopeType).mem_iff.mp hmem
      rw [hnone] at hmem
      cases hmem
  | some t =>
      obtain ⟨hnewest', hspecific'⟩ := resolve_spec ht
      obtain ⟨hmem', hnewer'⟩ := newest_spec hnewest'
      have hmem' := (hcandidates _).mem_iff.mpr hmem'
      -- neither scope is more specific than the other
      have hscope : s.scopeType = t.scopeType := by
        refine specificity_injective (le_antisymm (not_lt.mp fun hlt => ?_)
          (not_lt.mp fun hlt => ?_))
        · have hnil := hspecific' _ hlt
          have hs' := (hcandidates _).mem_iff.mp hmem
          rw [hnil] at hs'
          cases hs'
        · rw [hspecific _ hlt] at hmem'
          cases hmem'
      obtain ⟨htmem, -, -, htmatches⟩ := mem_candidates.mp hmem'
      have hst := hnewer t (hscope ▸ hmem')
      have hts := hnewer' s ((hcandidates _).mem_iff.mp (hscope ▸ hmem))
      have hinstant : instant s.observedAt = instant t.observedAt := by
        rcases hst with hlt | ⟨heq, -⟩
        · rcases hts with hlt' | ⟨heq, -⟩
          · exact absurd hlt hlt'.asymm
          · exact heq
        · exact heq.symm
      have hid : s.signalId = t.signalId := by
        rcases hst with hlt | ⟨-, hle⟩
        · exact absurd hinstant hlt.ne'
        · rcases hts with hlt' | ⟨-, hle'⟩
          · exact absurd hinstant hlt'.ne
          · exact le_antisymm hle' hle
      refine ⟨t, htmem, rfl, ⟨hscope, hmatches.scopeKey_eq htmatches hscope, hinstant⟩, hid, ?_⟩
      rintro r hr ⟨hrscope, hrkey, hrinstant⟩
      have hrmem : r ∈ candidates signals q s.scopeType := by
        refine mem_candidates.mpr ⟨hr, hrscope, ?_, ?_⟩
        · unfold Query.Fresh at hfresh ⊢
          rw [hrinstant]
          exact hfresh
        · unfold Query.Matches at hmatches ⊢
          rw [hrscope, hrkey]
          exact hmatches
      rcases hnewer r hrmem with hlt | ⟨-, hle⟩
      · exact absurd hrinstant hlt.ne
      · exact hle

/-! ## What decides between two of one place -/

/-- **A signal to be asked for**: the query of its place and instant. -/
def queryAt (s : ExternalSignal K) : Query where
  tenantSlug := s.scopeKey
  regionCode := if s.scopeType = .region then .str s.scopeKey else .null
  cohortKey := if s.scopeType = .cohort then .str s.scopeKey else .null
  now := instant s.observedAt
  maxAgeDays := 0

theorem queryAt_eq (h : SamePlace s t) : queryAt s = queryAt t := by
  obtain ⟨hscope, hkey, hinstant⟩ := h
  unfold queryAt
  rw [hscope, hkey, hinstant]

/-- The signals of the place of `s` are what the query matches there. -/
theorem mem_candidates_queryAt :
    t ∈ candidates signals (queryAt s) s.scopeType ↔ t ∈ signals ∧ SamePlace t s := by
  have hkey : (queryAt s).keyOf s.scopeType = .str s.scopeKey := by
    unfold Query.keyOf queryAt
    cases s.scopeType <;> simp
  rw [mem_candidates]
  unfold Query.Fresh Query.Matches SamePlace
  have holdest : (queryAt s).oldest = instant s.observedAt := by
    show instant s.observedAt - 86400000000 * 0 = _
    omega
  rw [holdest]
  constructor
  · rintro ⟨ht, hscope, ⟨hge, hle⟩, hmatches⟩
    rw [hscope, hkey] at hmatches
    exact ⟨ht, hscope, (of_decide_eq_true hmatches).symm, le_antisymm hle hge⟩
  · rintro ⟨ht, hscope, htkey, hinstant⟩
    refine ⟨ht, hscope, ⟨hinstant.ge, hinstant.le⟩, ?_⟩
    rw [hscope, hkey, htkey]
    exact decide_eq_true rfl

/-- No more specific scope is asked for. -/
theorem candidates_queryAt (hlt : specificity s.scopeType < specificity scope) :
    candidates signals (queryAt s) scope = [] := by
  refine List.eq_nil_iff_forall_not_mem.mpr fun t ht => ?_
  obtain ⟨-, hscope, -, hmatches⟩ := mem_candidates.mp ht
  unfold Query.Matches Query.keyOf queryAt at hmatches
  rw [hscope] at hmatches
  revert hlt hmatches
  cases scope <;> cases s.scopeType <;> simp [specificity, Json.isText]

/-- **The first signal is picked** where none of its place has a greater
id. -/
theorem resolve_queryAt (htop : ∀ r ∈ l, SamePlace r s → r.signalId ≤ s.signalId) :
    (queryAt s).resolve (s :: l) = some s := by
  have hnewest : newest (candidates (s :: l) (queryAt s) s.scopeType) = some s := by
    have hcons : candidates (s :: l) (queryAt s) s.scopeType =
        s :: candidates l (queryAt s) s.scopeType := by
      have hmem : s ∈ candidates [s] (queryAt s) s.scopeType :=
        mem_candidates_queryAt.mpr ⟨by simp, rfl, rfl, rfl⟩
      exact List.filter_cons_of_pos (List.mem_filter.mp hmem).2
    rw [hcons]
    refine newest_cons fun r hr => ?_
    obtain ⟨hr, hplace⟩ := mem_candidates_queryAt.mp hr
    exact Or.inr ⟨hplace.2.2, htop r hr hplace⟩
  rw [resolve_eq]
  cases hscope : s.scopeType with
  | cohort =>
      rw [hscope] at hnewest
      rw [hnewest]
      rfl
  | region =>
      rw [hscope] at hnewest
      rw [hnewest, candidates_queryAt (by rw [hscope]; decide)]
      rfl
  | client =>
      rw [hscope] at hnewest
      rw [hnewest, candidates_queryAt (by rw [hscope]; decide),
        candidates_queryAt (by rw [hscope]; decide)]
      rfl

/-! ## The items of a feed -/

variable {lib : Library K} {items items' : List Json}

theorem toSignals_eq_ok :
    toSignals lib items = .ok signals ↔ items.map (toSignal lib) = signals.map .ok := by
  unfold toSignals
  induction items generalizing signals with
  | nil =>
      show Except.ok [] = Except.ok signals ↔ [] = signals.map Except.ok
      rw [Except.ok.injEq, eq_comm, eq_comm (a := []), List.map_eq_nil_iff]
  | cons item items ih =>
      rw [List.mapM_cons, List.map_cons]
      cases hitem : toSignal lib item with
      | error e => cases signals <;> simp [bind, Except.bind]
      | ok s =>
          cases hrest : items.mapM (toSignal lib) with
          | error e =>
              constructor
              · intro h
                cases h
              · intro h
                cases signals with
                | nil => cases h
                | cons t signals =>
                    have hmap := ih.mpr (List.cons.inj h).2
                    rw [hrest] at hmap
                    cases hmap
          | ok rest =>
              have hmap := ih.mp hrest
              rw [hmap]
              show Except.ok (s :: rest) = Except.ok signals ↔
                (s :: rest).map Except.ok = signals.map Except.ok
              rw [List.map_inj_right fun _ _ h => Except.ok.inj h]
              exact ⟨fun h => Except.ok.inj h, congrArg _⟩

/-- Another order of the items is another order of the signals. -/
theorem perm_of_toSignals (hperm : items.Perm items') (h : toSignals lib items = .ok signals)
    (h' : toSignals lib items' = .ok signals') : signals.Perm signals' := by
  have hmap := hperm.map (toSignal lib)
  rw [toSignals_eq_ok.mp h, toSignals_eq_ok.mp h'] at hmap
  exact (List.map_perm_map_iff fun _ _ h => Except.ok.inj h).mp hmap

/-- Any signal may come first. -/
theorem exists_first (h : toSignals lib items = .ok signals) (hs : s ∈ signals) :
    ∃ items' signals', items.Perm items' ∧ toSignals lib items' = .ok (s :: signals') := by
  obtain ⟨before, after, rfl⟩ := List.append_of_mem hs
  have hmap := toSignals_eq_ok.mp h
  rw [List.map_append, List.map_cons] at hmap
  obtain ⟨items₁, rest, rfl, hbefore, hrest⟩ := List.map_eq_append_iff.mp hmap
  obtain ⟨item, items₂, rfl, hitem, hafter⟩ := List.map_eq_cons_iff.mp hrest
  refine ⟨item :: (items₁ ++ items₂), before ++ after, List.perm_middle, ?_⟩
  rw [toSignals_eq_ok, List.map_cons, List.map_cons, List.map_append, List.map_append, hitem,
    hbefore, hafter]

/-! ## What the id separates -/

theorem scopeTypeOf_eq_some {v : Text} (h : scopeTypeOf v = some scope) :
    v = text scope.value := by
  unfold scopeTypeOf at h
  have hvalue := List.find?_some h
  rw [decide_eq_true_iff] at hvalue
  exact hvalue.symm

/-- What the id of a signal is. -/
theorem signalId_eq {item : Json} (h : toSignal lib item = .ok s) :
    s.signalId = take (lib.sha256 (hashedText lib s)) 16 := by
  unfold toSignal at h
  split at h
  · split at h
    · rename_i item hitem
      unfold signalOfItem at h
      dsimp only at h
      split at h
      · cases h
      · rename_i scopeType hscope
        split at h
        · cases h
        · rename_i signalType hsignal
          split at h
          · cases h
          · split at h
            · split at h
              · split at h
                · obtain rfl := Except.ok.inj h
                  unfold signalKey hashedText
                  rw [scopeTypeOf_eq_some hscope]
                · cases h
              · cases h
            · cases h
    · cases h
  · cases h

/-- Two texts are cut at the last bar. -/
theorem append_bar_inj {a a' b b' : Text} (hb : point '|' ∉ b) (hb' : point '|' ∉ b')
    (h : a ++ text "|" ++ b = a' ++ text "|" ++ b') : a = a' ∧ b = b' := by
  have hcut : ∀ {a a' b b' : Text}, point '|' ∉ b → a ++ text "|" ++ b = a' ++ text "|" ++ b' →
      a.length ≤ a'.length → a = a' ∧ b = b' := by
    intro a a' b b' hb h hle
    rw [List.append_assoc, List.append_assoc] at h
    have hprefix : a <+: a' ++ (text "|" ++ b') := h ▸ List.prefix_append _ _
    obtain ⟨m, rfl⟩ := List.prefix_of_prefix_length_le hprefix (List.prefix_append _ _) hle
    rw [List.append_assoc] at h
    have h := List.append_cancel_left h
    cases m with
    | nil => exact ⟨(List.append_nil a).symm, List.append_cancel_left h⟩
    | cons c m =>
        have hrest : b = m ++ (text "|" ++ b') := (List.cons.inj h).2
        rw [hrest] at hb
        exact absurd (by simp [text]) hb
  rcases le_total a.length a'.length with hle | hle
  · exact hcut hb h hle
  · obtain ⟨ha, hbb⟩ := hcut hb' h.symm hle
    exact ⟨ha.symm, hbb.symm⟩

/-- **The hashed text tells the signal type**, where no date has a bar. -/
theorem signalType_eq_of_hashedText (hs : point '|' ∉ lib.isoformat s.observedAt)
    (ht : point '|' ∉ lib.isoformat t.observedAt) (h : hashedText lib s = hashedText lib t) :
    s.signalType = t.signalType := by
  have hbar : ∀ type : SignalType, point '|' ∉ text type.value := by
    rintro (_ | _ | _) <;> decide
  have hvalue := (append_bar_inj (hbar _) (hbar _) (append_bar_inj hs ht h).1).2
  revert hvalue
  cases s.signalType <;> cases t.signalType <;> first | exact fun _ => rfl | decide

/-- **The order of the feed does not matter exactly where one value goes
with the greatest id**, for a hash prefix that separates what is hashed. -/
theorem orderFree_iff (hfeed : toSignals lib items = .ok signals)
    (hinj : Set.InjOn (fun key => take (lib.sha256 key) 16)
      {key | ∃ s ∈ signals, key = hashedText lib s})
    (hiso : ∀ s ∈ signals, point '|' ∉ lib.isoformat s.observedAt) :
    OrderFree lib items ↔ OneValue signals := by
  have hid : ∀ s ∈ signals, s.signalId = take (lib.sha256 (hashedText lib s)) 16 := by
    intro s hs
    have hmem : Except.ok s ∈ items.map (toSignal lib) := by
      rw [toSignals_eq_ok.mp hfeed]
      exact List.mem_map_of_mem hs
    obtain ⟨item, -, hitem⟩ := List.mem_map.mp hmem
    exact signalId_eq hitem
  constructor
  · intro hfree s hs t ht hplace hsame htop
    obtain ⟨items₁, l₁, hperm₁, hfeed₁⟩ := exists_first hfeed hs
    obtain ⟨items₂, l₂, hperm₂, hfeed₂⟩ := exists_first hfeed ht
    have hfirst : (queryAt s).resolve (s :: l₁) = some s := by
      refine resolve_queryAt fun r hr hr' => htop r ?_ hr'
      exact (perm_of_toSignals hperm₁ hfeed hfeed₁).mem_iff.mpr (List.mem_cons_of_mem _ hr)
    have hsecond : (queryAt s).resolve (t :: l₂) = some t := by
      rw [queryAt_eq hplace]
      refine resolve_queryAt fun r hr hr' => hsame ▸ htop r ?_ ?_
      · exact (perm_of_toSignals hperm₂ hfeed hfeed₂).mem_iff.mpr (List.mem_cons_of_mem _ hr)
      · exact ⟨hr'.1.trans hplace.1.symm, hr'.2.1.trans hplace.2.1.symm,
          hr'.2.2.trans hplace.2.2.symm⟩
    have hrel := (hfree items₁ hperm₁ _ _ hfeed hfeed₁ (queryAt s)).1
    have hrel' := (hfree items₂ hperm₂ _ _ hfeed hfeed₂ (queryAt s)).1
    rw [hfirst] at hrel
    rw [hsecond] at hrel'
    cases hr : (queryAt s).resolve signals with
    | none =>
        rw [hr] at hrel
        cases hrel
    | some r =>
        rw [hr] at hrel hrel'
        obtain ⟨hvalue⟩ := hrel
        obtain ⟨hvalue'⟩ := hrel'
        exact hvalue.value.symm.trans hvalue'.value
  · intro hone items' hperm signals₁ signals' hfeed₁ hfeed' q
    obtain rfl : signals = signals₁ := Except.ok.inj (hfeed.symm.trans hfeed₁)
    refine ⟨?_, fun s hs => best_of_resolve hs⟩
    have hsignals := perm_of_toSignals hperm hfeed hfeed'
    cases hs : q.resolve signals with
    | none =>
        have hnone : q.resolve signals' = none := by
          rw [resolve_eq_none] at hs ⊢
          intro scope
          have hcandidates : (candidates signals q scope).Perm (candidates signals' q scope) :=
            hsignals.filter _
          rw [hs scope] at hcandidates
          exact hcandidates.symm.eq_nil
        rw [hnone]
        exact .none
    | some s =>
        obtain ⟨t, ht, hpicked, hplace, hsame, htop⟩ := resolve_perm hsignals hs
        have hmem := (best_of_resolve hs).mem
        rw [hpicked]
        refine .some ⟨hplace.1, hplace.2.1, ?_, hone s hmem t ht hplace hsame htop, hplace.2.2⟩
        refine signalType_eq_of_hashedText (hiso s hmem) (hiso t ht) ?_
        refine hinj ⟨s, hmem, rfl⟩ ⟨t, ht, rfl⟩ ?_
        show take (lib.sha256 (hashedText lib s)) 16 = take (lib.sha256 (hashedText lib t)) 16
        rw [← hid s hmem, ← hid t ht, hsame]

/-- The signal of the first item of the canned feed, with any value. -/
def demoSignal (value : ℚ) (h : InUnit value) : ExternalSignal ℚ where
  signalId := "9d349edee5e98bd3"
  source := text "canned"
  scopeType := .client
  scopeKey := text "demo-wallet"
  signalType := .sectorTrend
  value := value
  observedAt := ⟨1789459200000000, some 25200000000⟩
  value_mem := h

def cannedSignal : ExternalSignal ℚ := demoSignal (-1 / 10) (by decide +kernel)

def revisedSignal : ExternalSignal ℚ := demoSignal (2 / 5) (by decide +kernel)

/-- A feed that repeats an item. -/
theorem orderFree_iff_demo : OrderFree demoLibrary [demoItem, demoItem] := by
  have hfeed : toSignals demoLibrary [demoItem, demoItem] = .ok [cannedSignal, cannedSignal] := by
    decide +kernel
  refine (orderFree_iff hfeed ?_ (by decide +kernel)).mpr (by decide +kernel)
  have hsame : ∀ s ∈ [cannedSignal, cannedSignal], s = cannedSignal := by decide +kernel
  rintro _ ⟨s, hs, rfl⟩ _ ⟨t, ht, rfl⟩ -
  rw [hsame s hs, hsame t ht]

/-- The libraries, where the value may be another one. -/
def revisedLibrary : Library ℚ :=
  { demoLibrary with
    readFloat := fun v => match v with
      | .float "0.4" => some (.finite (2 / 5))
      | v => demoLibrary.readFloat v }

/-- The first item of the canned feed, with another value. -/
def revisedItem : Json := .dict
  [(text "source", .str (text "canned")), (text "scope_type", .str (text "CLIENT")),
    (text "scope_key", .str (text "demo-wallet")),
    (text "signal_type", .str (text "SECTOR_TREND")), (text "value", .float "0.4"),
    (text "observed_at", .str (text "2026-09-15T08:00:00+07:00"))]

/-- **Two values of one observation**: the order decides which is attached. -/
theorem not_orderFree : ¬ OrderFree revisedLibrary [demoItem, revisedItem] := by
  intro hfree
  have hfeed : toSignals revisedLibrary [demoItem, revisedItem] =
      .ok [cannedSignal, revisedSignal] := by
    decide +kernel
  have hfeed' : toSignals revisedLibrary [revisedItem, demoItem] =
      .ok [revisedSignal, cannedSignal] := by
    decide +kernel
  obtain ⟨hrel, -⟩ := hfree _ (List.Perm.swap _ _ _) _ _ hfeed hfeed'
    (queryAt revisedSignal)
  rw [resolve_queryAt (by decide +kernel)] at hrel
  have hfirst : (queryAt revisedSignal).resolve
      [cannedSignal, revisedSignal] =
        some cannedSignal := by
    decide +kernel
  rw [hfirst] at hrel
  obtain ⟨hsame⟩ := hrel
  exact absurd hsame.value (by decide +kernel)

end ExternalSignals

end RetentionEngine
