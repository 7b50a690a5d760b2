import Mathlib.Data.Rat.Floor
import Mathlib.Tactic.Linarith
import Mathlib.Tactic.Ring
import RetentionEngine.Common.Dict

/-!
# The rate limiter

`api.rate_limit`: a bucket of tokens for each API key or console session,
refilled whenever a request looks at it. Between two looks a bucket is what
`refilled` says, which looks that take no token do not change
(`refilled_refilled`). So a rejected request leaves every later decision
alone, and the accepted ones of a window are paid for by what its first
instant holds and by what flows in (`countP_accepted_le`).
-/

namespace RetentionEngine

namespace Api

/-- `_Bucket`. -/
structure Bucket (K : Type) where
  tokens : K
  lastRefill : K
  deriving DecidableEq, Repr

/-- `TokenBucketLimiter`. -/
structure TokenBucketLimiter (K : Type) where
  capacity : ℤ
  refillPerSecond : K
  buckets : Dict String (Bucket K)

/-- What a call of `check` comes to: it returns, it raises `rate_limited`,
or its division raises. -/
inductive CheckResult
  | accepted
  | rateLimited (retryAfterSeconds : ℤ)
  | zeroDivision
  deriving DecidableEq, Repr

/-- A request: its key, and the clock when it is checked. -/
structure Request (K : Type) where
  key : String
  now : K
  deriving DecidableEq, Repr

namespace TokenBucketLimiter

variable {K : Type} [Field K]

/-- `__init__`. -/
def new (capacity refillPerMinute : ℤ) : TokenBucketLimiter K where
  capacity := capacity
  refillPerSecond := refillPerMinute / ((60 : ℕ) : K)
  buckets := .empty

variable [LinearOrder K]

/-- The tokens of a key at `now`, refilled: a key without a bucket is given
a full one. -/
def refilled (l : TokenBucketLimiter K) (key : String) (now : K) : K :=
  let bucket := (l.buckets.get? key).getD ⟨l.capacity, now⟩
  let elapsed := now - bucket.lastRefill
  min (l.capacity : K) (bucket.tokens + elapsed * l.refillPerSecond)

variable [FloorRing K]

/-- `check`, at the clock reading `now`. -/
def check (l : TokenBucketLimiter K) (key : String) (now : K) :
    TokenBucketLimiter K × CheckResult :=
  let tokens := l.refilled key now
  if tokens < 1 then
    let wait := (1 - tokens) / l.refillPerSecond
    ({ l with buckets := l.buckets.set key ⟨tokens, now⟩ },
      if l.refillPerSecond = 0 then .zeroDivision
      -- `int` drops the fraction
      else .rateLimited (max 1 (if 0 ≤ wait then ⌊wait⌋ else ⌈wait⌉)))
  else ({ l with buckets := l.buckets.set key ⟨tokens - 1, now⟩ }, .accepted)

/-- The limiter after some requests. -/
def after (l : TokenBucketLimiter K) (reqs : List (Request K)) : TokenBucketLimiter K :=
  reqs.foldl (fun l q => (l.check q.key q.now).1) l

/-- The requests, each with what its check comes to. -/
def decided (l : TokenBucketLimiter K) : List (Request K) → List (Request K × CheckResult)
  | [] => []
  | q :: reqs => (q, (l.check q.key q.now).2) :: (l.check q.key q.now).1.decided reqs

/-- The number of accepted requests of a key in a window. -/
def acceptedIn (key : String) (s t : K) (ds : List (Request K × CheckResult)) : ℕ :=
  ds.countP fun d => d.1.key = key ∧ s ≤ d.1.now ∧ d.1.now ≤ t ∧ d.2 = .accepted

end TokenBucketLimiter

/-- The clock does not go back. -/
def InOrder {K : Type} [LE K] (q q' : Request K) : Prop := q.now ≤ q'.now

instance {K : Type} [LinearOrder K] : DecidableRel (InOrder (K := K)) :=
  fun q q' => inferInstanceAs (Decidable (q.now ≤ q'.now))

/-- **`l'` is `l` without some of the elements `p` holds of.** -/
inductive Drops {α : Type} (p : α → Prop) : List α → List α → Prop
  | nil : Drops p [] []
  | keep {a : α} {l l' : List α} : Drops p l l' → Drops p (a :: l) (a :: l')
  | drop {a : α} {l l' : List α} : p a → Drops p l l' → Drops p (a :: l) l'

namespace TokenBucketLimiter

variable {K : Type} [Field K] [LinearOrder K]
variable {l l' : TokenBucketLimiter K} {key key' : String} {s t t' : K}

/-! ## What a look at a bucket changes -/

theorem refilled_le : l.refilled key t ≤ l.capacity := min_le_left _ _

variable [FloorRing K]

@[simp] theorem check_capacity : (l.check key t).1.capacity = l.capacity := by
  unfold check
  dsimp only
  split <;> rfl

@[simp] theorem check_refillPerSecond : (l.check key t).1.refillPerSecond = l.refillPerSecond := by
  unfold check
  dsimp only
  split <;> rfl

@[simp] theorem after_capacity (reqs : List (Request K)) :
    (l.after reqs).capacity = l.capacity := by
  induction reqs generalizing l with
  | nil => rfl
  | cons q reqs ih => exact ih.trans check_capacity

@[simp] theorem after_refillPerSecond (reqs : List (Request K)) :
    (l.after reqs).refillPerSecond = l.refillPerSecond := by
  induction reqs generalizing l with
  | nil => rfl
  | cons q reqs ih => exact ih.trans check_refillPerSecond

/-- **A request is accepted where there is a whole token.** -/
theorem check_accepted_iff : (l.check key t).2 = .accepted ↔ 1 ≤ l.refilled key t := by
  unfold check
  dsimp only
  by_cases hlt : l.refilled key t < 1
  · rw [if_pos hlt]
    refine iff_of_false ?_ (not_le.mpr hlt)
    dsimp only
    split <;> simp
  · rw [if_neg hlt]
    exact iff_of_true rfl (not_lt.mp hlt)

/-- What a check leaves in the buckets. -/
theorem check_buckets : (l.check key t).1.buckets = l.buckets.set key
    ⟨if (l.check key t).2 = .accepted then l.refilled key t - 1 else l.refilled key t, t⟩ := by
  by_cases hacc : (l.check key t).2 = .accepted
  · rw [if_pos hacc]
    have hge : ¬ l.refilled key t < 1 := not_lt.mpr (check_accepted_iff.mp hacc)
    unfold check
    rw [if_neg hge]
  · rw [if_neg hacc]
    have hlt : l.refilled key t < 1 := not_le.mp fun h => hacc (check_accepted_iff.mpr h)
    unfold check
    rw [if_pos hlt]

/-- **A check leaves the other keys alone.** -/
theorem refilled_check_of_ne (hne : key' ≠ key) :
    (l.check key t).1.refilled key' t' = l.refilled key' t' := by
  unfold refilled
  rw [check_buckets, Dict.get?_set, if_neg hne, check_capacity, check_refillPerSecond]

theorem refilled_check_self : (l.check key t).1.refilled key t' =
    min (l.capacity : K) ((if (l.check key t).2 = .accepted then l.refilled key t - 1
      else l.refilled key t) + (t' - t) * l.refillPerSecond) := by
  rw [refilled, check_buckets, Dict.get?_set, if_pos rfl, check_capacity, check_refillPerSecond]
  rfl

variable [IsStrictOrderedRing K]

omit [FloorRing K] in
/-- **Refilling twice is refilling once.** -/
theorem refilled_refilled (hrate : 0 ≤ l.refillPerSecond) (ht : t ≤ t') :
    min (l.capacity : K) (l.refilled key t + (t' - t) * l.refillPerSecond) =
      l.refilled key t' := by
  have hflow : 0 ≤ (t' - t) * l.refillPerSecond := mul_nonneg (sub_nonneg.mpr ht) hrate
  unfold refilled
  cases l.buckets.get? key with
  | none =>
      simp only [Option.getD_none, sub_self, zero_mul, add_zero, min_self]
      exact min_eq_left (by linarith)
  | some b =>
      simp only [Option.getD_some]
      have hsplit : b.tokens + (t' - b.lastRefill) * l.refillPerSecond =
          b.tokens + (t - b.lastRefill) * l.refillPerSecond + (t' - t) * l.refillPerSecond := by
        ring
      rw [hsplit]
      rcases le_total (l.capacity : K)
        (b.tokens + (t - b.lastRefill) * l.refillPerSecond) with hfull | hpart
      · rw [min_eq_left hfull, min_eq_left (by linarith), min_eq_left (by linarith)]
      · rw [min_eq_right hpart]

/-- **A rejected request changes no bucket**, as far as later ones see. -/
theorem refilled_check_of_rejected (hrate : 0 ≤ l.refillPerSecond) (ht : t ≤ t')
    (hrej : (l.check key t).2 ≠ .accepted) :
    (l.check key t).1.refilled key' t' = l.refilled key' t' := by
  by_cases hkey : key' = key
  · subst hkey
    rw [refilled_check_self, if_neg hrej, refilled_refilled hrate ht]
  · exact refilled_check_of_ne hkey

/-! ## Which decisions a request bears on -/

/-- **From `t` on the limiters show the keys in `mine` the same tokens.** -/
structure Agree (mine : String → Prop) (t : K) (l l' : TokenBucketLimiter K) : Prop where
  capacity : l.capacity = l'.capacity
  rate : l.refillPerSecond = l'.refillPerSecond
  refilled : ∀ key, mine key → ∀ t', t ≤ t' → l.refilled key t' = l'.refilled key t'

variable {mine : String → Prop}

omit [FloorRing K] [IsStrictOrderedRing K] in
theorem Agree.refl (l : TokenBucketLimiter K) : Agree mine t l l :=
  ⟨rfl, rfl, fun _ _ _ _ => rfl⟩

omit [FloorRing K] [IsStrictOrderedRing K] in
theorem Agree.later (h : Agree mine t l l') (ht : t ≤ t') : Agree mine t' l l' :=
  ⟨h.capacity, h.rate, fun key hkey t'' ht'' => h.refilled key hkey t'' (ht.trans ht'')⟩

omit [IsStrictOrderedRing K] in
/-- What a check comes to can be read off the tokens. -/
theorem Agree.result (h : Agree mine t l l') (hkey : mine key) :
    (l.check key t).2 = (l'.check key t).2 := by
  unfold check
  dsimp only
  rw [h.refilled key hkey t le_rfl, h.rate]
  split <;> rfl

omit [IsStrictOrderedRing K] in
theorem Agree.check (h : Agree mine t l l') (hkey : mine key) :
    Agree mine t (l.check key t).1 (l'.check key t).1 := by
  refine ⟨?_, ?_, fun key' hkey' t' ht' => ?_⟩
  · rw [check_capacity, check_capacity, h.capacity]
  · rw [check_refillPerSecond, check_refillPerSecond, h.rate]
  · by_cases hsame : key' = key
    · subst hsame
      rw [refilled_check_self, refilled_check_self, h.result hkey, h.capacity, h.rate,
        h.refilled key' hkey t le_rfl]
    · rw [refilled_check_of_ne hsame, refilled_check_of_ne hsame, h.refilled key' hkey' t' ht']

/-- The limiter that has seen a rejected request, and the one that has not. -/
theorem Agree.check_left (h : Agree mine t l l') (hrate : 0 ≤ l.refillPerSecond)
    (hbare : (l.check key t).2 ≠ .accepted ∨ ¬ mine key) :
    Agree mine t (l.check key t).1 l' := by
  refine ⟨by rw [check_capacity, h.capacity], by rw [check_refillPerSecond, h.rate],
    fun key' hkey' t' ht' => ?_⟩
  rw [← h.refilled key' hkey' t' ht']
  rcases hbare with hrej | hother
  · exact refilled_check_of_rejected hrate ht' hrej
  · exact refilled_check_of_ne fun heq => hother (heq ▸ hkey')

variable {reqs : List (Request K)}

/-- **Rejected requests bear on nothing**: without some of them the others
are decided as before. -/
theorem Agree.decided_of_drops (h : Agree (fun _ => True) t l l') (hrate : 0 ≤ l.refillPerSecond)
    (hclock : ∀ q ∈ reqs, t ≤ q.now) (horder : reqs.Pairwise InOrder)
    {kept : List (Request K × CheckResult)}
    (hkept : Drops (fun d => d.2 ≠ .accepted) (l.decided reqs) kept) :
    l'.decided (kept.map Prod.fst) = kept := by
  induction reqs generalizing l l' t kept with
  | nil =>
      cases hkept
      rfl
  | cons q reqs ih =>
      rw [List.pairwise_cons] at horder
      have hq : Agree (fun _ => True) q.now l l' := h.later (hclock q List.mem_cons_self)
      have hrate' : 0 ≤ (l.check q.key q.now).1.refillPerSecond := by
        rw [check_refillPerSecond]
        exact hrate
      unfold decided at hkept
      cases hkept with
      | keep hrest =>
          rw [List.map_cons, decided, ih (hq.check trivial) hrate' horder.1 horder.2 hrest,
            ← hq.result trivial]
      | drop hrej hrest =>
          exact ih (hq.check_left hrate (.inl hrej)) hrate' horder.1 horder.2 hrest

/-- **Nor do requests of other keys.** -/
theorem Agree.decided_filter {mine : String → Bool} (h : Agree (fun key => mine key) t l l')
    (hrate : 0 ≤ l.refillPerSecond) (hclock : ∀ q ∈ reqs, t ≤ q.now)
    (horder : reqs.Pairwise InOrder) :
    l'.decided (reqs.filter fun q => mine q.key) =
      (l.decided reqs).filter fun d => mine d.1.key := by
  induction reqs generalizing l l' t with
  | nil => rfl
  | cons q reqs ih =>
      rw [List.pairwise_cons] at horder
      have hq : Agree (fun key => mine key) q.now l l' := h.later (hclock q List.mem_cons_self)
      have hrate' : 0 ≤ (l.check q.key q.now).1.refillPerSecond := by
        rw [check_refillPerSecond]
        exact hrate
      rw [decided, List.filter_cons, List.filter_cons]
      by_cases hkey : mine q.key
      · rw [if_pos hkey, if_pos hkey, decided, ih (hq.check hkey) hrate' horder.1 horder.2,
          ← hq.result hkey]
      · rw [if_neg hkey, if_neg hkey]
        exact ih (hq.check_left hrate (.inr hkey)) hrate' horder.1 horder.2

/-! ## How many tokens there are -/

omit [IsStrictOrderedRing K] in
theorem map_fst_decided (l : TokenBucketLimiter K) (reqs : List (Request K)) :
    (l.decided reqs).map Prod.fst = reqs := by
  induction reqs generalizing l with
  | nil => rfl
  | cons q reqs ih => rw [decided, List.map_cons, ih]

/-- **The buckets are in range**, and refilled by `t` at the latest. -/
structure InRange (t : K) (l : TokenBucketLimiter K) : Prop where
  capacity : 0 ≤ l.capacity
  rate : 0 ≤ l.refillPerSecond
  tokens : ∀ key b, l.buckets.get? key = some b → 0 ≤ b.tokens ∧ b.tokens ≤ l.capacity
  clock : ∀ key b, l.buckets.get? key = some b → b.lastRefill ≤ t

omit [FloorRing K] [IsStrictOrderedRing K] in
theorem InRange.later (h : InRange t l) (ht : t ≤ t') : InRange t' l :=
  ⟨h.capacity, h.rate, h.tokens, fun key b hget => (h.clock key b hget).trans ht⟩

omit [FloorRing K] in
theorem InRange.refilled_nonneg (h : InRange t l) (ht : t ≤ t') : 0 ≤ l.refilled key t' := by
  have hcap : (0 : K) ≤ l.capacity := by exact_mod_cast h.capacity
  unfold refilled
  refine le_min hcap ?_
  cases hget : l.buckets.get? key with
  | none =>
      rw [Option.getD_none, sub_self, zero_mul, add_zero]
      exact hcap
  | some b =>
      have hflow : 0 ≤ (t' - b.lastRefill) * l.refillPerSecond :=
        mul_nonneg (sub_nonneg.mpr ((h.clock key b hget).trans ht)) h.rate
      have htokens := (h.tokens key b hget).1
      rw [Option.getD_some]
      linarith

/-- One check keeps the buckets in range. -/
theorem InRange.check (h : InRange t l) (ht : t ≤ t') : InRange t' (l.check key t').1 := by
  have hnonneg : 0 ≤ l.refilled key t' := h.refilled_nonneg ht
  have hle : l.refilled key t' ≤ l.capacity := refilled_le
  refine ⟨?_, ?_, fun key' b hget => ?_, fun key' b hget => ?_⟩
  · rw [check_capacity]
    exact h.capacity
  · rw [check_refillPerSecond]
    exact h.rate
  · rw [check_capacity]
    rw [check_buckets, Dict.get?_set] at hget
    split at hget
    · obtain rfl := Option.some.inj hget
      dsimp only
      split
      · rename_i hacc
        have hge := check_accepted_iff.mp hacc
        exact ⟨by linarith, by linarith⟩
      · exact ⟨hnonneg, hle⟩
    · exact h.tokens key' b hget
  · rw [check_buckets, Dict.get?_set] at hget
    split at hget
    · obtain rfl := Option.some.inj hget
      exact le_rfl
    · exact (h.clock key' b hget).trans ht

/-- **A run keeps them in range.** -/
theorem InRange.after (h : InRange t l) (hclock : ∀ q ∈ reqs, t ≤ q.now)
    (horder : reqs.Pairwise InOrder) (ht : t ≤ t') (hlast : ∀ q ∈ reqs, q.now ≤ t') :
    InRange t' (l.after reqs) := by
  induction reqs generalizing l t with
  | nil => exact h.later ht
  | cons q reqs ih =>
      rw [List.pairwise_cons] at horder
      exact ih (h.check (hclock q List.mem_cons_self)) horder.1 horder.2
        (hlast q List.mem_cons_self) fun q' hq' => hlast q' (List.mem_cons_of_mem _ hq')

omit [IsStrictOrderedRing K] in
/-- A window is over once the clock has passed it. -/
theorem acceptedIn_of_later (hlater : ∀ q ∈ reqs, t < q.now) :
    acceptedIn key s t (l.decided reqs) = 0 := by
  refine List.countP_eq_zero.mpr fun d hd hcount => ?_
  obtain ⟨-, -, hle, -⟩ := of_decide_eq_true hcount
  have hmem : d.1 ∈ reqs := map_fst_decided l reqs ▸ List.mem_map_of_mem hd
  exact absurd (hlater d.1 hmem) (not_lt.mpr hle)

/-- **What a window accepts is paid for** by the tokens at its start and by
what flows in until its end. -/
theorem InRange.acceptedIn_le_refilled (h : InRange s l) (hst : s ≤ t)
    (hclock : ∀ q ∈ reqs, s ≤ q.now) (horder : reqs.Pairwise InOrder) {s₀ : K} :
    (acceptedIn key s₀ t (l.decided reqs) : K) ≤
      l.refilled key s + (t - s) * l.refillPerSecond := by
  induction reqs generalizing l s with
  | nil =>
      have hflow : 0 ≤ (t - s) * l.refillPerSecond := mul_nonneg (sub_nonneg.mpr hst) h.rate
      have htokens : 0 ≤ l.refilled key s := h.refilled_nonneg le_rfl
      rw [decided, acceptedIn, List.countP_nil, Nat.cast_zero]
      linarith
  | cons q reqs ih =>
      rw [List.pairwise_cons] at horder
      have hq : s ≤ q.now := hclock q List.mem_cons_self
      rcases le_or_gt q.now t with hin | hout
      · have hnext : InRange q.now (l.check q.key q.now).1 := h.check hq
        have hrest := ih hnext hin horder.1 horder.2
        have hgrown : l.refilled key q.now ≤
            l.refilled key s + (q.now - s) * l.refillPerSecond := by
          rw [← refilled_refilled h.rate hq]
          exact min_le_right _ _
        rw [check_refillPerSecond] at hrest
        unfold acceptedIn at hrest ⊢
        rw [decided, List.countP_cons]
        split
        · -- the accepted request has taken a token
          rename_i hcount
          obtain ⟨rfl, -, -, hacc⟩ := of_decide_eq_true hcount
          have htaken : (l.check q.key q.now).1.refilled q.key q.now ≤
              l.refilled q.key q.now - 1 := by
            rw [refilled_check_self, if_pos hacc, sub_self, zero_mul, add_zero]
            exact min_le_right _ _
          push_cast
          linarith
        · have hkept : (l.check q.key q.now).1.refilled key q.now ≤ l.refilled key q.now := by
            by_cases hkey : key = q.key
            · rw [hkey, refilled_check_self, sub_self, zero_mul, add_zero]
              refine (min_le_right _ _).trans ?_
              split <;> linarith
            · rw [refilled_check_of_ne hkey]
          rw [add_zero]
          linarith
      · -- the clock has left the window
        have hlater : ∀ q' ∈ q :: reqs, t < q'.now := by
          intro q' hq'
          rcases List.mem_cons.mp hq' with rfl | hrest
          · exact hout
          · exact hout.trans_le (horder.1 q' hrest)
        have hflow : 0 ≤ (t - s) * l.refillPerSecond := mul_nonneg (sub_nonneg.mpr hst) h.rate
        have htokens : 0 ≤ l.refilled key s := h.refilled_nonneg le_rfl
        rw [acceptedIn_of_later hlater, Nat.cast_zero]
        linarith

/-- **What any window accepts**, from wherever the clock starts. -/
theorem InRange.acceptedIn_le (h : InRange t' l) (hst : s ≤ t)
    (hclock : ∀ q ∈ reqs, t' ≤ q.now) (horder : reqs.Pairwise InOrder) :
    (acceptedIn key s t (l.decided reqs) : K) ≤ l.capacity + (t - s) * l.refillPerSecond := by
  induction reqs generalizing l t' with
  | nil =>
      have hflow : 0 ≤ (t - s) * l.refillPerSecond := mul_nonneg (sub_nonneg.mpr hst) h.rate
      have hcap : (0 : K) ≤ l.capacity := by exact_mod_cast h.capacity
      rw [decided, acceptedIn, List.countP_nil, Nat.cast_zero]
      linarith
  | cons q reqs ih =>
      have hq : t' ≤ q.now := hclock q List.mem_cons_self
      have hrest := List.pairwise_cons.mp horder
      rcases lt_or_ge q.now s with hbefore | hin
      · -- what is decided before the window does not count
        have hnot : ¬ (q.key = key ∧ s ≤ q.now ∧ q.now ≤ t ∧ (l.check q.key q.now).2 = .accepted) :=
          fun hcount => absurd hcount.2.1 (not_le.mpr hbefore)
        have hnext : InRange q.now (l.check q.key q.now).1 := h.check hq
        have hle := ih hnext hrest.1 hrest.2
        rw [check_capacity, check_refillPerSecond] at hle
        unfold acceptedIn at hle ⊢
        rwa [decided, List.countP_cons, if_neg (by simpa using hnot), add_zero]
      · have hlow : ∀ q' ∈ q :: reqs, q.now ≤ q'.now := by
          intro q' hq'
          rcases List.mem_cons.mp hq' with rfl | hmem
          · exact le_rfl
          · exact hrest.1 q' hmem
        have hcap : (0 : K) ≤ l.capacity := by exact_mod_cast h.capacity
        rcases le_or_gt q.now t with hqt | hout
        · have hpaid : (acceptedIn key s t (l.decided (q :: reqs)) : K) ≤
              l.refilled key q.now + (t - q.now) * l.refillPerSecond :=
            (h.later hq).acceptedIn_le_refilled hqt hlow horder
          have hfull : l.refilled key q.now ≤ l.capacity := refilled_le
          have hflow : (t - q.now) * l.refillPerSecond ≤ (t - s) * l.refillPerSecond :=
            mul_le_mul_of_nonneg_right (by linarith) h.rate
          linarith
        · have hflow : 0 ≤ (t - s) * l.refillPerSecond := mul_nonneg (sub_nonneg.mpr hst) h.rate
          rw [acceptedIn_of_later fun q' hq' => hout.trans_le (hlow q' hq'), Nat.cast_zero]
          linarith

omit [FloorRing K] [IsStrictOrderedRing K] in
theorem inRange_empty {capacity : ℤ} {rate : K} (hcap : 0 ≤ capacity) (hrate : 0 ≤ rate) (t : K) :
    InRange t ⟨capacity, rate, .empty⟩ :=
  ⟨hcap, hrate, fun _ _ hget => (by cases hget), fun _ _ hget => (by cases hget)⟩

omit [IsStrictOrderedRing K] [FloorRing K] [Field K] in
/-- Where a clock that does not go back starts, and where it ends. -/
theorem exists_clock_bounds (horder : reqs.Pairwise InOrder) (t₀ : K) :
    ∃ s t : K, s ≤ t ∧ (∀ q ∈ reqs, s ≤ q.now) ∧ ∀ q ∈ reqs, q.now ≤ t := by
  induction reqs with
  | nil => exact ⟨t₀, t₀, le_rfl, fun _ hq => (by cases hq), fun _ hq => by cases hq⟩
  | cons q reqs ih =>
      rw [List.pairwise_cons] at horder
      obtain ⟨s, t, -, -, hlast⟩ := ih horder.2
      refine ⟨q.now, max q.now t, le_max_left _ _, fun q' hq' => ?_, fun q' hq' => ?_⟩
      · rcases List.mem_cons.mp hq' with rfl | hmem
        · exact le_rfl
        · exact horder.1 q' hmem
      · rcases List.mem_cons.mp hq' with rfl | hmem
        · exact le_max_left _ _
        · exact (hlast q' hmem).trans (le_max_right _ _)

/-- **The limiter is a token bucket.** No window accepts more than a full
bucket and what flows in meanwhile, no bucket is ever out of range, and
neither a rejected request nor one of another key bears on a decision. -/
theorem tokenBucket {capacity : ℤ} {rate : K} (hcap : 0 ≤ capacity) (hrate : 0 < rate)
    (horder : reqs.Pairwise InOrder) :
    let l : TokenBucketLimiter K := ⟨capacity, rate, .empty⟩
    (∀ key s t, s ≤ t →
      (acceptedIn key s t (l.decided reqs) : K) ≤ capacity + rate * (t - s)) ∧
    (∀ seen, seen <+: reqs → ∀ key b, (l.after seen).buckets.get? key = some b →
      0 ≤ b.tokens ∧ b.tokens ≤ capacity) ∧
    (∀ kept, Drops (fun d => d.2 ≠ .accepted) (l.decided reqs) kept →
      l.decided (kept.map Prod.fst) = kept) ∧
    ∀ mine : String → Bool, l.decided (reqs.filter fun q => mine q.key) =
      (l.decided reqs).filter fun d => mine d.1.key := by
  intro l
  obtain ⟨first, last, hle, hfirst, hlast⟩ := exists_clock_bounds horder 0
  have hrange : InRange first l := inRange_empty hcap hrate.le first
  refine ⟨fun key s t hst => ?_, fun seen hseen key b hget => ?_, fun kept hkept => ?_,
    fun mine => ?_⟩
  · rw [mul_comm]
    exact hrange.acceptedIn_le hst hfirst horder
  · have hafter : InRange last (l.after seen) :=
      hrange.after (fun q hq => hfirst q (hseen.subset hq)) (horder.sublist hseen.sublist) hle
        fun q hq => hlast q (hseen.subset hq)
    have hrange := hafter.tokens key b hget
    rwa [after_capacity] at hrange
  · exact (Agree.refl l).decided_of_drops hrate.le hfirst horder hkept
  · exact (Agree.refl l).decided_filter hrate.le hfirst horder

/-- The bucket of three requests at once and one two seconds later: one
token is there, half a token flows in each second. -/
theorem tokenBucket_requests :
    let l : TokenBucketLimiter ℚ := ⟨1, 1 / 2, .empty⟩
    let reqs : List (Request ℚ) := [⟨"a", 0⟩, ⟨"a", 0⟩, ⟨"b", 1⟩, ⟨"a", 2⟩]
    l.decided reqs = [(⟨"a", 0⟩, .accepted), (⟨"a", 0⟩, .rateLimited 2), (⟨"b", 1⟩, .accepted),
      (⟨"a", 2⟩, .accepted)] ∧
    (acceptedIn "a" 0 2 (l.decided reqs) : ℚ) ≤ 1 + 1 / 2 * (2 - 0) := by
  intro l reqs
  have hrate : (0 : ℚ) < 1 / 2 := by norm_num
  have horder : reqs.Pairwise InOrder := by decide +kernel
  have hbucket := tokenBucket (Int.one_nonneg) hrate horder
  exact ⟨by decide +kernel, hbucket.1 "a" 0 2 (by norm_num)⟩

/-! ## When to come back -/

/-- **`w` seconds are enough** for a key rejected at `t`: its next request,
`w` seconds later or more, is accepted, whatever other keys do meanwhile. -/
def Honest (l : TokenBucketLimiter K) (key : String) (t : K) (w : ℤ) : Prop :=
  ∀ others t', t + w ≤ t' → (∀ q ∈ others, q.key ≠ key) →
    (⟨key, t⟩ :: (others ++ [⟨key, t'⟩])).Pairwise InOrder →
    (((l.check key t).1.after others).check key t').2 = .accepted

omit [FloorRing K] [IsStrictOrderedRing K] in
/-- What the bucket of a key lacks of a token at `now`. -/
def missing (l : TokenBucketLimiter K) (key : String) (now : K) : K :=
  let bucket := (l.buckets.get? key).getD ⟨l.capacity, now⟩
  1 - (bucket.tokens + (now - bucket.lastRefill) * l.refillPerSecond)

omit [IsStrictOrderedRing K] in
theorem refilled_after_of_ne {others : List (Request K)} (hne : ∀ q ∈ others, q.key ≠ key) :
    (l.after others).refilled key t = l.refilled key t := by
  induction others generalizing l with
  | nil => rfl
  | cons q others ih =>
      have hrest := ih (l := (l.check q.key q.now).1)
        fun q' hq' => hne q' (List.mem_cons_of_mem _ hq')
      have hkey : key ≠ q.key := (hne q List.mem_cons_self).symm
      exact hrest.trans (refilled_check_of_ne hkey)

/-- The wait that is announced. -/
theorem eq_of_check_rateLimited {w : ℤ} (hrate : 0 < l.refillPerSecond)
    (hrej : (l.check key t).2 = .rateLimited w) :
    l.refilled key t < 1 ∧ w = max 1 ⌊(1 - l.refilled key t) / l.refillPerSecond⌋ := by
  have hlt : l.refilled key t < 1 := by
    by_contra hge
    rw [check_accepted_iff.mpr (not_lt.mp hge)] at hrej
    cases hrej
  have hwait : 0 ≤ (1 - l.refilled key t) / l.refillPerSecond :=
    div_nonneg (by linarith) hrate.le
  unfold check at hrej
  dsimp only at hrej
  rw [if_pos hlt, if_neg hrate.ne', if_pos hwait] at hrej
  exact ⟨hlt, (CheckResult.rateLimited.inj hrej).symm⟩

/-- **A wait is honest where it brings the missing tokens.** -/
theorem honest_iff {w : ℤ} (hcap : 1 ≤ l.capacity) (hrate : 0 < l.refillPerSecond)
    (hrej : (l.check key t).2 = .rateLimited w) :
    Honest l key t w ↔ 1 - l.refilled key t ≤ w * l.refillPerSecond := by
  obtain ⟨-, hw⟩ := eq_of_check_rateLimited hrate hrej
  have hpos : (0 : K) ≤ w := by exact_mod_cast (by omega : 0 ≤ w)
  have hcap' : (1 : K) ≤ l.capacity := by exact_mod_cast hcap
  have hnot : (l.check key t).2 ≠ .accepted := by
    rw [hrej]
    exact fun h => by cases h
  constructor
  · intro hhonest
    have hback := hhonest [] (t + w) le_rfl (fun _ hq => (by cases hq))
      (by simpa [InOrder] using hpos)
    have hle := check_accepted_iff.mp hback
    rw [after, List.foldl_nil, refilled_check_of_rejected hrate.le (by linarith) hnot,
      ← refilled_refilled hrate.le (by linarith : t ≤ t + w)] at hle
    have hflow := (le_min_iff.mp hle).2
    rw [add_sub_cancel_left] at hflow
    linarith
  · intro hflow others t' ht' hothers horder
    have ht : t ≤ t' := by linarith
    have hmore : w * l.refillPerSecond ≤ (t' - t) * l.refillPerSecond :=
      mul_le_mul_of_nonneg_right (by linarith) hrate.le
    rw [check_accepted_iff, refilled_after_of_ne hothers,
      refilled_check_of_rejected hrate.le ht hnot, ← refilled_refilled hrate.le ht]
    exact le_min hcap' (by linarith)

omit [FloorRing K] in
/-- A bucket that rejects is not full, so nothing it is owed is cut off. -/
theorem missing_eq_of_lt (hcap : 1 ≤ l.capacity) (hlt : l.refilled key t < 1) :
    1 - l.refilled key t = l.missing key t := by
  have hcap' : (1 : K) ≤ l.capacity := by exact_mod_cast hcap
  unfold refilled at hlt ⊢
  unfold missing
  dsimp only at hlt ⊢
  rcases min_lt_iff.mp hlt with hfull | hpart
  · exact absurd hfull (not_lt.mpr hcap')
  · rw [min_eq_right (by linarith)]

/-- A wait cut to whole seconds is long enough where there is nothing to
cut, or a second is. -/
theorem le_max_one_floor_iff {wait : K} :
    wait ≤ ((max 1 ⌊wait⌋ : ℤ) : K) ↔ wait ≤ 1 ∨ ∃ seconds : ℤ, wait = seconds := by
  rw [Int.cast_max, Int.cast_one, le_max_iff]
  constructor
  · rintro (hone | hfloor)
    · exact .inl hone
    · exact .inr ⟨⌊wait⌋, le_antisymm hfloor (Int.floor_le wait)⟩
  · rintro (hone | ⟨seconds, rfl⟩)
    · exact .inl hone
    · rw [Int.floor_intCast]
      exact .inr le_rfl

/-- **`Retry-After` is honest** exactly where the missing tokens come in
within a second, or in whole seconds: `int` cuts every other wait short. -/
theorem retryAfter_iff {w : ℤ} (hcap : 1 ≤ l.capacity) (hrate : 0 < l.refillPerSecond)
    (hrej : (l.check key t).2 = .rateLimited w) :
    Honest l key t w ↔ l.missing key t ≤ l.refillPerSecond ∨
      ∃ seconds : ℤ, l.missing key t = seconds * l.refillPerSecond := by
  obtain ⟨hlt, hw⟩ := eq_of_check_rateLimited hrate hrej
  rw [honest_iff hcap hrate hrej, hw, ← div_le_iff₀ hrate, le_max_one_floor_iff,
    div_le_iff₀ hrate, one_mul, missing_eq_of_lt hcap hlt]
  simp only [div_eq_iff hrate.ne']

/-- Half a token a second: an empty bucket is full again after the two
seconds it announces. -/
theorem retryAfter_two_seconds :
    let l : TokenBucketLimiter ℚ := after ⟨1, 1 / 2, .empty⟩ [⟨"a", 0⟩]
    (l.check "a" 0).2 = .rateLimited 2 ∧ Honest l "a" 0 2 := by
  intro l
  have hrej : (l.check "a" 0).2 = .rateLimited 2 := by decide +kernel
  have hmissing : l.missing "a" 0 = (2 : ℤ) * l.refillPerSecond := by decide +kernel
  have hhonest := retryAfter_iff (by decide +kernel) (by decide +kernel) hrej
  exact ⟨hrej, hhonest.mpr (.inr ⟨2, hmissing⟩)⟩

/-- Forty tokens a minute: the request that comes back after the second it
is told to wait is rejected once more. -/
theorem not_honest_forty_per_minute :
    let l : TokenBucketLimiter ℚ := after (.new 1 40) [⟨"a", 0⟩]
    (l.check "a" 0).2 = .rateLimited 1 ∧
      ((l.check "a" 0).1.check "a" 1).2 = .rateLimited 1 ∧ ¬ Honest l "a" 0 1 := by
  intro l
  have hagain : ((l.check "a" 0).1.check "a" 1).2 = .rateLimited 1 := by decide +kernel
  refine ⟨by decide +kernel, hagain, fun hhonest => ?_⟩
  have hacc := hhonest [] 1 (by norm_num) (fun _ hq => (by cases hq)) (by decide +kernel)
  rw [after, List.foldl_nil, hagain] at hacc
  cases hacc

end TokenBucketLimiter

end Api

end RetentionEngine
