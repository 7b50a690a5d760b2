import Mathlib.Algebra.Order.Ring.Defs
import Mathlib.Data.List.MinMax
import RetentionEngine.Common.Text
import RetentionEngine.Contracts.Explanation
import RetentionEngine.IngestMapping.Normalize

/-!
# From feed items to signals

The package `external_signals`: `FeedItem`, `to_signal`, which makes a
signal of anything a feed may hold or raises, and `resolve_for_user`. The
numbers are those of an ordered ring with the three values a float has
besides; what pydantic reads a float or a date from is its own affair.
-/

namespace RetentionEngine

namespace ExternalSignals

open Python
open IngestMapping (DateTime)

/-! ## Floats -/

/-- A `float`: a number, an infinity or not a number. -/
inductive Number (K : Type)
  | nan
  | negInf
  | finite (x : K)
  | posInf
  deriving DecidableEq, Repr

section Compare

variable {K : Type} [LinearOrder K]

/-- `a < b`. -/
def Number.lt : Number K → Number K → Prop
  | finite x, finite y => x < y
  | negInf, finite _ | negInf, posInf | finite _, posInf => True
  | _, _ => False

instance : DecidableRel (Number.lt : Number K → Number K → Prop) := fun a b => by
  cases a <;> cases b <;> unfold Number.lt <;> infer_instance

/-- `min(a, b)`: the first unless the second is less. -/
def Number.min (a b : Number K) : Number K := if b.lt a then b else a

/-- `max(a, b)`: the first unless the second is greater. -/
def Number.max (a b : Number K) : Number K := if a.lt b then b else a

theorem Number.min_finite (x y : K) : (finite x).min (finite y) = finite (Min.min x y) := by
  unfold Number.min
  by_cases hlt : y < x
  · rw [if_pos (show (finite y).lt (finite x) from hlt), min_eq_right hlt.le]
  · rw [if_neg (show ¬ (finite y).lt (finite x) from hlt), min_eq_left (not_lt.mp hlt)]

theorem Number.max_finite (x y : K) : (finite x).max (finite y) = finite (Max.max x y) := by
  unfold Number.max
  by_cases hlt : x < y
  · rw [if_pos (show (finite x).lt (finite y) from hlt), max_eq_right hlt.le]
  · rw [if_neg (show ¬ (finite x).lt (finite y) from hlt), max_eq_left (not_lt.mp hlt)]

end Compare

variable {K : Type} [Ring K] [LinearOrder K]

/-- `Field(ge=-1.0, le=1.0)`. -/
def InUnit (x : K) : Prop := -1 ≤ x ∧ x ≤ 1

instance : DecidablePred (InUnit : K → Prop) := fun _ => inferInstanceAs (Decidable (_ ∧ _))

/-- `max(-1.0, min(1.0, v))`. -/
def clamp (v : Number K) : Number K := (Number.finite (-1)).max ((Number.finite 1).min v)

/-! ## Items and signals -/

/-- `FeedItem`. -/
structure FeedItem (K : Type) where
  source : Text
  scopeType : Text
  scopeKey : Text
  signalType : Text
  value : Number K
  observedAt : DateTime
  headline : Option Text
  deriving DecidableEq, Repr

/-- **`ExternalSignal`**; its value is in the interval its field declares. -/
structure ExternalSignal (K : Type) [Ring K] [LinearOrder K] where
  signalId : String
  source : Text
  scopeType : ScopeType
  scopeKey : Text
  signalType : SignalType
  value : K
  observedAt : DateTime
  value_mem : InUnit value
  deriving DecidableEq, Repr

/-- **What the package is given**: whether pydantic takes a text for a
`str`, what it reads of a value for a `float` or a `datetime`, `str.upper`,
`datetime.isoformat` and SHA-256 in hexadecimal. -/
structure Library (K : Type) where
  acceptsStr : Text → Bool
  readFloat : Json → Option (Number K)
  readDatetime : Json → Option DateTime
  upper : Text → Text
  isoformat : DateTime → Text
  sha256 : Text → String

/-- What `to_signal` raises. -/
inductive Unusable
  /-- `ValueError`, a `ValidationError` or a `UnicodeEncodeError` among them. -/
  | valueError
  /-- The item has no `scope_type`. -/
  | attributeError
  deriving DecidableEq, Repr

variable (lib : Library K)

/-- A `str` field. -/
def requiredStr (d : List (Text × Json)) (name : String) : Option Text :=
  match Json.get? d (text name) with
  | some (.str s) => if lib.acceptsStr s then some s else none
  | _ => none

/-- A `str | None` field, `None` by default. -/
def optionalStr (d : List (Text × Json)) (name : String) : Option (Option Text) :=
  match Json.get? d (text name) with
  | none | some .null => some none
  | some (.str s) => if lib.acceptsStr s then some (some s) else none
  | _ => none

/-- `FeedItem.model_validate`; `none` is a `ValidationError`. -/
def modelValidate (d : List (Text × Json)) : Option (FeedItem K) := do
  let source ← requiredStr lib d "source"
  let scopeType ← requiredStr lib d "scope_type"
  let scopeKey ← requiredStr lib d "scope_key"
  let signalType ← requiredStr lib d "signal_type"
  let value ← (Json.get? d (text "value")).bind lib.readFloat
  let observedAt ← (Json.get? d (text "observed_at")).bind lib.readDatetime
  let headline ← optionalStr lib d "headline"
  some ⟨source, scopeType, scopeKey, signalType, value, observedAt, headline⟩

/-- `ScopeType(s)`, for a text of `_ALLOWED_SCOPES`. -/
def scopeTypeOf (s : Text) : Option ScopeType :=
  [ScopeType.client, .region, .cohort].find? fun t => text t.value = s

/-- `SignalType(s)`. -/
def signalTypeOf (s : Text) : Option SignalType :=
  [SignalType.newsSentiment, .socialSentiment, .sectorTrend].find? fun t => text t.value = s

/-- What the id of a signal is hashed of. -/
def signalKey (item : FeedItem K) (scope : Text) (signalType : SignalType) : Text :=
  item.source ++ text "|" ++ scope ++ text "|" ++ item.scopeKey ++ text "|" ++
    text signalType.value ++ text "|" ++ lib.isoformat item.observedAt

/-- `to_signal` of a validated item. -/
def signalOfItem (item : FeedItem K) : Except Unusable (ExternalSignal K) :=
  let scope := lib.upper item.scopeType
  match scopeTypeOf scope with
  | none => .error .valueError
  | some scopeType =>
      match signalTypeOf (lib.upper item.signalType) with
      | none => .error .valueError
      | some signalType =>
          if item.observedAt.utcOffset = none then .error .valueError
          else
            let key := signalKey lib item scope signalType
            if Encodable key then
              match clamp item.value with
              | .finite x =>
                  if h : InUnit x then
                    .ok ⟨take (lib.sha256 key) 16, item.source, scopeType, item.scopeKey,
                      signalType, x, item.observedAt, h⟩
                  else .error .valueError
              | _ => .error .valueError
            else .error .valueError

/-- **`to_signal`** of anything a JSON document may hold: an object is
validated first, what is no object has no attributes. -/
def toSignal : Json → Except Unusable (ExternalSignal K)
  | .dict d =>
      match modelValidate lib d with
      | some item => signalOfItem lib item
      | none => .error .valueError
  | _ => .error .attributeError

/-! ## The signal of a user -/

/-- The instant a date names. -/
def instant (t : DateTime) : ℤ := t.clock - t.utcOffset.getD 0

/-- `(s.observed_at, s.signal_id)` is not below that of the other. -/
def NotOlder (s t : ExternalSignal K) : Prop :=
  instant t.observedAt < instant s.observedAt ∨
    instant t.observedAt = instant s.observedAt ∧ t.signalId ≤ s.signalId

instance : DecidableRel (NotOlder : ExternalSignal K → ExternalSignal K → Prop) :=
  fun _ _ => inferInstanceAs (Decidable (_ ∨ _))

/-- `max(matches, key=...)`: the first of the greatest. -/
def newest (l : List (ExternalSignal K)) : Option (ExternalSignal K) :=
  l.foldl (fun best s => match best with
    | none => some s
    | some t => some (if NotOlder t s then t else s)) none

/-- `resolve_for_user`: in the user's cohort, else in the region, else for
the client, the newest signal of the window; a key the attributes do not
have is `null`. -/
def resolveForUser (signals : List (ExternalSignal K)) (tenantSlug : Text)
    (regionCode cohortKey : Json) (now oldest : ℤ) : Option (ExternalSignal K) :=
  [(ScopeType.cohort, cohortKey), (.region, regionCode), (.client, .str tenantSlug)].findSome?
    fun wanted => newest (signals.filter fun s =>
      s.scopeType = wanted.1 ∧ wanted.2.isText s.scopeKey ∧
        oldest ≤ instant s.observedAt ∧ instant s.observedAt ≤ now)

/-! ## What is made of an item -/

/-- **An item a signal is made of**: scope and type are known words, the
date has a zone, and the text the id is hashed of can be encoded. -/
def Allowed (item : FeedItem K) : Prop :=
  ∃ signalType ∈ signalTypeOf (lib.upper item.signalType),
    (scopeTypeOf (lib.upper item.scopeType)).isSome ∧ item.observedAt.utcOffset ≠ none ∧
      Encodable (signalKey lib item (lib.upper item.scopeType) signalType)

instance : DecidablePred (Allowed lib) := fun _ => by unfold Allowed; infer_instance

variable {lib} {item : FeedItem K} {v : Number K}

/-- **Any float is clamped into the interval**; not a number becomes 1. -/
theorem exists_clamp [IsStrictOrderedRing K] (v : Number K) :
    ∃ x, clamp v = .finite x ∧ InUnit x := by
  have hone : (-1 : K) ≤ 1 := neg_le_self zero_le_one
  have hfirst : (Number.finite (-1)).max (Number.finite (1 : K)) = .finite 1 := by
    rw [Number.max_finite, max_eq_right hone]
  cases v with
  | nan =>
      have hmin : (Number.finite (1 : K)).min .nan = .finite 1 := if_neg id
      exact ⟨1, by rw [clamp, hmin, hfirst], hone, le_rfl⟩
  | posInf =>
      have hmin : (Number.finite (1 : K)).min .posInf = .finite 1 := if_neg id
      exact ⟨1, by rw [clamp, hmin, hfirst], hone, le_rfl⟩
  | negInf =>
      have hmin : (Number.finite (1 : K)).min .negInf = .negInf := if_pos trivial
      have hmax : (Number.finite (-1 : K)).max .negInf = .finite (-1) := if_neg id
      exact ⟨-1, by rw [clamp, hmin, hmax], le_rfl, hone⟩
  | finite x =>
      refine ⟨_, by rw [clamp, Number.min_finite, Number.max_finite], le_max_left _ _, ?_⟩
      exact max_le hone (min_le_left _ _)

/-- An allowed item becomes a signal with its own fields. -/
theorem exists_signalOfItem [IsStrictOrderedRing K] (h : Allowed lib item) :
    ∃ s, signalOfItem lib item = .ok s ∧ s.source = item.source ∧ s.scopeKey = item.scopeKey ∧
      s.observedAt = item.observedAt := by
  obtain ⟨signalType, hsignal, hscope, hzone, hkey⟩ := h
  obtain ⟨scopeType, hscope⟩ := Option.isSome_iff_exists.mp hscope
  obtain ⟨x, hx, hunit⟩ := exists_clamp item.value
  refine ⟨⟨take (lib.sha256 (signalKey lib item (lib.upper item.scopeType) signalType)) 16,
    item.source, scopeType, item.scopeKey, signalType, x, item.observedAt, hunit⟩,
    ?_, rfl, rfl, rfl⟩
  unfold signalOfItem
  simp only [hscope, Option.mem_def.mp hsignal, if_neg hzone, if_pos hkey, hx, dif_pos hunit]

/-- Any other item is refused by an exception that is caught. -/
theorem signalOfItem_of_not_allowed (h : ¬ Allowed lib item) :
    signalOfItem lib item = .error .valueError := by
  unfold signalOfItem
  dsimp only
  split
  · rfl
  · rename_i scopeType hscope
    split
    · rfl
    · rename_i signalType hsignal
      split
      · rfl
      · rename_i hzone
        have hkey : ¬ Encodable (signalKey lib item (lib.upper item.scopeType) signalType) :=
          fun hkey => h ⟨signalType, hsignal, Option.isSome_iff_exists.mpr ⟨_, hscope⟩, hzone, hkey⟩
        rw [if_neg hkey]

end ExternalSignals

end RetentionEngine
