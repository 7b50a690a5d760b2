import RetentionEngine.Common.Lists
import RetentionEngine.IngestMapping.Normalize

/-!
# How a normalization ends

The worker catches `MappingError` and nothing else. A call settles if it
returns or raises that; `settles_bind` takes a body of code apart, and each
function of `normalize` has one lemma that says when it settles.
`normalize_settles` puts them together: what can go wrong is an amount
that no integer holds, a reference that cannot be encoded, and user
attributes that are no object.
-/

namespace RetentionEngine

namespace IngestMapping

open Python

variable {α β : Type}

/-- **A call settles**: it returns or raises `MappingError`. -/
def Settles (x : Except Raised α) : Prop :=
  (∃ a, x = .ok a) ∨ ∃ message, x = .error (.mappingError message)

theorem settles_ok (a : α) : Settles (.ok a : Except Raised α) := Or.inl ⟨a, rfl⟩

theorem settles_mappingError (message : Text) :
    Settles (.error (.mappingError message) : Except Raised α) := Or.inr ⟨message, rfl⟩

instance : DecidablePred (Settles : Except Raised α → Prop)
  | .ok a => isTrue (settles_ok a)
  | .error (.mappingError message) => isTrue (settles_mappingError message)
  | .error (.valueError _) | .error .unicodeEncodeError | .error .overflowError
  | .error .memoryError | .error .typeError => isFalse (by simp [Settles])

/-- **Code settles** when its first call does and, if that returns, the
rest does. -/
theorem settles_bind {x : Except Raised α} {f : α → Except Raised β} :
    Settles (x >>= f) ↔ Settles x ∧ ∀ a, x = .ok a → Settles (f a) := by
  cases x with
  | ok a =>
      have hbind : Except.ok a >>= f = f a := rfl
      rw [hbind]
      refine ⟨fun h => ⟨settles_ok a, ?_⟩, fun h => h.2 a rfl⟩
      rintro _ ⟨⟩
      exact h
  | error e =>
      have hbind : Except.error e >>= f = .error e := rfl
      rw [hbind]
      have hnone : ∀ a, (.error e : Except Raised α) = .ok a → Settles (f a) := by
        intro a h
        cases h
      refine ⟨?_, ?_⟩
      · rintro (⟨a, h⟩ | ⟨message, h⟩)
        · cases h
        · obtain rfl := Except.error.inj h
          exact ⟨settles_mappingError message, hnone⟩
      · rintro ⟨⟨a, h⟩ | ⟨message, h⟩, -⟩
        · cases h
        · obtain rfl := Except.error.inj h
          exact settles_mappingError message

theorem settles_map {x : Except Raised α} {f : α → β} : Settles (x.map f) ↔ Settles x := by
  unfold Settles
  cases x <;> simp [Except.map]

theorem map_eq_ok {x : Except Raised α} {f : α → β} {b : β} :
    x.map f = .ok b ↔ ∃ a, x = .ok a ∧ f a = b := by
  cases x <;> simp [Except.map]

/-- A call that raises something else. -/
theorem not_settles {e : Raised} (h : ∀ message, e ≠ .mappingError message) :
    ¬ Settles (.error e : Except Raised α) := by
  rintro (⟨a, heq⟩ | ⟨message, heq⟩)
  · cases heq
  · exact h message (Except.error.inj heq)

/-! ## The conditions -/

variable (lib : Library)

/-- An amount no integer holds: an infinity, or a number too long for the
memory. -/
def Overflows (v : Json) : Prop :=
  (∀ b, v ≠ .bool b) ∧
    ∃ d, Decimal.ofText lib.unicode (v.toText lib.unicode) = some d ∧ d.Unbounded lib.maxDigits

/-- An amount that is read as an integer. -/
def IsAmount (v : Json) : Prop :=
  (∀ b, v ≠ .bool b) ∧ ∃ d, Decimal.ofText lib.unicode (v.toText lib.unicode) = some d ∧
    d.IsFinite ∧ ¬ d.Unbounded lib.maxDigits

/-- User attributes the whitelisted key `k` can be looked up in: an object,
or a list or text without it. -/
def Readable (k : Text) : Json → Prop
  | .dict _ => True
  | .list elements => .str k ∉ elements
  | .str s => ¬ k <:+: s
  | _ => False

/-- The value at the amount path, if there is a path. -/
def amountAt (body : Body) (mapping : EventTypeMapping) : Option (Option Json) :=
  (truthyPath mapping.amountFieldPath).map (resolvePath body)

/-- The true value at the counterparty path, if there is a path. -/
def counterpartyAt (body : Body) (mapping : EventTypeMapping) : Option (Option Json) :=
  (truthyPath mapping.counterpartyFieldPath).map fun path =>
    (resolvePath body path).filter Json.truthy

/-- A body that gets past its event type, its references and its time. -/
structure Dated (config : TenantMappingConfig) (body : Body) (mapping : EventTypeMapping)
    (userRef : Json) : Prop where
  eventType : config.lookup lib
    (((Json.get? body (text "event_type")).getD .null).toText lib.unicode) = .ok mapping
  userRef : required body "user_ref" = .ok userRef
  clientEventId : ∃ v, required body "client_event_id" = .ok v
  occurredAt : ∃ t, toDatetime lib (resolvePath body mapping.occurredAtFieldPath) = .ok t

/-- **A clean body.** Once it is past its time, no amount overflows; past
its amount, its counterparty can be encoded; and past its counterparty, its
user attributes can be read and its user reference encoded. -/
def Clean (config : TenantMappingConfig) (body : Body) : Prop :=
  ∀ mapping userRef, Dated lib config body mapping userRef →
    (∀ v, amountAt body mapping = some (some v) → ¬ Overflows lib v) ∧
    ((∀ value, amountAt body mapping = some value → ∃ v, value = some v ∧ IsAmount lib v) →
      (∀ v, counterpartyAt body mapping = some (some v) → ¬ v.HasLoneSurrogate) ∧
      ((∀ value, counterpartyAt body mapping = some value → value ≠ none) →
        (∀ k ∈ config.attributeWhitelist, Readable k (userAttributesOf body)) ∧
          ¬ userRef.HasLoneSurrogate))

/-! ## One function at a time -/

variable {lib} {config : TenantMappingConfig} {body : Body} {mapping : EventTypeMapping}
  {secret : List UInt8} {tenantId : String} {v userRef : Json} {k : Text}

theorem settles_lookup (clientEventType : Text) : Settles (config.lookup lib clientEventType) := by
  unfold TenantMappingConfig.lookup
  split
  · split
    · exact settles_ok _
    · exact settles_mappingError _
  · exact settles_mappingError _

theorem settles_required (name : String) : Settles (required body name) := by
  unfold required
  split
  · split
    · exact settles_ok _
    · exact settles_mappingError _
  · exact settles_mappingError _

theorem settles_toDatetime (value : Option Json) : Settles (toDatetime lib value) := by
  unfold toDatetime
  split
  · split
    · split
      · exact settles_mappingError _
      · exact settles_ok _
    · exact settles_mappingError _
  · exact settles_mappingError _

theorem settles_validate (e : CanonicalEvent) : Settles (validate lib e) := by
  unfold validate
  split
  · exact settles_ok _
  · exact settles_mappingError _

/-- **An amount settles unless it overflows.** -/
theorem settles_toIdr : Settles (toIdr lib v) ↔ ¬ Overflows lib v := by
  unfold toIdr Overflows
  split
  · rename_i b
    exact iff_of_true (settles_mappingError _) fun h => h.1 b rfl
  · rename_i hbool
    rw [← Decimal.intOfText_unbounded]
    cases hint : Decimal.intOfText lib.unicode lib.maxDigits (v.toText lib.unicode) with
    | ok n => exact iff_of_true (settles_ok n) (by rintro ⟨-, h | h⟩ <;> cases h)
    | error e =>
        cases e with
        | invalidOperation =>
            exact iff_of_true (settles_mappingError _) (by rintro ⟨-, h | h⟩ <;> cases h)
        | valueError =>
            exact iff_of_true (settles_mappingError _) (by rintro ⟨-, h | h⟩ <;> cases h)
        | overflowError =>
            exact iff_of_false (not_settles nofun) (not_not.mpr ⟨hbool, Or.inl rfl⟩)
        | memoryError =>
            exact iff_of_false (not_settles nofun) (not_not.mpr ⟨hbool, Or.inr rfl⟩)

theorem exists_toIdr : (∃ n, toIdr lib v = .ok n) ↔ IsAmount lib v := by
  unfold toIdr IsAmount
  split
  · rename_i b
    exact iff_of_false (by rintro ⟨n, h⟩; cases h) fun h => h.1 b rfl
  · rename_i hbool
    rw [← Decimal.exists_intOfText, and_iff_right hbool]
    cases Decimal.intOfText lib.unicode lib.maxDigits (v.toText lib.unicode) with
    | ok n => exact iff_of_true ⟨n, rfl⟩ ⟨n, rfl⟩
    | error e => cases e <;> simp

/-- The reference is encoded unless it has a lone surrogate. -/
theorem pseudonymize_eq (hsecret : secret ≠ []) :
    pseudonymize lib tenantId (v.toText lib.unicode) secret =
      if v.HasLoneSurrogate then .error .unicodeEncodeError
      else .ok (lib.hmacSha256 secret (text tenantId ++ text ":" ++ v.toText lib.unicode)) := by
  have hprefix : Python.Encodable (text tenantId ++ text ":") :=
    encodable_append.mpr ⟨encodable_text _, encodable_text _⟩
  have hmessage : Python.Encodable (text tenantId ++ text ":" ++ v.toText lib.unicode) ↔
      ¬ v.HasLoneSurrogate := by
    rw [encodable_append, and_iff_right hprefix, Json.encodable_toText]
  unfold pseudonymize
  rw [if_neg hsecret]
  by_cases hlone : v.HasLoneSurrogate
  · rw [if_neg (hmessage.not.mpr (not_not.mpr hlone)), if_pos hlone]
  · rw [if_pos (hmessage.mpr hlone), if_neg hlone]

theorem settles_pseudonymize (hsecret : secret ≠ []) :
    Settles (pseudonymize lib tenantId (v.toText lib.unicode) secret) ↔ ¬ v.HasLoneSurrogate := by
  rw [pseudonymize_eq hsecret]
  split
  · rename_i hlone
    exact iff_of_false (not_settles nofun) (not_not.mpr hlone)
  · rename_i hlone
    exact iff_of_true (settles_ok _) hlone

theorem settles_amountOf : Settles (amountOf lib body mapping) ↔
    ∀ v, amountAt body mapping = some (some v) → ¬ Overflows lib v := by
  unfold amountOf amountAt
  cases truthyPath mapping.amountFieldPath with
  | none => exact iff_of_true (settles_ok _) nofun
  | some path =>
      dsimp only [Option.map_some]
      cases resolvePath body path with
      | none => exact iff_of_true (settles_mappingError _) nofun
      | some v =>
          dsimp only
          rw [settles_map, settles_toIdr]
          simp

theorem exists_amountOf : (∃ amount, amountOf lib body mapping = .ok amount) ↔
    ∀ value, amountAt body mapping = some value → ∃ v, value = some v ∧ IsAmount lib v := by
  unfold amountOf amountAt
  cases truthyPath mapping.amountFieldPath with
  | none => exact iff_of_true ⟨none, rfl⟩ nofun
  | some path =>
      dsimp only [Option.map_some]
      cases resolvePath body path with
      | none => simp
      | some v =>
          simp only [map_eq_ok, Option.some.injEq, forall_eq', exists_eq_left']
          rw [← exists_toIdr]
          exact ⟨fun ⟨_, n, hn, _⟩ => ⟨n, hn⟩, fun ⟨n, hn⟩ => ⟨some n, n, hn, rfl⟩⟩

theorem settles_counterpartyOf (hsecret : secret ≠ []) :
    Settles (counterpartyOf lib tenantId body mapping secret) ↔
      ∀ v, counterpartyAt body mapping = some (some v) → ¬ v.HasLoneSurrogate := by
  unfold counterpartyOf counterpartyAt
  cases truthyPath mapping.counterpartyFieldPath with
  | none => exact iff_of_true (settles_ok _) nofun
  | some path =>
      dsimp only [Option.map_some]
      cases (resolvePath body path).filter Json.truthy with
      | none => exact iff_of_true (settles_mappingError _) nofun
      | some v =>
          dsimp only
          rw [settles_map, settles_pseudonymize hsecret]
          simp

/-- A counterparty that settles is returned, unless it is missing. -/
theorem exists_counterpartyOf (hsecret : secret ≠ [])
    (hclean : ∀ v, counterpartyAt body mapping = some (some v) → ¬ v.HasLoneSurrogate) :
    (∃ cp, counterpartyOf lib tenantId body mapping secret = .ok cp) ↔
      ∀ value, counterpartyAt body mapping = some value → value ≠ none := by
  unfold counterpartyOf
  unfold counterpartyAt at hclean ⊢
  cases hpath : truthyPath mapping.counterpartyFieldPath with
  | none => exact iff_of_true ⟨none, rfl⟩ nofun
  | some path =>
      rw [hpath] at hclean
      dsimp only [Option.map_some] at hclean ⊢
      cases hv : (resolvePath body path).filter Json.truthy with
      | none => simp
      | some v =>
          dsimp only
          rw [pseudonymize_eq hsecret, if_neg (hclean v (by rw [hv]))]
          exact iff_of_true ⟨_, rfl⟩ (by rintro _ ⟨⟩; exact Option.some_ne_none v)

/-- One key is looked up in attributes it can be read from. -/
theorem attributeOf_readable : (∃ l, attributeOf v k = .ok l) ↔ Readable k v := by
  unfold attributeOf Readable
  cases v with
  | dict entries =>
      dsimp only
      split
      · exact iff_of_true ⟨_, rfl⟩ trivial
      · exact iff_of_true ⟨_, rfl⟩ trivial
  | list elements =>
      dsimp only
      by_cases hmem : .str k ∈ elements
      · rw [if_pos (Json.any_isText.mpr hmem)]
        exact iff_of_false (by rintro ⟨l, h⟩; cases h) (not_not.mpr hmem)
      · rw [if_neg (Json.any_isText.not.mpr hmem)]
        exact iff_of_true ⟨_, rfl⟩ hmem
  | str s =>
      dsimp only
      by_cases hinfix : k <:+: s
      · rw [if_pos hinfix]
        exact iff_of_false (by rintro ⟨l, h⟩; cases h) (not_not.mpr hinfix)
      · rw [if_neg hinfix]
        exact iff_of_true ⟨_, rfl⟩ hinfix
  | null | bool _ | int _ | float _ => exact iff_of_false (by rintro ⟨l, h⟩; cases h) id

theorem attributeOf_error {e : Raised} (h : attributeOf v k = .error e) : e = .typeError := by
  unfold attributeOf at h
  split at h
  · split at h <;> cases h
  · split at h
    · exact (Except.error.inj h).symm
    · cases h
  · split at h
    · exact (Except.error.inj h).symm
    · cases h
  · exact (Except.error.inj h).symm

/-- **The attributes are returned** when every whitelisted key can be
looked up, and otherwise they do not settle. -/
theorem exists_attributesOf : (∃ attributes, attributesOf config body = .ok attributes) ↔
    ∀ k ∈ config.attributeWhitelist, Readable k (userAttributesOf body) := by
  unfold attributesOf
  simp only [map_eq_ok]
  constructor
  · rintro ⟨_, l, hl, -⟩ k hk
    exact attributeOf_readable.mp (exists_of_mapM_ok hl hk)
  · intro hreadable
    obtain ⟨l, hl, -⟩ := exists_mapM_ok (P := fun _ _ => True) fun k hk =>
      (attributeOf_readable.mpr (hreadable k hk)).imp fun _ h => ⟨h, trivial⟩
    exact ⟨_, l, hl, rfl⟩

theorem settles_attributesOf : Settles (attributesOf config body) ↔
    ∀ k ∈ config.attributeWhitelist, Readable k (userAttributesOf body) := by
  rw [← exists_attributesOf]
  refine ⟨?_, Or.inl⟩
  rintro (hok | ⟨message, herror⟩)
  · exact hok
  · unfold attributesOf at herror
    cases hl : config.attributeWhitelist.mapM (attributeOf (userAttributesOf body)) with
    | ok l =>
        rw [hl] at herror
        cases herror
    | error e =>
        rw [hl] at herror
        obtain ⟨k, -, hk⟩ := exists_of_mapM_error hl
        obtain rfl := attributeOf_error hk
        cases herror

/-! ## The whole -/

/-- **`normalize` settles exactly on clean bodies.** -/
theorem normalize_settles (hsecret : secret ≠ []) :
    Settles (normalize lib tenantId body config secret) ↔ Clean lib config body := by
  unfold normalize
  simp only [settles_bind, settles_lookup, settles_required, settles_toDatetime, settles_validate,
    settles_amountOf, settles_attributesOf, settles_counterpartyOf hsecret,
    settles_pseudonymize hsecret, true_and, implies_true, and_true]
  constructor
  · rintro hsettles mapping userRef ⟨hmapping, huser, ⟨id, hid⟩, ⟨t, ht⟩⟩
    obtain ⟨hamount, hrest⟩ := hsettles mapping hmapping userRef huser id hid t ht
    refine ⟨hamount, fun hread => ?_⟩
    obtain ⟨amount, hamountOf⟩ := exists_amountOf.mpr hread
    obtain ⟨hcounterparty, hrest⟩ := hrest amount hamountOf
    refine ⟨hcounterparty, fun hpresent => ?_⟩
    obtain ⟨cp, hcp⟩ := (exists_counterpartyOf hsecret hcounterparty).mpr hpresent
    obtain ⟨hreadable, hrest⟩ := hrest cp hcp
    obtain ⟨attributes, hattributes⟩ := exists_attributesOf.mpr hreadable
    exact ⟨hreadable, hrest attributes hattributes⟩
  · intro hclean mapping hmapping userRef huser id hid t ht
    obtain ⟨hamount, hrest⟩ := hclean mapping userRef ⟨hmapping, huser, ⟨id, hid⟩, ⟨t, ht⟩⟩
    refine ⟨hamount, fun amount hamountOf => ?_⟩
    obtain ⟨hcounterparty, hrest⟩ := hrest (exists_amountOf.mp ⟨amount, hamountOf⟩)
    refine ⟨hcounterparty, fun cp hcp => ?_⟩
    obtain ⟨hreadable, hencoded⟩ :=
      hrest ((exists_counterpartyOf hsecret hcounterparty).mp ⟨cp, hcp⟩)
    exact ⟨hreadable, fun _ _ => hencoded⟩

/-- **A normalized event is of the tenant.** -/
theorem tenantId_of_normalize {e : CanonicalEvent}
    (h : normalize lib tenantId body config secret = .ok e) : e.tenantId = tenantId := by
  unfold normalize at h
  obtain ⟨mapping, -, h⟩ := exists_of_bind_eq_ok h
  obtain ⟨userRef, -, h⟩ := exists_of_bind_eq_ok h
  obtain ⟨clientEventId, -, h⟩ := exists_of_bind_eq_ok h
  obtain ⟨occurredAt, -, h⟩ := exists_of_bind_eq_ok h
  obtain ⟨amount, -, h⟩ := exists_of_bind_eq_ok h
  obtain ⟨counterparty, -, h⟩ := exists_of_bind_eq_ok h
  obtain ⟨attributes, -, h⟩ := exists_of_bind_eq_ok h
  obtain ⟨userPseudonym, -, h⟩ := exists_of_bind_eq_ok h
  unfold validate at h
  split at h
  · rw [← Except.ok.inj h]
  · cases h

end IngestMapping

end RetentionEngine
