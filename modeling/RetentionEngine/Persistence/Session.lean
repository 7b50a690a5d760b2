import RetentionEngine.Python.Uuid

/-!
# Opening a tenant's session

`tenant_session` of `persistence.session`, up to the one statement it puts
together itself: `SET LOCAL` takes no parameters, so that the tenant is
written into its text, once `_assert_safe_identifier` has let it through.
That check is `uuid.UUID`, and takes much that is no plain UUID.
-/

namespace RetentionEngine

namespace Persistence

open Python

/-- `_assert_safe_identifier` of a `str`; `false` is a `ValueError`. -/
def assertSafeIdentifier (u : Unicode) (value : Text) : Bool := (uuidOf u value).isSome

/-- The statement, up to the tenant. -/
def setLocal : Text := text "SET LOCAL app.tenant_id = '"

/-- **What `tenant_session` sends first**, unless it raises. -/
def setTenant (u : Unicode) (tenantId : Text) : Option Text :=
  if assertSafeIdentifier u tenantId then some (setLocal ++ tenantId ++ text "'") else none

/-! ## How the server reads it -/

/-- A string constant, from after its first quote, and what follows it: two
quotes stand for one, and one quote ends it. -/
def readConstant : Text → Option (Text × Text)
  | [] => none
  | c :: s =>
      if c = point '\'' then
        match s with
        | [] => some ([], [])
        | d :: s' =>
            if d = point '\'' then (readConstant s').map fun r => (d :: r.1, r.2)
            else some ([], d :: s')
      else (readConstant s).map fun r => (c :: r.1, r.2)

/-- **The value the statement sets**, and what follows it. -/
def readSetLocal (sql : Text) : Option (Text × Text) :=
  if setLocal <+: sql then readConstant (sql.drop setLocal.length) else none

/-- Characters a constant is read without: whatever the server's settings
are, none of them stands for another, ends the constant or the statement, or
cannot be sent. -/
def Plain (s : Text) : Prop := ∀ c ∈ s, c ∉ text "'\\;" ∧ c.val ≠ 0

variable {u : Unicode} {tenantId sql s rest : Text} {n m : ℕ}

/-- **A constant without a quote** is read as it stands. -/
theorem readConstant_append (h : point '\'' ∉ s) :
    readConstant (s ++ text "'") = some (s, []) := by
  induction s with
  | nil => rfl
  | cons c s ih =>
      rw [List.mem_cons, not_or] at h
      unfold readConstant
      rw [List.cons_append]
      dsimp only
      rw [if_neg (Ne.symm h.1), ih h.2]
      rfl

/-- **What passes the check is plain.** -/
theorem plain_of_assertSafeIdentifier (h : assertSafeIdentifier u tenantId) : Plain tenantId := by
  obtain ⟨n, hn⟩ := Option.isSome_iff_exists.mp h
  -- a plain mark of ASCII is neither one of the UUID's own nor one of a number's
  have hmark : ∀ c : CodePoint, c.val < 127 → c ∈ tenantId →
      c ∈ text "urn:uuid:\x7b\x7d-" ∨ Spells c := by
    intro c hascii hc
    have hspells := spells_of_uuidOf hn hc
    rwa [show toAscii u c = c from if_pos hascii] at hspells
  intro c hc
  refine ⟨fun hquote => ?_, fun hzero => ?_⟩
  · have hall : (text "'\\;").all (fun c => decide (c.val < 127 ∧
        c ∉ text "urn:uuid:\x7b\x7d-" ∧ ¬ Spells c)) = true := by decide
    obtain ⟨hascii, hown, hspells⟩ := of_decide_eq_true (List.all_eq_true.mp hall c hquote)
    exact (hmark c hascii hc).elim hown hspells
  · obtain rfl : c = 0 := Fin.ext hzero
    rcases hmark 0 (by decide) hc with hown | hspells
    · exact absurd hown (by decide)
    · exact absurd hspells (by decide)

/-- **The one statement with a text of its own sets the tenant and nothing
else**: what is sent for a text that passes the check is read as that text,
with nothing after it, under any settings of the server; and the tenants'
own ids pass, each as itself. -/
theorem setTenant_inert :
    (∀ tenantId sql, setTenant u tenantId = some sql →
      Plain tenantId ∧ readSetLocal sql = some (tenantId, [])) ∧
    (∀ n < 2 ^ 128, setTenant u (strUuid n) = some (setLocal ++ strUuid n ++ text "'") ∧
      uuidOf u (strUuid n) = some n) := by
  constructor
  · intro tenantId sql h
    unfold setTenant at h
    split at h
    · rename_i hsafe
      obtain rfl := Option.some.inj h
      have hplain := plain_of_assertSafeIdentifier hsafe
      have hquote : point '\'' ∉ tenantId := fun hc => (hplain _ hc).1 (by decide)
      refine ⟨hplain, ?_⟩
      unfold readSetLocal
      rw [List.append_assoc, if_pos (List.prefix_append _ _), List.drop_left]
      exact readConstant_append hquote
    · cases h
  · intro n hn
    have hsafe : assertSafeIdentifier u (strUuid n) = true := by
      unfold assertSafeIdentifier
      rw [uuidOf_strUuid hn]
      rfl
    exact ⟨if_pos hsafe, uuidOf_strUuid hn⟩

/-- An interpreter that knows the digits of ASCII only. -/
def asciiOnly : Unicode := ⟨fun _ => false, fun _ => none, fun _ _ => rfl⟩

/-- A URN in braces, with a sign, an `0x` and underscores, passes; and so does
an id. -/
theorem setTenant_inert_urn :
    readSetLocal (setLocal ++ text "\x7burn:uuid:+0x_89ab-cdef_0123456789-ab_cdef01\x7d" ++
        text "'") = some (text "\x7burn:uuid:+0x_89ab-cdef_0123456789-ab_cdef01\x7d", []) ∧
      uuidOf asciiOnly (strUuid 7) = some 7 := by
  have hsafe : assertSafeIdentifier asciiOnly
      (text "\x7burn:uuid:+0x_89ab-cdef_0123456789-ab_cdef01\x7d") = true := by decide +kernel
  obtain ⟨hread, hids⟩ := setTenant_inert (u := asciiOnly)
  exact ⟨(hread _ _ (if_pos hsafe)).2, (hids 7 (by decide)).2⟩

end Persistence

end RetentionEngine
