import RetentionEngine.Common.Lists
import RetentionEngine.Common.Lockstep
import Mathlib.Data.List.Count
import Mathlib.Logic.Function.Basic

/-!
# Row security by tenant

A database of tables whose rows may belong to tenants, and sessions that
run statements on it: a role with its privileges, and the tenant of the
transaction. On a secured table a session sees the rows of its tenant only
and may write no others; unique keys and conflicts look at all rows, as an
index does. A statement that fails leaves the database as it was, and so
does a transaction.

Two databases that a session cannot tell apart stay so (`exec_keeps`,
`transaction_keeps`), whatever it runs, and what it cannot see it does not
change: no two tenants have a key in common (`Apart`). So a tenant's
transactions come to the same with and without those of the others, where
nobody writes to a table that is not secured (`play_view`).
-/

namespace RetentionEngine

namespace RowSecurity

open Prog (Keeps)

variable {ι ρ τ κ γ ε α : Type}

/-! ## Statements -/

/-- **The tables**, by `ι`: which are secured, the tenant of a row, the
unique keys (`none` is a key with a NULL, which equals nothing), and what a
row and a change of a row must meet besides. -/
structure Schema (ι ρ τ κ : Type) where
  secured : ι → Bool
  tenantOf : ρ → Option τ
  keys : ι → List (ρ → Option κ)
  accepts : ι → ρ → Bool
  mayBecome : ι → ρ → ρ → Bool

/-- The rows of each table. -/
abbrev Database (ι ρ : Type) := ι → List ρ

/-- **What a role may do**; UPDATE is a privilege on columns. -/
structure Privileges (ι γ : Type) where
  select : ι → Bool
  insert : ι → Bool
  update : ι → γ → Bool
  delete : ι → Bool

/-- A transaction's role and tenant. -/
structure Session (ι τ γ : Type) where
  may : Privileges ι γ
  tenant : Option τ

/-- What an INSERT does where a row with the same key is there. -/
inductive OnConflict (ρ κ γ : Type)
  | fail
  | doNothing (key : ρ → Option κ)
  | doUpdate (key : ρ → Option κ) (columns : List γ) (set : ρ → ρ → ρ)

/-- A statement on one table. -/
inductive Statement (ι ρ κ γ : Type)
  | select (table : ι) (condition : ρ → Bool)
  | insert (table : ι) (rows : List ρ) (onConflict : OnConflict ρ κ γ)
  | update (table : ι) (columns : List γ) (condition : ρ → Bool) (set : ρ → ρ)
  | delete (table : ι) (condition : ρ → Bool)

/-- Why a statement fails. -/
inductive SqlError
  | permissionDenied
  | rowSecurity
  | uniqueViolation
  | checkViolation
  deriving DecidableEq, Repr

/-- The table a statement is about. -/
def Statement.table : Statement ι ρ κ γ → ι
  | .select table _ | .insert table _ _ | .update table _ _ _ | .delete table _ => table

/-- What a role must be allowed for a statement. -/
def Privileges.permit (may : Privileges ι γ) : Statement ι ρ κ γ → Bool
  | .select table _ => may.select table
  | .insert table _ .fail => may.insert table
  | .insert table _ (.doNothing _) => may.insert table && may.select table
  | .insert table _ (.doUpdate _ columns _) =>
      may.insert table && may.select table && !columns.isEmpty && columns.all (may.update table)
  | .update table columns _ _ =>
      may.select table && !columns.isEmpty && columns.all (may.update table)
  | .delete table _ => may.select table && may.delete table

section Exec

variable [DecidableEq ι] [DecidableEq τ] [DecidableEq κ] (S : Schema ι ρ τ κ) (tenant : Option τ)

/-- `tenant_id = current_setting('app.tenant_id')`, on a secured table. -/
def visible (table : ι) (r : ρ) : Bool :=
  !S.secured table || (tenant.isSome && S.tenantOf r = tenant)

/-- Whether two rows have the key in common. -/
def sameKey (key : ρ → Option κ) (r r' : ρ) : Bool := (key r).isSome && key r' = key r

/-- Whether some row has a unique key in common with `r`. -/
def clashes (table : ι) (r : ρ) (rows : List ρ) : Bool :=
  (S.keys table).any fun key => rows.any (sameKey key r)

/-- Whether the policy and the constraints let a row in. -/
def checkRow (table : ι) (r : ρ) : Except SqlError Unit :=
  if ¬ visible S tenant table r then .error .rowSecurity
  else if ¬ S.accepts table r then .error .checkViolation
  else .ok ()

/-- A row is added, unless it clashes. -/
def addRow (table : ι) (r : ρ) : Prog (List ρ) SqlError Unit := do
  let clash ← Prog.read (clashes S table r)
  if clash then Prog.raise .uniqueViolation else Prog.modify fun rows => rows ++ [r]

/-- A changed row, past the trigger, the policy and the constraints. -/
def changeRow (table : ι) (set : ρ → ρ) (r : ρ) : Except SqlError ρ :=
  if ¬ S.mayBecome table r (set r) then .error .checkViolation
  else (checkRow S tenant table (set r)).map fun _ => set r

/-- The rows that are meant are changed; keys are compared when all are. -/
def changeRows (table : ι) (meant : ρ → Bool) (set : ρ → ρ) : Prog (List ρ) SqlError (List ρ) :=
  fun rows =>
    match (rows.filter meant).mapM (changeRow S tenant table set) with
    | .error e => (.error e, rows)
    | .ok changed =>
        let rows' := rows.map fun r => if meant r then set r else r
        if changed.any fun r => (S.keys table).any fun key => 1 < rows'.countP (sameKey key r) then
          (.error .uniqueViolation, rows')
        else (.ok changed, rows')

/-- One row of an INSERT, and what is written for it. -/
def insertRow (table : ι) (onConflict : OnConflict ρ κ γ) (r : ρ) :
    Prog (List ρ) SqlError (List ρ) := do
  Prog.lift (checkRow S tenant table r)
  match onConflict with
  | .fail =>
      addRow S table r
      return [r]
  | .doNothing key =>
      let conflict ← Prog.read fun rows => rows.any (sameKey key r)
      if conflict then return []
      else
        addRow S table r
        return [r]
  | .doUpdate key _ set =>
      let conflict ← Prog.read fun rows => rows.any (sameKey key r)
      if conflict then
        let hidden ← Prog.read fun rows =>
          rows.any fun r' => sameKey key r r' && !visible S tenant table r'
        if hidden then Prog.raise .rowSecurity
        else changeRows S tenant table (sameKey key r) fun r' => set r' r
      else
        addRow S table r
        return [r]

/-- What a statement that is permitted makes of the rows of its table. -/
def execOn : Statement ι ρ κ γ → Prog (List ρ) SqlError (List ρ)
  | .select table condition =>
      Prog.read fun rows => rows.filter fun r => visible S tenant table r && condition r
  | .insert table rows onConflict =>
      rows.foldlM (fun written r => do
        let new ← insertRow S tenant table onConflict r
        return written ++ new) []
  | .update table _ condition set =>
      changeRows S tenant table (fun r => visible S tenant table r && condition r) set
  | .delete table condition => do
      let deleted ← Prog.read fun rows => rows.filter fun r => visible S tenant table r && condition r
      Prog.modify fun rows => rows.filter fun r => !(visible S tenant table r && condition r)
      return deleted

/-- **A statement of a session**, or nothing if it fails. -/
def exec (s : Session ι τ γ) (statement : Statement ι ρ κ γ) :
    Prog (Database ι ρ) SqlError (List ρ) :=
  Prog.atomically (if s.may.permit statement then
      Prog.zoom (fun db => db statement.table)
        (fun rows db => Function.update db statement.table rows) (execOn S s.tenant statement)
    else Prog.raise .permissionDenied)

/-- **What a transaction runs**: statements that may depend on what those
before came to, each under a savepoint of its own. -/
inductive Script (ι ρ κ γ ε α : Type)
  | done (a : α)
  | fail (e : ε)
  | exec (statement : Statement ι ρ κ γ) (next : Except SqlError (List ρ) → Script ι ρ κ γ ε α)

/-- A script from a database. -/
def Script.run (s : Session ι τ γ) : Script ι ρ κ γ ε α → Prog (Database ι ρ) ε α
  | .done a => pure a
  | .fail e => Prog.raise e
  | .exec statement next => fun db =>
      let ran := RowSecurity.exec S s statement db
      (next ran.1).run s ran.2

/-- **A transaction**: commit, or roll back if it raises. -/
def transaction (s : Session ι τ γ) (script : Script ι ρ κ γ ε α) : Prog (Database ι ρ) ε α :=
  (script.run S s).atomically

/-- **A history of transactions**: what each came to, and the database. -/
def play : List (Session ι τ γ × Script ι ρ κ γ ε α) → Database ι ρ →
    List (Option τ × Except ε α) × Database ι ρ
  | [], db => ([], db)
  | x :: history, db =>
      let ran := transaction S x.1 x.2 db
      let rest := play history ran.2
      ((x.1.tenant, ran.1) :: rest.1, rest.2)

end Exec

/-! ## What a session can tell apart -/

section View

variable [DecidableEq τ] [DecidableEq κ] {S : Schema ι ρ τ κ} {tenant : Option τ}
  {own : τ → ρ → Prop} {table : ι}

variable (S) (own) in
/-- A row of a secured table has a tenant and is its own. -/
def OwnRow (table : ι) (r : ρ) : Prop :=
  S.secured table → ∃ t, S.tenantOf r = some t ∧ own t r

variable (S) (own) in
/-- **No two tenants have a key in common.** -/
def Apart : Prop :=
  ∀ table, S.secured table → ∀ key ∈ S.keys table, ∀ t t' r r', S.tenantOf r = some t →
    S.tenantOf r' = some t' → own t r → own t' r' → sameKey key r r' → t = t'

variable (S) (tenant) (own) in
/-- **Rows of a table that a tenant cannot tell apart**: it sees the same,
and what it does not see is as in `b` and in `b'`. -/
structure Alike (table : ι) (b b' l l' : List ρ) : Prop where
  owned : ∀ r ∈ l, OwnRow S own table r
  owned' : ∀ r ∈ l', OwnRow S own table r
  seen : l.filter (visible S tenant table) = l'.filter (visible S tenant table)
  unseen : l.filter (fun r => !visible S tenant table r) =
    b.filter fun r => !visible S tenant table r
  unseen' : l'.filter (fun r => !visible S tenant table r) =
    b'.filter fun r => !visible S tenant table r

/-- **A row with the same key** is as visible. -/
theorem visible_of_sameKey (hapart : Apart S own) {key : ρ → Option κ} {r r' : ρ}
    (hkey : key ∈ S.keys table) (hr : OwnRow S own table r) (hr' : OwnRow S own table r')
    (hvisible : visible S tenant table r) (hsame : sameKey key r r') :
    visible S tenant table r' := by
  unfold visible at hvisible ⊢
  cases hsecured : S.secured table with
  | false => rfl
  | true =>
      obtain ⟨t, ht, hown⟩ := hr hsecured
      obtain ⟨t', ht', hown'⟩ := hr' hsecured
      obtain rfl := hapart table hsecured key hkey t t' r r' ht ht' hown hown' hsame
      rw [hsecured, ht] at hvisible
      rw [ht']
      exact hvisible

theorem countP_filter_of_imp {l : List ρ} {p v : ρ → Bool} (h : ∀ r ∈ l, p r → v r) :
    (l.filter v).countP p = l.countP p := by
  rw [List.countP_filter]
  refine List.countP_congr fun r hr => ?_
  rw [Bool.and_eq_true]
  exact and_iff_left_of_imp (h r hr)

theorem any_eq_countP {l : List ρ} {p : ρ → Bool} : l.any p = decide (0 < l.countP p) := by
  rw [Bool.eq_iff_iff, decide_eq_true_iff, List.countP_pos_iff, List.any_eq_true]

theorem any_congr_of_mem {β : Type} {l : List β} {p q : β → Bool} (h : ∀ x ∈ l, p x = q x) :
    l.any p = l.any q := by
  rw [Bool.eq_iff_iff, List.any_eq_true, List.any_eq_true]
  exact exists_congr fun x => and_congr_right fun hx => by rw [h x hx]

theorem filter_filter_of_imp {l : List ρ} {p v : ρ → Bool} (h : ∀ r ∈ l, p r → v r) :
    (l.filter v).filter p = l.filter p := by
  rw [List.filter_filter]
  refine List.filter_congr fun r hr => ?_
  cases hp : p r with
  | false => rfl
  | true =>
      rw [h r hr hp]
      rfl

namespace Alike

variable {b b' l l' : List ρ}

/-- **A key is as often in the rows** that cannot be told apart. -/
theorem countP_sameKey (hapart : Apart S own) (h : Alike S tenant own table b b' l l')
    {key : ρ → Option κ} (hkey : key ∈ S.keys table) {r : ρ} (hr : OwnRow S own table r)
    (hvisible : visible S tenant table r) :
    l.countP (sameKey key r) = l'.countP (sameKey key r) := by
  have hseen : ∀ m : List ρ, (∀ r' ∈ m, OwnRow S own table r') →
      (m.filter (visible S tenant table)).countP (sameKey key r) = m.countP (sameKey key r) :=
    fun m hm => countP_filter_of_imp fun r' hr' hsame =>
      visible_of_sameKey hapart hkey hr (hm r' hr') hvisible hsame
  rw [← hseen l h.owned, ← hseen l' h.owned', h.seen]

theorem any_sameKey (hapart : Apart S own) (h : Alike S tenant own table b b' l l')
    {key : ρ → Option κ} (hkey : key ∈ S.keys table) {r : ρ} (hr : OwnRow S own table r)
    (hvisible : visible S tenant table r) : l.any (sameKey key r) = l'.any (sameKey key r) := by
  rw [any_eq_countP, any_eq_countP, h.countP_sameKey hapart hkey hr hvisible]

theorem clashes_eq (hapart : Apart S own) (h : Alike S tenant own table b b' l l') {r : ρ}
    (hr : OwnRow S own table r) (hvisible : visible S tenant table r) :
    clashes S table r l = clashes S table r l' := by
  unfold clashes
  refine any_congr_of_mem fun key hkey => ?_
  exact h.any_sameKey hapart hkey hr hvisible

omit [DecidableEq κ] in
/-- What is seen and meant. -/
theorem filter_eq (h : Alike S tenant own table b b' l l') {p : ρ → Bool}
    (hp : ∀ r, OwnRow S own table r → p r → visible S tenant table r) :
    l.filter p = l'.filter p := by
  rw [← filter_filter_of_imp fun r hr => hp r (h.owned r hr), h.seen,
    filter_filter_of_imp fun r hr => hp r (h.owned' r hr)]

omit [DecidableEq κ] in
theorem append (h : Alike S tenant own table b b' l l') {r : ρ} (hr : OwnRow S own table r)
    (hvisible : visible S tenant table r) :
    Alike S tenant own table b b' (l ++ [r]) (l' ++ [r]) := by
  have hhidden : [r].filter (fun r => !visible S tenant table r) = [] := by
    rw [List.filter_singleton, hvisible]
    rfl
  refine ⟨?_, ?_, ?_, ?_, ?_⟩
  · intro r' hr'
    rcases List.mem_append.mp hr' with hr' | hr'
    · exact h.owned r' hr'
    · exact List.mem_singleton.mp hr' ▸ hr
  · intro r' hr'
    rcases List.mem_append.mp hr' with hr' | hr'
    · exact h.owned' r' hr'
    · exact List.mem_singleton.mp hr' ▸ hr
  · rw [List.filter_append, List.filter_append, h.seen]
  · rw [List.filter_append, hhidden, List.append_nil, h.unseen]
  · rw [List.filter_append, hhidden, List.append_nil, h.unseen']

omit [DecidableEq κ] in
/-- Rows that are seen are taken out. -/
theorem filter (h : Alike S tenant own table b b' l l') {p : ρ → Bool}
    (hp : ∀ r, p r → visible S tenant table r) :
    Alike S tenant own table b b' (l.filter fun r => !p r) (l'.filter fun r => !p r) := by
  have hkept : ∀ r, (!visible S tenant table r) = true → (!p r) = true := by
    intro r hhidden
    cases hpr : p r with
    | false => rfl
    | true =>
        rw [hp r hpr] at hhidden
        cases hhidden
  refine ⟨?_, ?_, ?_, ?_, ?_⟩
  · exact fun r hr => h.owned r (List.mem_of_mem_filter hr)
  · exact fun r hr => h.owned' r (List.mem_of_mem_filter hr)
  · rw [List.filter_comm, h.seen, List.filter_comm]
  · rw [filter_filter_of_imp fun r _ => hkept r, h.unseen]
  · rw [filter_filter_of_imp fun r _ => hkept r, h.unseen']

omit [DecidableEq κ] in
/-- Rows that are seen are changed, and still seen. -/
theorem map (h : Alike S tenant own table b b' l l') {u : ρ → ρ}
    (hu : ∀ r, OwnRow S own table r → ¬ visible S tenant table r → u r = r)
    (hl : ∀ r ∈ l.filter (visible S tenant table),
      visible S tenant table (u r) ∧ OwnRow S own table (u r)) :
    Alike S tenant own table b b' (l.map u) (l'.map u) := by
  have hside : ∀ m : List ρ, (∀ r ∈ m, OwnRow S own table r) →
      (∀ r ∈ m.filter (visible S tenant table),
        visible S tenant table (u r) ∧ OwnRow S own table (u r)) →
      (∀ r ∈ m.map u, OwnRow S own table r) ∧
        (m.map u).filter (visible S tenant table) = (m.filter (visible S tenant table)).map u ∧
        (m.map u).filter (fun r => !visible S tenant table r) =
          m.filter fun r => !visible S tenant table r := by
    intro m howned hm
    have hstays : ∀ r ∈ m, visible S tenant table (u r) = visible S tenant table r := by
      intro r hr
      cases hvisible : visible S tenant table r with
      | true => exact (hm r (List.mem_filter.mpr ⟨hr, hvisible⟩)).1
      | false => rw [hu r (howned r hr) (by rw [hvisible]; exact nofun), hvisible]
    refine ⟨?_, ?_, ?_⟩
    · intro r hr
      obtain ⟨r₀, hr₀, rfl⟩ := List.mem_map.mp hr
      by_cases hvisible : visible S tenant table r₀
      · exact (hm r₀ (List.mem_filter.mpr ⟨hr₀, hvisible⟩)).2
      · rw [hu r₀ (howned r₀ hr₀) hvisible]
        exact howned r₀ hr₀
    · rw [List.filter_map]
      exact congrArg _ (List.filter_congr fun r hr => hstays r hr)
    · have hfilter : m.filter ((fun r => !visible S tenant table r) ∘ u) =
          m.filter fun r => !visible S tenant table r :=
        List.filter_congr fun r hr => congrArg Bool.not (hstays r hr)
      rw [List.filter_map, hfilter]
      refine (List.map_congr_left fun r hr => ?_).trans (List.map_id _)
      obtain ⟨hr, hhidden⟩ := List.mem_filter.mp hr
      exact hu r (howned r hr) fun hvisible => by rw [hvisible] at hhidden; cases hhidden
  obtain ⟨hown, hseen, hunseen⟩ := hside l h.owned hl
  obtain ⟨hown', hseen', hunseen'⟩ := hside l' h.owned' (h.seen ▸ hl)
  refine ⟨hown, hown', ?_, hunseen.trans h.unseen, hunseen'.trans h.unseen'⟩
  rw [hseen, hseen', h.seen]

end Alike

/-! ## Statements keep what cannot be told apart -/

variable (S) (tenant) (own) in
/-- The conflict is looked for on a unique key, and the row it changes
remains its tenant's own. -/
def OnConflict.Proper (table : ι) : OnConflict ρ κ γ → Prop
  | .fail => True
  | .doNothing key => key ∈ S.keys table
  | .doUpdate key _ set => key ∈ S.keys table ∧
      ∀ r r', OwnRow S own table r → OwnRow S own table r' → visible S tenant table r' →
        visible S tenant table (set r' r) → OwnRow S own table (set r' r)

variable (S) (tenant) (own) in
/-- **What a session writes of its tenant is its own.** -/
def Statement.Proper : Statement ι ρ κ γ → Prop
  | .select _ _ | .delete _ _ => True
  | .insert table rows onConflict => onConflict.Proper S tenant own table ∧
      ∀ r ∈ rows, visible S tenant table r → OwnRow S own table r
  | .update table _ _ set =>
      ∀ r, OwnRow S own table r → visible S tenant table r → visible S tenant table (set r) →
        OwnRow S own table (set r)

/-- Every statement a script may come to. -/
def Script.All (p : Statement ι ρ κ γ → Prop) : Script ι ρ κ γ ε α → Prop
  | .done _ | .fail _ => True
  | .exec statement next => p statement ∧ ∀ rows, (next rows).All p

omit [DecidableEq κ] in
theorem Script.All.imp {p q : Statement ι ρ κ γ → Prop} (hpq : ∀ statement, p statement → q statement)
    {script : Script ι ρ κ γ ε α} (h : script.All p) : script.All q := by
  induction script with
  | done a => exact trivial
  | fail e => exact trivial
  | exec statement next ih => exact ⟨hpq _ h.1, fun rows => ih rows (h.2 rows)⟩

omit [DecidableEq κ] in
theorem of_checkRow {r : ρ} {u : Unit} (h : checkRow S tenant table r = .ok u) :
    visible S tenant table r := by
  unfold checkRow at h
  split at h
  · cases h
  · rename_i hvisible
    exact not_not.mp hvisible

omit [DecidableEq κ] in
theorem of_changeRow {set : ρ → ρ} {r r' : ρ} (h : changeRow S tenant table set r = .ok r') :
    r' = set r ∧ visible S tenant table (set r) := by
  unfold changeRow at h
  split at h
  · cases h
  · cases hallowed : checkRow S tenant table (set r) with
    | error e =>
        rw [hallowed] at h
        cases h
    | ok u =>
        rw [hallowed] at h
        exact ⟨(Except.ok.inj h).symm, of_checkRow hallowed⟩

variable {b b' : List ρ} {r : ρ}

theorem addRow_keeps (hapart : Apart S own) (hr : OwnRow S own table r)
    (hvisible : visible S tenant table r) :
    Keeps (Alike S tenant own table b b') (addRow S table r) := by
  unfold addRow
  refine (Keeps.read fun l l' h => h.clashes_eq hapart hr hvisible).bind fun clash => ?_
  cases clash with
  | true => exact Keeps.raise _
  | false => exact Keeps.modify fun l l' h => h.append hr hvisible

/-- **Rows that are changed**: those that are meant are seen. -/
theorem changeRows_keeps (hapart : Apart S own) {meant : ρ → Bool} {set : ρ → ρ}
    (hmeant : ∀ r, OwnRow S own table r → meant r → visible S tenant table r)
    (hset : ∀ r, OwnRow S own table r → visible S tenant table r →
      visible S tenant table (set r) → OwnRow S own table (set r)) :
    Keeps (Alike S tenant own table b b') (changeRows S tenant table meant set) := by
  intro l l' h
  have hfilter : l.filter meant = l'.filter meant := h.filter_eq hmeant
  unfold changeRows
  rw [hfilter]
  cases hmap : (l'.filter meant).mapM (changeRow S tenant table set) with
  | error e => exact ⟨rfl, h⟩
  | ok changed =>
      have hchanged := forall₂_of_mapM_ok hmap
      have hset' : ∀ r ∈ l'.filter meant,
          visible S tenant table (set r) ∧ OwnRow S own table (set r) := by
        intro r hr
        obtain ⟨r', -, hr'⟩ := exists_right_of_forall₂ hchanged hr
        have hvisible := (of_changeRow hr').2
        obtain ⟨hmem, hm⟩ := List.mem_filter.mp hr
        have howned := h.owned' r hmem
        exact ⟨hvisible, hset r howned (hmeant r howned hm) hvisible⟩
      have halike : Alike S tenant own table b b' (l.map fun r => if meant r then set r else r)
          (l'.map fun r => if meant r then set r else r) := by
        refine h.map ?_ ?_
        · intro r hr hhidden
          exact if_neg fun hm => hhidden (hmeant r hr hm)
        · intro r hr
          obtain ⟨hr, hvisible⟩ := List.mem_filter.mp hr
          split
          · rename_i hm
            exact hset' r (hfilter ▸ List.mem_filter.mpr ⟨hr, hm⟩)
          · exact ⟨hvisible, h.owned r hr⟩
      have hclash : (changed.any fun r => (S.keys table).any fun key =>
            1 < (l.map fun r => if meant r then set r else r).countP (sameKey key r)) =
          changed.any fun r => (S.keys table).any fun key =>
            1 < (l'.map fun r => if meant r then set r else r).countP (sameKey key r) := by
        refine any_congr_of_mem fun r hr => any_congr_of_mem fun key hkey => ?_
        obtain ⟨r₀, hr₀, hrow⟩ := exists_left_of_forall₂ hchanged hr
        obtain ⟨rfl, hvisible⟩ := of_changeRow hrow
        rw [halike.countP_sameKey hapart hkey (hset' r₀ hr₀).2 hvisible]
      dsimp only
      rw [hclash]
      split <;> exact ⟨rfl, halike⟩

theorem insertRow_keeps (hapart : Apart S own) {onConflict : OnConflict ρ κ γ}
    (hproper : onConflict.Proper S tenant own table)
    (hr : visible S tenant table r → OwnRow S own table r) :
    Keeps (Alike S tenant own table b b') (insertRow S tenant table onConflict r) := by
  unfold insertRow
  refine Keeps.bindLift fun _ hallowed => ?_
  have hvisible := of_checkRow hallowed
  have hown := hr hvisible
  have hadd : Keeps (Alike S tenant own table b b')
      (do addRow S table r; return [r] : Prog (List ρ) SqlError (List ρ)) :=
    (addRow_keeps hapart hown hvisible).bind fun _ => Keeps.pure _
  cases onConflict with
  | fail => exact hadd
  | doNothing key =>
      refine (Keeps.read fun l l' h => h.any_sameKey hapart hproper hown hvisible).bind ?_
      intro conflict
      cases conflict with
      | true => exact Keeps.pure _
      | false => exact hadd
  | doUpdate key columns set =>
      obtain ⟨hkey, hset⟩ := hproper
      refine (Keeps.read fun l l' h => h.any_sameKey hapart hkey hown hvisible).bind ?_
      intro conflict
      cases conflict with
      | false => exact hadd
      | true =>
          have hsees : ∀ r', OwnRow S own table r' → sameKey key r r' →
              visible S tenant table r' :=
            fun r' hr' hsame => visible_of_sameKey hapart hkey hown hr' hvisible hsame
          -- no row that is hidden has the key
          refine (Keeps.read fun l l' h => ?_).bind fun hidden => ?_
          · have hnone : ∀ m : List ρ, (∀ r' ∈ m, OwnRow S own table r') →
                (m.any fun r' => sameKey key r r' && !visible S tenant table r') = false := by
              intro m hm
              rw [List.any_eq_false]
              intro r' hr' hboth
              obtain ⟨hsame, hhidden⟩ := Bool.and_eq_true_iff.mp hboth
              rw [hsees r' (hm r' hr') hsame] at hhidden
              cases hhidden
            rw [hnone l h.owned, hnone l' h.owned']
          · cases hidden with
            | true => exact Keeps.raise _
            | false => exact changeRows_keeps hapart hsees fun r' hr' => hset r r' hown hr'

/-- **One statement on its table.** -/
theorem execOn_keeps (hapart : Apart S own) {statement : Statement ι ρ κ γ}
    (hproper : statement.Proper S tenant own) :
    Keeps (Alike S tenant own statement.table b b') (execOn S tenant statement) := by
  have hand : ∀ {table : ι} {condition : ρ → Bool} (r : ρ), OwnRow S own table r →
      (visible S tenant table r && condition r) → visible S tenant table r :=
    fun r _ h => (Bool.and_eq_true_iff.mp h).1
  cases statement with
  | select table condition => exact Keeps.read fun l l' h => h.filter_eq hand
  | insert table rows onConflict =>
      refine Keeps.foldlM (fun written r hr => ?_) []
      exact (insertRow_keeps hapart hproper.1 (hproper.2 r hr)).bind fun _ => Keeps.pure _
  | update table columns condition set => exact changeRows_keeps hapart hand hproper
  | delete table condition =>
      refine (Keeps.read fun l l' h => h.filter_eq hand).bind fun deleted => ?_
      refine (Keeps.modify fun l l' h => ?_).bind fun _ => Keeps.pure _
      exact h.filter fun r hmeant => (Bool.and_eq_true_iff.mp hmeant).1

section Database

variable [DecidableEq ι] {s : Session ι τ γ}

variable (S) (tenant) (own) in
/-- **Databases that a tenant cannot tell apart**, from `base` and `base'` on. -/
def AlikeAll (base base' db db' : Database ι ρ) : Prop :=
  ∀ table, Alike S tenant own table (base table) (base' table) (db table) (db' table)

variable {base base' db db' : Database ι ρ} {t : τ}

/-- **One statement.** -/
theorem exec_keeps (hapart : Apart S own) {statement : Statement ι ρ κ γ}
    (hproper : statement.Proper S s.tenant own) :
    Keeps (AlikeAll S s.tenant own base base') (exec S s statement) := by
  unfold exec
  refine Keeps.atomically ?_
  split
  · refine Keeps.zoom (execOn_keeps hapart hproper) (fun db db' h => h statement.table) ?_
    intro db db' rows rows' h hrows table
    by_cases htable : table = statement.table
    · subst htable
      rw [Function.update_self, Function.update_self]
      exact hrows
    · rw [Function.update_of_ne htable, Function.update_of_ne htable]
      exact h table
  · exact Keeps.raise _

theorem run_keeps (hapart : Apart S own) {script : Script ι ρ κ γ ε α}
    (hproper : script.All (Statement.Proper S s.tenant own)) :
    Keeps (AlikeAll S s.tenant own base base') (script.run S s) := by
  induction script with
  | done a => exact Keeps.pure a
  | fail e => exact Keeps.raise e
  | exec statement next ih =>
      intro db db' h
      obtain ⟨hrows, hafter⟩ := exec_keeps hapart hproper.1 db db' h
      show ((next (exec S s statement db).1).run S s (exec S s statement db).2).1 =
          ((next (exec S s statement db').1).run S s (exec S s statement db').2).1 ∧
        AlikeAll S s.tenant own base base'
          ((next (exec S s statement db).1).run S s (exec S s statement db).2).2
          ((next (exec S s statement db').1).run S s (exec S s statement db').2).2
      rw [← hrows]
      exact ih _ (hproper.2 _) _ _ hafter

/-- **A transaction** comes to the same, and hides what was hidden. -/
theorem transaction_keeps (hapart : Apart S own) {script : Script ι ρ κ γ ε α}
    (hproper : script.All (Statement.Proper S s.tenant own)) :
    Keeps (AlikeAll S s.tenant own base base') (transaction S s script) :=
  (run_keeps hapart hproper).atomically

/-! ## Histories -/

/-- A session that writes to secured tables only. -/
def Session.WritesSecured (S : Schema ι ρ τ κ) (s : Session ι τ γ) : Prop :=
  ∀ table, S.secured table = false → s.may.insert table = false ∧
    (∀ c, s.may.update table c = false) ∧ s.may.delete table = false

/-- **What is not secured stays as it is.** -/
theorem exec_of_unsecured (hs : s.WritesSecured S) (htable : S.secured table = false)
    (statement : Statement ι ρ κ γ) : (exec S s statement db).2 table = db table := by
  obtain ⟨hinsert, hupdate, hdelete⟩ := hs table htable
  unfold exec
  rcases Prog.snd_atomically (if s.may.permit statement then
      Prog.zoom (fun db => db statement.table)
        (fun rows db => Function.update db statement.table rows) (execOn S s.tenant statement)
    else Prog.raise .permissionDenied) db with hback | hdone
  · rw [hback]
  · rw [hdone]
    by_cases hpermit : s.may.permit statement
    · rw [if_pos hpermit]
      show Function.update db statement.table _ table = db table
      by_cases heq : table = statement.table
      · subst heq
        rw [Function.update_self]
        cases statement with
        | select table condition => rfl
        | insert table rows onConflict =>
            cases onConflict <;> simp_all [Privileges.permit, Statement.table]
        | update table columns condition set =>
            cases columns <;> simp_all [Privileges.permit, Statement.table]
        | delete table condition => simp_all [Privileges.permit, Statement.table]
      · rw [Function.update_of_ne heq]
    · rw [if_neg hpermit]
      rfl

theorem transaction_of_unsecured (hs : s.WritesSecured S) (htable : S.secured table = false)
    (script : Script ι ρ κ γ ε α) : (transaction S s script db).2 table = db table := by
  have hrun : ∀ db : Database ι ρ, (script.run S s db).2 table = db table := by
    induction script with
    | done a => exact fun _ => rfl
    | fail e => exact fun _ => rfl
    | exec statement next ih =>
        intro db
        exact (ih _ _).trans (exec_of_unsecured hs htable statement)
  rcases Prog.snd_atomically (script.run S s) db with hback | hdone
  · exact congrFun hback table
  · exact (congrFun hdone table).trans (hrun db)

variable (S) (own) in
/-- **What a tenant sees of two databases is the same.** -/
structure View (t : τ) (db db' : Database ι ρ) : Prop where
  owned : ∀ table, ∀ r ∈ db table, OwnRow S own table r
  owned' : ∀ table, ∀ r ∈ db' table, OwnRow S own table r
  seen : ∀ table, (db table).filter (visible S (some t) table) =
    (db' table).filter (visible S (some t) table)

/-- A transaction of the tenant comes to the same. -/
theorem View.transaction (hapart : Apart S own) (h : View S own t db db') (hs : s.tenant = some t)
    {script : Script ι ρ κ γ ε α} (hproper : script.All (Statement.Proper S s.tenant own)) :
    (transaction S s script db).1 = (transaction S s script db').1 ∧
      View S own t (RowSecurity.transaction S s script db).2
        (RowSecurity.transaction S s script db').2 := by
  have halike : AlikeAll S s.tenant own db db' db db' := by
    rw [hs]
    exact fun table => ⟨h.owned table, h.owned' table, h.seen table, rfl, rfl⟩
  obtain ⟨hresult, hafter⟩ := transaction_keeps hapart hproper db db' halike
  rw [hs] at hafter
  exact ⟨hresult, fun table => (hafter table).owned, fun table => (hafter table).owned',
    fun table => (hafter table).seen⟩

/-- **A transaction of another tenant** is not seen. -/
theorem View.transaction_other (hapart : Apart S own) (h : View S own t db db')
    (hs : s.tenant ≠ some t) (hwrites : s.WritesSecured S) {script : Script ι ρ κ γ ε α}
    (hproper : script.All (Statement.Proper S s.tenant own)) :
    View S own t (RowSecurity.transaction S s script db).2 db' := by
  have halike : AlikeAll S s.tenant own db db db db :=
    fun table => ⟨h.owned table, h.owned table, rfl, rfl, rfl⟩
  have hafter := (transaction_keeps hapart hproper db db halike).2
  refine ⟨fun table => (hafter table).owned, h.owned', fun table => ?_⟩
  rw [← h.seen table]
  cases hsecured : S.secured table with
  | false => rw [transaction_of_unsecured hwrites hsecured]
  | true =>
      -- what the tenant sees the session does not
      have hhidden : ∀ r, visible S (some t) table r → (!visible S s.tenant table r) = true := by
        intro r hr
        unfold visible at hr ⊢
        rw [hsecured] at hr ⊢
        simp only [Bool.not_true, Option.isSome_some, Bool.true_and, Bool.false_or,
          decide_eq_true_eq] at hr
        simp [hr, Ne.symm hs]
      rw [← filter_filter_of_imp fun r _ => hhidden r, (hafter table).unseen,
        filter_filter_of_imp fun r _ => hhidden r]

/-- **A tenant sees only itself**: its transactions come to the same, and
it sees the same at the end, with and without those of the others. -/
theorem play_view (hapart : Apart S own)
    {history : List (Session ι τ γ × Script ι ρ κ γ ε α)}
    (hwrites : ∀ x ∈ history, x.1.WritesSecured S)
    (hproper : ∀ x ∈ history, x.2.All (Statement.Proper S x.1.tenant own)) (h : View S own t db db') :
    (play S history db).1.filter (fun x => x.1 = some t) =
        (play S (history.filter fun x => x.1.tenant = some t) db').1 ∧
      View S own t (play S history db).2
        (play S (history.filter fun x => x.1.tenant = some t) db').2 := by
  induction history generalizing db db' with
  | nil => exact ⟨rfl, h⟩
  | cons x history ih =>
      have hrest := fun db db' (h : View S own t db db') => ih
        (fun y hy => hwrites y (List.mem_cons_of_mem _ hy))
        (fun y hy => hproper y (List.mem_cons_of_mem _ hy)) h
      have hx := hproper x List.mem_cons_self
      by_cases hs : x.1.tenant = some t
      · obtain ⟨hresult, hview⟩ := h.transaction hapart hs hx
        obtain ⟨hresults, hviews⟩ := hrest _ _ hview
        rw [List.filter_cons_of_pos (by simpa using hs)]
        refine ⟨?_, hviews⟩
        show List.filter _ ((x.1.tenant, (RowSecurity.transaction S x.1 x.2 db).1) :: _) =
          (x.1.tenant, (RowSecurity.transaction S x.1 x.2 db').1) :: _
        rw [List.filter_cons_of_pos (by simpa using hs), hresult]
        exact congrArg _ hresults
      · obtain ⟨hresults, hviews⟩ := hrest _ _
          (h.transaction_other hapart hs (hwrites x List.mem_cons_self) hx)
        rw [List.filter_cons_of_neg (by simpa using hs)]
        refine ⟨?_, hviews⟩
        show List.filter _ ((x.1.tenant, (RowSecurity.transaction S x.1 x.2 db).1) :: _) = _
        rw [List.filter_cons_of_neg (by simpa using hs)]
        exact hresults

/-- What is not secured is at the end as it was. -/
theorem play_of_unsecured {history : List (Session ι τ γ × Script ι ρ κ γ ε α)}
    (hwrites : ∀ x ∈ history, x.1.WritesSecured S) (htable : S.secured table = false) :
    (play S history db).2 table = db table := by
  induction history generalizing db with
  | nil => rfl
  | cons x history ih =>
      refine (ih fun y hy => hwrites y (List.mem_cons_of_mem _ hy)).trans ?_
      exact transaction_of_unsecured (hwrites x List.mem_cons_self) htable x.2

end Database

end View

end RowSecurity

end RetentionEngine
