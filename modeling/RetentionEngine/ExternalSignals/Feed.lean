import Mathlib.Algebra.Order.Field.Rat
import RetentionEngine.Common.Dict
import RetentionEngine.Common.Lists
import RetentionEngine.ExternalSignals.Signal

/-!
# The feed and the stage EXTERNAL

`worker.feed_adapter` and `_external`: a live document, else the last live
snapshot, else the canned files, and what the stage makes of the items.
The stage catches `ValueError` only, the canned loader `OSError` and
`JSONDecodeError` only; a value that is no list of objects gets through
both.
-/

namespace RetentionEngine

namespace ExternalSignals

open Python

/-- What leaves the loader or the stage as an exception. -/
inductive Raised
  /-- The value is not iterable. -/
  | typeError
  /-- The item is no object. -/
  | attributeError
  /-- Reading the file raises anything but `OSError` or `JSONDecodeError`. -/
  | fileError
  /-- The request fails, or its answer is no JSON document. -/
  | liveError
  /-- The database refuses a row. -/
  | storeError
  deriving DecidableEq, Repr

/-! ## The loader -/

/-- `iter(v)`: the elements of a list, the characters of a text, the keys
of an object. -/
def iterate : Json → Except Raised (List Json)
  | .list elements => .ok elements
  | .str s => .ok (s.map fun c => .str [c])
  | .dict entries => .ok (entries.map fun e => .str e.1)
  | .null | .bool _ | .int _ | .float _ => .error .typeError

/-- `d.get("items", [])`. -/
def itemsField (d : List (Text × Json)) : Json := (Json.get? d (text "items")).getD (.list [])

/-- A file of the fixture directory. -/
inductive CannedFile
  /-- Reading it raises `OSError` or `JSONDecodeError`. -/
  | unreadable
  /-- Reading it raises anything else: a number of too many digits, a
  document nested too deep, bytes that are no UTF-8. -/
  | raises
  /-- It holds a JSON document. -/
  | document (data : Json)

/-- `data.get("items", []) if isinstance(data, dict) else data`. -/
def payload : Json → Json
  | .dict d => itemsField d
  | data => data

/-- What one file adds to the items. -/
def extendItems (items : List Json) : CannedFile → Except Raised (List Json)
  | .unreadable => .ok items
  | .raises => .error .fileError
  | .document data => (iterate (payload data)).map fun l => items ++ l

/-- `load_canned`; `none` is a directory that is not there. -/
def loadCanned : Option (List CannedFile) → Except Raised (List Json)
  | none => .ok []
  | some files => files.foldlM extendItems []

/-- `load_live`; `none` is a request that raises. -/
def loadLive : Option Json → Except Raised Json
  | none => .error .liveError
  | some (.dict d) => .ok (itemsField d)
  | some data => (iterate data).map .list

/-- `v is None`. -/
def isNone : Json → Bool
  | .null => true
  | _ => false

/-- The feed settings. -/
structure FeedSettings where
  externalSignalSource : String
  externalSignalLiveBaseUrl : String
  deriving DecidableEq, Repr

/-- The live source is asked. -/
def FeedSettings.IsLive (settings : FeedSettings) : Prop :=
  lower settings.externalSignalSource = "live" ∧ settings.externalSignalLiveBaseUrl ≠ ""

instance : DecidablePred FeedSettings.IsLive := fun _ => inferInstanceAs (Decidable (_ ∧ _))

/-- What the loader finds: the live answer, the files of the fixture
directory in their order, and `_last_live_snapshot`. -/
structure World where
  response : Option Json
  fixtures : Option (List CannedFile)
  lastLiveSnapshot : Json

/-- The canned items. -/
def cannedFeed (w : World) : Except Raised (Json × String) :=
  (loadCanned w.fixtures).map fun l => (.list l, "canned")

/-- **`load_feed`**, and `_last_live_snapshot` after it. -/
def loadFeed (settings : FeedSettings) (w : World) : Except Raised (Json × String) × Json :=
  if settings.IsLive then
    match loadLive w.response with
    | .ok items => (.ok (items, "live"), items)
    | .error _ =>
        if isNone w.lastLiveSnapshot then (cannedFeed w, w.lastLiveSnapshot)
        else (.ok (w.lastLiveSnapshot, "live_snapshot"), w.lastLiveSnapshot)
  else (cannedFeed w, w.lastLiveSnapshot)

/-! ## The stage -/

variable {K : Type} [Ring K] [LinearOrder K]

/-- Whether `external_signals` takes a row with this key, source and date;
the other columns are words the table knows and a number. -/
abbrev SignalTable := Text → Text → IngestMapping.DateTime → Bool

/-- What the stage reads of the run. -/
structure ExternalInputs where
  users : List String
  attributes : Dict String (List (Text × Json))
  tenantSlug : Text
  now : ℤ
  oldest : ℤ

/-- What the stage leaves behind, and its detail. -/
structure ExternalRun (K : Type) [Ring K] [LinearOrder K] where
  signals : List (ExternalSignal K)
  rejected : ℕ
  signalOf : List (String × Option (ExternalSignal K))
  source : String
  usersWithSignal : ℕ

variable (lib : Library K) (table : SignalTable)

/-- One round of the loop over the items. -/
def countItem (acc : List (ExternalSignal K) × ℕ) (item : Json) :
    Except Raised (List (ExternalSignal K) × ℕ) :=
  match toSignal lib item with
  | .ok s => .ok (acc.1 ++ [s], acc.2)
  | .error .valueError => .ok (acc.1, acc.2 + 1)
  | .error .attributeError => .error .attributeError

/-- `save_external_signals`: one transaction. -/
def saveExternalSignals (signals : List (ExternalSignal K)) : Except Raised Unit :=
  if ∀ s ∈ signals, table s.scopeKey s.source s.observedAt then .ok () else .error .storeError

/-- `run.signal_of`. -/
def signalsOfUsers (i : ExternalInputs) (signals : List (ExternalSignal K)) :
    List (String × Option (ExternalSignal K)) :=
  i.users.map fun user =>
    let attrs := (i.attributes.get? user).getD []
    (user, resolveForUser signals i.tenantSlug
      ((Json.get? attrs (text "region_code")).getD .null)
      ((Json.get? attrs (text "cohort_key")).getD .null) i.now i.oldest)

/-- **`_external`**, of what the loader gives it. -/
def external (i : ExternalInputs) (feed : Except Raised (Json × String)) :
    Except Raised (ExternalRun K) := do
  let (items, source) ← feed
  let l ← iterate items
  let (signals, rejected) ← l.foldlM (countItem lib) ([], 0)
  saveExternalSignals table signals
  let signalOf := signalsOfUsers i signals
  .ok ⟨signals, rejected, signalOf, source, signalOf.countP fun e => e.2.isSome⟩

/-- **The feed does not fail the run**: the loader returns a list of items,
the stage completes, its signals are those of the items `to_signal` makes
one of, and each of the others is counted as rejected. -/
def NeverFails (settings : FeedSettings) (w : World) (i : ExternalInputs) : Prop :=
  ∃ l source run, (loadFeed settings w).1 = .ok (.list l, source) ∧
    external lib table i (loadFeed settings w).1 = .ok run ∧
    run.signals = l.filterMap (fun item => (toSignal lib item).toOption) ∧
    (∀ s ∈ run.signals, InUnit s.value) ∧ run.signals.length + run.rejected = l.length

/-! ## When it does not -/

/-- **A fair item**: an object that, where a signal is made of it, is one
the table takes. -/
def Fair : Json → Prop
  | .dict d => ∀ item ∈ modelValidate lib d, Allowed lib item →
      table item.scopeKey item.source item.observedAt
  | _ => False

/-- A list of fair items. -/
def FairList : Json → Prop
  | .list l => ∀ item ∈ l, Fair lib table item
  | _ => False

/-- A value whose elements are fair items: no element at all, unless it is
a list. -/
def FairElements : Json → Prop
  | .list l => ∀ item ∈ l, Fair lib table item
  | .str s => s = []
  | .dict d => d = []
  | _ => False

/-- A file that is skipped, or whose payload has fair items. -/
def FairFile : CannedFile → Prop
  | .unreadable => True
  | .raises => False
  | .document data => FairElements lib table (payload data)

/-- The answer is a document with elements: the loader does not fall back. -/
def Answers : Option Json → Prop
  | some (.list _) | some (.str _) | some (.dict _) => True
  | some .null | some (.bool _) | some (.int _) | some (.float _) | none => False

instance : DecidablePred Answers := fun response => match response with
  | some (.list _) | some (.str _) | some (.dict _) => isTrue trivial
  | some .null | some (.bool _) | some (.int _) | some (.float _) | none => isFalse id

/-- A live document with fair items: under `items` of an object they are a
list, or there are none. -/
def FairDocument : Option Json → Prop
  | some (.dict d) => FairList lib table (itemsField d)
  | some data => FairElements lib table data
  | none => False

/-- **A fair feed**: what the loader takes its items from, the document,
else the snapshot, else the files, has fair items. -/
def FairFeed (settings : FeedSettings) (w : World) : Prop :=
  if settings.IsLive ∧ Answers w.response then FairDocument lib table w.response
  else if settings.IsLive ∧ isNone w.lastLiveSnapshot = false then
    FairList lib table w.lastLiveSnapshot
  else ∀ file ∈ w.fixtures.getD [], FairFile lib table file

variable {lib table} {i : ExternalInputs} {settings : FeedSettings} {w : World} {l : List Json}
  {item v : Json} {source : String}

/-! ## The loop over the items -/

/-- **What makes an item fair**, read off `to_signal`. -/
theorem fair_iff [IsStrictOrderedRing K] : Fair lib table item ↔
    toSignal lib item ≠ .error .attributeError ∧
      ∀ s, toSignal lib item = .ok s → table s.scopeKey s.source s.observedAt := by
  cases item with
  | null | bool _ | int _ | float _ | str _ | list _ =>
      exact iff_of_false id fun h => h.1 rfl
  | dict d =>
      unfold Fair toSignal
      dsimp only
      cases hmodel : modelValidate lib d with
      | none =>
          exact iff_of_true (fun _ h => nomatch h) ⟨nofun, nofun⟩
      | some item =>
          dsimp only
          by_cases hallowed : Allowed lib item
          · obtain ⟨s, hs, hsource, hkey, htime⟩ := exists_signalOfItem hallowed
            rw [hs]
            constructor
            · intro h
              refine ⟨nofun, fun s' hs' => ?_⟩
              obtain rfl := Except.ok.inj hs'
              rw [hsource, hkey, htime]
              exact h item rfl hallowed
            · rintro ⟨-, h⟩ item' hitem' -
              obtain rfl := Option.some.inj hitem'
              rw [← hsource, ← hkey, ← htime]
              exact h s rfl
          · rw [signalOfItem_of_not_allowed hallowed]
            refine iff_of_true (fun item' hitem' h => ?_) ⟨nofun, nofun⟩
            exact absurd (Option.some.inj hitem' ▸ h) hallowed

/-- The loop counts every item once, an accepted one by its signal. -/
theorem exists_foldlM_countItem (h : ∀ item ∈ l, toSignal lib item ≠ .error .attributeError)
    (acc : List (ExternalSignal K) × ℕ) : ∃ r, l.foldlM (countItem lib) acc = .ok r ∧
      r.1 = acc.1 ++ l.filterMap (fun item => (toSignal lib item).toOption) ∧
      r.1.length + r.2 = acc.1.length + acc.2 + l.length := by
  induction l generalizing acc with
  | nil => exact ⟨acc, rfl, (List.append_nil _).symm, rfl⟩
  | cons item l ih =>
      have htail := ih fun x hx => h x (List.mem_cons_of_mem _ hx)
      rw [List.foldlM_cons]
      have hhead := h item List.mem_cons_self
      unfold countItem
      cases hitem : toSignal lib item with
      | ok s =>
          obtain ⟨r, hr, hsignals, hcount⟩ := htail (acc.1 ++ [s], acc.2)
          refine ⟨r, hr, ?_, ?_⟩
          · rw [hsignals, List.append_assoc, List.filterMap_cons, hitem]
            rfl
          · rw [hcount, List.length_append, List.length_cons, List.length_cons, List.length_nil]
            omega
      | error e =>
          cases e with
          | attributeError => exact absurd hitem hhead
          | valueError =>
              obtain ⟨r, hr, hsignals, hcount⟩ := htail (acc.1, acc.2 + 1)
              refine ⟨r, hr, ?_, ?_⟩
              · rw [hsignals, List.filterMap_cons, hitem]
                rfl
              · rw [hcount, List.length_cons]
                dsimp only
                omega

/-- An item without attributes ends the loop. -/
theorem ne_attributeError_of_foldlM {acc r : List (ExternalSignal K) × ℕ}
    (h : l.foldlM (countItem lib) acc = .ok r) :
    ∀ item ∈ l, toSignal lib item ≠ .error .attributeError := by
  induction l generalizing acc with
  | nil => exact fun _ hx => absurd hx List.not_mem_nil
  | cons item l ih =>
      rw [List.foldlM_cons] at h
      obtain ⟨acc', hstep, hrest⟩ := exists_of_bind_eq_ok h
      intro x hx
      rcases List.mem_cons.mp hx with rfl | hx
      · intro hbad
        unfold countItem at hstep
        rw [hbad] at hstep
        cases hstep
      · exact ih hrest x hx

theorem saveExternalSignals_eq_ok {signals : List (ExternalSignal K)} :
    saveExternalSignals table signals = .ok () ↔
      ∀ s ∈ signals, table s.scopeKey s.source s.observedAt := by
  unfold saveExternalSignals
  split
  · exact iff_of_true rfl ‹_›
  · exact iff_of_false nofun ‹_›

/-- The stage completes where the loop and the save do. -/
theorem external_of_foldlM {r : List (ExternalSignal K) × ℕ} (i : ExternalInputs) (source : String)
    (hloop : l.foldlM (countItem lib) ([], 0) = .ok r)
    (hsave : saveExternalSignals table r.1 = .ok ()) :
    ∃ run, external lib table i (.ok (.list l, source)) = .ok run ∧
      run.signals = r.1 ∧ run.rejected = r.2 := by
  let signalOf := signalsOfUsers i r.1
  refine ⟨⟨r.1, r.2, signalOf, source, signalOf.countP fun e => e.2.isSome⟩, ?_, rfl, rfl⟩
  change (l.foldlM (countItem lib) ([], 0) >>= fun r => saveExternalSignals table r.1 >>= _) = _
  rw [hloop]
  change (saveExternalSignals table r.1 >>= _) = _
  rw [hsave]
  rfl

/-- A fair list goes through the stage. -/
theorem exists_external [IsStrictOrderedRing K] (i : ExternalInputs) (source : String)
    (h : ∀ item ∈ l, Fair lib table item) :
    ∃ run, external lib table i (.ok (.list l, source)) = .ok run ∧
      run.signals = l.filterMap (fun item => (toSignal lib item).toOption) ∧
      run.signals.length + run.rejected = l.length := by
  obtain ⟨r, hloop, hsignals, hcount⟩ :=
    exists_foldlM_countItem (fun item hitem => (fair_iff.mp (h item hitem)).1) ([], 0)
  rw [List.nil_append] at hsignals
  have hsave : saveExternalSignals table r.1 = .ok () := by
    refine saveExternalSignals_eq_ok.mpr fun s hs => ?_
    rw [hsignals] at hs
    obtain ⟨item, hitem, hs⟩ := List.mem_filterMap.mp hs
    exact (fair_iff.mp (h item hitem)).2 s (toOption_eq_some.mp hs)
  obtain ⟨run, hrun, hrunSignals, hrunRejected⟩ := external_of_foldlM i source hloop hsave
  refine ⟨run, hrun, hrunSignals.trans hsignals, ?_⟩
  rw [hrunSignals, hrunRejected, hcount, List.length_nil, Nat.zero_add, Nat.zero_add]

/-- A list that goes through the stage is fair. -/
theorem fair_of_external [IsStrictOrderedRing K] {run : ExternalRun K}
    (h : external lib table i (.ok (.list l, source)) = .ok run) :
    ∀ item ∈ l, Fair lib table item := by
  change (l.foldlM (countItem lib) ([], 0) >>= fun r =>
    saveExternalSignals table r.1 >>= _) = _ at h
  obtain ⟨r, hloop, h⟩ := exists_of_bind_eq_ok h
  obtain ⟨⟨⟩, hsave, -⟩ := exists_of_bind_eq_ok h
  have hobjects := ne_attributeError_of_foldlM hloop
  obtain ⟨r', hloop', hsignals, -⟩ := exists_foldlM_countItem hobjects ([], 0)
  obtain rfl := Except.ok.inj (hloop.symm.trans hloop')
  intro item hitem
  refine fair_iff.mpr ⟨hobjects item hitem, fun s hs => ?_⟩
  refine saveExternalSignals_eq_ok.mp hsave s ?_
  rw [hsignals, List.nil_append]
  exact List.mem_filterMap.mpr ⟨item, hitem, toOption_eq_some.mpr hs⟩

/-! ## The loader -/

/-- **The feed does not fail the run** just when the loader returns a list
of fair items. -/
theorem neverFails_iff_list [IsStrictOrderedRing K] : NeverFails lib table settings w i ↔
    ∃ l source, (loadFeed settings w).1 = .ok (.list l, source) ∧
      ∀ item ∈ l, Fair lib table item := by
  constructor
  · rintro ⟨l, source, run, hfeed, hrun, -⟩
    exact ⟨l, source, hfeed, fair_of_external (hfeed ▸ hrun)⟩
  · rintro ⟨l, source, hfeed, hfair⟩
    obtain ⟨run, hrun, hsignals, hcount⟩ := exists_external i source hfair
    exact ⟨l, source, run, hfeed, hfeed ▸ hrun, hsignals, fun s _ => s.value_mem, hcount⟩

omit [Ring K] [LinearOrder K] in
theorem fairList_iff : FairList lib table v ↔
    ∃ l, v = .list l ∧ ∀ item ∈ l, Fair lib table item := by
  cases v with
  | list l => exact ⟨fun h => ⟨l, rfl, h⟩, fun ⟨_, hl, h⟩ => Json.list.inj hl ▸ h⟩
  | null | bool _ | int _ | float _ | str _ | dict _ =>
      exact iff_of_false id fun ⟨_, hl, _⟩ => nomatch hl

omit [Ring K] [LinearOrder K] in
/-- A value has fair elements when it can be iterated and they are fair. -/
theorem fairElements_iff : FairElements lib table v ↔
    ∃ l, iterate v = .ok l ∧ ∀ item ∈ l, Fair lib table item := by
  -- a character and a key are no objects
  have htext : ∀ {α : Type} (s : List α) (f : α → Text),
      s = [] ↔ ∃ l, Except.ok (ε := Raised) (s.map fun c => Json.str (f c)) = .ok l ∧
        ∀ item ∈ l, Fair lib table item := by
    intro α s f
    constructor
    · rintro rfl
      exact ⟨[], rfl, fun _ h => absurd h List.not_mem_nil⟩
    · rintro ⟨l, hl, hfair⟩
      obtain rfl := Except.ok.inj hl
      cases s with
      | nil => rfl
      | cons c s => exact absurd (hfair _ List.mem_cons_self) id
  cases v with
  | list l => exact ⟨fun h => ⟨l, rfl, h⟩, fun ⟨_, hl, h⟩ => Except.ok.inj hl ▸ h⟩
  | str s => exact htext s _
  | dict d => exact htext d _
  | null | bool _ | int _ | float _ => exact iff_of_false id fun ⟨_, hl, _⟩ => nomatch hl

omit [Ring K] [LinearOrder K] in
/-- One file keeps the items fair if it is fair itself. -/
theorem fairFile_iff {file : CannedFile} : FairFile lib table file ∧ (∀ x ∈ l, Fair lib table x) ↔
    ∃ l', extendItems l file = .ok l' ∧ ∀ x ∈ l', Fair lib table x := by
  cases file with
  | unreadable =>
      exact ⟨fun h => ⟨l, rfl, h.2⟩, fun ⟨_, hl, h⟩ => ⟨trivial, Except.ok.inj hl ▸ h⟩⟩
  | raises => exact iff_of_false (fun h => h.1) fun ⟨_, hl, _⟩ => nomatch hl
  | document data =>
      unfold FairFile extendItems
      dsimp only
      rw [fairElements_iff]
      constructor
      · rintro ⟨⟨l', hiter, hfair⟩, hl⟩
        rw [hiter]
        refine ⟨l ++ l', rfl, fun x hx => ?_⟩
        rcases List.mem_append.mp hx with hx | hx
        · exact hl x hx
        · exact hfair x hx
      · rintro ⟨l', hiter, hfair⟩
        cases helements : iterate (payload data) with
        | error e => rw [helements] at hiter; cases hiter
        | ok added =>
            rw [helements] at hiter
            obtain rfl := Except.ok.inj hiter
            exact ⟨⟨added, rfl, fun x hx => hfair x (List.mem_append_right _ hx)⟩,
              fun x hx => hfair x (List.mem_append_left _ hx)⟩

omit [Ring K] [LinearOrder K] in
/-- `load_canned` gives fair items when every file is fair. -/
theorem fairFiles_iff {fixtures : Option (List CannedFile)} :
    (∀ file ∈ fixtures.getD [], FairFile lib table file) ↔
      ∃ l, loadCanned fixtures = .ok l ∧ ∀ item ∈ l, Fair lib table item := by
  have hfiles : ∀ (files : List CannedFile) (l : List Json),
      (∀ file ∈ files, FairFile lib table file) ∧ (∀ x ∈ l, Fair lib table x) ↔
        ∃ l', files.foldlM extendItems l = .ok l' ∧ ∀ x ∈ l', Fair lib table x := by
    intro files
    induction files with
    | nil =>
        intro l
        exact ⟨fun h => ⟨l, rfl, h.2⟩, fun ⟨_, hl, h⟩ =>
          ⟨fun _ hfile => absurd hfile List.not_mem_nil, Except.ok.inj hl ▸ h⟩⟩
    | cons file files ih =>
        intro l
        rw [List.foldlM_cons, List.forall_mem_cons, and_right_comm, fairFile_iff]
        constructor
        · rintro ⟨⟨l', hstep, hfair⟩, hrest⟩
          rw [hstep]
          exact (ih l').mp ⟨hrest, hfair⟩
        · rintro ⟨l', hload, hfair⟩
          obtain ⟨l'', hstep, hload⟩ := exists_of_bind_eq_ok hload
          obtain ⟨hrest, hfair⟩ := (ih l'').mpr ⟨l', hload, hfair⟩
          exact ⟨⟨l'', hstep, hfair⟩, hrest⟩
  cases fixtures with
  | none =>
      have hnil : ∀ x ∈ ([] : List Json), Fair lib table x := fun _ h => absurd h List.not_mem_nil
      exact iff_of_true (fun _ h => absurd h List.not_mem_nil) ⟨[], rfl, hnil⟩
  | some files =>
      have hnil : ∀ x ∈ ([] : List Json), Fair lib table x := fun _ h => absurd h List.not_mem_nil
      exact ⟨fun h => (hfiles files []).mp ⟨h, hnil⟩, fun h => ((hfiles files []).mpr h).1⟩

omit [Ring K] [LinearOrder K] in
/-- A document that answers gives fair items when it is fair. -/
theorem fairDocument_iff {response : Option Json} (h : Answers response) :
    ∃ items, loadLive response = .ok items ∧
      (FairDocument lib table response ↔ FairList lib table items) := by
  cases response with
  | none => exact absurd h id
  | some data =>
      cases data with
      | null | bool _ | int _ | float _ => exact absurd h id
      | list l => exact ⟨.list l, rfl, Iff.rfl⟩
      | dict d => exact ⟨itemsField d, rfl, Iff.rfl⟩
      | str s =>
          refine ⟨.list (s.map fun c => .str [c]), rfl, ?_⟩
          have helements : FairElements lib table (.str s) ↔ _ := fairElements_iff
          rw [fairList_iff]
          refine helements.trans ?_
          constructor
          · rintro ⟨l, hl, hfair⟩
            exact ⟨l, congrArg _ (Except.ok.inj hl), hfair⟩
          · rintro ⟨l, hl, hfair⟩
            exact ⟨l, congrArg _ (Json.list.inj hl), hfair⟩

theorem loadLive_of_not_answers {response : Option Json} (h : ¬ Answers response) :
    ∃ e, loadLive response = .error e := by
  cases response with
  | none => exact ⟨_, rfl⟩
  | some data =>
      cases data with
      | null | bool _ | int _ | float _ => exact ⟨_, rfl⟩
      | list _ | str _ | dict _ => exact absurd trivial h

omit [Ring K] [LinearOrder K] in
/-- The canned feed is a list of fair items when every file is fair. -/
theorem fairFiles_iff_feed : (∀ file ∈ w.fixtures.getD [], FairFile lib table file) ↔
    ∃ l source, cannedFeed w = .ok (.list l, source) ∧ ∀ item ∈ l, Fair lib table item := by
  rw [fairFiles_iff]
  unfold cannedFeed
  constructor
  · rintro ⟨l, hl, hfair⟩
    exact ⟨l, "canned", by rw [hl]; rfl, hfair⟩
  · rintro ⟨l, source, hl, hfair⟩
    cases hload : loadCanned w.fixtures with
    | error e => rw [hload] at hl; cases hl
    | ok l' =>
        rw [hload] at hl
        obtain ⟨hlist, -⟩ := Prod.mk.inj (Except.ok.inj hl)
        exact ⟨l', rfl, Json.list.inj hlist ▸ hfair⟩

omit [Ring K] [LinearOrder K] in
theorem fairList_iff_feed : FairList lib table v ↔ ∃ l source',
    (.ok (v, source) : Except Raised (Json × String)) = .ok (.list l, source') ∧
      ∀ item ∈ l, Fair lib table item := by
  rw [fairList_iff]
  constructor
  · rintro ⟨l, rfl, hfair⟩
    exact ⟨l, source, rfl, hfair⟩
  · rintro ⟨l, source', hl, hfair⟩
    exact ⟨l, (Prod.mk.inj (Except.ok.inj hl)).1, hfair⟩

/-- **The feed never fails a run that is given a fair feed**, and fails
every other one: the loader raises, or returns what is no list, or the
stage raises. -/
theorem neverFails_iff [IsStrictOrderedRing K] :
    NeverFails lib table settings w i ↔ FairFeed lib table settings w := by
  rw [neverFails_iff_list]
  unfold FairFeed loadFeed
  by_cases hlive : settings.IsLive
  · rw [if_pos hlive]
    by_cases hanswers : Answers w.response
    · have hdocument : settings.IsLive ∧ Answers w.response := ⟨hlive, hanswers⟩
      obtain ⟨items, hitems, hfair⟩ := fairDocument_iff hanswers
      rw [if_pos hdocument, hitems, hfair]
      exact fairList_iff_feed.symm
    · have hdocument : ¬ (settings.IsLive ∧ Answers w.response) := fun h => hanswers h.2
      obtain ⟨e, he⟩ := loadLive_of_not_answers hanswers
      rw [if_neg hdocument, he]
      dsimp only
      cases hnone : isNone w.lastLiveSnapshot with
      | true =>
          rw [if_pos rfl, if_neg fun h => Bool.false_ne_true h.2.symm]
          exact fairFiles_iff_feed.symm
      | false =>
          rw [if_neg Bool.false_ne_true, if_pos ⟨hlive, rfl⟩]
          exact fairList_iff_feed.symm
  · have hdocument : ¬ (settings.IsLive ∧ Answers w.response) := fun h => hlive h.1
    have hsnapshot : ¬ (settings.IsLive ∧ isNone w.lastLiveSnapshot = false) := fun h => hlive h.1
    rw [if_neg hlive, if_neg hdocument, if_neg hsnapshot]
    exact fairFiles_iff_feed.symm

/-- The libraries, on the first item of the canned feed. -/
def demoLibrary : Library ℚ where
  acceptsStr := fun _ => true
  readFloat := fun v => match v with
    | .float "-0.1" => some (.finite (-1 / 10))
    | _ => none
  readDatetime := fun v =>
    if v.isText (text "2026-09-15T08:00:00+07:00") then
      some ⟨1789459200000000, some 25200000000⟩
    else none
  upper := id
  isoformat := fun _ => text "2026-09-15T08:00:00+07:00"
  sha256 := fun _ => "9d349edee5e98bd338655923f0f2557ff16e44a9c2773df4909327b9337347b9"

/-- The first item of the canned feed. -/
def demoItem : Json := .dict
  [(text "source", .str (text "canned")), (text "scope_type", .str (text "CLIENT")),
    (text "scope_key", .str (text "demo-wallet")),
    (text "signal_type", .str (text "SECTOR_TREND")), (text "value", .float "-0.1"),
    (text "observed_at", .str (text "2026-09-15T08:00:00+07:00"))]

example : ((toSignal demoLibrary demoItem).toOption.map fun s => (s.signalId, s.value)) =
    some ("9d349edee5e98bd3", -1 / 10) := by decide +kernel

/-- A run without users. -/
def demoInputs : ExternalInputs := ⟨[], .empty, text "demo-wallet", 1789516800000000, 0⟩

/-- The canned feed, with a file that cannot be read beside it. -/
theorem neverFails_demo : NeverFails demoLibrary (fun _ _ _ => true) ⟨"canned", ""⟩
    ⟨none, some [.document (.dict [(text "items", .list [demoItem])]), .unreadable], .null⟩
    demoInputs := by
  have hfair : Fair demoLibrary (fun _ _ _ => true) demoItem := fun _ _ _ => rfl
  refine neverFails_iff.mpr ?_
  unfold FairFeed
  rw [if_neg (by decide), if_neg (by decide)]
  intro file hfile
  rcases List.mem_cons.mp hfile with rfl | hfile
  · exact List.forall_mem_singleton.mpr hfair
  · obtain rfl := List.mem_singleton.mp hfile
    exact trivial

/-- **A document of the wrong shape fails the run**: under `items` a null,
which cannot be iterated, in the canned file; an item that is a text, which
has no attributes, in the live document. -/
theorem not_neverFails :
    ¬ NeverFails demoLibrary (fun _ _ _ => true) ⟨"canned", ""⟩
      ⟨none, some [.document (.dict [(text "items", .null)])], .null⟩ demoInputs ∧
    ¬ NeverFails demoLibrary (fun _ _ _ => true) ⟨"live", "http://feed"⟩
      ⟨some (.list [.str (text "rain")]), none, .null⟩ demoInputs := by
  constructor
  · rintro ⟨l, source, run, hfeed, -⟩
    cases hfeed
  · rintro ⟨l, source, run, -, hrun, -⟩
    cases hrun

end ExternalSignals

end RetentionEngine
