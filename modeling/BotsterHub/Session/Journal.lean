import BotsterHub.Lib.Scan
import BotsterHub.Session.Projection
import Mathlib.Data.String.Basic

/-!
Core as the Hub sees it: a lifecycle journal with paged baselines.

Core is not part of the repository. A source is the sessions it started with and all changes
since; change `i` has sequence `i + 1`. Core may start over. A baseline is a snapshot at one
cursor, in pages by session id. Page sizes, expiry and failures are Core's choice.
-/

namespace BotsterHub.Session

open AList

structure Source where
  base : List LifecycleRecord
  log : List ChangeKind

def applyRecord (rows : Dict String LifecycleRecord) : ChangeKind → Dict String LifecycleRecord
  | .upsert record => rows.insert record.sessionId record
  | .removed sessionId => rows.erase sessionId
  | .unknown => rows

namespace Source

def rowsAt (s : Source) (n : ℕ) : Dict String LifecycleRecord :=
  (s.base.map ChangeKind.upsert ++ s.log.take n).foldl applyRecord ∅

def changes (s : Source) (id : String) : List LifecycleChange :=
  s.log.zipIdx.map fun (kind, i) => ⟨⟨id, i + 1⟩, kind⟩

end Source

structure Core where
  source : String
  sources : Dict String Source

namespace Core

def start (source : String) (base : List LifecycleRecord) : Core where
  source := source
  sources := (∅ : Dict String Source).insert source ⟨base, []⟩

variable (core : Core)

def sourceOf (id : String) : Source := (core.sources.lookup id).getD ⟨[], []⟩

def watermark : LifecycleCursor := ⟨core.source, (core.sourceOf core.source).log.length⟩

def rowsAt (core : Core) (cursor : LifecycleCursor) : Dict String LifecycleRecord :=
  (core.sourceOf cursor.sourceId).rowsAt cursor.sequence

variable (cursor : LifecycleCursor)

/-- The changes of the cursor's source up to a sequence number that it has not seen. -/
def changesBetween (sequence : ℕ) : List LifecycleChange :=
  (((core.sourceOf cursor.sourceId).changes cursor.sourceId).take sequence).drop cursor.sequence

def record (kind : ChangeKind) : Core :=
  let s := core.sourceOf core.source
  { core with sources := core.sources.insert core.source { s with log := s.log ++ [kind] } }

/-- Core starts over; a source id is never used twice. -/
def restart (id : String) (base : List LifecycleRecord) : Core :=
  if id ∈ core.sources then core
  else
    { source := id
      sources := core.sources.insert id ⟨base, []⟩ }

inductive PageError where
  | budgetTooSmall
  | other
deriving DecidableEq

/-- `SessionLifecyclePage`. -/
structure JournalPage where
  changes : List LifecycleChange
  next : LifecycleCursor
  sourceWatermark : LifecycleCursor
  resyncRequired : Bool
deriving DecidableEq

inductive BaselineStop where
  | complete
  | elapsed
  | rowBudget
  | byteBudget
  | resync
  | unknown
deriving DecidableEq

/-- `SessionLifecycleBaselinePage`. -/
structure BaselinePage where
  snapshotSequence : LifecycleCursor
  sessions : List LifecycleRecord
  next : Option String
  stop : BaselineStop
deriving DecidableEq

/-- What a ticket gives once it no longer polls pending; the operation may have been
dropped. -/
inductive Ticket (α : Type) where
  | lost
  | ready (result : Except PageError α)

inductive JournalChoice where
  | page (maxChanges : ℕ)
  | resync
  | error (error : PageError)
  | lost

def journalPage (maxChanges : ℕ) : JournalPage :=
  let changes := (core.changesBetween cursor core.watermark.sequence).take maxChanges
  { changes := changes
    next := ⟨cursor.sourceId, cursor.sequence + changes.length⟩
    sourceWatermark := core.watermark
    resyncRequired := cursor.sourceId ≠ core.source }

def resyncPage : JournalPage where
  changes := []
  next := cursor
  sourceWatermark := core.watermark
  resyncRequired := true

/-- `lifecycle_changes_page`. -/
def answerJournal : JournalChoice → Ticket JournalPage
  | .page maxChanges => .ready (.ok (core.journalPage cursor maxChanges))
  | .resync => .ready (.ok (core.resyncPage cursor))
  | .error error => .ready (.error error)
  | .lost => .lost

/-- Why a page ends before the last row. -/
inductive PageCut where
  | elapsed
  | rowBudget
  | byteBudget

def PageCut.stop : PageCut → BaselineStop
  | elapsed => .elapsed
  | rowBudget => .rowBudget
  | byteBudget => .byteBudget

inductive BaselineChoice where
  | page (maxRows : ℕ) (cut : PageCut)
  | stop (resync : Bool)
  | error (error : PageError)
  | lost

/-- A page of the snapshot, past the id `after`. Without a snapshot Core freezes a new
one. -/
def baselinePage (snapshot : Option LifecycleCursor) (after : Option String)
    (maxRows : ℕ) (cut : PageCut) : BaselinePage :=
  let snapshot := snapshot.getD core.watermark
  let keys := (core.rowsAt snapshot).keysAfter after
  { snapshotSequence := snapshot
    sessions := (keys.take maxRows).filterMap fun id => (core.rowsAt snapshot).lookup id
    next := resume after (keys.take maxRows)
    stop :=
      if snapshot.sourceId ≠ core.source then .resync
      else if keys.length ≤ maxRows then .complete
      else cut.stop }

/-- `lifecycle_baseline_page`. -/
def answerBaseline (snapshot : Option LifecycleCursor) (after : Option String) :
    BaselineChoice → Ticket BaselinePage
  | .page maxRows cut => .ready (.ok (core.baselinePage snapshot after maxRows cut))
  | .stop resync =>
    .ready (.ok
      { snapshotSequence := snapshot.getD core.watermark
        sessions := []
        next := after
        stop := if resync then .resync else .unknown })
  | .error error => .ready (.error error)
  | .lost => .lost

/-- The cursor is a position in the journal. -/
def Holds : Prop :=
  ∃ s, core.sources.lookup cursor.sourceId = some s ∧ cursor.sequence ≤ s.log.length

def Extends (core core' : Core) : Prop :=
  ∀ id s, core.sources.lookup id = some s →
    ∃ s', core'.sources.lookup id = some s' ∧ s'.base = s.base ∧ s.log <+: s'.log

variable {core core' : Core} {cursor : LifecycleCursor}

theorem extends_record (core : Core) (kind : ChangeKind) : core.Extends (core.record kind) := by
  intro id s hs
  rw [record, lookup_insert_eq]
  split
  · next hid =>
    have hsource : core.sourceOf core.source = s := by rw [sourceOf, ← hid, hs, Option.getD_some]
    exact ⟨_, rfl, by rw [hsource], by rw [hsource]; exact List.prefix_append ..⟩
  · exact ⟨s, hs, rfl, List.prefix_refl _⟩

theorem extends_restart (core : Core) (id : String) (base : List LifecycleRecord) :
    core.Extends (core.restart id base) := by
  intro j s hs
  unfold restart
  split
  · exact ⟨s, hs, rfl, List.prefix_refl _⟩
  next hn =>
  have hj : j ≠ id := by
    rintro rfl
    exact hn (lookup_isSome.mp (by rw [hs]; rfl))
  exact ⟨s, by rw [lookup_insert_eq, if_neg hj, hs], rfl, List.prefix_refl _⟩

theorem source_record (core : Core) (kind : ChangeKind) :
    ((core.record kind).sources.lookup (core.record kind).source).isSome := by
  change ((core.sources.insert core.source _).lookup core.source).isSome
  rw [lookup_insert_eq, if_pos rfl]
  rfl

theorem source_restart (h : (core.sources.lookup core.source).isSome) (id : String)
    (base : List LifecycleRecord) :
    ((core.restart id base).sources.lookup (core.restart id base).source).isSome := by
  by_cases hid : id ∈ core.sources
  · rw [restart, if_pos hid]
    exact h
  · rw [restart, if_neg hid, lookup_insert_eq, if_pos rfl]
    rfl

theorem Holds.mono (h : core.Holds cursor) (he : core.Extends core') : core'.Holds cursor := by
  obtain ⟨s, hs, hle⟩ := h
  obtain ⟨s', hs', -, hl⟩ := he _ s hs
  exact ⟨s', hs', hle.trans hl.length_le⟩

theorem Holds.of_le {sequence : ℕ} (h : core.Holds cursor) (hle : sequence ≤ cursor.sequence) :
    core.Holds ⟨cursor.sourceId, sequence⟩ := by
  obtain ⟨s, hs, hl⟩ := h
  exact ⟨s, hs, hle.trans hl⟩

variable {n : ℕ}

private theorem take_of_isPrefix {α : Type} {l l' : List α} (h : l <+: l')
    (hn : n ≤ l.length) : l'.take n = l.take n := by
  obtain ⟨t, rfl⟩ := h
  exact List.take_append_of_le_length hn

theorem rowsAt_extends (h : core.Holds cursor) (he : core.Extends core') :
    core'.rowsAt cursor = core.rowsAt cursor := by
  obtain ⟨s, hs, hle⟩ := h
  obtain ⟨s', hs', hb, hl⟩ := he _ s hs
  rw [rowsAt, rowsAt, sourceOf, sourceOf, hs, hs', Option.getD_some, Option.getD_some,
    Source.rowsAt, Source.rowsAt, hb, take_of_isPrefix hl hle]

private theorem changes_isPrefix {s s' : Source} (hl : s.log <+: s'.log) (id : String) :
    s.changes id <+: s'.changes id := by
  obtain ⟨rest, hr⟩ := hl
  rw [Source.changes, Source.changes, ← hr, List.zipIdx_append, List.map_append]
  exact List.prefix_append ..

private theorem length_changes (s : Source) (id : String) :
    (s.changes id).length = s.log.length := by
  simp [Source.changes]

private theorem getElem_changes (s : Source) (id : String) (i : ℕ)
    (h : i < (s.changes id).length) : ((s.changes id)[i]).cursor = ⟨id, i + 1⟩ := by
  simp [Source.changes]

theorem changesBetween_extends (h : core.Holds ⟨cursor.sourceId, n⟩)
    (he : core.Extends core') : core'.changesBetween cursor n = core.changesBetween cursor n := by
  obtain ⟨s, hs, hle⟩ := h
  obtain ⟨s', hs', -, hl⟩ := he _ s hs
  have ht := take_of_isPrefix (changes_isPrefix hl cursor.sourceId) (n := n)
    (by rw [length_changes]; exact hle)
  rw [changesBetween, changesBetween, sourceOf, sourceOf, hs, hs', Option.getD_some,
    Option.getD_some, ht]

@[simp] theorem changesBetween_self (core : Core) (cursor : LifecycleCursor) :
    core.changesBetween cursor cursor.sequence = [] :=
  List.drop_eq_nil_of_le (List.length_take_le _ _)

theorem length_changesBetween (h : core.Holds ⟨cursor.sourceId, n⟩) :
    (core.changesBetween cursor n).length = n - cursor.sequence := by
  obtain ⟨s, hs, hle⟩ := h
  rw [changesBetween, sourceOf, hs, Option.getD_some, List.length_drop, List.length_take,
    length_changes, min_eq_left hle]

theorem sequence_changesBetween (core : Core) (cursor : LifecycleCursor) (n : ℕ) :
    (core.changesBetween cursor n).map (·.cursor.sequence) =
      List.range' (cursor.sequence + 1) (core.changesBetween cursor n).length := by
  refine List.ext_getElem (by simp) fun i hi _ => ?_
  have hl : i < (core.changesBetween cursor n).length := by simpa using hi
  have hg : (core.changesBetween cursor n)[i].cursor.sequence = cursor.sequence + i + 1 := by
    simp [changesBetween, List.getElem_drop, List.getElem_take, getElem_changes]
  rw [List.getElem_map, hg, List.getElem_range']
  omega

theorem changesBetween_cons (h : core.changesBetween cursor n = c :: rest) :
    c.cursor = ⟨cursor.sourceId, cursor.sequence + 1⟩ ∧ rest = core.changesBetween c.cursor n := by
  set l := (core.sourceOf cursor.sourceId).changes cursor.sourceId with hl
  have hd : (l.take n).drop cursor.sequence = c :: rest := h
  have hlt : cursor.sequence < (l.take n).length := by
    by_contra hge
    rw [List.drop_eq_nil_of_le (not_lt.mp hge)] at hd
    cases hd
  rw [List.drop_eq_getElem_cons hlt, List.cons.injEq, List.getElem_take] at hd
  have hc : c.cursor = ⟨cursor.sourceId, cursor.sequence + 1⟩ := by
    rw [← hd.1]
    exact getElem_changes ..
  refine ⟨hc, ?_⟩
  rw [hc]
  exact hd.2.symm

theorem changesBetween_append (h : core.Holds ⟨cursor.sourceId, m⟩)
    (hm : cursor.sequence ≤ m) (hn : m ≤ n) :
    core.changesBetween cursor n =
      core.changesBetween cursor m ++ core.changesBetween ⟨cursor.sourceId, m⟩ n := by
  obtain ⟨s, hs, hle⟩ := h
  simp only [changesBetween, sourceOf, hs, Option.getD_some]
  set l := s.changes cursor.sourceId
  have hl : (l.take m).length = m := by rw [List.length_take, length_changes, min_eq_left hle]
  rw [← List.drop_append_of_le_length (by rw [hl]; exact hm)]
  congr 1
  conv_lhs => rw [← List.take_append_drop m (l.take n), List.take_take, min_eq_left hn]

theorem holds_watermark (h : core.sources.lookup core.source = some s) :
    core.Holds core.watermark :=
  ⟨s, h, by rw [watermark, sourceOf, h, Option.getD_some]⟩

theorem journalPage_changes (h : core.Holds cursor) (hsource : cursor.sourceId = core.source)
    (m : ℕ) :
    ∃ n, cursor.sequence ≤ n ∧ core.Holds ⟨cursor.sourceId, n⟩ ∧
      (core.journalPage cursor m).changes = core.changesBetween cursor n := by
  obtain ⟨s, hs, hle⟩ := h
  have hw : core.watermark.sequence = s.log.length := by
    rw [watermark, sourceOf, ← hsource, hs, Option.getD_some]
  have hl : (core.changesBetween cursor s.log.length).length = s.log.length - cursor.sequence :=
    length_changesBetween ⟨s, hs, le_rfl⟩
  set k := ((core.changesBetween cursor s.log.length).take m).length with hk
  have hkle : k ≤ s.log.length - cursor.sequence := by
    rw [hk, List.length_take, hl]
    exact min_le_right ..
  have hh : core.Holds ⟨cursor.sourceId, cursor.sequence + k⟩ := ⟨s, hs, by grind⟩
  refine ⟨cursor.sequence + k, Nat.le_add_right .., hh, ?_⟩
  have hsplit := changesBetween_append (n := s.log.length) hh (Nat.le_add_right ..) (by omega)
  have hf := length_changesBetween hh
  simp only [journalPage, hw]
  rw [← List.take_length (l := (core.changesBetween cursor s.log.length).take m), ← hk]
  rw [List.take_take, min_eq_left (by rw [hk, List.length_take]; exact min_le_left ..), hsplit,
    List.take_append_of_le_length (by rw [hf]; omega), List.take_of_length_le (by rw [hf]; omega)]

end Core

end BotsterHub.Session
