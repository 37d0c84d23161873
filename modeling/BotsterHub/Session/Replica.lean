import BotsterHub.Session.Journal

/-!
Copies of Core's rows.

A replica is a snapshot of Core with the changes after it applied, built from baseline and journal
pages. What an answer says stays true while the journal grows, so a page may be used late.
-/

namespace BotsterHub.Session

open List Option AList

def baselineRows (core : Core) (snapshot : LifecycleCursor) : ProjectionRows :=
  (core.rowsAt snapshot).filterMapVal fun _ record =>
    some (ProjectionRow.baseline snapshot.sequence record)

/-- The rows of a snapshot with all changes after it up to a sequence number. -/
def replica (core : Core) (snapshot : LifecycleCursor) (sequence : ℕ) : ProjectionRows :=
  (core.changesBetween snapshot sequence).foldl applyRows (baselineRows core snapshot)

theorem lookup_baselineRows (core : Core) (snapshot : LifecycleCursor) (id : String) :
    (baselineRows core snapshot).lookup id =
      ((core.rowsAt snapshot).lookup id).map (ProjectionRow.baseline snapshot.sequence) := by
  rw [baselineRows, lookup_filterMapVal]
  cases (core.rowsAt snapshot).lookup id <;> rfl

variable {core core' : Core} {snapshot : LifecycleCursor}

theorem baselineRows_extends (h : core.Holds snapshot)
    (he : core.Extends core') : baselineRows core' snapshot = baselineRows core snapshot := by
  rw [baselineRows, baselineRows, Core.rowsAt_extends h he]

theorem replica_extends (h : core.Holds ⟨snapshot.sourceId, s⟩) (hle : snapshot.sequence ≤ s)
    (he : core.Extends core') : replica core' snapshot s = replica core snapshot s := by
  rw [replica, replica, Core.changesBetween_extends h he, baselineRows_extends (h.of_le hle) he]

private theorem keyed_foldl (k : List ChangeKind) (rows : Dict String LifecycleRecord)
    (h : ∀ id record, rows.lookup id = some record → record.sessionId = id) (id : String)
    (record : LifecycleRecord) (hid : (k.foldl applyRecord rows).lookup id = some record) :
    record.sessionId = id := by
  induction k generalizing rows with
  | nil => exact h id record hid
  | cons kind _ ih =>
    refine ih (applyRecord rows kind) (fun j r hj => ?_) hid
    cases kind with
    | upsert =>
      rw [applyRecord, lookup_insert_eq] at hj
      split at hj
      · next hjr =>
        cases hj
        exact hjr.symm
      · exact h j r hj
    | removed => exact h j r (lookup_of_erase hj)
    | unknown => exact h j r hj

theorem sessionId_rowsAt {id : String} {r : LifecycleRecord}
    (h : (core.rowsAt snapshot).lookup id = some r) : r.sessionId = id :=
  keyed_foldl _ ∅ (fun _ _ h => by simp at h) id r h

structure BaselinePageOf (core : Core) (snapshot : Option LifecycleCursor) (after : Option String)
    (page : Core.BaselinePage) : Prop where
  holds : core.Holds page.snapshotSequence
  same : ∀ s, snapshot = some s → page.snapshotSequence = s
  rows : ∃ keys rest, (core.rowsAt page.snapshotSequence).keysAfter after = keys ++ rest ∧
    page.sessions = keys.filterMap (fun id => (core.rowsAt page.snapshotSequence).lookup id) ∧
    page.next = resume after keys ∧ (page.stop = .complete → rest = [])

def carriesRows (stop : Core.BaselineStop) : Bool := stop ≠ .resync && stop ≠ .unknown

variable {page : Core.BaselinePage} {after : Option String}

theorem BaselinePageOf.mono {snapshot : Option LifecycleCursor}
    (h : BaselinePageOf core snapshot after page)
    (he : core.Extends core') : BaselinePageOf core' snapshot after page where
  holds := h.holds.mono he
  same := h.same
  rows := by
    rw [Core.rowsAt_extends h.holds he]
    exact h.rows

theorem baselinePageOf_answer {source : Source}
    (hsource : core.sources.lookup core.source = some source)
    {snapshot : Option LifecycleCursor} (hsnapshot : ∀ s, snapshot = some s → core.Holds s)
    {c : Core.BaselineChoice}
    (h : core.answerBaseline snapshot after c = .ready (.ok page))
    (hstop : carriesRows page.stop) : BaselinePageOf core snapshot after page := by
  cases c with
  | error | lost => cases h
  | stop r =>
    injection h with h
    injection h with h
    subst h
    cases r <;> simp [carriesRows] at hstop
  | page m cut =>
    injection h with h
    injection h with h
    subst h
    have hh : core.Holds (snapshot.getD core.watermark) := by
      cases snapshot with
      | none => exact Core.holds_watermark hsource
      | some s => exact hsnapshot s rfl
    refine ⟨hh, fun s hs => by rw [hs]; rfl, ?_⟩
    set keys := (core.rowsAt (snapshot.getD core.watermark)).keysAfter after with hk
    refine ⟨keys.take m, keys.drop m, (take_append_drop ..).symm, rfl, rfl, fun hc => ?_⟩
    have hlen : keys.length ≤ m := by
      simp only [Core.baselinePage, ← hk] at hc
      by_contra hl
      rw [if_neg hl] at hc
      split at hc
      · cases hc
      · cases cut <;> cases hc
    exact drop_eq_nil_of_le hlen

def AssembledUpTo (core : Core) (snapshot : LifecycleCursor) (after : Option String)
    (rows : ProjectionRows) : Prop :=
  ∀ id, rows.lookup id = if Past after id then none else (baselineRows core snapshot).lookup id

theorem assembledUpTo_empty (core : Core) (snapshot : LifecycleCursor) :
    AssembledUpTo core snapshot none ∅ := fun id => by
  rw [if_pos (past_none id)]
  rfl

private theorem find?_sessions (keys : List String) (id : String) :
    (keys.filterMap fun id => (core.rowsAt snapshot).lookup id).find? (fun r => r.sessionId = id) =
      if id ∈ keys then (core.rowsAt snapshot).lookup id else none := by
  induction keys with
  | nil => rfl
  | cons key _ ih =>
    cases hk : (core.rowsAt snapshot).lookup key with
    | none =>
      simp only [filterMap_cons, hk, ih]
      by_cases hid : id = key
      · subst hid
        simp [hk]
      · simp [hid]
    | some =>
      simp only [filterMap_cons, hk, find?_cons, sessionId_rowsAt hk]
      by_cases hid : key = id
      · subst hid
        simp [hk]
      · rw [decide_eq_false hid]
        simp [ih, Ne.symm hid]

private theorem sessions_pairwise {keys : List String} (h : keys.Pairwise (· < ·)) :
    (keys.filterMap fun id => (core.rowsAt snapshot).lookup id).Pairwise
      fun r r' => r.sessionId ≠ r'.sessionId := by
  rw [pairwise_filterMap]
  refine h.imp fun {i j} hij r hr r' hr' => ?_
  rw [sessionId_rowsAt hr, sessionId_rowsAt hr']
  exact ne_of_lt hij

theorem AssembledUpTo.ingest {snapshot : Option LifecycleCursor} {p : SessionProjection}
    (h : AssembledUpTo core page.snapshotSequence after p.rows)
    (hp : BaselinePageOf core snapshot after page) :
    AssembledUpTo core page.snapshotSequence page.next
      (p.ingestBaselineRows page.snapshotSequence.sequence page.sessions).rows := by
  intro id
  obtain ⟨keys, rest, hk, hs, hnext, -⟩ := hp.rows
  rw [hs, lookup_ingestBaselineRows _ _ _ _ (sessions_pairwise (page_pairwise hk)),
    find?_sessions, h id, lookup_baselineRows, hnext]
  by_cases hm : id ∈ core.rowsAt page.snapshotSequence
  · have hpast := not_past_resume_iff hk hm
    by_cases hp : id ∈ keys
    · -- the row came with this page
      rw [if_pos hp, if_neg (hpast.mpr (.inr hp))]
      obtain ⟨record, hr⟩ := isSome_iff_exists.mp (lookup_isSome.mpr hm)
      rw [hr, map_some]
    · rw [if_neg hp]
      by_cases ha : Past after id
      · rw [if_pos ha, if_pos (by_contra fun hn => (hpast.mp hn).elim (· ha) hp)]
      · rw [if_neg ha, if_neg (hpast.mpr (.inl ha))]
  · -- no such row
    have hnone : (core.rowsAt page.snapshotSequence).lookup id = none := lookup_eq_none.mpr hm
    rw [hnone, map_none, ite_self, ite_self, ite_self]

theorem AssembledUpTo.complete {snapshot : Option LifecycleCursor} {rows : ProjectionRows}
    (h : AssembledUpTo core page.snapshotSequence page.next rows)
    (hpage : BaselinePageOf core snapshot after page) (hs : page.stop = .complete)
    (id : String) : rows.lookup id = (baselineRows core page.snapshotSequence).lookup id := by
  obtain ⟨keys, rest, hk, -, hn, hr⟩ := hpage.rows
  rw [h id]
  split
  · next hp =>
    -- nothing of the snapshot is past the last page
    have hnone : (core.rowsAt page.snapshotSequence).lookup id = none := by
      rw [lookup_eq_none]
      intro hm
      rw [hn] at hp
      have hin := mem_keysAfter.mpr ⟨hm, hp⟩
      rw [keysAfter_resume hk, hr hs] at hin
      exact absurd hin (not_mem_nil)
    rw [lookup_baselineRows, hnone, map_none]
  · rfl

def JournalPageOf (core : Core) (cursor : LifecycleCursor) (page : Core.JournalPage) : Prop :=
  ∃ n, cursor.sequence ≤ n ∧ core.Holds ⟨cursor.sourceId, n⟩ ∧
    page.changes = core.changesBetween cursor n

variable {cursor : LifecycleCursor} {page : Core.JournalPage}

theorem JournalPageOf.mono (h : JournalPageOf core cursor page) (he : core.Extends core') :
    JournalPageOf core' cursor page := by
  obtain ⟨n, hle, hh, hc⟩ := h
  exact ⟨n, hle, hh.mono he, hc.trans (Core.changesBetween_extends hh he).symm⟩

theorem journalPageOf_answer (hcursor : core.Holds cursor)
    (h : core.answerJournal cursor c = .ready (.ok page)) (hr : page.resyncRequired = false) :
    JournalPageOf core cursor page := by
  cases c with
  | error | lost => cases h
  | resync =>
    injection h with h
    injection h with h
    subst h
    cases hr
  | page m =>
    injection h with h
    injection h with h
    subst h
    have hs : cursor.sourceId = core.source := by simpa [Core.journalPage] using hr
    exact Core.journalPage_changes hcursor hs m

end BotsterHub.Session
