import BotsterHub.Lib.Machine
import BotsterHub.Maintenance.HostBridgeEffects
import BotsterHub.Session.Replica

/-!
When the session projection is a replica of Core.

The lifecycle side waits for a gap pass, assembles a baseline, or follows the journal. A page is
used without asking for which recovery it was read, so these stay apart only if no recovery starts
while a read is in flight, and changes come once only if no read is submitted while received
changes wait (`fenced`).
-/

namespace BotsterHub.Maintenance

open List Option FamilyFrame

open Session

def MaintenanceCoreReads.idle (reads : MaintenanceCoreReads) : Bool :=
  reads.journal.isNone && reads.baseline.isNone

/-- No recovery starts while a read is in flight, no journal page is read while changes wait, and no
cursor is rewound for an acknowledged spawn that is missing. -/
def Hub.fenced (h : Hub) : Hub.Step → Bool
  | .recover => h.reads.idle
  | .observeUnavailable =>
    (h.state.projection.baselineComplete && h.state.baseline.isNone) || h.reads.idle
  | .completion request success =>
    success || h.reads.idle || (h.state.sessionFamily.inFlightByRequest.lookup request).isNone
  | .hostBridge _ answer => answer ≠ .other || h.reads.idle
  | .journalPull _ => h.reads.journal.isSome || h.state.pendingChanges.isEmpty
  | .refreshInventory =>
    (h.state.refreshProjectionIfInventoryAhead h.acknowledged).projection.cursor =
      h.state.projection.cursor
  | .baseline _ =>
    match h.reads.baseline with
    | some ⟨_, _, some (.ready (.ok page))⟩ => page.stop ≠ .complete ||
      (h.state.applyBaselinePageResult h.acknowledged (.ok page)).projection.cursor =
        some page.snapshotSequence
    | _ => true
  | _ => true

structure Idle (reads : MaintenanceCoreReads) (l : Lifecycle) : Prop where
  incomplete : l.projection.baselineComplete = false
  cursor : l.projection.cursor = none
  baseline : l.baseline = none
  rows : l.projection.rows = ∅
  pending : l.pendingChanges = []
  journalRead : reads.journal = none
  baselineRead : reads.baseline = none

def Assembled (core : Core) (recovery : BaselineRecovery) (rows : ProjectionRows) : Prop :=
  match recovery.snapshot with
  | none => recovery.after = none ∧ rows = ∅
  | some snapshot => core.Holds snapshot ∧ AssembledUpTo core snapshot recovery.after rows

structure Recovering (core : Core) (reads : MaintenanceCoreReads) (l : Lifecycle)
    (recovery : BaselineRecovery) : Prop where
  incomplete : l.projection.baselineComplete = false
  cursor : l.projection.cursor = none
  baseline : l.baseline = some recovery
  gapPass : l.needGapPass = false
  pending : l.pendingChanges = []
  rows : Assembled core recovery l.projection.rows
  journalRead : reads.journal = none
  baselineRead : ∀ read, reads.baseline = some read →
    read.snapshot = recovery.snapshot ∧ read.after = recovery.after ∧
      ∀ page, read.answer = some (.ready (.ok page)) → carriesRows page.stop →
        BaselinePageOf core recovery.snapshot recovery.after page

/-- The projection follows the journal from `snapshot`, stands at `cursor`, and changes up to
`received` wait. -/
structure Live (parseTraits : String → Option (List String)) (core : Core)
    (reads : MaintenanceCoreReads) (l : Lifecycle) (snapshot cursor : LifecycleCursor)
    (received : ℕ) : Prop where
  complete : l.projection.baselineComplete = true
  noGap : l.projection.gap = false
  baseline : l.baseline = none
  gapPass : l.needGapPass = false
  cursor_eq : l.projection.cursor = some cursor
  source : snapshot.sourceId = cursor.sourceId
  snapshot_le : snapshot.sequence ≤ cursor.sequence
  cursor_le : cursor.sequence ≤ received
  holds : core.Holds ⟨cursor.sourceId, received⟩
  pending : l.pendingChanges = core.changesBetween cursor received
  rows : ∀ id, l.projection.rows.lookup id = (replica core snapshot cursor.sequence).lookup id
  sealedAt : l.sealedAt = some snapshot
  applied : l.applied = core.changesBetween snapshot cursor.sequence
  queued : l.queued = l.applied.filterMap (FamilyFrame.ofChange parseTraits)
  baselineRead : reads.baseline = none
  journalRead : ∀ read, reads.journal = some read → read.cursor = cursor ∧ l.pendingChanges = [] ∧
      ∀ page, read.answer = some (.ready (.ok page)) → page.resyncRequired = false →
        JournalPageOf core cursor page

def Chronicle (parseTraits : String → Option (List String)) (core : Core) (l : Lifecycle) : Prop :=
  match l.sealedAt with
  | none => l.applied = [] ∧ l.queued = []
  | some snapshot =>
    ∃ n, snapshot.sequence ≤ n ∧ core.Holds ⟨snapshot.sourceId, n⟩ ∧
      l.applied = core.changesBetween snapshot n ∧
      l.queued <+: l.applied.filterMap (FamilyFrame.ofChange parseTraits)

structure Integrity (parseTraits : String → Option (List String)) (core : Core)
    (reads : MaintenanceCoreReads) (l : Lifecycle) : Prop where
  source : (core.sources.lookup core.source).isSome
  chronicle : Chronicle parseTraits core l
  phase : Idle reads l ∨ (∃ recovery, Recovering core reads l recovery) ∨
    ∃ snapshot cursor received, Live parseTraits core reads l snapshot cursor received

variable {p : String → Option (List String)} {core core' : Core}
  {reads : MaintenanceCoreReads} {l : Lifecycle}

variable {recovery : BaselineRecovery}

theorem Assembled.mono (h : Assembled core recovery rows) (he : core.Extends core') :
    Assembled core' recovery rows := by
  unfold Assembled at h ⊢
  cases hs : recovery.snapshot with
  | none =>
    rw [hs] at h
    exact h
  | some =>
    rw [hs] at h
    refine ⟨h.1.mono he, fun id => ?_⟩
    rw [baselineRows_extends h.1 he]
    exact h.2 id

theorem Recovering.mono (h : Recovering core reads l recovery)
    (he : core.Extends core') : Recovering core' reads l recovery :=
  { h with
    rows := h.rows.mono he
    baselineRead := fun read hre =>
      have ⟨hs, hafter, hp⟩ := h.baselineRead read hre
      ⟨hs, hafter, fun page ha hstop => (hp page ha hstop).mono he⟩ }

variable {snapshot cursor : LifecycleCursor} {r : ℕ}

theorem Live.mono (h : Live p core reads l snapshot cursor r) (he : core.Extends core') :
    Live p core' reads l snapshot cursor r := by
  have hc : core.Holds cursor := h.holds.of_le h.cursor_le
  have hs : core.Holds ⟨snapshot.sourceId, cursor.sequence⟩ := by
    rw [h.source]
    exact hc
  exact
    { h with
      holds := h.holds.mono he
      pending := h.pending.trans (Core.changesBetween_extends h.holds he).symm
      rows := fun id => by
        rw [replica_extends hs h.snapshot_le he]
        exact h.rows id
      applied := h.applied.trans (Core.changesBetween_extends hs he).symm
      journalRead := fun read hre =>
        have ⟨hc, hp, hpage⟩ := h.journalRead read hre
        ⟨hc, hp, fun page ha hsync => (hpage page ha hsync).mono he⟩ }

theorem Chronicle.mono (h : Chronicle p core l) (he : core.Extends core') :
    Chronicle p core' l := by
  unfold Chronicle at h ⊢
  split
  · next hs =>
    rw [hs] at h
    exact h
  next hs =>
  rw [hs] at h
  obtain ⟨n, hle, hh, ha, hq⟩ := h
  exact ⟨n, hle, hh.mono he, ha.trans (Core.changesBetween_extends hh he).symm, hq⟩

section

variable (h : Integrity p core reads l)
include h

theorem Integrity.grow (he : core.Extends core') (hs : (core'.sources.lookup core'.source).isSome) :
    Integrity p core' reads l where
  source := hs
  chronicle := h.chronicle.mono he
  phase := by
    rcases h.phase with hi | ⟨recovery, hr⟩ | ⟨snapshot, cursor, r, hl⟩
    · exact .inl hi
    · exact .inr (.inl ⟨recovery, hr.mono he⟩)
    · exact .inr (.inr ⟨snapshot, cursor, r, hl.mono he⟩)

theorem Integrity.recover (hj : reads.journal = none) (hb : reads.baseline = none) :
    Integrity p core reads l.recover where
  source := h.source
  chronicle := h.chronicle
  phase := .inl ⟨rfl, rfl, rfl, rfl, rfl, hj, hb⟩

theorem Integrity.startBaseline
    (hg : l.needGapPass = true) : Integrity p core reads l.startBaseline where
  source := h.source
  chronicle := h.chronicle
  phase := by
    rcases h.phase with hi | ⟨recovery, hr⟩ | ⟨snapshot, cursor, r, hl⟩
    · refine .inr (.inl ⟨⟨none, none⟩, hi.incomplete, hi.cursor, rfl, rfl,
        hi.pending, ⟨rfl, hi.rows⟩, hi.journalRead, fun read hre => ?_⟩)
      rw [hi.baselineRead] at hre
      cases hre
    · exact absurd (hg.symm.trans hr.gapPass) (by decide)
    · exact absurd (hg.symm.trans hl.gapPass) (by decide)

end

section

variable (h : Integrity p core reads l)

include h

theorem Integrity.live_of_read {read : JournalRead} (hre : reads.journal = some read) :
    ∃ snapshot cursor received, Live p core reads l snapshot cursor received := by
  rcases h.phase with hi | ⟨recovery, hr⟩ | hl
  · rw [hi.journalRead] at hre
    cases hre
  · rw [hr.journalRead] at hre
    cases hre
  · exact hl

theorem Integrity.recovering_of_read {read : BaselineRead} (hre : reads.baseline = some read) :
    ∃ recovery, Recovering core reads l recovery := by
  rcases h.phase with hi | hr | ⟨snapshot, cursor, r, hl⟩
  · rw [hi.baselineRead] at hre
    cases hre
  · exact hr
  · rw [hl.baselineRead] at hre
    cases hre

theorem Integrity.receive {read : JournalRead}
    {page : Core.JournalPage} (hre : reads.journal = some read)
    (ha : read.answer = some (.ready (.ok page))) (hr : page.resyncRequired = false) :
    Integrity p core { reads with journal := none }
      { l with pendingChanges := l.pendingChanges ++ page.changes } := by
  refine ⟨h.source, h.chronicle, ?_⟩
  obtain ⟨snapshot, cursor, r, hl⟩ := h.live_of_read hre
  obtain ⟨-, he, hp⟩ := hl.journalRead read hre
  obtain ⟨n, hle, hh, hc⟩ := hp page ha hr
  refine .inr (.inr ⟨snapshot, cursor, n, { hl with
    cursor_le := hle
    holds := hh
    pending := by rw [he, nil_append, hc]
    journalRead := fun read hre => by cases hre }⟩)

theorem Integrity.dropJournal : Integrity p core { reads with journal := none } l := by
  refine ⟨h.source, h.chronicle, ?_⟩
  rcases h.phase with hi | ⟨recovery, hr⟩ | ⟨snapshot, cursor, r, hl⟩
  · exact .inl { hi with journalRead := rfl }
  · exact .inr (.inl ⟨recovery, { hr with journalRead := rfl }⟩)
  · exact .inr (.inr ⟨snapshot, cursor, r, { hl with journalRead := fun read hre => by cases hre }⟩)

theorem Integrity.dropBaseline : Integrity p core { reads with baseline := none } l := by
  refine ⟨h.source, h.chronicle, ?_⟩
  rcases h.phase with hi | ⟨recovery, hr⟩ | ⟨snapshot, cursor, r, hl⟩
  · exact .inl { hi with baselineRead := rfl }
  · exact .inr (.inl ⟨recovery, { hr with baselineRead := fun read hre => by cases hre }⟩)
  · exact .inr (.inr ⟨snapshot, cursor, r, { hl with baselineRead := rfl }⟩)

theorem Integrity.one_read : reads.journal = none ∨ reads.baseline = none := by
  rcases h.phase with hi | ⟨recovery, hr⟩ | ⟨snapshot, cursor, r, hl⟩
  · exact .inl hi.journalRead
  · exact .inl hr.journalRead
  · exact .inr hl.baselineRead

theorem Integrity.submitJournal (hc : l.projection.baselineComplete = true)
    (hcursor : l.projection.cursor = some cursor) (hp : l.pendingChanges = []) (woke : Bool) :
    Integrity p core { reads with journal := some ⟨cursor, woke, none⟩ } l := by
  refine ⟨h.source, h.chronicle, ?_⟩
  rcases h.phase with hi | ⟨recovery, hr⟩ | ⟨snapshot, cursor', r, hl⟩
  · exact absurd (hc.symm.trans hi.incomplete) (by decide)
  · exact absurd (hc.symm.trans hr.incomplete) (by decide)
  obtain rfl : cursor' = cursor := some.inj (hl.cursor_eq.symm.trans hcursor)
  refine .inr (.inr ⟨snapshot, cursor', r, { hl with journalRead := fun read hre => ?_ }⟩)
  cases hre
  exact ⟨rfl, hp, fun page ha => by cases ha⟩

theorem Integrity.answerJournal {read : JournalRead}
    (hre : reads.journal = some read) (c : Core.JournalChoice) :
    Integrity p core
      { reads with
        journal := some { read with answer := some (core.answerJournal read.cursor c) } } l := by
  refine ⟨h.source, h.chronicle, ?_⟩
  obtain ⟨snapshot, cursor, r, hl⟩ := h.live_of_read hre
  refine .inr (.inr ⟨snapshot, cursor, r, { hl with journalRead := fun read' hread' => ?_ }⟩)
  cases hread'
  obtain ⟨hc, hp, -⟩ := hl.journalRead read hre
  refine ⟨hc, hp, fun page ha hr => ?_⟩
  have ha' := some.inj ha
  rw [hc] at ha'
  exact journalPageOf_answer (hl.holds.of_le hl.cursor_le) ha' hr

theorem Integrity.submitBaseline (hb : l.baseline = some recovery) : Integrity p core
      { reads with baseline := some ⟨recovery.snapshot, recovery.after, none⟩ } l := by
  refine ⟨h.source, h.chronicle, ?_⟩
  rcases h.phase with hi | ⟨recovery', hr⟩ | ⟨snapshot, cursor, r, hl⟩
  · rw [hi.baseline] at hb
    cases hb
  · obtain rfl : recovery' = recovery := some.inj (hr.baseline.symm.trans hb)
    refine .inr (.inl ⟨recovery', { hr with baselineRead := fun read hre => ?_ }⟩)
    cases hre
    exact ⟨rfl, rfl, fun page ha => by cases ha⟩
  · rw [hl.baseline] at hb
    cases hb

variable {read : BaselineRead}

section

variable (hre : reads.baseline = some read)
include hre

theorem Integrity.answerBaseline (c : Core.BaselineChoice) : Integrity p core
      { reads with
        baseline := some
          { read with answer := some (core.answerBaseline read.snapshot read.after c) } } l := by
  refine ⟨h.source, h.chronicle, ?_⟩
  obtain ⟨recovery, hr⟩ := h.recovering_of_read hre
  refine .inr (.inl ⟨recovery, { hr with baselineRead := fun read' hread' => ?_ }⟩)
  cases hread'
  obtain ⟨hsnapshot, hafter, -⟩ := hr.baselineRead read hre
  refine ⟨hsnapshot, hafter, fun page ha hstop => ?_⟩
  have ha' := some.inj ha
  rw [hsnapshot, hafter] at ha'
  obtain ⟨source, hsource⟩ := isSome_iff_exists.mp h.source
  refine baselinePageOf_answer hsource (fun s hs => ?_) ha' hstop
  have hrows := hr.rows
  rw [Assembled, hs] at hrows
  exact hrows.1

theorem Integrity.page {page : Core.BaselinePage}
    (ha : read.answer = some (.ready (.ok page))) (hstop : carriesRows page.stop) :
    ∃ recovery, Recovering core reads l recovery ∧
      BaselinePageOf core recovery.snapshot recovery.after page ∧
      AssembledUpTo core page.snapshotSequence page.next (l.ingest page).projection.rows := by
  obtain ⟨recovery, hrec⟩ := h.recovering_of_read hre
  obtain ⟨-, -, hpage⟩ := hrec.baselineRead read hre
  have hp := hpage page ha hstop
  refine ⟨recovery, hrec, hp, AssembledUpTo.ingest ?_ hp⟩
  have hr := hrec.rows
  unfold Assembled at hr
  cases hs : recovery.snapshot with
  | none =>
    rw [hs] at hr
    rw [hr.1, hr.2]
    exact assembledUpTo_empty core page.snapshotSequence
  | some snapshot =>
    rw [hs] at hr
    rw [hp.same snapshot hs]
    exact hr.2

theorem Integrity.ingest {page : Core.BaselinePage}
    (ha : read.answer = some (.ready (.ok page))) (hs : carriesRows page.stop) :
    Integrity p core { reads with baseline := none } (l.ingest page) := by
  obtain ⟨recovery, hr, hp, hrows⟩ := h.page hre ha hs
  refine ⟨h.source, h.chronicle, .inr (.inl ⟨⟨some page.snapshotSequence, page.next⟩, ?_⟩)⟩
  exact
    { incomplete := hr.incomplete
      cursor := hr.cursor
      baseline := by simp [Lifecycle.ingest, hr.baseline]
      gapPass := hr.gapPass
      pending := hr.pending
      rows := ⟨hp.holds, hrows⟩
      journalRead := hr.journalRead
      baselineRead := fun read hre => by cases hre }

theorem Integrity.complete {page : Core.BaselinePage}
    (ha : read.answer = some (.ready (.ok page))) (hstop : page.stop = .complete) :
    Integrity p core { reads with baseline := none } (l.complete page) := by
  obtain ⟨recovery, hr, hp, hrows⟩ := h.page hre ha (by rw [hstop]; rfl)
  have hs := Core.changesBetween_self core page.snapshotSequence
  have hl : Live p core { reads with baseline := none } (l.complete page)
      page.snapshotSequence page.snapshotSequence page.snapshotSequence.sequence :=
    { complete := rfl
      noGap := rfl
      baseline := rfl
      gapPass := hr.gapPass
      cursor_eq := rfl
      source := rfl
      snapshot_le := le_rfl
      cursor_le := le_rfl
      holds := hp.holds
      pending := hr.pending.trans hs.symm
      rows := fun id => by
        rw [replica, hs]
        exact hrows.complete hp hstop id
      sealedAt := rfl
      applied := hs.symm
      queued := rfl
      baselineRead := rfl
      journalRead := fun read hre => absurd (hr.journalRead.symm.trans hre) (by simp) }
  refine ⟨h.source, ?_, .inr (.inr ⟨_, _, _, hl⟩)⟩
  exact ⟨page.snapshotSequence.sequence, le_rfl, hp.holds, hs.symm, prefix_rfl⟩

end

end

variable {rest : List LifecycleChange} {change : LifecycleChange}

section

variable (h : Live p core reads l snapshot cursor r)
include h

theorem Live.next (hp : l.pendingChanges = change :: rest) :
    change.cursor = ⟨cursor.sourceId, cursor.sequence + 1⟩ ∧ cursor.sequence + 1 ≤ r ∧
      rest = core.changesBetween change.cursor r ∧
      core.changesBetween snapshot (cursor.sequence + 1) =
        core.changesBetween snapshot cursor.sequence ++ [change] := by
  have hs := h.pending.symm.trans hp
  obtain ⟨hc, hr⟩ := Core.changesBetween_cons hs
  have hlt : cursor.sequence + 1 ≤ r := by
    have hl := Core.length_changesBetween h.holds
    rw [hs, length_cons] at hl
    omega
  have ho : core.changesBetween cursor (cursor.sequence + 1) = [change] := by
    have hh : core.Holds ⟨cursor.sourceId, cursor.sequence + 1⟩ := h.holds.of_le hlt
    have hsplit : [change] ++ core.changesBetween ⟨cursor.sourceId, cursor.sequence + 1⟩ r =
        core.changesBetween cursor (cursor.sequence + 1) ++
          core.changesBetween ⟨cursor.sourceId, cursor.sequence + 1⟩ r := by
      rw [← Core.changesBetween_append hh (Nat.le_succ _) hlt, hs, hr, hc]
      rfl
    exact (append_cancel_right hsplit).symm
  refine ⟨hc, hlt, hr, ?_⟩
  have hh : core.Holds ⟨snapshot.sourceId, cursor.sequence⟩ := by
    rw [h.source]
    exact h.holds.of_le h.cursor_le
  rw [Core.changesBetween_append hh h.snapshot_le (Nat.le_succ _), h.source, ho]

theorem Live.apply (hp : l.pendingChanges = change :: rest) :
    Live p core reads ({ l with pendingChanges := rest }.apply change (ofChange p change).toList)
      snapshot change.cursor r := by
  obtain ⟨hc, hlt, hr, ha⟩ := h.next hp
  exact
    { complete := h.complete
      noGap := h.noGap
      baseline := h.baseline
      gapPass := h.gapPass
      cursor_eq := rfl
      source := by rw [h.source, hc]
      snapshot_le := by
        rw [hc]
        exact h.snapshot_le.trans (Nat.le_succ _)
      cursor_le := by
        rw [hc]
        exact hlt
      holds := by
        rw [hc]
        exact h.holds
      pending := hr
      rows := fun id => by
        rw [hc, replica, ha, foldl_append]
        exact lookup_applyRows_congr h.rows change id
      sealedAt := h.sealedAt
      applied := by
        rw [hc, ha, ← h.applied]
        rfl
      queued := by
        change l.queued ++ _ = (l.applied ++ [change]).filterMap _
        rw [filterMap_append, ← h.queued]
        cases hf : ofChange p change <;> simp [hf]
      baselineRead := h.baselineRead
      journalRead := fun read hre => by
        obtain ⟨-, he, -⟩ := h.journalRead read hre
        rw [hp] at he
        cases he }

end

end BotsterHub.Maintenance
