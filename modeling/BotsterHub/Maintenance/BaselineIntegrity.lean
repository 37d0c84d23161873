import BotsterHub.Maintenance.Integrity

/-!
Baseline integrity of the session projection.

In a run of steps that meet `fenced` a complete projection is a replica of Core. Without it a page
asked for by an earlier recovery is ingested into the projection of the next one and may seal it.
-/

namespace BotsterHub.Maintenance

open List Option Finset MaintenanceCoreReads SessionFamilyBridge MaintenanceState FamilyFrame
open Lifecycle Hub Session

namespace MaintenanceState

variable {st : MaintenanceState}

theorem indexed_startBaselineRecovery (h : st.sessionFamily.Indexed) :
    st.startBaselineRecovery.sessionFamily.Indexed := ⟨h.ready_iff, h.parked⟩

theorem applyJournalPageResult_spec (st : MaintenanceState)
    (r : Except Core.PageError Core.JournalPage) (woke : Bool) :
    (∃ page, r = .ok page ∧ page.resyncRequired = false ∧
        (st.applyJournalPageResult r woke).lifecycle =
          { st.lifecycle with pendingChanges := st.pendingChanges ++ page.changes }) ∨
      (st.applyJournalPageResult r woke).lifecycle = st.lifecycle ∨
      (st.applyJournalPageResult r woke).lifecycle = st.lifecycle.recover := by
  unfold applyJournalPageResult
  split
  · next page =>
    split
    · exact .inr (.inr rfl)
    next hr =>
    dsimp only
    split
    · exact .inr (.inl rfl)
    · exact .inl ⟨page, rfl, by simpa using hr, rfl⟩
  · exact .inr (.inl rfl)
  · exact .inr (.inr rfl)

theorem indexed_applyJournalPageResult (h : st.sessionFamily.Indexed)
    (r : Except Core.PageError Core.JournalPage) (woke : Bool) :
    (st.applyJournalPageResult r woke).sessionFamily.Indexed := by
  unfold applyJournalPageResult
  split
  · split
    · exact indexed_startBaselineRecovery h
    · dsimp only
      split <;> exact h
  · exact h
  · exact indexed_startBaselineRecovery h

variable {parseTraits : String → Option (List String)}

/-- A change is applied with its projection, or it starts a recovery. -/
theorem applyNext_spec (st : MaintenanceState) (c : LifecycleChange) :
    (applyNext parseTraits st c).lifecycle = st.lifecycle.apply c (ofChange parseTraits c).toList ∨
      (applyNext parseTraits st c).lifecycle = (st.lifecycle.apply c []).recover := by
  unfold applyNext queueFamilyDelta
  split
  · next hf =>
    left
    simp [lifecycle, apply, hf, toList_none, append_nil]
  next hf =>
  dsimp only
  split
  · right
    simp [lifecycle, startBaselineRecovery, recover, apply, append_nil]
  · left
    simp [lifecycle, apply, hf, toList_some]

theorem indexed_applyNext (h : st.sessionFamily.Indexed)
    (c : LifecycleChange) : (applyNext parseTraits st c).sessionFamily.Indexed := by
  unfold applyNext queueFamilyDelta
  split
  · exact h
  · dsimp only
    split <;> exact ⟨h.ready_iff, h.parked⟩

theorem startOmittedRowRecover_lifecycle (st : MaintenanceState) :
    st.startOmittedRowRecover.lifecycle = { st.lifecycle with
      projection := { st.projection with
        cursor := st.startOmittedRowRecover.projection.cursor } } ∧
    st.startOmittedRowRecover.sessionFamily = st.sessionFamily := by
  unfold startOmittedRowRecover
  split
  · exact ⟨rfl, rfl⟩
  · split <;> exact ⟨rfl, rfl⟩

variable {acknowledged : Finset String}

theorem completeBaseline_lifecycle (page : Core.BaselinePage)
    (h : ((st.noteBaselinePage page).completeBaseline acknowledged
      page.snapshotSequence).projection.cursor = some page.snapshotSequence) :
    ((st.noteBaselinePage page).completeBaseline acknowledged page.snapshotSequence).lifecycle =
      st.lifecycle.complete page := by
  unfold completeBaseline at h ⊢
  dsimp only at h ⊢
  split
  · next hm =>
    rw [if_pos hm] at h
    refine (startOmittedRowRecover_lifecycle _).1.trans ?_
    simp only [beginFamilySnapshots] at h
    rw [h]
    rfl
  · rfl

theorem indexed_completeBaseline (st : MaintenanceState) (h : st.sessionFamily.Indexed)
    (page : Core.BaselinePage) (acknowledged : Finset String) :
    ((st.noteBaselinePage page).completeBaseline acknowledged
      page.snapshotSequence).sessionFamily.Indexed := by
  unfold completeBaseline
  dsimp only
  split
  · refine ⟨?_, ?_⟩ <;> simp only [beginFamilySnapshots, (startOmittedRowRecover_lifecycle _).2]
    · exact h.ready_iff
    · exact h.parked
  · exact ⟨h.ready_iff, h.parked⟩

theorem refreshProjection_lifecycle
    (h : (st.refreshProjectionIfInventoryAhead acknowledged).projection.cursor =
      st.projection.cursor) :
    (st.refreshProjectionIfInventoryAhead acknowledged).lifecycle = st.lifecycle ∧
      (st.refreshProjectionIfInventoryAhead acknowledged).sessionFamily = st.sessionFamily := by
  unfold refreshProjectionIfInventoryAhead at h ⊢
  dsimp only at h ⊢
  split
  · next hm =>
    rw [if_pos hm] at h
    refine ⟨(startOmittedRowRecover_lifecycle _).1.trans ?_, (startOmittedRowRecover_lifecycle _).2⟩
    rw [h]
    rfl
  · exact ⟨rfl, rfl⟩

end MaintenanceState

variable {parseTraits : String → Option (List String)}

structure Hub.Sound (parseTraits : String → Option (List String)) (h : Hub) : Prop where
  integrity : Integrity parseTraits h.core h.reads h.state.lifecycle
  indexed : h.state.sessionFamily.Indexed

theorem Hub.sound_start (source : String) (base : List LifecycleRecord) :
    (start source base).Sound parseTraits where
  integrity :=
    { source := by
        change (AList.lookup source ((∅ : Dict String Source).insert source ⟨base, []⟩)).isSome
        rw [AList.lookup_insert_eq, if_pos rfl]
        rfl
      chronicle := ⟨rfl, rfl⟩
      phase := .inl ⟨rfl, rfl, rfl, rfl, rfl, rfl, rfl⟩ }
  indexed := indexed_new

theorem MaintenanceCoreReads.idle_iff {r : MaintenanceCoreReads} :
    r.idle ↔ r.journal = none ∧ r.baseline = none := by
  simp [idle]

/-- A read that was answered before keeps its answer. -/
theorem map_unless {ρ : Type} {P : Option ρ → Prop} {o : Option ρ} {c : ρ → Prop}
    [DecidablePred c] {f : ρ → ρ} (h : P o) (hs : ∀ a, o = some a → P (some (f a))) :
    P (o.map fun a => if c a then a else f a) := by
  cases o with
  | none => exact h
  | some a =>
    rw [map_some]
    split
    · exact h
    · exact hs a rfl

namespace Hub.Sound

variable {h : Hub}

section

variable (hs : h.Sound parseTraits)

include hs

theorem congr {h' : Hub} (hc : h'.core = h.core)
    (hr : h'.reads = h.reads) (hl : h'.state.lifecycle = h.state.lifecycle)
    (hi : h'.state.sessionFamily.Indexed) : h'.Sound parseTraits where
  integrity := by
    rw [hc, hr, hl]
    exact hs.integrity
  indexed := hi

theorem retireAcknowledged (b : Finset String) : (h.retireAcknowledged b).Sound parseTraits :=
  ⟨hs.integrity, hs.indexed⟩

theorem recover (hi : h.reads.idle) :
    Sound parseTraits { h with state := h.state.startBaselineRecovery } := by
  obtain ⟨hj, hb⟩ := idle_iff.mp hi
  exact ⟨hs.integrity.recover hj hb, indexed_startBaselineRecovery hs.indexed⟩

theorem answerJournal (c : Core.JournalChoice) : (h.answerJournal c).Sound parseTraits := by
  refine ⟨?_, hs.indexed⟩
  exact map_unless (P := fun r => Integrity _ _ { h.reads with journal := r } _) hs.integrity
    fun _ hr => hs.integrity.answerJournal hr c

theorem answerBaseline (c : Core.BaselineChoice) : (h.answerBaseline c).Sound parseTraits := by
  refine ⟨?_, hs.indexed⟩
  exact map_unless (P := fun r => Integrity _ _ { h.reads with baseline := r } _) hs.integrity
    fun _ hr => hs.integrity.answerBaseline hr c

theorem journalResult {read : JournalRead}
    (hr : h.reads.journal = some read) {r : Except Core.PageError Core.JournalPage}
    (ha : read.answer = some (.ready r)) :
    Sound parseTraits
      { h with
        reads := { h.reads with journal := none }
        state := h.state.applyJournalPageResult r read.woke } := by
  refine ⟨?_, indexed_applyJournalPageResult hs.indexed r read.woke⟩
  have hb : h.reads.baseline = none := hs.integrity.one_read.resolve_left (by rw [hr]; simp)
  rcases h.state.applyJournalPageResult_spec r read.woke with
    ⟨page, rfl, hresync, hl⟩ | hl | hl
  · change Integrity parseTraits h.core _ (lifecycle _)
    rw [hl]
    exact hs.integrity.receive hr ha hresync
  · change Integrity parseTraits h.core _ (lifecycle _)
    rw [hl]
    exact hs.integrity.dropJournal
  change Integrity parseTraits h.core _ (lifecycle _)
  rw [hl]
  exact hs.integrity.dropJournal.recover rfl hb

theorem journalPull (r : Bool) (hf : h.reads.journal.isSome || h.state.pendingChanges.isEmpty) :
    (h.runJournalPullSlice r).Sound parseTraits := by
  unfold runJournalPullSlice
  split
  · next hr =>
    split
    · exact hs
    · exact ⟨hs.integrity.dropJournal, hs.indexed⟩
    · next ha => exact hs.journalResult hr ha
  · next hr =>
    have hp : h.state.pendingChanges = [] := by simpa [hr] using hf
    have ht : Sound parseTraits { h with state := h.state.takeJournalWake } :=
      hs.congr rfl rfl rfl hs.indexed
    have hrecover (hb : h.reads.baseline = none) :
        Sound parseTraits { h with state := h.state.takeJournalWake.startBaselineRecovery } :=
      ht.recover (idle_iff.mpr ⟨hr, hb⟩)
    -- without a baseline in progress no baseline read is in flight
    have hn : h.state.baseline = none → h.reads.baseline = none := by
      intro hnone
      rcases hs.integrity.phase with hi | ⟨recovery, hrec⟩ | ⟨snapshot, cursor, n, hl⟩
      · exact hi.baselineRead
      · exact absurd (hnone.symm.trans hrec.baseline) (by simp)
      · exact hl.baselineRead
    dsimp only
    split
    · split
      · next hw =>
        simp only [Bool.and_eq_true, isNone_iff_eq_none] at hw
        exact hrecover (hn hw.1.2)
      · exact ht
    · next hstate =>
      simp only [Bool.or_eq_true, Bool.not_eq_true', not_or, Bool.not_eq_false,
        isSome_iff_ne_none, ne_eq, not_not] at hstate
      split
      · split
        · exact hrecover (hn hstate.1)
        · exact ht
      next hc =>
      split
      · exact hs.congr rfl rfl rfl hs.indexed
      · exact ⟨hs.integrity.submitJournal hstate.2 hc hp _, hs.indexed⟩

theorem baselineResult {read : BaselineRead}
    (hread : h.reads.baseline = some read) {r : Except Core.PageError Core.BaselinePage}
    (ha : read.answer = some (.ready r))
    (hf : ∀ page, r = .ok page → page.stop = .complete →
      (h.state.applyBaselinePageResult h.acknowledged r).projection.cursor =
        some page.snapshotSequence) :
    Sound parseTraits
      { h with
        reads := { h.reads with baseline := none }
        state := h.state.applyBaselinePageResult h.acknowledged r } := by
  have hj : h.reads.journal = none := hs.integrity.one_read.resolve_right (by rw [hread]; simp)
  have hd : Sound parseTraits { h with reads := { h.reads with baseline := none } } :=
    ⟨hs.integrity.dropBaseline, hs.indexed⟩
  have hr : Sound parseTraits
      { h with
        reads := { h.reads with baseline := none }
        state := h.state.startBaselineRecovery } :=
    hd.recover (idle_iff.mpr ⟨hj, rfl⟩)
  cases r with
  | error error =>
    cases error with
    | budgetTooSmall => exact ⟨hd.integrity, hs.indexed⟩
    | other => exact hr
  | ok page =>
    have hi (hstop : carriesRows page.stop) :
        Integrity parseTraits h.core { h.reads with baseline := none }
          (h.state.noteBaselinePage page).lifecycle :=
      hs.integrity.ingest hread ha hstop
    dsimp only [applyBaselinePageResult]
    cases hstop : page.stop with
    | resync => exact hr
    | unknown => exact ⟨hd.integrity, hs.indexed⟩
    | elapsed | rowBudget | byteBudget => exact ⟨hi (by rw [hstop]; rfl), hs.indexed⟩
    | complete =>
      have hc := hf page rfl hstop
      simp only [applyBaselinePageResult, hstop] at hc
      refine ⟨?_, ?_⟩
      · change Integrity parseTraits h.core _ (lifecycle _)
        rw [completeBaseline_lifecycle page hc]
        exact hs.integrity.complete hread ha hstop
      · exact h.state.indexed_completeBaseline hs.indexed page h.acknowledged

theorem baseline (r : Bool)
    (hf : h.fenced (.baseline r)) : (h.runBaselineSlice r).Sound parseTraits := by
  unfold runBaselineSlice
  split
  · next read hread =>
    split
    · exact hs
    · exact ⟨hs.integrity.dropBaseline, hs.indexed⟩
    next result ha =>
    have hr := hs.baselineResult hread ha (by
      rintro page rfl hstop
      obtain ⟨snapshot, after, a⟩ := read
      obtain rfl : a = _ := ha
      simpa [fenced, hread, hstop] using hf)
    split
    · exact hr.retireAcknowledged _
    · exact hr
  · split
    · exact hs
    next hb =>
    split
    · exact hs
    · exact ⟨hs.integrity.submitBaseline hb, hs.indexed⟩

theorem applyNext (hp : h.state.pendingChanges = change :: rest) : Sound parseTraits
      { h with state := applyNext parseTraits { h.state with pendingChanges := rest } change } := by
  have hi : { h.state with pendingChanges := rest }.sessionFamily.Indexed :=
    hs.indexed
  refine ⟨?_, indexed_applyNext hi change⟩
  rcases hs.integrity.phase with hidle | ⟨recovery, hrec⟩ | ⟨snapshot, cursor, received, hlive⟩
  · exact absurd (hp.symm.trans hidle.pending) (by simp)
  · exact absurd (hp.symm.trans hrec.pending) (by simp)
  obtain ⟨hc, hlt, -, ha⟩ := hlive.next hp
  have hh : h.core.Holds ⟨snapshot.sourceId, cursor.sequence + 1⟩ := by
    rw [hlive.source]
    exact hlive.holds.of_le hlt
  have hprefix (frames : List FamilyFrame) (hf : frames <+: (ofChange parseTraits change).toList) :
      Chronicle parseTraits h.core
        ({ h.state.lifecycle with pendingChanges := rest }.apply change frames) := by
    unfold Chronicle
    have hsealed :
        ({ h.state.lifecycle with pendingChanges := rest }.apply change frames).sealedAt =
        some snapshot := hlive.sealedAt
    rw [hsealed]
    refine ⟨cursor.sequence + 1, hlive.snapshot_le.trans (Nat.le_succ _), hh, ?_, ?_⟩
    · rw [ha, ← hlive.applied]
      rfl
    change h.state.lifecycle.queued ++ frames <+: filterMap _ (_ ++ [change])
    rw [filterMap_append, ← hlive.queued, prefix_append_right_inj]
    refine hf.trans ?_
    cases hframe : ofChange parseTraits change <;> simp [hframe]
  rcases applyNext_spec { h.state with pendingChanges := rest } change with hl | hl
  · rw [hl]
    exact ⟨hs.integrity.source, hprefix _ (prefix_rfl),
      .inr (.inr ⟨snapshot, change.cursor, received, hlive.apply hp⟩)⟩
  rw [hl]
  have hj : h.reads.journal = none := by
    by_contra hsome
    obtain ⟨read, hr⟩ := ne_none_iff_exists'.mp hsome
    exact absurd (hp.symm.trans (hlive.journalRead read hr).2.1) (by simp)
  exact ⟨hs.integrity.source, hprefix [] (List.nil_prefix),
    .inl ⟨rfl, rfl, rfl, rfl, rfl, hj, hlive.baselineRead⟩⟩

theorem applyLoop (n : ℕ) :
    Sound parseTraits { h with state := applyLoop parseTraits n h.state } := by
  induction n generalizing h with
  | zero => exact hs
  | succ n ih =>
    unfold applyLoop
    split
    · exact hs
    · next hp => exact ih (hs.applyNext hp)

theorem projectionApply :
    Sound parseTraits { h with state := h.state.runProjectionApplySlice parseTraits } := by
  unfold runProjectionApplySlice
  split
  · next hi =>
    -- an incomplete projection has nothing waiting
    have hp : h.state.pendingChanges = [] := by
      rcases hs.integrity.phase with hidle | ⟨recovery, hr⟩ | ⟨snapshot, cursor, n, hlive⟩
      · exact hidle.pending
      · exact hr.pending
      · exact absurd hlive.complete (by simpa [lifecycle] using hi)
    refine hs.congr rfl rfl ?_ hs.indexed
    simp [lifecycle, hp]
  · have hl := hs.applyLoop applyMaxChanges
    exact hl.congr rfl rfl rfl hl.indexed

theorem hostBridge (t : Option ℕ) (a : MaintenanceState.PluginAdmission)
    (hf : a = .other → h.reads.idle) :
    ∃ st, h.state.runHostBridgeSlice parseTraits h.installs t a = some st ∧
      Sound parseTraits { h with state := st } := by
  obtain ⟨st, l, hst, hi, hl, hst'⟩ := h.state.runHostBridgeSlice_spec parseTraits h.installs
    t a hs.indexed
  refine ⟨st, hst, ?_, hi⟩
  have hp : Integrity parseTraits h.core h.reads l := by
    rcases hl with rfl | ⟨hn, rfl⟩
    · exact hs.integrity
    · exact hs.integrity.startBaseline hn
  rcases hst' with heq | ⟨ho, heq⟩
  · rw [heq]
    exact hp
  rw [heq]
  obtain ⟨hj, hb⟩ := idle_iff.mp (hf ho)
  exact hp.recover hj hb

theorem completion (r : FamilyRequestId) (s : Bool) (hf : h.fenced (.completion r s)) :
    Sound parseTraits { h with state := h.state.applyPluginCompletion r s } := by
  unfold applyPluginCompletion
  dsimp only
  split
  · exact hs.congr rfl rfl rfl hs.indexed
  next key hkey =>
  set forgotten := { h.state.sessionFamily with
    inFlightByRequest := h.state.sessionFamily.inFlightByRequest.erase r }
  have hforget : Serves h.state.sessionFamily forgotten :=
    ⟨rfl, fun hi => ⟨hi.ready_iff, hi.parked⟩⟩
  have hserves := hforget.trans (serves_touchExistingConsumer forgotten key fun c => c.completed s)
  split
  · refine hs.congr rfl rfl ?_ (hserves.indexed hs.indexed)
    simp [lifecycle, hserves.needGapPass]
  next hfailed =>
  have hidle : h.reads.idle := by simpa [fenced, hfailed, hkey] using hf
  have hg := (stores_markGap _ key).indexed (hserves.indexed hs.indexed)
  have hr := hs.recover hidle
  exact ⟨hr.integrity, ⟨hg.ready_iff, hg.parked⟩⟩

end

end Hub.Sound

theorem Hub.step_sound {h : Hub} (hs : h.Sound parseTraits) (s : Hub.Step) (hf : h.fenced s) :
    ∃ h', h.step parseTraits s = some h' ∧ h'.Sound parseTraits := by
  cases s with
  | change kind =>
    exact ⟨_, rfl, hs.integrity.grow (Core.extends_record h.core kind)
      (Core.source_record h.core kind), hs.indexed⟩
  | restart source base =>
    exact ⟨_, rfl, hs.integrity.grow (Core.extends_restart h.core source base)
      (Core.source_restart hs.integrity.source source base), hs.indexed⟩
  | answerJournal c => exact ⟨_, rfl, hs.answerJournal c⟩
  | answerBaseline c => exact ⟨_, rfl, hs.answerBaseline c⟩
  | journalAdvanced | authoritativeMutation | acknowledgeSpawn | noteSpawn | install | uninstall =>
    exact ⟨_, rfl, hs.congr rfl rfl rfl hs.indexed⟩
  | recover => exact ⟨_, rfl, hs.recover hf⟩
  | observeUnavailable =>
    refine ⟨_, rfl, ?_⟩
    unfold handleUnavailableObservePass
    split
    · next hr =>
      refine hs.recover ?_
      simp only [fenced, Bool.or_eq_true, Bool.and_eq_true, isNone_iff_eq_none] at hf
      rcases hf with ⟨hc, hb⟩ | hi
      · simp [hc, hb] at hr
      · exact hi
    · exact hs
  | refreshInventory =>
    obtain ⟨hl, hfamily⟩ := refreshProjection_lifecycle (of_decide_eq_true hf)
    exact ⟨_, rfl, hs.congr rfl rfl hl (by
      change (h.state.refreshProjectionIfInventoryAhead h.acknowledged).sessionFamily.Indexed
      rw [hfamily]
      exact hs.indexed)⟩
  | journalPull refused => exact ⟨_, rfl, hs.journalPull refused hf⟩
  | projectionApply =>
    exact ⟨_, rfl, hs.projectionApply.retireAcknowledged _⟩
  | baseline refused => exact ⟨_, rfl, hs.baseline refused hf⟩
  | hostBridge t a =>
    have hi : a = .other → h.reads.idle := by
      intro ho
      simpa [fenced, ho] using hf
    obtain ⟨st, hst, hs'⟩ := hs.hostBridge t a hi
    exact ⟨_, by rw [step, hst]; rfl, hs'⟩
  | completion r success => exact ⟨_, rfl, hs.completion r success hf⟩
  | engineReleased =>
    refine ⟨_, rfl, hs.congr rfl rfl ?_ ?_⟩
    · have hscans := (sameConsumers_unparkAll h.state.sessionFamily).scans
      split
      · simp [lifecycle, hscans.needGapPass]
      · rfl
    · split
      · exact (sameConsumers_unparkAll _).indexed hs.indexed
      · exact hs.indexed

def Hub.Fenced (parseTraits : String → Option (List String)) (h : Hub) (steps : List Hub.Step) :
    Prop :=
  Machine.Along (Hub.step parseTraits) (fun h s => h.fenced s = true) h steps

instance (h : Hub) (steps : List Hub.Step) : Decidable (Hub.Fenced parseTraits h steps) :=
  inferInstanceAs (Decidable (Machine.Along _ _ _ _))

theorem Hub.run_sound {h : Hub} (hs : h.Sound parseTraits) (steps : List Hub.Step)
    (hf : Hub.Fenced parseTraits h steps) :
    ∃ h', h.run parseTraits steps = some h' ∧ h'.Sound parseTraits := by
  obtain ⟨h', hrun, -, hs'⟩ := Machine.run_rest
    (I := fun steps h => Hub.Fenced parseTraits h steps ∧ h.Sound parseTraits)
    (fun s steps h hi => by
      obtain ⟨⟨hstep, hr⟩, hs⟩ := hi
      obtain ⟨h', heq, hs'⟩ := step_sound hs s hstep
      exact ⟨h', heq, hr h' heq, hs'⟩)
    steps h ⟨hf, hs⟩
  exact ⟨h', hrun, hs'⟩

namespace Hub

/-- A complete projection without a gap is a snapshot of Core with all changes after it up to its
cursor. -/
def Exact (h : Hub) : Prop :=
  h.state.projection.baselineComplete = true → h.state.projection.gap = false →
    ∃ snapshot cursor, h.state.projection.cursor = some cursor ∧ h.core.Holds cursor ∧
      snapshot.sourceId = cursor.sourceId ∧ snapshot.sequence ≤ cursor.sequence ∧
      ∀ id, h.state.projection.rows.lookup id = (replica h.core snapshot cursor.sequence).lookup id

theorem Sound.exact {h : Hub} (hs : h.Sound parseTraits) : h.Exact := by
  intro hc _
  rcases hs.integrity.phase with hi | ⟨recovery, hr⟩ | ⟨snapshot, cursor, received, hl⟩
  · exact absurd (hc.symm.trans hi.incomplete) (by decide)
  · exact absurd (hc.symm.trans hr.incomplete) (by decide)
  · exact ⟨snapshot, cursor, hl.cursor_eq, hl.holds.of_le hl.cursor_le, hl.source,
      hl.snapshot_le, hl.rows⟩

/-- In every run whose recoveries start with no read in flight, whose journal reads start with no
change waiting, and which never rewinds the cursor for a missing spawn. -/
theorem run_projects_replica (parseTraits : String → Option (List String)) (source : String)
    (base : List LifecycleRecord) (steps : List Step)
    (hfenced : Fenced parseTraits (start source base) steps) :
    ∃ h, (start source base).run parseTraits steps = some h ∧ h.Exact := by
  obtain ⟨h, hrun, hs⟩ := run_sound (sound_start source base) steps hfenced
  exact ⟨h, hrun, hs.exact⟩

def session (id : String) : LifecycleRecord where
  sessionId := id
  registryState := .running
  rows := 24
  cols := 80
  updatedAt := 0
  metadata := ∅
  lifecycle := some .running

def recovery : List Step :=
  [.change (.upsert (session "a")), .change (.upsert (session "b")), .recover,
    .hostBridge none .queued, .baseline false, .answerBaseline (.page 1 .rowBudget),
    .baseline false, .baseline false]

/-- The recovery starts over with the second baseline read in flight, whose answer seals the new
projection without the first session. -/
def lateSeal : List Step :=
  recovery ++ [.observeUnavailable, .answerBaseline (.page 1 .rowBudget), .baseline false]

/-- Every slice of the run is one that the owner would schedule. -/
theorem late_page_seals :
    Machine.Along (step fun _ => none) (fun h s => h.ready s = true) (start "core" []) lateSeal ∧
      ∃ h, (start "core" []).run (fun _ => none) lateSeal = some h ∧
        h.state.projection.baselineComplete = true ∧ h.state.projection.gap = false ∧ ¬h.Exact := by
  refine ⟨by decide +kernel, ?_⟩
  have heval : ((start "core" []).run (fun _ => none) lateSeal).map (fun h : Hub =>
      (h.state.projection.baselineComplete, h.state.projection.gap, h.state.projection.cursor,
        h.state.projection.rows.lookup "a",
        decide (∀ n ∈ List.range 3, ((replica h.core ⟨"core", n⟩ 2).lookup "a").isSome))) =
      some (true, false, some ⟨"core", 2⟩, none, true) := by
    decide +kernel
  obtain ⟨h, hrun, hfacts⟩ := map_eq_some_iff.mp heval
  simp only [Prod.mk.injEq, decide_eq_true_eq] at hfacts
  obtain ⟨hcomplete, hgap, hcursor, hrow, hreplica⟩ := hfacts
  refine ⟨h, hrun, hcomplete, hgap, fun hexact => ?_⟩
  obtain ⟨snapshot, cursor, hcursor', -, hsource, hle, hrows⟩ := hexact hcomplete hgap
  obtain rfl : (⟨"core", 2⟩ : LifecycleCursor) = cursor := some.inj (hcursor.symm.trans hcursor')
  obtain ⟨sourceId, n⟩ := snapshot
  obtain rfl : sourceId = "core" := hsource
  have hsome := hreplica n (List.mem_range.mpr (Nat.lt_succ_of_le hle))
  rw [← hrows "a", hrow] at hsome
  cases hsome

def cleanSeal : List Step :=
  recovery ++ [.answerBaseline (.page 1 .rowBudget), .baseline false, .change (.removed "a"),
      .journalPull false, .answerJournal (.page 16), .journalPull false, .projectionApply]

theorem run_projects_replica_clean : Fenced (fun _ => none) (start "core" []) cleanSeal ∧
      (∃ h, (start "core" []).run (fun _ => none) cleanSeal = some h ∧ h.Exact) ∧
      ((start "core" []).run (fun _ => none) cleanSeal).map
        (fun h => (h.state.projection.baselineComplete, h.state.projection.rows.keys)) =
          some (true, ["b"]) :=
  have hfenced : Fenced (fun _ => none) (start "core" []) cleanSeal := by decide +kernel
  ⟨hfenced, run_projects_replica (fun _ => none) "core" [] cleanSeal hfenced, by decide +kernel⟩

end Hub

end BotsterHub.Maintenance
