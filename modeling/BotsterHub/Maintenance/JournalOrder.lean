import BotsterHub.Maintenance.BaselineIntegrity

/-!
The order in which journal changes are applied.

Between two seals, in runs that meet `fenced`, the changes are those of the journal from the
sealed cursor on, each once and in order, and plugins are told of each once. In general a page is
read from the applied cursor while the one before waits, so its changes come twice.
-/

namespace BotsterHub.Maintenance

open List Option MaintenanceState

open Session

variable {parseTraits : String → Option (List String)}

structure Lifecycle.Later (l l' : Lifecycle) : Prop where
  seals : l.seals ≤ l'.seals
  applied : l'.seals = l.seals → l'.sealedAt = l.sealedAt ∧ l.applied <+: l'.applied

namespace Lifecycle.Later

variable {l l' l'' : Lifecycle}

theorem of_same
    (h : (l'.seals, l'.sealedAt, l'.applied) = (l.seals, l.sealedAt, l.applied)) : l.Later l' := by
  simp only [Prod.mk.injEq] at h
  exact ⟨h.1.ge, fun _ => ⟨h.2.1, h.2.2 ▸ prefix_rfl⟩⟩

theorem of_eq (h : l' = l) : l.Later l' := of_same (h ▸ rfl)

theorem of_seal (h : l'.seals = l.seals + 1) : l.Later l' := ⟨by omega, fun heq => by omega⟩

theorem trans (h : l.Later l') (h' : l'.Later l'') : l.Later l'' := by
  refine ⟨h.seals.trans h'.seals, fun heq => ?_⟩
  have hm : l'.seals = l.seals := le_antisymm (h'.seals.trans heq.le) h.seals
  obtain ⟨hs, ha⟩ := h.applied hm
  obtain ⟨hs', ha'⟩ := h'.applied (heq.trans hm.symm)
  exact ⟨hs'.trans hs, ha.trans ha'⟩

end Lifecycle.Later

namespace MaintenanceState

section

variable (st : MaintenanceState)

theorem applyNext_later (c : LifecycleChange) :
    st.lifecycle.Later (applyNext parseTraits st c).lifecycle := by
  have hp : st.lifecycle.applied <+: st.lifecycle.applied ++ [c] := prefix_append ..
  rcases st.applyNext_spec c with hl | hl
  · rw [hl]
    exact ⟨le_rfl, fun _ => ⟨rfl, hp⟩⟩
  · rw [hl]
    exact ⟨le_rfl, fun _ => ⟨rfl, hp⟩⟩

theorem applyLoop_later (n : ℕ) : st.lifecycle.Later (applyLoop parseTraits n st).lifecycle := by
  induction n generalizing st with
  | zero => exact .of_eq rfl
  | succ n ih =>
    unfold applyLoop
    split
    · exact .of_eq rfl
    next c rest _ =>
    have hp : st.lifecycle.Later { st with pendingChanges := rest }.lifecycle := .of_same rfl
    exact (hp.trans (applyNext_later _ c)).trans (ih _)

theorem applyBaselinePageResult_later (a : Finset String)
    (r : Except Core.PageError Core.BaselinePage) :
    st.lifecycle.Later (st.applyBaselinePageResult a r).lifecycle := by
  unfold applyBaselinePageResult
  split
  · split
    · exact .of_same rfl
    · exact .of_same rfl
    · apply Lifecycle.Later.of_seal
      -- the rewind for omitted rows does not touch the history
      unfold completeBaseline startOmittedRowRecover
      dsimp only
      split
      · split
        · rfl
        · split <;> rfl
      · rfl
    · exact .of_same rfl
    · exact .of_same rfl
    · exact .of_same rfl
  · exact .of_same rfl
  · exact .of_same rfl

theorem refreshProjection_later (a : Finset String) :
    st.lifecycle.Later (st.refreshProjectionIfInventoryAhead a).lifecycle := by
  unfold refreshProjectionIfInventoryAhead startOmittedRowRecover
  dsimp only
  split
  · split
    · exact .of_same rfl
    · split <;> exact .of_same rfl
  · exact .of_same rfl

end

end MaintenanceState

namespace Hub

theorem journalPull_later (h : Hub) (refused : Bool) :
    h.state.lifecycle.Later (h.runJournalPullSlice refused).state.lifecycle := by
  unfold runJournalPullSlice
  split
  · next read _ =>
    split
    · exact .of_eq rfl
    · exact .of_eq rfl
    next r _ =>
    rcases h.state.applyJournalPageResult_spec r read.woke with ⟨page, -, -, hl⟩ | hl | hl
    · exact .of_same (by rw [hl])
    · exact .of_eq hl
    · exact .of_same (by rw [hl]; rfl)
  · dsimp only
    split
    · split <;> exact .of_same rfl
    · split <;> split <;> exact .of_same rfl

theorem baseline_later (h : Hub) (r : Bool) :
    h.state.lifecycle.Later (h.runBaselineSlice r).state.lifecycle := by
  unfold runBaselineSlice
  split
  · split
    · exact .of_eq rfl
    · exact .of_eq rfl
    · dsimp only
      split <;> exact h.state.applyBaselinePageResult_later ..
  · split
    · exact .of_eq rfl
    · split <;> exact .of_eq rfl

/-- Between two sealed baselines a step only extends what was applied. -/
theorem step_later {h h' : Hub} {s : Step} (hi : h.state.sessionFamily.Indexed)
    (hs : h.step parseTraits s = some h') : h.state.lifecycle.Later h'.state.lifecycle := by
  cases s with
  | hostBridge t a =>
    obtain ⟨st, l, hst, -, hl, hst'⟩ := h.state.runHostBridgeSlice_spec parseTraits h.installs
      t a hi
    rw [step, hst] at hs
    cases hs
    have hp : h.state.lifecycle.Later l := by
      rcases hl with rfl | ⟨-, rfl⟩
      · exact .of_eq rfl
      · exact .of_same rfl
    refine hp.trans ?_
    rcases hst' with heq | ⟨-, heq⟩
    · exact .of_eq heq
    · exact .of_same (by rw [heq]; rfl)
  | completion =>
    cases hs
    unfold applyPluginCompletion
    dsimp only
    split
    · exact .of_same rfl
    · split <;> exact .of_same rfl
  | observeUnavailable =>
    cases hs
    unfold handleUnavailableObservePass
    split <;> exact .of_same rfl
  | refreshInventory =>
    cases hs
    exact h.state.refreshProjection_later h.acknowledged
  | journalPull r =>
    cases hs
    exact h.journalPull_later r
  | baseline r =>
    cases hs
    exact h.baseline_later r
  | projectionApply =>
    cases hs
    unfold runProjectionApplySlice
    split
    · exact .of_same rfl
    · exact (h.state.applyLoop_later applyMaxChanges).trans (.of_same rfl)
  | change | restart | answerJournal | answerBaseline | journalAdvanced | authoritativeMutation
  | acknowledgeSpawn | noteSpawn | install | uninstall | recover | engineReleased =>
    obtain rfl := some.inj hs; exact .of_same rfl

theorem run_later {h : Hub} (hs : h.Sound parseTraits) (steps : List Step) {rest : List Step}
    (hf : Fenced parseTraits h (steps ++ rest)) :
    ∃ h', h.run parseTraits steps = some h' ∧ h'.Sound parseTraits ∧
      h.state.lifecycle.Later h'.state.lifecycle ∧ Fenced parseTraits h' rest := by
  obtain ⟨h', hrun, hr, hs', hl⟩ := Machine.run_rest
    (I := fun steps h' => Fenced parseTraits h' (steps ++ rest) ∧ h'.Sound parseTraits ∧
      h.state.lifecycle.Later h'.state.lifecycle)
    (fun s steps h₁ hi => by
      obtain ⟨⟨hstep, hr⟩, hs₁, hl⟩ := hi
      obtain ⟨h₂, heq, hs₂⟩ := step_sound hs₁ s hstep
      exact ⟨h₂, heq, hr h₂ heq, hs₂, hl.trans (step_later hs₁.indexed heq)⟩)
    steps h ⟨hf, hs, .of_eq rfl⟩
  exact ⟨h', hrun, hs', hl, hr⟩

/-- The changes applied since the last seal are those of the journal behind the sealed cursor, one
by one, and the queued deltas are theirs; the last may be missing when its queueing started a
recovery. -/
def InOrder (parseTraits : String → Option (List String)) (h : Hub) : Prop :=
  match h.state.history.sealedAt with
  | none => h.state.history.applied = [] ∧ h.state.history.queued = []
  | some snapshot =>
    h.state.history.applied.map (·.cursor.sequence) =
      List.range' (snapshot.sequence + 1) h.state.history.applied.length ∧
    h.state.history.applied = h.core.changesBetween snapshot
      (snapshot.sequence + h.state.history.applied.length) ∧
    h.state.history.queued <+:
      h.state.history.applied.filterMap (FamilyFrame.ofChange parseTraits) ∧
    (h.state.projection.baselineComplete = true → h.state.projection.cursor =
        some ⟨snapshot.sourceId, snapshot.sequence + h.state.history.applied.length⟩ ∧
      h.state.history.queued = h.state.history.applied.filterMap (FamilyFrame.ofChange parseTraits))

def NotBehind (h h' : Hub) : Prop :=
  ∀ cursor ∈ h.state.projection.cursor, ∀ cursor' ∈ h'.state.projection.cursor,
    cursor.sourceId = cursor'.sourceId ∧ cursor.sequence ≤ cursor'.sequence

namespace Sound

variable {h h' : Hub}

theorem cursor (hs : h.Sound parseTraits) {cursor : LifecycleCursor}
    (hc : h.state.projection.cursor = some cursor) :
    ∃ snapshot, h.state.history.sealedAt = some snapshot ∧
      cursor = ⟨snapshot.sourceId, snapshot.sequence + h.state.history.applied.length⟩ ∧
      h.state.history.queued =
        h.state.history.applied.filterMap (FamilyFrame.ofChange parseTraits) := by
  rcases hs.integrity.phase with hi | ⟨recovery, hr⟩ | ⟨snapshot, cursor', received, hl⟩
  · exact absurd (hc.symm.trans hi.cursor) (by simp)
  · exact absurd (hc.symm.trans hr.cursor) (by simp)
  obtain rfl : cursor = cursor' := some.inj (hc.symm.trans hl.cursor_eq)
  refine ⟨snapshot, hl.sealedAt, ?_, hl.queued⟩
  have hh : h.core.Holds ⟨snapshot.sourceId, cursor.sequence⟩ := by
    rw [hl.source]
    exact hl.holds.of_le hl.cursor_le
  have hlength : h.state.history.applied.length = cursor.sequence - snapshot.sequence :=
    (congrArg length hl.applied).trans (Core.length_changesBetween hh)
  rw [hlength, Nat.add_sub_cancel' hl.snapshot_le, hl.source]

theorem inOrder (hs : h.Sound parseTraits) : h.InOrder parseTraits := by
  have hc := hs.integrity.chronicle
  unfold Chronicle at hc
  unfold InOrder
  cases hsealed : h.state.history.sealedAt with
  | none =>
    rw [show h.state.lifecycle.sealedAt = none from hsealed] at hc
    exact hc
  | some snapshot =>
    rw [show h.state.lifecycle.sealedAt = some snapshot from hsealed] at hc
    obtain ⟨n, hle, hh, ha, hq⟩ := hc
    have ha : h.state.history.applied = h.core.changesBetween snapshot n := ha
    have hl : h.state.history.applied.length = n - snapshot.sequence := by
      rw [ha, Core.length_changesBetween hh]
    refine ⟨?_, ?_, hq, fun hcomplete => ?_⟩
    · rw [ha]
      exact h.core.sequence_changesBetween snapshot n
    · rw [hl, Nat.add_sub_cancel' hle]
      exact ha
    obtain ⟨c, hcursor⟩ : ∃ c, h.state.projection.cursor = some c := by
      rcases hs.integrity.phase with hi | ⟨recovery, hr⟩ | ⟨snapshot, c, received, hlive⟩
      · exact absurd (hcomplete.symm.trans hi.incomplete) (by decide)
      · exact absurd (hcomplete.symm.trans hr.incomplete) (by decide)
      · exact ⟨c, hlive.cursor_eq⟩
    obtain ⟨snapshot', hsealed', rfl, hq'⟩ := hs.cursor hcursor
    obtain rfl : snapshot = snapshot' := some.inj (hsealed.symm.trans hsealed')
    exact ⟨hcursor, hq'⟩

theorem notBehind (hs : h.Sound parseTraits) (hs' : h'.Sound parseTraits)
    (hl : h.state.lifecycle.Later h'.state.lifecycle)
    (hseals : h'.state.history.seals = h.state.history.seals) : h.NotBehind h' := by
  intro cursor hc cursor' hc'
  obtain ⟨snapshot, hsealed, rfl, -⟩ := hs.cursor hc
  obtain ⟨snapshot', hsealed', rfl, -⟩ := hs'.cursor hc'
  obtain ⟨hsame, ha⟩ := hl.applied hseals
  obtain rfl : snapshot' = snapshot := some.inj (hsealed'.symm.trans (hsame.trans hsealed))
  exact ⟨rfl, Nat.add_le_add_left ha.length_le _⟩

end Sound

/-- In every run that meets the condition, from any state `h` on to any `h'`: between two seals the
applied changes are numbered one by one from the sealed cursor, their deltas are queued once and in
order, and the cursor does not move backwards. -/
theorem run_applies_in_order (parseTraits : String → Option (List String)) (source : String)
    (base : List LifecycleRecord) (steps steps' : List Step)
    (hfenced : Fenced parseTraits (start source base) (steps ++ steps')) :
    ∃ h h', (start source base).run parseTraits steps = some h ∧
      h.run parseTraits steps' = some h' ∧ h'.InOrder parseTraits ∧
      (h'.state.history.seals = h.state.history.seals → h.NotBehind h') := by
  obtain ⟨h, hrun, hs, -, hrest⟩ := run_later (sound_start source base) steps hfenced
  obtain ⟨h', hrun', hs', hlater, -⟩ := run_later hs steps' (by rwa [append_nil])
  exact ⟨h, h', hrun, hrun', hs'.inOrder, hs.notBehind hs' hlater⟩

def repeated : List Step :=
  [.recover, .hostBridge none .queued, .baseline false, .answerBaseline (.page 8 .rowBudget),
    .baseline false, .change (.upsert (session "a")), .change (.removed "a"), .journalPull false,
    .answerJournal (.page 8), .journalPull false, .journalPull false, .projectionApply,
    .answerJournal (.page 8), .journalPull false, .projectionApply]

/-- Every slice is one that the owner would schedule, and no row is omitted. -/
theorem page_applied_twice :
    Machine.Along (step fun _ => none) (fun h s => h.ready s = true) (start "core" []) repeated ∧
      ∃ h, (start "core" []).run (fun _ => none) repeated = some h ∧
        h.state.history.sealedAt = some ⟨"core", 0⟩ ∧
        h.state.history.applied.map (·.cursor.sequence) = [1, 2, 1, 2] ∧
        ¬h.InOrder fun _ => none := by
  refine ⟨by decide +kernel, ?_⟩
  have heval : ((start "core" []).run (fun _ => none) repeated).map (fun h : Hub =>
      (h.state.history.sealedAt, h.state.history.applied.map (·.cursor.sequence))) =
      some (some ⟨"core", 0⟩, [1, 2, 1, 2]) := by
    decide +kernel
  obtain ⟨h, hrun, hfacts⟩ := map_eq_some_iff.mp heval
  obtain ⟨hsealed, happlied⟩ := Prod.mk.inj hfacts
  refine ⟨h, hrun, hsealed, happlied, fun hinOrder => ?_⟩
  rw [InOrder, hsealed] at hinOrder
  have hlength : h.state.history.applied.length = 4 := by simpa using congrArg length happlied
  have hsequence := hinOrder.1
  rw [happlied, hlength] at hsequence
  exact absurd hsequence (by decide)

def paced : List Step :=
  [.recover, .hostBridge none .queued, .baseline false, .answerBaseline (.page 8 .rowBudget),
    .baseline false, .change (.upsert (session "a")), .change (.removed "a"), .journalPull false,
    .answerJournal (.page 1), .journalPull false, .projectionApply]

def pacedRest : List Step :=
  [.journalPull false, .answerJournal (.page 8), .journalPull false, .projectionApply]

theorem run_applies_in_order_paced : Fenced (fun _ => none) (start "core" []) (paced ++ pacedRest) ∧
      (∃ h h', (start "core" []).run (fun _ => none) paced = some h ∧
        h.run (fun _ => none) pacedRest = some h' ∧ h'.InOrder (fun _ => none) ∧
        (h'.state.history.seals = h.state.history.seals → h.NotBehind h')) ∧
      ((start "core" []).run (fun _ => none) (paced ++ pacedRest)).map
        (fun h => h.state.history.applied.map (·.cursor.sequence)) = some [1, 2] :=
  have hfenced : Fenced (fun _ => none) (start "core" []) (paced ++ pacedRest) := by decide +kernel
  ⟨hfenced, run_applies_in_order (fun _ => none) "core" [] paced pacedRest hfenced,
    by decide +kernel⟩

end Hub

end BotsterHub.Maintenance
