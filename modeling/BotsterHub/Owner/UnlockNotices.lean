import BotsterHub.Lib.NoticeLock

/-!
The two locks that the owner loop shares with workers: the causal scope table and the entity
publish bridge. Both lose a notification in the same race: a worker that has cleared the blocked
mark takes the interest which the owner registers after a second worker has got the lock. The
owner then finds its own mark and waits without an interest.
-/

namespace BotsterHub.Owner

open NoticeLock

/-- `CausalScopeTable`: `apply_blocked`, `unlock_interest` and `progress_pending`.
`try_apply_or_wait` loads the mark and calls `causal_lock`, which clears it when its second attempt
gets the lock. -/
def causalScopeTable : Config where
  counts := false
  clearsOnRetry := true

/-- `HubEntityPublishBridge`: `enqueue` and `try_retract` change the count of pending requests.
`take_if` loads the count and the mark; its second attempt leaves the mark to the notice. -/
def entityPublishBridge : Config where
  counts := true
  clearsOnRetry := false

variable {s : State}

/-- An owner that waits for the scope table while nobody holds its lock has been notified, provided
every interest was registered in time. -/
theorem causal_waiting_notified (as : List NoticeLock.Step) (h : run causalScopeTable as = some s)
    (htimely : Machine.Along (step causalScopeTable) Timely {} as) (hwaiting : s.pc = .waiting)
    (hquiet : s.Quiet) : s.progress = true :=
  (Told.run h htimely).progress_of_waiting hquiet hwaiting

/-- The same of the publish bridge, where the owner also rests on a count that it read as zero. -/
theorem publish_sleep_notified (as : List NoticeLock.Step) (h : run entityPublishBridge as = some s)
    (htimely : Machine.Along (step entityPublishBridge) Timely {} as)
    (hasleep : s.pc = .waiting ∨ s.pc = .resting ∧ s.count ≠ 0) (hquiet : s.Quiet) :
    s.progress = true := by
  have htold := Told.run h htimely
  obtain hwaiting | ⟨hresting, hcount⟩ := hasleep
  · exact htold.progress_of_waiting hquiet hwaiting
  · exact htold.progress_of_resting hquiet hresting hcount

def armSteps : List NoticeLock.Step :=
  [.loadCount, .loadBlocked, .tryLock, .storeBlocked, .storeInterest]

def noticeSteps (n : Notice) : List NoticeLock.Step :=
  [.clearBlocked n, .swapInterest n, .publish n]

def contendedSteps : List NoticeLock.Step :=
  [.lock] ++ armSteps ++ [.retry, .unlock] ++ noticeSteps { owner := false }

theorem causal_waiting_notified_contended : ∃ s, run causalScopeTable contendedSteps = some s ∧
      Machine.Along (step causalScopeTable) Timely {} contendedSteps ∧
      s.pc = .waiting ∧ s.Quiet ∧ s.progress = true :=
  ⟨_, rfl, by decide, rfl, by decide,
    causal_waiting_notified contendedSteps rfl (by decide) rfl (by decide)⟩

def overtakenSteps (n : Notice) : List NoticeLock.Step :=
  [.unlock, .clearBlocked n, .lock] ++ armSteps ++
    [.swapInterest n, .publish n, .retry, .takeProgress, .loadCount, .loadBlocked, .unlock,
      .clearBlocked { owner := false }, .swapInterest { owner := false }]

/-- The interest comes too late, and the owner waits on a free lock without a notification. -/
theorem causal_notification_lost :
    ∃ s, run causalScopeTable (.lock :: overtakenSteps { owner := false }) = some s ∧
      s.pc = .waiting ∧ s.Quiet ∧ s.progress = false :=
  ⟨_, rfl, rfl, by decide, rfl⟩

def queuedSteps : List NoticeLock.Step :=
  [.loadCount, .lock, .change 1, .unlock] ++ noticeSteps { owner := false, changed := true }

theorem publish_sleep_notified_queued : ∃ s, run entityPublishBridge queuedSteps = some s ∧
      Machine.Along (step entityPublishBridge) Timely {} queuedSteps ∧
      s.pc = .resting ∧ s.count = 1 ∧ s.Quiet ∧ s.progress = true :=
  ⟨_, rfl, by decide, rfl, rfl, by decide, publish_sleep_notified queuedSteps rfl (by decide)
    (.inr ⟨rfl, by decide⟩) (by decide)⟩

/-- The second worker is one whose request is refused. -/
theorem publish_notification_lost : ∃ s, run entityPublishBridge
        ([.lock, .change 1] ++ overtakenSteps { owner := false, changed := true }) = some s ∧
      s.pc = .waiting ∧ s.count = 1 ∧ s.Quiet ∧ s.progress = false :=
  ⟨_, rfl, rfl, rfl, by decide, rfl⟩

end BotsterHub.Owner
