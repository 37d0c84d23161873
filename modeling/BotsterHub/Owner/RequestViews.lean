import BotsterHub.Owner.Requests

/-!
What the owner keeps for one waiter.

Every operation works on one waiter and leaves the views of the others alone. A waiter is unused,
a pending request, an obligation, or a request that ended; one retired through its hook may go on
as an obligation.
-/

namespace BotsterHub.Owner

open List Option AList ReadyQueues

structure View where
  admitted : ℕ
  pending : Option PendingControlRequest
  obligation : Option CleanupObligation
  row : Option (QueuedReady ReadyReason)
  deadline : Option DeadlineState
  completion : Option ℕ
  ended : List Ended
  handed : ℕ
  hooks : ℕ

namespace View

def empty : View := ⟨0, none, none, none, none, none, [], 0, 0⟩

def replies (entry : PendingControlRequest) : ℕ := if entry.replyOwned then 0 else 1

def Retained (ended : List Ended) : Prop :=
  ∀ last ∈ ended, last.ending.isRetired = true ∧ last.entry.retire = some .retainOperation

/-- What holds of a waiter at any time. `tidy`: no status delivery leaves a Host completion behind.
-/
structure Sound (tidy : Prop) (v : View) (waiterId : ℕ) : Prop where
  admitted : v.admitted = v.pending.elim 0 (fun _ => 1) + v.ended.length
  once : v.admitted ≤ 1
  apart : v.pending.isSome → v.obligation = none
  row : ∀ row ∈ v.row, row.key.waiterId = waiterId ∧
    (v.obligation = none → ∃ entry ∈ v.pending, entry.readyKey = some row.key)
  keyed : ∀ entry ∈ v.pending, ∀ key ∈ entry.readyKey, key.waiterId = waiterId
  kept : v.obligation.isSome → Retained v.ended
  deadline : v.deadline.isSome → v.pending.isSome ∨ v.obligation.isSome
  completion : tidy → v.completion.isSome → v.pending.isSome
  unused : v.pending = none → v.ended = [] → v.handed = 0
  owned : ∀ entry ∈ v.pending, v.handed = replies entry
  closed : ∀ ended ∈ v.ended, v.handed = replies ended.entry
  hooks : v.hooks ≤ (v.ended.filter fun ended => ended.ending.isRetired).length
  retired : ∀ ended ∈ v.ended, ended.ending.isRetired = true → ended.entry.mustFinish = false

variable {tidy : Prop} {v : View} {waiterId : ℕ} {entry : PendingControlRequest}

theorem sound_empty (waiterId : ℕ) : empty.Sound tidy waiterId :=
  { admitted := rfl, once := Nat.zero_le _, apart := fun _ => rfl
    row := fun _ h => absurd h (not_mem_none _)
    keyed := fun _ h => absurd h (not_mem_none _)
    kept := fun h => absurd h Bool.false_ne_true
    deadline := fun h => absurd h Bool.false_ne_true
    completion := fun _ h => absurd h Bool.false_ne_true
    unused := fun _ _ => rfl
    owned := fun _ h => absurd h (not_mem_none _)
    closed := fun _ h => absurd h not_mem_nil
    hooks := le_rfl, retired := fun _ h => absurd h not_mem_nil }

theorem sound_given (hk : entry.readyKey = none) (howned : entry.replyOwned = true)
    (deadline : Option DeadlineState) :
    { empty with admitted := 1, pending := some entry, deadline }.Sound tidy waiterId :=
  { admitted := rfl, once := le_rfl, apart := fun _ => rfl
    row := fun _ hrow => absurd hrow (not_mem_none _)
    keyed := fun other ho key hr => by
      cases ho
      rw [hk] at hr
      cases hr
    kept := fun h => absurd h Bool.false_ne_true
    deadline := fun _ => .inl rfl
    completion := fun _ _ => rfl
    unused := nofun
    owned := fun other ho => by
      cases ho
      rw [replies, if_pos howned]
      rfl
    closed := fun _ h => absurd h not_mem_nil
    hooks := le_rfl, retired := fun _ h => absurd h not_mem_nil }

def markPending (key : ReadyKey) (reason : ReadyReason) (v : View) : View :=
  match v.pending with
  | none => v
  | some entry =>
    { v with
      pending := some { entry with readyKey := some key }
      row := some (ReadyQueues.marked v.row key {reason}) }

def markObligation (key : ReadyKey) (reason : ReadyReason) (v : View) : View :=
  match v.obligation with
  | none => v
  | some obligation =>
    { v with
      obligation := some { obligation with readyKey := some key }
      row := some (ReadyQueues.marked v.row key {reason}) }

def retain (key : ReadyKey) (deadline : ℕ) (v : View) : View :=
  markObligation key .initial
    { v with
      deadline := some ⟨some deadline, none⟩
      obligation := some ⟨none, some deadline, 0, false⟩ }

section

variable (h : v.Sound tidy waiterId)

include h

section

variable (hen : v.pending = some entry)
include hen

theorem Sound.ended_of_pending : v.ended = [] := by
  have ha := h.admitted
  rw [hen] at ha
  have ho : 1 + v.ended.length ≤ 1 := ha ▸ h.once
  exact eq_nil_of_length_eq_zero (by omega)

theorem Sound.row_key : ∀ row ∈ v.row,
    row.key.waiterId = waiterId ∧ (v.obligation = none → entry.readyKey = some row.key) := by
  intro row hrow
  obtain ⟨hid, hrest⟩ := h.row row hrow
  refine ⟨hid, fun hn => ?_⟩
  obtain ⟨other, ho, hr⟩ := hrest hn
  rw [hen] at ho
  rw [some.inj ho, hr]

variable {entry' : PendingControlRequest}

theorem Sound.stay {row' : Option (QueuedReady ReadyReason)} {handed : ℕ}
    (hrow : ∀ row ∈ row', row.key.waiterId = waiterId ∧
      (v.obligation = none → entry'.readyKey = some row.key))
    (hk : ∀ key ∈ entry'.readyKey, key.waiterId = waiterId) (hh : handed = replies entry') :
    { v with pending := some entry', row := row', handed }.Sound tidy waiterId :=
  { h with
    admitted := by rw [h.admitted, hen]; rfl
    apart := fun _ => h.apart (by rw [hen]; rfl)
    row := fun row hm => (hrow row hm).imp_right fun hr hn => ⟨entry', rfl, hr hn⟩
    keyed := fun other ho => by
      cases ho
      exact hk
    deadline := fun _ => .inl rfl
    completion := fun _ _ => rfl
    unused := nofun
    owned := fun other ho => by
      cases ho
      exact hh
    closed := fun e he => by
      have hm : e ∈ v.ended := he
      rw [h.ended_of_pending hen] at hm
      exact absurd hm not_mem_nil }

theorem Sound.setEntry (hr : entry'.replyOwned = entry.replyOwned)
    (hk : entry'.readyKey = entry.readyKey) :
    { v with pending := some entry' }.Sound tidy waiterId :=
  h.stay hen (hk ▸ h.row_key hen) (hk ▸ h.keyed entry hen)
    (by rw [h.owned entry hen, replies, replies, hr])

theorem Sound.serve :
    ({ v with pending := some { entry with readyKey := none }, row := none } : View).Sound tidy
      waiterId :=
  h.stay hen nofun nofun (h.owned entry hen)

end

variable {key : ReadyKey}

theorem Sound.markPending (hk : key.waiterId = waiterId) (r : ReadyReason) :
    (v.markPending key r).Sound tidy waiterId := by
  unfold View.markPending
  split
  · exact h
  next entry hen =>
  refine h.stay hen (fun row hr => ?_) (fun other ho => ?_) (h.owned entry hen)
  · cases hr
    exact ⟨hk, fun _ => rfl⟩
  · exact some.inj ho ▸ hk

theorem Sound.markObligation (hk : key.waiterId = waiterId) (r : ReadyReason) :
    (v.markObligation key r).Sound tidy waiterId := by
  unfold View.markObligation
  split
  · exact h
  next ho =>
  exact { h with
    apart := fun hs => by
      have hn := h.apart hs
      rw [ho] at hn
      cases hn
    row := fun row hr => by
      cases hr
      exact ⟨hk, nofun⟩
    kept := fun _ => h.kept (by rw [ho]; rfl)
    deadline := fun _ => .inr rfl }

variable {deadline : Option DeadlineState}

theorem Sound.setObligation (hp : v.pending = none)
    (hk : Retained v.ended) (obligation : CleanupObligation) :
    { v with obligation := some obligation, deadline }.Sound tidy waiterId :=
  { h with
    apart := fun hs => by rw [hp] at hs; cases hs
    row := fun row hr => ⟨(h.row row hr).1, nofun⟩
    kept := fun _ => hk
    deadline := fun _ => .inr rfl }

theorem Sound.serveObligation (hp : v.pending = none) {obligation : Option CleanupObligation}
    (hk : obligation.isSome → Retained v.ended)
    (hd : deadline.isSome → obligation.isSome) :
    { v with row := none, obligation, deadline }.Sound tidy waiterId :=
  { h with
    apart := fun hs => by rw [hp] at hs; cases hs
    row := fun _ hr => absurd hr (not_mem_none _)
    kept := hk
    deadline := fun hs => .inr (hd hs) }

theorem Sound.retain (hp : v.pending = none)
    (hk : Retained v.ended) (hkey : key.waiterId = waiterId) (deadline : ℕ) :
    (v.retain key deadline).Sound tidy waiterId :=
  (h.setObligation hp hk _).markObligation hkey .initial

end

section

variable (h : { v with pending := some entry }.Sound tidy waiterId)
include h

theorem Sound.handReply (ho : entry.replyOwned = true) :
    { v with pending := some entry.withoutReply, handed := v.handed + 1 }.Sound tidy
      waiterId := by
  have hn : v.handed = 0 := by
    have := h.owned entry rfl
    rw [replies, if_pos ho] at this
    exact this
  have hr := h.row_key rfl
  exact h.stay rfl hr (h.keyed entry rfl) (congrArg (· + 1) hn)

theorem Sound.close (ended : Ended) {handed : ℕ} {completion : Option ℕ}
    (hc : tidy → completion = none) (hh : handed = replies ended.entry)
    (hr : ended.ending.isRetired = true → ended.entry.mustFinish = false) :
    ({ v with
      pending := none, row := none, deadline := none, completion, handed
      ended := ended :: v.ended } : View).Sound tidy waiterId := by
  have hn : v.ended = [] := h.ended_of_pending rfl
  have hhooks : v.hooks ≤ 0 := by
    have := h.hooks
    rw [hn] at this
    exact this
  have hone : v.admitted = 1 := by
    have := h.admitted
    rw [hn] at this
    exact this
  rw [hn]
  exact
    { admitted := hone, once := hone.le, apart := nofun
      row := fun _ hrow => absurd hrow (not_mem_none _)
      keyed := fun _ hm => absurd hm (not_mem_none _)
      kept := fun hs => by
        rw [show v.obligation = none from h.apart rfl] at hs
        cases hs
      deadline := fun hd => absurd hd Bool.false_ne_true
      completion := fun ht hs => by
        rw [hc ht] at hs
        cases hs
      unused := fun _ => nofun
      owned := fun _ hm => absurd hm (not_mem_none _)
      closed := fun other ho => by
        obtain rfl := mem_singleton.mp ho
        exact hh
      hooks := hhooks.trans (Nat.zero_le _)
      retired := fun other ho => by
        obtain rfl := mem_singleton.mp ho
        exact hr }

end

theorem Sound.runHook (h : v.Sound tidy waiterId) (e : Ended) (he : v.ended = [e])
    (hr : e.ending.isRetired = true) (hh : v.hooks = 0) :
    { v with hooks := v.hooks + 1 }.Sound tidy waiterId := by
  refine { h with hooks := ?_ }
  rw [he, hh, filter_cons, if_pos hr]
  exact le_refl 1

end View

namespace ControlState

variable {tidy : Prop} {past : List Ended} {s s' : ControlState} {waiterId other : ℕ}
  {entry : PendingControlRequest} {f : View → View}

def view (s : ControlState) (waiterId : ℕ) : View :=
  { admitted := s.admitted.count waiterId
    pending := s.pendingRequests.lookup waiterId
    obligation := s.budget.obligations.lookup waiterId
    row := s.ownerReady.queued.lookup waiterId
    deadline := s.deadlines.states.lookup waiterId
    completion := s.hostCompletions.lookup waiterId
    ended := s.ended.filter fun ended => ended.waiterId = waiterId
    handed := s.handed.count waiterId
    hooks := s.hooks.count waiterId }

structure Touches (waiterId : ℕ) (f : View → View) (s s' : ControlState) : Prop where
  self : s'.view waiterId = f (s.view waiterId)
  others : ∀ other, other ≠ waiterId → s'.view other = s.view other
  nextWaiter : s'.nextWaiter = s.nextWaiter
  halted : s'.halted = s.halted
  history : s.ended <:+ s'.ended

theorem touches_of_view (hv : ∀ other, s'.view other =
      if other = waiterId then f (s.view other) else s.view other)
    (hn : s'.nextWaiter = s.nextWaiter) (hh : s'.halted = s.halted) (he : s.ended <:+ s'.ended) :
    Touches waiterId f s s' :=
  ⟨(hv waiterId).trans (if_pos rfl), fun other hne => (hv other).trans (if_neg hne), hn, hh, he⟩

structure Sound (tidy : Prop) (past : List Ended) (s : ControlState) : Prop where
  waiter : ∀ waiterId, (s.view waiterId).Sound tidy waiterId
  fresh : ∀ waiterId, s.nextWaiter ≤ waiterId → s.view waiterId = .empty
  running : s.halted = false
  history : past <:+ s.ended

theorem Sound.used (h : Sound tidy past s) (hv : s.view waiterId ≠ .empty) :
    waiterId < s.nextWaiter :=
  Nat.lt_of_not_le fun hle => hv (h.fresh waiterId hle)

theorem Sound.touch (h : Sound tidy past s) (ht : Touches waiterId f s s')
    (hs : (f (s.view waiterId)).Sound tidy waiterId)
    (he : s.nextWaiter ≤ waiterId → f .empty = .empty) : Sound tidy past s' where
  waiter other := by
    by_cases heq : other = waiterId
    · rw [heq, ht.self]
      exact hs
    · rw [ht.others other heq]
      exact h.waiter other
  fresh other hle := by
    rw [ht.nextWaiter] at hle
    by_cases heq : other = waiterId
    · rw [heq] at hle
      rw [heq, ht.self, h.fresh waiterId hle]
      exact he hle
    · rw [ht.others other heq]
      exact h.fresh other hle
  running := ht.halted.trans h.running
  history := h.history.trans ht.history

theorem Sound.congr (h : Sound tidy past s) (hv : ∀ waiterId, s'.view waiterId = s.view waiterId)
    (hn : s'.nextWaiter = s.nextWaiter) (hh : s'.halted = s.halted)
    (he : s'.ended = s.ended) : Sound tidy past s' where
  waiter waiterId := by
    rw [hv]
    exact h.waiter waiterId
  fresh waiterId hle := by
    rw [hv]
    exact h.fresh waiterId (hn ▸ hle)
  running := hh.trans h.running
  history := he ▸ h.history

theorem view_putBack_self (s : ControlState) (waiterId : ℕ) (entry : PendingControlRequest) :
    (s.putBack waiterId entry).view waiterId = { s.view waiterId with pending := some entry } := by
  unfold view putBack
  rw [lookup_insert_eq, if_pos rfl]

theorem view_putBack_of_ne (s : ControlState) (entry : PendingControlRequest)
    (hne : other ≠ waiterId) : (s.putBack waiterId entry).view other = s.view other := by
  unfold view putBack
  rw [lookup_insert_eq, if_neg hne]

structure Away (tidy : Prop) (past : List Ended) (s : ControlState) (waiterId : ℕ)
    (entry : PendingControlRequest) : Prop where
  gone : (s.view waiterId).pending = none
  sound : Sound tidy past (s.putBack waiterId entry)

section

variable (h : Away tidy past s waiterId entry)

include h

theorem Away.here :
    ({ s.view waiterId with pending := some entry } : View).Sound tidy waiterId := by
  rw [← view_putBack_self]
  exact h.sound.waiter waiterId

theorem Away.used : waiterId < s.nextWaiter := by
  refine h.sound.used fun he => ?_
  rw [view_putBack_self] at he
  exact some_ne_none _ (congrArg View.pending he)

theorem Away.others (hne : other ≠ waiterId) : (s.view other).Sound tidy other := by
  rw [← view_putBack_of_ne s entry hne]
  exact h.sound.waiter other

theorem Away.settle (ht : Touches waiterId f s s')
    (hs : (f (s.view waiterId)).Sound tidy waiterId) : Sound tidy past s' where
  waiter other := by
    by_cases heq : other = waiterId
    · rw [heq, ht.self]
      exact hs
    · rw [ht.others other heq]
      exact h.others heq
  fresh other hle := by
    rw [ht.nextWaiter] at hle
    have hne : other ≠ waiterId := fun heq => absurd h.used (Nat.not_lt.mpr (heq ▸ hle))
    rw [ht.others other hne, ← view_putBack_of_ne s entry hne]
    exact h.sound.fresh other hle
  running := ht.halted.trans h.sound.running
  history := h.sound.history.trans ht.history

theorem Away.keep (ht : Touches waiterId f s s') (hg : (f (s.view waiterId)).pending = none)
    (hs : ({ f (s.view waiterId) with pending := some entry' } : View).Sound tidy waiterId) :
    Away tidy past s' waiterId entry' where
  gone := by rw [ht.self]; exact hg
  sound := by
    refine h.settle (f := fun v => { f v with pending := some entry' }) ⟨?_, fun other hne => ?_,
      ht.nextWaiter, ht.halted, ht.history⟩ hs
    · rw [view_putBack_self, ht.self]
    · rw [view_putBack_of_ne _ _ hne]
      exact ht.others other hne

theorem Away.touch (hne : other ≠ waiterId)
    (ht : Touches other f s s') (hs : (f (s.view other)).Sound tidy other)
    (he : s.nextWaiter ≤ other → f .empty = .empty) : Away tidy past s' waiterId entry where
  gone := by
    rw [ht.others waiterId hne.symm]
    exact h.gone
  sound := by
    have htouch : Touches other f (s.putBack waiterId entry) (s'.putBack waiterId entry) := by
      refine ⟨?_, fun t hthird => ?_, ht.nextWaiter, ht.halted, ht.history⟩
      · rw [view_putBack_of_ne _ _ hne, view_putBack_of_ne _ _ hne]
        exact ht.self
      by_cases heq : t = waiterId
      · rw [heq, view_putBack_self, view_putBack_self, ht.others waiterId hne.symm]
      · rw [view_putBack_of_ne _ _ heq, view_putBack_of_ne _ _ heq]
        exact ht.others t hthird
    refine h.sound.touch htouch ?_ he
    rw [view_putBack_of_ne _ _ hne]
    exact hs

end

theorem Sound.away (h : Sound tidy past s) (hen : s.pendingRequests.lookup waiterId = some entry) :
    Away tidy past { s with pendingRequests := s.pendingRequests.erase waiterId } waiterId
      entry where
  gone := by
    show (s.pendingRequests.erase waiterId).lookup waiterId = none
    rw [lookup_erase_eq, if_pos rfl]
  sound := by
    refine h.congr (fun other => ?_) rfl rfl rfl
    unfold view putBack
    rw [lookup_insert_eq, lookup_erase_eq]
    split
    · next heq => rw [heq, hen]
    · rfl

def markKey (s : ControlState) (waiterId : ℕ) (readyClass : ReadyClass) (reason : ReadyReason) :
    ReadyKey :=
  (s.ownerReady.mark waiterId readyClass {reason}).1

theorem waiterId_markKey (h : (s.view waiterId).Sound tidy waiterId) (r : ReadyClass)
    (reason : ReadyReason) : (s.markKey waiterId r reason).waiterId = waiterId :=
  waiterId_mark (fun row hr => (h.row row hr).1) r {reason}

section

variable (s : ControlState)

theorem markOwnerReady_eq (waiterId : ℕ) (r : ReadyClass)
    (reason : ReadyReason) : ∃ pendingRequests ownerReady,
      s.markOwnerReady waiterId r reason = { s with pendingRequests, ownerReady } := by
  unfold markOwnerReady
  split <;> exact ⟨_, _, rfl⟩

theorem wakeShutdownWaiter_eq : ∃ pendingRequests ownerReady,
    s.wakeShutdownWaiter = { s with pendingRequests, ownerReady } := by
  unfold wakeShutdownWaiter
  split
  · exact s.markOwnerReady_eq ..
  · exact ⟨_, _, rfl⟩

theorem retainOwnerObligation_eq (waiterId now : ℕ) :
    ∃ ownerReady deadlines obligations halted, s.retainOwnerObligation waiterId now =
      { s with ownerReady, deadlines, halted, budget.obligations := obligations } := by
  unfold retainOwnerObligation markObligationReady
  split
  · exact ⟨_, _, _, _, rfl⟩
  · split <;> exact ⟨_, _, _, _, rfl⟩

theorem runHook_eq (waiterId : ℕ) (hook : Option RetireHook) (now : ℕ) :
    ∃ ownerReady deadlines obligations halted hooks, s.runHook waiterId hook now =
      { s with ownerReady, deadlines, halted, hooks, budget.obligations := obligations } := by
  unfold runHook
  split
  · exact ⟨_, _, _, _, _, rfl⟩
  · exact ⟨_, _, _, _, _, rfl⟩
  obtain ⟨_, _, _, _, hr⟩ := retainOwnerObligation_eq
    { s with hooks := waiterId :: s.hooks } waiterId now
  exact ⟨_, _, _, _, _, hr⟩

theorem touches_markOwnerReady (waiterId : ℕ) (r : ReadyClass) (reason : ReadyReason) :
    Touches waiterId (View.markPending (s.markKey waiterId r reason) reason) s
      (s.markOwnerReady waiterId r reason) := by
  unfold markOwnerReady View.markPending
  cases hen : s.pendingRequests.lookup waiterId with
  | none =>
    refine touches_of_view (fun other => ?_) rfl rfl suffix_rfl
    rcases eq_or_ne other waiterId with rfl | hne <;> simp [view, *]
  | some entry =>
    refine touches_of_view (fun other => ?_) rfl rfl suffix_rfl
    rcases eq_or_ne other waiterId with rfl | hne <;> simp [view, lookup_mark, markKey, *]

theorem touches_markObligationReady (waiterId : ℕ) (r : ReadyReason) :
    Touches waiterId (View.markObligation (s.markKey waiterId .cleanup r) r) s
      (s.markObligationReady waiterId r) := by
  unfold markObligationReady View.markObligation
  cases ho : s.budget.obligations.lookup waiterId with
  | none =>
    refine touches_of_view (fun other => ?_) rfl rfl suffix_rfl
    rcases eq_or_ne other waiterId with rfl | hne <;> simp [view, *]
  | some o =>
    refine touches_of_view (fun other => ?_) rfl rfl suffix_rfl
    rcases eq_or_ne other waiterId with rfl | hne <;> simp [view, lookup_mark, markKey, *]

end

theorem Sound.markOwnerReady (h : Sound tidy past s) (waiterId : ℕ) (r : ReadyClass)
    (reason : ReadyReason) : Sound tidy past (s.markOwnerReady waiterId r reason) :=
  h.touch (touches_markOwnerReady s waiterId r reason)
    ((h.waiter waiterId).markPending (waiterId_markKey (h.waiter waiterId) _ _) reason) fun _ => rfl

theorem Sound.markObligationReady (h : Sound tidy past s) (waiterId : ℕ) (r : ReadyReason) :
    Sound tidy past (s.markObligationReady waiterId r) :=
  h.touch (touches_markObligationReady s waiterId r)
    ((h.waiter waiterId).markObligation (waiterId_markKey (h.waiter waiterId) _ _) r) fun _ => rfl

theorem Away.markOwnerReady (h : Away tidy past s waiterId entry) (other : ℕ)
    (r : ReadyClass) (reason : ReadyReason) :
    Away tidy past (s.markOwnerReady other r reason) waiterId entry := by
  by_cases hne : other = waiterId
  · have hg : s.pendingRequests.lookup other = none := hne ▸ h.gone
    unfold ControlState.markOwnerReady
    rw [hg]
    exact h
  · exact h.touch hne (touches_markOwnerReady s other r reason)
      ((h.others hne).markPending (waiterId_markKey (h.others hne) _ _) reason) fun _ => rfl

theorem Sound.wakeShutdownWaiter (h : Sound tidy past s) :
    Sound tidy past s.wakeShutdownWaiter := by
  unfold ControlState.wakeShutdownWaiter
  split
  · exact h.markOwnerReady ..
  · exact h

theorem touches_retainOwnerObligation (hd : (s.view waiterId).deadline = none) (now : ℕ) :
    Touches waiterId (View.retain (s.markKey waiterId .cleanup .initial)
      (now + retainedOperationDeadline)) s (s.retainOwnerObligation waiterId now) := by
  unfold retainOwnerObligation
  rw [DeadlineIndex.arm_of_none hd]
  have hm := touches_markObligationReady
    { s with
      deadlines := ⟨s.deadlines.states.insert waiterId
        ⟨some (now + retainedOperationDeadline), none⟩⟩
      budget.obligations := s.budget.obligations.insert waiterId
        ⟨none, some (now + retainedOperationDeadline), 0, false⟩ } waiterId .initial
  refine ⟨?_, fun other hne => ?_, hm.nextWaiter, hm.halted, hm.history⟩
  · rw [hm.self]
    unfold view
    rw [lookup_insert_eq, if_pos rfl, lookup_insert_eq, if_pos rfl]
    rfl
  · rw [hm.others other hne]
    unfold view
    rw [lookup_insert_eq, if_neg hne, lookup_insert_eq, if_neg hne]

end ControlState

end BotsterHub.Owner
