import BotsterHub.Subscription.EventMailbox

/-!
The residency ledger of a connection, and what it leaves of a subscription's reserve. A reclaimed
mailbox is empty for good, so a step of an old mailbox cannot reach the entry of a newer
subscription under the same id.
-/

namespace BotsterHub.Subscription

open List Option AList ClientEventConnection

namespace ClientEventConnection

def queuedIn (m : ClientEventMailbox) : ℕ × ℕ :=
  (m.events.length, (m.events.map QueuedClientEvent.size).sum)

def resident (s : ClientEventConnection) : ℕ × ℕ := (s.events, s.bytes)

structure Filed (s : ClientEventConnection) (n : ℕ) (m : ClientEventMailbox) : Prop where
  numbered : n < s.nextMailbox
  bytes_eq : m.bytes = (queuedIn m).2
  live : m.reclaimed = false → s.slots.lookup m.subscriptionId = some n ∧
    s.subscriptions.lookup m.subscriptionId = some (queuedIn m)
  freed : m.reclaimed = true → m.retired = true ∧ m.events = []

structure Ledger (s : ClientEventConnection) : Prop where
  filed : ∀ n m, s.mailboxes.lookup n = some m → Filed s n m
  owned : ∀ id residency, s.subscriptions.lookup id = some residency → ∃ n m,
    s.slots.lookup id = some n ∧ s.mailboxes.lookup n = some m ∧ m.subscriptionId = id ∧
      m.reclaimed = false
  queued : s.resident = s.mailboxes.total queuedIn
  pooled : s.resident = s.subscriptions.total id
  within : s.resident ≤ (connectionEventMax, connectionByteMax)

theorem Ledger.new : Ledger {} := ⟨by simp, by simp, rfl, rfl, Nat.zero_le _, Nat.zero_le _⟩

variable {s : ClientEventConnection} {n : ℕ} {m m' : ClientEventMailbox}

theorem Filed.live_of_not_retired (h : Filed s n m) (hretired : m.retired = false) :
    m.reclaimed = false := by
  by_contra hr
  simp [(h.freed (by simpa using hr)).1] at hretired

theorem Filed.live_of_events (h : Filed s n m) (he : m.events ≠ []) : m.reclaimed = false := by
  by_contra hr
  exact he (h.freed (by simpa using hr)).2

theorem Filed.id_ne (h : Filed s n m) (hl : m.reclaimed = false)
    (ho : Filed s k o) (holive : o.reclaimed = false) (hne : k ≠ n) :
    o.subscriptionId ≠ m.subscriptionId := by
  intro heq
  have hk := (ho.live holive).1
  rw [heq, (h.live hl).1] at hk
  exact hne (some.inj hk).symm

section

variable (h : Ledger s)
include h

section

variable (hm : s.mailboxes.lookup n = some m)
include hm

/-- A mailbox is written with its entry of the pool, which after a reclaim may be another one's. -/
theorem Ledger.write {events bytes : ℕ}
    {subscriptions : Dict ℕ (ℕ × ℕ)} (hid : m'.subscriptionId = m.subscriptionId)
    (hb : m'.bytes = (queuedIn m').2)
    (hl : m'.reclaimed = false → m.reclaimed = false ∧
      subscriptions.lookup m.subscriptionId = some (queuedIn m'))
    (hfreed : m'.reclaimed = true → m'.retired = true ∧ m'.events = [])
    (hg : m'.reclaimed = true → m.reclaimed = false → subscriptions.lookup m.subscriptionId = none)
    (hother : ∀ id, id ≠ m.subscriptionId ∨ m.reclaimed = true →
      subscriptions.lookup id = s.subscriptions.lookup id)
    (hresident : (events, bytes) + queuedIn m = s.resident + queuedIn m')
    (hp : subscriptions.total id + queuedIn m = s.subscriptions.total id + queuedIn m')
    (hle : (events, bytes) ≤ (connectionEventMax, connectionByteMax)) :
    Ledger { s.setMailbox n m' with events, bytes, subscriptions } := by
  have hf := h.filed n m hm
  have ht := s.mailboxes.total_insert_of_some queuedIn m' hm
  rw [← h.queued, ← hresident] at ht
  rw [← h.pooled, ← hresident] at hp
  refine ⟨forall_lookup_insert ⟨hf.numbered, hb, fun hr => ?_, hfreed⟩
    fun k o hne ho => ?_, fun id r he => ?_, (add_right_cancel ht).symm,
    (add_right_cancel hp).symm, hle⟩
  · rw [hid]
    exact ⟨(hf.live (hl hr).1).1, (hl hr).2⟩
  · have hofiled := h.filed k o ho
    refine ⟨hofiled.numbered, hofiled.bytes_eq, fun holive => ?_, hofiled.freed⟩
    refine (hofiled.live holive).imp_right ((hother _ ?_).trans ·)
    cases hr : m.reclaimed with
    | false => exact .inl (hf.id_ne hr hofiled holive hne)
    | true => exact .inr rfl
  · by_cases hown : id = m.subscriptionId ∧ m.reclaimed = false
    · obtain ⟨rfl, hr⟩ := hown
      refine ⟨n, m', (hf.live hr).1, lookup_insert _, hid, ?_⟩
      by_contra hr'
      cases (hg (by simpa using hr') hr).symm.trans he
    · obtain ⟨k, o, hk, ho, hoid, holive⟩ := h.owned id r <| by
        rw [← hother id (by simpa [imp_iff_not_or] using hown)]
        exact he
      refine ⟨k, o, hk, (lookup_insert_ne fun heq => ?_).trans ho, hoid, holive⟩
      subst heq
      obtain rfl := some.inj (hm.symm.trans ho)
      exact hown ⟨hoid.symm, holive⟩

theorem Ledger.touch (hid : m'.subscriptionId = m.subscriptionId) (he : m'.events = m.events)
    (hb : m'.bytes = m.bytes) (hreclaimed : m'.reclaimed = m.reclaimed)
    (hretired : m.retired = true → m'.retired = true) : Ledger (s.setMailbox n m') := by
  have hf := h.filed n m hm
  have hq : queuedIn m' = queuedIn m := by rw [queuedIn, queuedIn, he]
  refine h.write hm hid ?_ (fun hr => ?_) (fun hr => ?_) (fun hr hr' => ?_) (fun _ _ => rfl) ?_ ?_
    h.within
  · rw [hq, hb, hf.bytes_eq]
  · rw [hreclaimed] at hr
    exact ⟨hr, hq ▸ (hf.live hr).2⟩
  · rw [he]
    exact (hf.freed (hreclaimed ▸ hr)).imp_left hretired
  · cases (hreclaimed.symm.trans hr).symm.trans hr'
  · rw [hq]
    rfl
  · rw [hq]

theorem Ledger.charge (hl : m.reclaimed = false) (hid : m'.subscriptionId = m.subscriptionId)
    (hreclaimed : m'.reclaimed = false) (hb : m'.bytes = (queuedIn m').2) {events bytes : ℕ}
    {f : ℕ × ℕ → ℕ × ℕ} (hf : f (queuedIn m) = queuedIn m')
    (hresident : (events, bytes) + queuedIn m = s.resident + queuedIn m')
    (hle : (events, bytes) ≤ (connectionEventMax, connectionByteMax)) :
    Ledger { s.setMailbox n m' with
      events, bytes, subscriptions := s.setResidency m.subscriptionId f } := by
  have he := ((h.filed n m hm).live hl).2
  simp only [setResidency, he, hf]
  exact h.write hm hid hb (fun _ => ⟨hl, lookup_insert _⟩)
    (fun hr => by simp [hreclaimed] at hr) (fun hr => by simp [hreclaimed] at hr)
    (fun id hne => lookup_insert_ne (hne.resolve_right (by simp [hl]))) hresident
    (s.subscriptions.total_insert_of_some id _ he) hle

theorem Ledger.tryPush (size : ℕ) (busy : Bool) : Ledger (s.tryPush n m size busy) := by
  unfold ClientEventConnection.tryPush
  split
  next ha =>
    obtain ⟨-, -, hr, hf, -⟩ := ha
    have hfiled := h.filed n m hm
    have hl := hfiled.live_of_not_retired hr
    simp only [connectionFull, not_or, not_lt] at hf
    have hid : (enqueue m size).subscriptionId = m.subscriptionId := rfl
    refine h.charge hm hl hid hl ?_ ?_ ?_ ⟨hf.1.trans (Nat.sub_le _ _), hf.2.trans (Nat.sub_le _ _)⟩
    · simp [enqueue, queuedIn, hfiled.bytes_eq]
    · simp [enqueue, queuedIn]
    · ext <;> simp [enqueue, queuedIn, resident] <;> omega
  next => exact h.touch hm rfl rfl rfl rfl id

theorem Ledger.queuedIn_le : queuedIn m ≤ s.resident := by
  rw [h.queued, s.mailboxes.total_erase queuedIn hm]
  exact ⟨Nat.le_add_right _ _, Nat.le_add_right _ _⟩

theorem Ledger.pop (busy aged : Bool) : Ledger (s.pop n m busy aged) := by
  unfold ClientEventConnection.pop
  split
  next queued rest he =>
    have hf := h.filed n m hm
    have hl := hf.live_of_events (by simp [he])
    have hb := hf.bytes_eq
    have hle := h.queuedIn_le hm
    have hmax := h.within
    simp only [queuedIn, resident, he, length_cons, map_cons, sum_cons,
      Prod.mk_le_mk] at hb hle hmax
    have hid : (dequeue m queued rest aged).subscriptionId = m.subscriptionId := rfl
    refine h.charge hm hl hid hl ?_ ?_ ?_ ⟨by simp only; omega, by simp only; omega⟩
    · simp only [dequeue, queuedIn]
      omega
    · simp [dequeue, queuedIn, he]
    · ext <;> simp only [dequeue, queuedIn, resident, he, length_cons, map_cons,
        sum_cons, Prod.fst_add, Prod.snd_add] <;> omega
  next => exact h.touch hm rfl rfl rfl rfl id

theorem Ledger.reclaim (hl : m.reclaimed = false) : Ledger (s.reclaim n m) := by
  have hf := h.filed n m hm
  have hle := h.queuedIn_le hm
  have hp := s.subscriptions.total_erase id (hf.live hl).2
  refine h.write hm rfl rfl (fun hr => by simp at hr) (fun _ => ⟨rfl, rfl⟩)
    (fun _ _ => lookup_erase _ _)
    (fun id hne => lookup_erase_ne (hne.resolve_right (by simp [hl]))) ?_ ?_
    ⟨(Nat.sub_le _ _).trans h.within.1, (Nat.sub_le _ _).trans h.within.2⟩
  · rw [hf.bytes_eq]
    exact Prod.ext (Nat.sub_add_cancel hle.1) (Nat.sub_add_cancel hle.2)
  · rw [hp, id, add_comm]
    rfl

theorem Ledger.removeSlot
    (hs : s.slots.lookup m.subscriptionId = some n) (hr : m.reclaimed = true) :
    Ledger { s with slots := s.slots.erase m.subscriptionId } := by
  have hkeep {id k : ℕ} {o : ClientEventMailbox} (hk : s.slots.lookup id = some k)
      (ho : s.mailboxes.lookup k = some o) (holive : o.reclaimed = false) :
      (s.slots.erase m.subscriptionId).lookup id = some k := by
    refine (lookup_erase_ne fun heq => ?_).trans hk
    rw [heq, hs] at hk
    cases hk
    rw [hm] at ho
    simp [← some.inj ho, hr] at holive
  exact { h with
    filed := fun k o ho => { h.filed k o ho with
      live := fun holive => ((h.filed k o ho).live holive).imp_left (hkeep · ho holive) }
    owned := fun id r he => by
      obtain ⟨k, o, hk, ho, hoid, holive⟩ := h.owned id r he
      exact ⟨k, o, hkeep hk ho holive, ho, hoid, holive⟩ }

end

theorem Ledger.subscribeMailbox (id e b : ℕ) : Ledger (s.subscribeMailbox id e b) := by
  unfold ClientEventConnection.subscribeMailbox
  split
  next => exact h
  next ha =>
    simp only [not_or, Bool.not_eq_true, isSome_eq_false_iff, isNone_iff_eq_none] at ha
    obtain ⟨-, hs, -⟩ := ha
    have hnew : s.mailboxes.lookup s.nextMailbox = none :=
      eq_none_iff_forall_ne_some.mpr fun m hm => (h.filed _ m hm).numbered.false
    have he : s.subscriptions.lookup id = none := by
      refine eq_none_iff_forall_ne_some.mpr fun r hl => ?_
      obtain ⟨n, m, hn, -⟩ := h.owned id r hl
      cases hs.symm.trans hn
    refine ⟨forall_lookup_insert ⟨Nat.lt_succ_self _, rfl,
        fun _ => ⟨lookup_insert _, lookup_insert _⟩, nofun⟩ fun k o _ ho => ?_,
      forall_lookup_insert ⟨_, _, lookup_insert _, lookup_insert _, rfl, rfl⟩
        fun id' r hne hl => ?_, ?_, ?_, h.within⟩
    · have hf := h.filed k o ho
      refine ⟨Nat.lt_succ_of_lt hf.numbered, hf.bytes_eq, fun holive => ?_, hf.freed⟩
      obtain ⟨hk, hr⟩ := hf.live holive
      have hother : o.subscriptionId ≠ id := by
        intro heq
        rw [heq, hs] at hk
        cases hk
      exact ⟨(lookup_insert_ne hother).trans hk, (lookup_insert_ne hother).trans hr⟩
    · obtain ⟨k, o, hk, ho, hoid, holive⟩ := h.owned id' r hl
      refine ⟨k, o, (lookup_insert_ne hne).trans hk, ?_, hoid, holive⟩
      exact (lookup_insert_ne (h.filed k o ho).numbered.ne).trans ho
    · rw [total_insert_of_none _ _ _ hnew]
      exact h.queued.trans (zero_add _).symm
    · rw [total_insert_of_none _ _ _ he]
      exact h.pooled.trans (zero_add _).symm

theorem Ledger.mailboxStep (hm : s.mailboxes.lookup n = some m)
    (step : MailboxStep) : Ledger (s.mailboxStep n m step) := by
  cases step with
  | push size busy => exact h.tryPush hm size busy
  | takeGap =>
    simp only [ClientEventConnection.mailboxStep, takeGap]
    split <;> [split; exact h] <;> exact h.touch hm rfl rfl rfl rfl id
  | pop busy aged =>
    simp only [ClientEventConnection.mailboxStep]
    split <;> [exact h.pop hm busy aged; exact h]
  | markAged =>
    simp only [ClientEventConnection.mailboxStep]
    split <;> [exact h.touch hm rfl rfl rfl rfl id; exact h]
  | retire => exact h.touch hm rfl rfl rfl rfl fun _ => rfl
  | reclaim =>
    simp only [ClientEventConnection.mailboxStep]
    split
    next hr => exact h.reclaim hm hr.2.1
    next => exact h
  | removeSlot =>
    simp only [ClientEventConnection.mailboxStep]
    split
    next hr => exact h.removeSlot hm hr.1 hr.2
    next => exact h

theorem Ledger.step (a : Step) : Ledger (s.step a) := by
  cases a with
  | subscribe id e b => exact h.subscribeMailbox id e b
  | close => exact { h with filed := fun n m hm => { h.filed n m hm with } }
  | mailbox n step =>
    simp only [ClientEventConnection.step]
    split
    next hm => exact h.mailboxStep hm step
    next => exact h

end

theorem Ledger.run (steps : List Step) : Ledger (run steps) :=
  foldlRecOn steps ClientEventConnection.step Ledger.new fun _ h a _ => h.step a

def pool (s : ClientEventConnection) : ℕ × ℕ × Dict ℕ (ℕ × ℕ) :=
  (s.events, s.bytes, s.subscriptions)

theorem Filed.freed_of_slot (h : Filed s n m) (hs : s.slots.lookup m.subscriptionId ≠ some n) :
    m.retired = true ∧ m.events = [] := by
  refine h.freed ?_
  by_contra hl
  exact hs (h.live (by simpa using hl)).1

theorem Filed.pool_late (h : Filed s n m) (hs : s.slots.lookup m.subscriptionId ≠ some n)
    (step : MailboxStep) : (s.mailboxStep n m step).pool = s.pool := by
  obtain ⟨hr, he⟩ := h.freed_of_slot hs
  cases step with
  | push size busy =>
    have hrefuses : ¬(busy = false ∧ s.Accepts m size) := by simp [Accepts, hr]
    rw [mailboxStep, tryPush, if_neg hrefuses]
    rfl
  | pop =>
    simp only [mailboxStep, pop, he]
    split <;> rfl
  | takeGap | markAged | reclaim | removeSlot =>
    simp only [mailboxStep, hs, false_and, if_false]
    try split <;> rfl
  | retire => rfl

/-- The counters of a connection are the sums over its mailboxes, within their limits, and a mailbox
that has lost its slot no longer changes them. -/
theorem residency_exact (steps : List Step) : let s := run steps
    (s.events, s.bytes) = s.mailboxes.total queuedIn ∧
      (∀ id residency, s.subscriptions.lookup id = some residency → ∃ n m,
        s.slots.lookup id = some n ∧ s.mailboxes.lookup n = some m ∧ residency = queuedIn m) ∧
      (∀ n m, s.mailboxes.lookup n = some m → m.events ≠ [] →
        s.slots.lookup m.subscriptionId = some n ∧
          s.subscriptions.lookup m.subscriptionId = some (queuedIn m)) ∧
      s.events ≤ connectionEventMax ∧ s.bytes ≤ connectionByteMax ∧
      ∀ n m, s.mailboxes.lookup n = some m → s.slots.lookup m.subscriptionId ≠ some n →
        m.events = [] ∧ ∀ step, (s.mailboxStep n m step).pool = s.pool := by
  intro s
  have h : Ledger s := Ledger.run steps
  refine ⟨h.queued, fun id residency hentry => ?_, fun n m hm hevents => ?_, h.within.1,
    h.within.2, fun n m hm hslot => ?_⟩
  · obtain ⟨n, m, hslot, hm, rfl, hlive⟩ := h.owned id residency hentry
    rw [((h.filed n m hm).live hlive).2] at hentry
    exact ⟨n, m, hslot, hm, (some.inj hentry).symm⟩
  · exact (h.filed n m hm).live ((h.filed n m hm).live_of_events hevents)
  · exact ⟨((h.filed n m hm).freed_of_slot hslot).2, (h.filed n m hm).pool_late hslot⟩

def ReservesFit (s : ClientEventConnection) (m : ClientEventMailbox) (size : ℕ) : Prop :=
  m.events.length + 1 + ((s.subscriptions.erase m.subscriptionId).total fun residency =>
      max residency.1 subscriptionEventReserve) ≤ connectionEventMax ∧
    (m.bytes + size + ((s.subscriptions.erase m.subscriptionId).total fun residency =>
      max residency.2 subscriptionByteReserve) ≤ connectionByteMax ∨ s.bytes + size = 0)

section

variable (d : Dict ℕ (ℕ × ℕ))

theorem total_max (f : ℕ × ℕ → ℕ) (reserve : ℕ) : (d.total fun r => max (f r) reserve) =
      d.total f + d.total fun r => reserve - f r := by
  have hmax (a : ℕ) : max a reserve = a + (reserve - a) := by omega
  simp [total, hmax, sum_map_add]

theorem total_fst : (d.total id).1 = d.total Prod.fst := map_total (AddMonoidHom.fst ℕ ℕ) d id

theorem total_snd : (d.total id).2 = d.total Prod.snd := map_total (AddMonoidHom.snd ℕ ℕ) d id

end

theorem Ledger.connectionFull_iff (h : Ledger s) (hm : s.mailboxes.lookup n = some m)
    (hl : m.reclaimed = false) (size : ℕ) :
    ¬s.connectionFull m.subscriptionId size ↔ s.ReservesFit m size := by
  have hf := h.filed n m hm
  have hp := h.pooled.trans (s.subscriptions.total_erase id (hf.live hl).2)
  have he := congrArg Prod.fst hp
  have hb := congrArg Prod.snd hp
  have hs := hf.bytes_eq
  simp only [resident, queuedIn, id, Prod.fst_add, Prod.snd_add, total_fst, total_snd] at he hb hs
  unfold connectionFull ReservesFit protectedEvents protectedBytes
  rw [total_max _ Prod.fst, total_max _ Prod.snd]
  omega

/-- A push is accepted exactly if the locks are free, connection and mailbox are live, the own
limits hold, and the connection has room for the event beside the larger of the queue and the
reserve of every sibling. -/
theorem push_accepted_iff (steps : List Step) (n : ℕ) (m : ClientEventMailbox)
    (hm : (run steps).mailboxes.lookup n = some m) (size : ℕ) (busy : Bool) :
    ((run steps).tryPush n m size busy).mailboxes.lookup n = some (enqueue m size) ↔
      busy = false ∧ (run steps).closing = false ∧ m.retired = false ∧
        (run steps).ReservesFit m size ∧ m.events.length + 1 ≤ m.eventMax ∧
        m.bytes + size ≤ m.byteMax := by
  have h := Ledger.run steps
  have hfull (hretired : m.retired = false) :=
    h.connectionFull_iff hm ((h.filed n m hm).live_of_not_retired hretired) size
  unfold tryPush
  split
  next haccepts =>
    obtain ⟨hbusy, hopen, hretired, hnot, hlimits⟩ := haccepts
    refine ⟨fun _ => ⟨hbusy, hopen, hretired, ?_, hlimits⟩, fun _ => lookup_insert _⟩
    exact (hfull hretired).mp hnot
  next hrefuses =>
    refine ⟨fun hlookup => ?_, fun ⟨hbusy, hopen, hretired, hfits, hlimits⟩ =>
      absurd ⟨hbusy, hopen, hretired, (hfull hretired).mpr hfits, hlimits⟩ hrefuses⟩
    have heq := some.inj ((lookup_insert _).symm.trans hlookup)
    simp [refuse, enqueue] at heq

def crowdedSteps : List Step :=
  (List.range 33).map fun id => .subscribe id connectionEventMax connectionByteMax

theorem push_accepted_first : ∃ m, (run (crowdedSteps.take 2)).mailboxes.lookup 0 = some m ∧
      ((run (crowdedSteps.take 2)).tryPush 0 m 1 false).mailboxes.lookup 0 = some (enqueue m 1) :=
  ⟨_, rfl, (push_accepted_iff (crowdedSteps.take 2) 0 _ rfl 1 false).mpr (by
    simp only [ReservesFit]; decide +kernel)⟩

/-- The reserves of the other subscriptions refuse a push to an empty mailbox. -/
theorem reserve_refused :
    ∃ m, (run crowdedSteps).mailboxes.lookup 0 = some m ∧ m.events = [] ∧ m.bytes = 0 ∧
      ((run crowdedSteps).tryPush 0 m 1 false).mailboxes.lookup 0 ≠ some (enqueue m 1) :=
  ⟨{ subscriptionId := 0, eventMax := connectionEventMax, byteMax := connectionByteMax },
    by decide +kernel⟩

end ClientEventConnection

end BotsterHub.Subscription
