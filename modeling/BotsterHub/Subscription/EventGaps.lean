import BotsterHub.Lib.Machine
import BotsterHub.Subscription.EventMailbox

/-!
What the reader of a subscription is told. Of a dropped event it is told by a gap before any later
event, unless it misses the bit: it reads a contended slot lock as no gap, leaves an old event
unmarked under contention, and does not see a push refused between its look and its pop.
-/

namespace BotsterHub.Subscription

open List Option AList

def Note.delivered? : Note → Option ℕ
  | .delivered serial => some serial
  | _ => none

def missed (trace : List Note) : List ℕ :=
  trace.foldl (fun serials note =>
    match note with
    | .dropped serial => serials ++ [serial]
    | .gap => []
    | .delivered _ => serials) []

/-- Every delivered event comes after the gap of each event that was dropped before it. -/
def Announced (trace : List Note) : Prop :=
  ∀ before serial after, trace = before ++ .delivered serial :: after →
    ∀ k ∈ missed before, ¬k < serial

theorem Announced.append (h : Announced t)
    (hn : ∀ serial, note = .delivered serial → missed t = []) :
    Announced (t ++ [note]) := by
  intro b serial a heq k hk
  rcases eq_nil_or_concat a with rfl | ⟨a, last, rfl⟩
  · obtain ⟨rfl, hl⟩ := append_inj' heq rfl
    rw [hn serial (singleton_inj.mp hl)] at hk
    simp at hk
  have hi : t ++ [note] = (b ++ .delivered serial :: a) ++ [last] := by simpa using heq
  exact h b serial a (append_inj' hi rfl).1 k hk

namespace ClientEventConnection

def serials (m : ClientEventMailbox) : List ℕ :=
  m.trace.filterMap Note.delivered? ++ m.events.map QueuedClientEvent.serial

/-- Events stand in push order. The gap of a dropped event is delivered, set, or about to be set,
for a reader that sees the bit. -/
structure Told (seen : Prop) (m : ClientEventMailbox) : Prop where
  sorted : (serials m).Pairwise (· < ·)
  pushed : ∀ k ∈ serials m, k < m.pushed
  freed : m.reclaimed = true → m.retired = true ∧ m.events = []
  announced : seen → Announced m.trace
  checked : seen → m.reader = .checked → missed m.trace = []
  set : seen → m.reclaimed = false → m.reader = .idle → missed m.trace ≠ [] → m.gap = true

variable {s : ClientEventConnection} {n : ℕ} {m m' : ClientEventMailbox} {seen : Prop}

section

variable (h : Told seen m)

include h

theorem Told.of_sublist (hs : (serials m').Sublist (serials m)) (hp : m.pushed ≤ m'.pushed)
    (hf : m'.reclaimed = true → m'.retired = true ∧ m'.events = [])
    (ha : seen → Announced m'.trace)
    (hc : seen → m'.reader = .checked → missed m'.trace = [])
    (hset : seen → m'.reclaimed = false → m'.reader = .idle → missed m'.trace ≠ [] →
      m'.gap = true) : Told seen m' :=
  ⟨h.sorted.sublist hs, fun k hk => (h.pushed k (hs.subset hk)).trans_le hp, hf, ha, hc, hset⟩

theorem Told.enqueue (hretired : m.retired = false) (size : ℕ) : Told seen (enqueue m size) := by
  have hs : serials (ClientEventConnection.enqueue m size) = serials m ++ [m.pushed] := by
    simp [serials, ClientEventConnection.enqueue]
  refine { h with sorted := ?_, pushed := fun k hk => ?_, freed := fun hr => ?_ }
  · rw [hs]
    exact pairwise_append.mpr ⟨h.sorted, pairwise_singleton _ _, by simpa using h.pushed⟩
  · rw [hs, mem_append, mem_singleton] at hk
    rcases hk with hk | rfl
    · exact Nat.lt_succ_of_lt (h.pushed k hk)
    · exact Nat.lt_succ_self _
  · simp [(h.freed hr).1] at hretired

theorem Told.refuse (hr : seen → m.reader ≠ .checked) : Told seen (refuse m) :=
  h.of_sublist (by simp [serials, ClientEventConnection.refuse, Note.delivered?]) (Nat.le_succ _)
    h.freed (fun hs => (h.announced hs).append nofun)
    (fun hs hc => absurd hc (hr hs)) fun _ _ _ _ => rfl

theorem Told.takeGap (hreader : m.reader = .idle) (hretired : m.retired = false)
    (hsees : seen → c = false) : Told seen (takeGap m c) := by
  unfold ClientEventConnection.takeGap
  split
  next =>
    exact h.of_sublist (by simp [serials, Note.delivered?]) le_rfl h.freed
      (fun hs => (h.announced hs).append nofun) (by simp [hreader]) (by simp [missed])
  next hg =>
    refine h.of_sublist (Sublist.refl _) le_rfl h.freed h.announced (fun hs _ => ?_) nofun
    by_contra hm
    have hl : m.reclaimed = false := by
      by_contra hr
      simp [(h.freed (by simpa using hr)).1] at hretired
    exact hg ⟨h.set hs hl hreader hm, hsees hs⟩

theorem Told.dequeue (hreader : m.reader = .checked) (he : m.events = q :: rest) (aged : Bool) :
    Told seen (dequeue m q rest aged) := by
  have hm (hs : seen) := h.checked hs hreader
  refine h.of_sublist ?_ le_rfl (fun hr => ?_)
    (fun hs => (h.announced hs).append fun _ _ => hm hs) ?_ fun hs => ?_
  · cases aged <;> simp [serials, ClientEventConnection.dequeue, Note.delivered?, he]
  · simp [(h.freed hr).2] at he
  · cases aged <;> simp [ClientEventConnection.dequeue]
  have := hm hs
  unfold missed at this
  cases aged <;> simp [ClientEventConnection.dequeue, missed, this]

end

/-- The reader's looks and marks are not contended, and no push is refused between a look and the
pop. -/
def Seen (n : ℕ) (s : ClientEventConnection) : Step → Prop
  | .mailbox k (.takeGap contended) => k = n → contended = false
  | .mailbox k (.markAged contended) => k = n → contended = false
  | .mailbox k (.push size busy) => k = n → ∀ m ∈ s.mailboxes.lookup n, m.reader = .checked →
    busy = false ∧ s.Accepts m size
  | _ => True

theorem Told.mailboxStep (h : Told seen m) (hm : s.mailboxes.lookup n = some m) (a : MailboxStep)
    (hsees : seen → Seen n s (.mailbox n a)) :
    ∀ o, (s.mailboxStep n m a).mailboxes.lookup n = some o → Told seen o := by
  have hsame : ∀ o, s.mailboxes.lookup n = some o → Told seen o :=
    fun o ho => some.inj (hm.symm.trans ho) ▸ h
  have hw (m' : ClientEventMailbox) (h' : Told seen m') :
      ∀ o, (s.mailboxes.insert n m').lookup n = some o → Told seen o :=
    fun o ho => some.inj ((lookup_insert _).symm.trans ho) ▸ h'
  cases a with
  | push size =>
    simp only [ClientEventConnection.mailboxStep, tryPush]
    split
    next ha => exact hw _ (h.enqueue ha.2.2.1 size)
    next hrefuses => exact hw _ (h.refuse fun hs hr => hrefuses (hsees hs rfl m hm hr))
  | takeGap =>
    simp only [ClientEventConnection.mailboxStep]
    split
    next hready => exact hw _ (h.takeGap hready.1 hready.2.1 fun hs => hsees hs rfl)
    next => exact hsame
  | pop _ aged =>
    simp only [ClientEventConnection.mailboxStep, pop]
    split
    next hreader =>
      split
      next he => exact hw _ (h.dequeue hreader he aged)
      next =>
        exact hw _ { h with
          checked := fun _ => nofun
          set := fun hs _ _ hmissed => absurd (h.checked hs hreader) hmissed }
    next => exact hsame
  | markAged =>
    simp only [ClientEventConnection.mailboxStep]
    split
    next =>
      exact hw _ { h with checked := fun _ => nofun, set := fun hs _ _ _ => by simp [hsees hs rfl] }
    next => exact hsame
  | retire => exact hw _ { h with freed := fun hr => ⟨rfl, (h.freed hr).2⟩ }
  | reclaim =>
    simp only [ClientEventConnection.mailboxStep]
    split
    next =>
      exact hw _ (h.of_sublist (Sublist.append_left (nil_sublist _) _) le_rfl
        (fun _ => ⟨rfl, rfl⟩) h.announced h.checked fun _ => nofun)
    next => exact hsame
  | removeSlot =>
    simp only [ClientEventConnection.mailboxStep]
    split <;> exact hsame

theorem lookup_mailboxStep_ne (hne : n ≠ k) (s : ClientEventConnection)
    (m : ClientEventMailbox) (a : MailboxStep) :
    (s.mailboxStep k m a).mailboxes.lookup n = s.mailboxes.lookup n := by
  have ho (m' : ClientEventMailbox) :
      (s.mailboxes.insert k m').lookup n = s.mailboxes.lookup n := lookup_insert_ne hne
  cases a with
  | retire => exact ho _
  | push | takeGap | markAged | reclaim | removeSlot =>
    simp only [mailboxStep, tryPush, reclaim, setMailbox]
    split <;> first | rfl | exact ho _
  | pop =>
    simp only [mailboxStep, pop, setMailbox]
    split <;> [split; rfl] <;> exact ho _

theorem Told.step (h : ∀ m, s.mailboxes.lookup n = some m → Told seen m) (a : Step)
    (hs : seen → Seen n s a) : ∀ m, (s.step a).mailboxes.lookup n = some m → Told seen m := by
  cases a with
  | subscribe =>
    simp only [ClientEventConnection.step, subscribeMailbox]
    split
    next => exact h
    next =>
      intro o ho
      rw [lookup_insert_eq] at ho
      split at ho
      next =>
        cases ho
        exact ⟨by simp [serials], by simp [serials], nofun, by simp [Announced], nofun,
          by simp [missed]⟩
      next => exact h o ho
  | close => exact h
  | mailbox k a =>
    simp only [ClientEventConnection.step]
    split
    next m hm =>
      by_cases hk : n = k
      · subst hk
        exact (h m hm).mailboxStep hm a hs
      · rw [lookup_mailboxStep_ne hk]
        exact h
    next => exact h

theorem Told.run (steps : List Step) (hsees : seen →
      Machine.Along (fun s a => some (ClientEventConnection.step s a)) (Seen n) s steps)
    (h : ∀ m, s.mailboxes.lookup n = some m → Told seen m) :
    ∀ m, (steps.foldl ClientEventConnection.step s).mailboxes.lookup n = some m → Told seen m := by
  induction steps generalizing s with
  | nil => exact h
  | cons a _ ih =>
    exact ih (fun hs => (hsees hs).2 _ rfl) (Told.step h a fun hs => (hsees hs).1)

/-- Delivered events come in push order, each once; gaps come before later events if the reader sees
the bit. -/
theorem delivered_in_order_after_gaps (steps : List Step) (n : ℕ) (m : ClientEventMailbox)
    (hm : (run steps).mailboxes.lookup n = some m) :
    (m.trace.filterMap Note.delivered?).Pairwise (· < ·) ∧
      (Machine.Along (fun s a => some (step s a)) (Seen n) {} steps → Announced m.trace) := by
  have h := Told.run steps id (by simp) m hm
  exact ⟨(pairwise_append.mp h.sorted).1, h.announced⟩

def refusedSteps : List Step :=
  [.subscribe 0 8 10, .mailbox 0 (.push 4 false), .mailbox 0 (.push 9 false)]

def announcedSteps : List Step :=
  refusedSteps ++ [.mailbox 0 (.takeGap false), .mailbox 0 (.takeGap false),
    .mailbox 0 (.pop false false)]

theorem delivered_after_gap : ∃ m, (run announcedSteps).mailboxes.lookup 0 = some m ∧
      m.trace = [.dropped 1, .gap, .delivered 0] ∧
      (m.trace.filterMap Note.delivered?).Pairwise (· < ·) ∧ Announced m.trace := by
  refine ⟨_, rfl, by decide, ?_⟩
  have h := delivered_in_order_after_gaps announcedSteps 0 _ rfl
  refine ⟨h.1, h.2 ?_⟩
  simp only [announcedSteps, refusedSteps, Machine.Along, Seen, cons_append, nil_append, some.injEq,
    forall_eq', true_and, implies_true, and_true, forall_const]
  refine ⟨fun m hm hr => ?_, fun m hm hr => ?_⟩
  all_goals
    cases hm
    cases hr

/-- The look is contended; the mark of an old event is contended; a push is refused between look and
pop. -/
theorem event_before_gap :
    (∃ m, (run (refusedSteps ++ [.mailbox 0 (.push 4 false), .mailbox 0 (.takeGap true),
        .mailbox 0 (.pop false false), .mailbox 0 (.takeGap true),
        .mailbox 0 (.pop false false)])).mailboxes.lookup 0 = some m ∧
      m.trace = [.dropped 1, .delivered 0, .delivered 2]) ∧
    (∃ m, (run [.subscribe 0 8 10, .mailbox 0 (.push 4 false), .mailbox 0 (.push 4 false),
        .mailbox 0 (.takeGap false), .mailbox 0 (.pop false true), .mailbox 0 (.markAged true),
        .mailbox 0 (.takeGap false), .mailbox 0 (.pop false false)]).mailboxes.lookup 0 = some m ∧
      m.trace = [.dropped 0, .delivered 1]) ∧
    ∃ m, (run [.subscribe 0 8 10, .mailbox 0 (.takeGap false), .mailbox 0 (.push 11 false),
        .mailbox 0 (.push 4 false), .mailbox 0 (.pop false false)]).mailboxes.lookup 0 = some m ∧
      m.trace = [.dropped 0, .delivered 1] ∧ ¬Announced m.trace := by
  refine ⟨⟨_, rfl, by decide⟩, ⟨_, rfl, by decide⟩, _, rfl, by decide, fun h => ?_⟩
  exact h [.dropped 0] 1 [] rfl 0 (by decide) (by decide)

end ClientEventConnection

end BotsterHub.Subscription
