import BotsterHub.Owner.CoreCompletions

/-!
When every collected Core completion marks its waiter ready.

The earliest registered phase of a waiter is the one it expects, as long as no numbered phase is
lost. A refused admission, a failed begin and a hand-over to an obligation can leave a gap, behind
which an operation never wakes its waiter.
-/

namespace BotsterHub.Owner

open Machine List Option AList Finset CompletionWake Tickets Waiter

open CompletionWake

variable {α : Type*}

structure Quiet (t t' : Tickets α) : Prop where
  registered : t'.wake.registered = t.wake.registered
  nextPhase : t'.wake.nextPhase = t.wake.nextPhase
  collected : t'.collected = t.collected
  batch : t'.batch = t.batch
  gone : t'.gone = t.gone
  operation : ∀ identity, t'.operationOf identity = t.operationOf identity

theorem Quiet.refl (t : Tickets α) : Quiet t t := ⟨rfl, rfl, rfl, rfl, rfl, fun _ => rfl⟩

theorem operation_insert {c : Dict Identity (Channel α)} {identity : Identity}
    {channel channel' : Channel α} (hl : c.lookup identity = some channel)
    (h : channel'.operation = channel.operation) (o : Identity) :
    ((c.insert identity channel').lookup o).map Channel.operation =
      (c.lookup o).map Channel.operation := by
  by_cases heq : o = identity
  · rw [heq, lookup_insert, hl]
    exact congrArg some h
  · rw [lookup_insert_ne heq]

section

variable (t : Tickets α)

section

variable (identity : Identity)

theorem quiet_publisherStep (a : Publisher → Bool)
    {act : Channel α → Channel α} {wake : CompletionWake → CompletionWake}
    (ha : ∀ c, (act c).operation = c.operation)
    (hr : (wake t.wake).registered = t.wake.registered)
    (hp : (wake t.wake).nextPhase = t.wake.nextPhase) :
    Quiet t (t.publisherStep identity a act wake) := by
  unfold publisherStep
  split
  · exact .refl t
  next c hl =>
  split
  · exact ⟨hr, hp, rfl, rfl, rfl, operation_insert hl (ha c)⟩
  · exact .refl t

theorem quiet_trySend (v : α) : Quiet t (t.step (.trySend identity v)) := by
  show Quiet t (t.trySend identity v)
  refine quiet_publisherStep t identity _ (fun channel => ?_) rfl rfl
  split <;> rfl

theorem quiet_publishSent : Quiet t (t.step (.publishSent identity)) := by
  obtain ⟨hr, hp, -⟩ := publish_registered t.wake identity
  show Quiet t (t.publishSent identity)
  exact quiet_publisherStep t identity _ (fun _ => rfl) hr hp

theorem quiet_dropSender : Quiet t (t.step (.dropSender identity)) := by
  show Quiet t (t.dropSender identity)
  exact quiet_publisherStep t identity _ (fun _ => rfl) rfl rfl

theorem quiet_publishDropped : Quiet t (t.step (.publishDropped identity)) := by
  obtain ⟨hr, hp, -⟩ := publish_registered t.wake identity
  show Quiet t (t.publishDropped identity)
  exact quiet_publisherStep t identity _ (fun _ => rfl) hr hp

end

end

variable {t : Tickets α}

theorem step_owner (hb : t.batch = none)
    (h : t.step a = if t.batch.isSome then t else t.ownerStep a) :
    t.step a = t.ownerStep a := by
  rw [h, hb]
  rfl

theorem quiet_take (hb : t.batch = none) : Quiet t (t.step .take) := by
  rw [step_owner hb rfl]
  exact ⟨rfl, rfl, rfl, rfl, rfl, fun _ => rfl⟩

theorem quiet_poll (hb : t.batch = none) (identity : Identity) :
    Quiet t (t.step (.poll identity)) := by
  rw [step_owner hb rfl]
  show Quiet t (t.poll identity)
  unfold poll
  split
  · exact .refl t
  next hl =>
  split
  · exact .refl t
  · refine ⟨rfl, rfl, rfl, rfl, rfl, operation_insert hl ?_⟩
    rfl

theorem absorb_tickets (h : t.Sound) (hb : t.batch = none) (c : Bool) :
    (t.step (.takeIdentities 1)).batch = some [] ∧ Quiet t ((t.step (.takeIdentities 1)).step
          (.restoreIdentities (if c then 1 else 0))) ∨
      ∃ identity ∈ t.wake.registered, first? t.wake.ready (fun _ => true) = some identity ∧
        (t.step (.takeIdentities 1)).batch = some [identity] ∧
        ∃ t', (t.step (.takeIdentities 1)).step (.restoreIdentities (if c then 1 else 0)) = t' ∧
          (c = false ∧ Quiet t t' ∨
            c = true ∧ t'.wake.registered = t.wake.registered.erase identity ∧
              t'.wake.nextPhase = t.wake.nextPhase ∧
              t'.collected = insert identity t.collected ∧ t'.batch = none ∧
              t'.gone = t.gone ∧ t'.channels = t.channels) := by
  rw [step_owner hb rfl]
  cases hf : first? t.wake.ready (fun _ => true) with
  | none =>
    left
    have ht : firstN 1 t.wake.ready = [] := by simp [firstN, hf]
    refine ⟨by simp [Tickets.ownerStep, takeIdentities, ht], ?_⟩
    constructor <;>
      simp [Tickets.step, Tickets.ownerStep, Tickets.restoreIdentities, takeIdentities, ht,
        CompletionWake.restoreIdentities, hb, Tickets.operationOf]
  | some identity =>
    right
    have hready := (first?_mem hf).1
    have hr := h.ready hready
    have ht : firstN 1 t.wake.ready = [identity] := by simp [firstN, hf]
    refine ⟨identity, hr, rfl, ?_, _, rfl, ?_⟩
    · simp [Tickets.ownerStep, takeIdentities, ht]
    cases c with
    | false =>
      left
      refine ⟨rfl, ?_⟩
      constructor
      · simp [Tickets.step, Tickets.ownerStep, Tickets.restoreIdentities, takeIdentities,
          ht, CompletionWake.restoreIdentities, hr]
      all_goals simp [Tickets.step, Tickets.ownerStep, Tickets.restoreIdentities, takeIdentities,
          ht, CompletionWake.restoreIdentities, hb, Tickets.operationOf]
    | true =>
      right
      simp [Tickets.step, Tickets.ownerStep, Tickets.restoreIdentities, takeIdentities,
        ht, CompletionWake.restoreIdentities, sdiff_singleton_eq_erase]

theorem retire_all (i : List Identity) (hb : t.batch = none)
    (hk : ∀ identity ∈ i, (t.channels.lookup identity).isSome) (h : t.Sound) :
    let t' := i.foldl (fun tickets identity => tickets.step (.retire identity)) t
    t'.Sound ∧ t'.wake.registered = t.wake.registered \ i.toFinset ∧
      t'.wake.nextPhase = t.wake.nextPhase ∧ t'.collected = t.collected ∧ t'.batch = none ∧
      t'.gone = t.gone ∧ t'.channels = t.channels := by
  induction i generalizing t with
  | nil => exact ⟨h, by simp, rfl, rfl, hb, rfl, rfl⟩
  | cons f _ ih =>
    have hs : t.step (.retire f) =
        { t with wake := t.wake.drop f, retired := insert f t.retired } := by
      rw [step_owner hb rfl]
      exact if_pos (hk f mem_cons_self)
    rw [foldl_cons, hs]
    obtain ⟨hsound, hr, hrest⟩ := ih
      (t := { t with wake := t.wake.drop f, retired := insert f t.retired }) hb
      (fun identity hm => hk identity (mem_cons_of_mem _ hm))
      (by rw [← hs]; exact h.step _)
    refine ⟨hsound, ?_, hrest⟩
    rw [hr]
    ext identity
    simp only [CompletionWake.drop, Finset.mem_sdiff, Finset.mem_erase, List.mem_toFinset,
      List.mem_cons]
    tauto

namespace Waiter

variable {waiter : Waiter}

theorem accepts_next {next : ℕ} (h : waiter.accepts phase)
    (hl : waiter.later = true → phase < next) (hn : waiter.later = false → next = phase + 1) :
    (waiter.absorb phase).accepts next := by
  unfold absorb
  rw [if_pos h]
  cases hs : waiter.later with
  | true =>
    have hlt := hl hs
    unfold later at hs
    simp [accepts, later, hs, hlt]
  | false =>
    have heq := hn hs
    simp [accepts, later, heq]

theorem absorb_awaiting (waiter : Waiter) (phase : ℕ) :
    (waiter.absorb phase).awaiting = waiter.awaiting := by
  unfold absorb
  split <;> rfl

theorem absorb_ready (h : waiter.ready ∨ waiter.accepts phase) : (waiter.absorb phase).ready := by
  unfold absorb
  split
  · rfl
  · next hr => exact h.resolve_right hr

theorem absorb_of_not (h : ¬waiter.accepts phase) : waiter.absorb phase = waiter := if_neg h

theorem accepts_le (hl : waiter.later = false)
    (h : waiter.accepts phase) (ho : waiter.accepts o) : phase = o := by
  unfold accepts at h ho
  rw [hl] at h ho
  simp at h ho
  omega

end Waiter

namespace OwnerCore

structure Agrees (s : OwnerCore α) : Prop where
  sound : s.tickets.Sound
  idle : s.tickets.batch = none
  present : ∀ waiterId, (s.waiters.lookup waiterId).isSome → waiterId ∉ s.tickets.gone
  owned : ∀ identity ∈ s.tickets.wake.registered, (s.waiters.lookup identity.waiterId).isSome
  pairs : ∀ i j, (s.tickets.operationOf i).isSome →
    s.tickets.operationOf i = s.tickets.operationOf j →
    i.waiterId = j.waiterId ∧ j.phase ≤ i.phase + 1
  numbered : ∀ waiterId waiter, s.waiters.lookup waiterId = some waiter →
    waiter.lastCorePhase ≤ s.tickets.wake.lastPhase waiterId
  expects : ∀ identity ∈ s.tickets.wake.registered, Least s.tickets identity →
    ∀ waiter, s.waiters.lookup identity.waiterId = some waiter → waiter.accepts identity.phase
  awaits : ∀ waiterId waiter, s.waiters.lookup waiterId = some waiter →
    ∀ identity ∈ waiter.awaiting, identity.waiterId = waiterId ∧
      (s.tickets.operationOf identity).isSome ∧
      (identity ∈ s.tickets.wake.registered → Least s.tickets identity) ∧
      (identity ∈ s.tickets.collected → waiter.ready)

theorem agrees_new : Agrees (new : OwnerCore α) := by
  constructor
  · exact Tickets.sound_new
  all_goals simp [new, Tickets.new, CompletionWake.new, Tickets.operationOf]

variable {s : OwnerCore α}

structure Fits (t : Tickets α) (waiterId : ℕ) (waiter : Waiter) : Prop where
  present : waiterId ∉ t.gone
  numbered : waiter.lastCorePhase ≤ t.wake.lastPhase waiterId
  expects : ∀ identity ∈ t.wake.registered, identity.waiterId = waiterId → Least t identity →
    waiter.accepts identity.phase
  awaits : ∀ identity ∈ waiter.awaiting, identity.waiterId = waiterId ∧
    (t.operationOf identity).isSome ∧ (identity ∈ t.wake.registered → Least t identity) ∧
    (identity ∈ t.collected → waiter.ready)

variable {waiterId : ℕ} {waiter : Waiter}

theorem Agrees.fits (h : Agrees s) (hl : s.waiters.lookup waiterId = some waiter) :
    Fits s.tickets waiterId waiter where
  present := h.present waiterId (by rw [hl]; rfl)
  numbered := h.numbered waiterId waiter hl
  expects := fun identity hm heq hmin => h.expects identity hm hmin waiter (by rwa [heq])
  awaits := h.awaits waiterId waiter hl

theorem Agrees.of_fits (hs : s.tickets.Sound) (hi : s.tickets.batch = none)
    (ho : ∀ identity ∈ s.tickets.wake.registered, (s.waiters.lookup identity.waiterId).isSome)
    (hp : ∀ i j, (s.tickets.operationOf i).isSome →
      s.tickets.operationOf i = s.tickets.operationOf j →
      i.waiterId = j.waiterId ∧ j.phase ≤ i.phase + 1)
    (hf : ∀ waiterId waiter, s.waiters.lookup waiterId = some waiter →
      Fits s.tickets waiterId waiter) : Agrees s where
  sound := hs
  idle := hi
  present := by
    intro waiterId hsome
    obtain ⟨waiter, hl⟩ := isSome_iff_exists.mp hsome
    exact (hf waiterId waiter hl).present
  owned := ho
  pairs := hp
  numbered := fun waiterId waiter hl => (hf waiterId waiter hl).numbered
  expects := fun identity hm hmin waiter hl => (hf _ waiter hl).expects identity hm rfl hmin
  awaits := fun waiterId waiter hl => (hf waiterId waiter hl).awaits

theorem Fits.transfer {t t' : Tickets α} (h : Fits t waiterId waiter) (hg : waiterId ∉ t'.gone)
    (hp : t'.wake.lastPhase waiterId = t.wake.lastPhase waiterId)
    (hr : ∀ identity ∈ t'.wake.registered, identity.waiterId = waiterId →
      identity ∈ t.wake.registered)
    (hl : ∀ identity ∈ t'.wake.registered, identity.waiterId = waiterId →
      Least t' identity → Least t identity)
    (hc : ∀ identity ∈ t'.collected, identity.waiterId = waiterId → identity ∈ t.collected)
    (ho : ∀ identity, (t.operationOf identity).isSome →
      (t'.operationOf identity).isSome) : Fits t' waiterId waiter where
  present := hg
  numbered := hp ▸ h.numbered
  expects := fun identity hm heq hmin =>
    h.expects identity (hr identity hm heq) heq (hl identity hm heq hmin)
  awaits := by
    intro identity ha
    obtain ⟨hw, hsome, hmin, hready⟩ := h.awaits identity ha
    refine ⟨hw, ho identity hsome, fun hm o hother hs => ?_, fun hin => hready (hc identity hin hw)⟩
    exact hmin (hr identity hm hw) o (hr o hother (hs.trans hw)) hs

theorem Agrees.close (h : Agrees s)
    (hi : i ∈ s.tickets.wake.registered) (hj : j ∈ s.tickets.wake.registered)
    (hw : i.waiterId = j.waiterId) :
    s.tickets.operationOf i = s.tickets.operationOf j ∧ j.phase ≤ i.phase + 1 := by
  have hs := h.sound.together i (mem_union_left _ hi) j (mem_union_left _ hj) hw
  have hk := h.sound.known i (by simp [outstanding, hi])
  refine ⟨hs, (h.pairs i j ?_ hs).2⟩
  simpa [operationOf] using hk

variable {t : Tickets α}

section

variable (h : Agrees s)
include h

theorem Agrees.access (hsound : t.Sound) (hb : t.batch = none) (hg : t.gone = s.tickets.gone)
    (hr : t.wake.registered ⊆ s.tickets.wake.registered)
    (hp : t.wake.nextPhase = s.tickets.wake.nextPhase)
    (hc : t.collected = s.tickets.collected)
    (ho : ∀ identity, t.operationOf identity = s.tickets.operationOf identity)
    (hleast : ∀ identity ∈ t.wake.registered, Least t identity → Least s.tickets identity) :
    Agrees { s with tickets := t } := by
  refine .of_fits hsound hb (fun identity hm => h.owned identity (hr hm))
    (fun i j hs hsame => ?_) fun waiterId waiter hl => ?_
  · simp only [ho] at hs hsame
    exact h.pairs i j hs hsame
  have hf := h.fits hl
  refine hf.transfer (hg ▸ hf.present) ?_ (fun _ hm _ => hr hm)
    (fun identity hm _ => hleast identity hm) (fun _ hm _ => hc ▸ hm)
    (fun identity hs => by rwa [ho])
  unfold lastPhase
  rw [hp]

theorem Agrees.quiet (hs : t.Sound) (hq : Quiet s.tickets t) : Agrees { s with tickets := t } := by
  refine h.access hs (hq.batch.trans h.idle) hq.gone (by rw [hq.registered]) hq.nextPhase
    hq.collected hq.operation ?_
  intro identity _ hm o ho
  exact hm o (by rwa [hq.registered])

variable {act : Waiter → Waiter}

theorem Agrees.change (ha : ∀ waiter, s.waiters.lookup waiterId = some waiter →
      Fits s.tickets waiterId (act waiter)) : Agrees (s.change waiterId act) := by
  unfold OwnerCore.change
  split
  · exact h
  next waiter hl =>
  refine .of_fits h.sound h.idle (fun identity hm => ?_) h.pairs
    (forall_lookup_insert (ha waiter hl) fun _ _ _ => h.fits)
  rw [lookup_insert_eq]
  split
  · rfl
  · exact h.owned identity hm

theorem Agrees.mark (hl : ∀ waiter, (act waiter).lastCorePhase = waiter.lastCorePhase)
    (hlater : ∀ waiter, (act waiter).later = waiter.later)
    (ha : ∀ waiter, (act waiter).awaiting = waiter.awaiting)
    (hr : ∀ waiter, waiter.ready → (act waiter).ready) : Agrees (s.change waiterId act) := by
  refine h.change fun waiter hlookup => ?_
  obtain ⟨hp, hn, he, hawaits⟩ := h.fits hlookup
  refine ⟨hp, by rwa [hl], fun identity hmem heq hm => ?_, fun identity hawait => ?_⟩
  · have haccepts := he identity hmem heq hm
    unfold accepts at haccepts ⊢
    rwa [hl, hlater]
  rw [ha] at hawait
  obtain ⟨hw, hs, hm, hc⟩ := hawaits identity hawait
  exact ⟨hw, hs, hm, fun hin => hr waiter (hc hin)⟩

theorem Agrees.addWaiter (waiterId : ℕ)
    (hlast : waiter.lastCorePhase = 0) (ha : waiter.awaiting = none) :
    Agrees (s.addWaiter waiterId waiter) := by
  unfold OwnerCore.addWaiter
  split
  · exact h
  next hf =>
  have habsent : s.waiters.lookup waiterId = none := by
    cases hl : s.waiters.lookup waiterId with
    | none => rfl
    | some => exact absurd (.inr (by rw [hl]; rfl)) hf
  have ho : ∀ identity ∈ s.tickets.wake.registered, identity.waiterId ≠ waiterId := by
    intro identity hm heq
    have hs := h.owned identity hm
    rw [heq, habsent] at hs
    cases hs
  refine .of_fits h.sound h.idle (fun identity hm => ?_) h.pairs
    (forall_lookup_insert ?_ fun _ _ _ => h.fits)
  · rw [lookup_insert_ne (ho identity hm)]
    exact h.owned identity hm
  · exact ⟨fun hg => hf (.inl hg), by rw [hlast]; exact Nat.zero_le _,
      fun identity hm heq => absurd heq (ho identity hm), by simp [ha]⟩

theorem Agrees.remove (waiterId : ℕ) : Agrees (s.remove waiterId) := by
  have hs : s.tickets.step (.retireWaiter waiterId) =
      s.tickets.ownerStep (.retireWaiter waiterId) := step_owner h.idle rfl
  have hr : ∀ identity, identity ∈ (s.remove waiterId).tickets.wake.registered ↔
      identity ∈ s.tickets.wake.registered ∧ identity.waiterId ≠ waiterId := by
    intro identity
    unfold OwnerCore.remove
    rw [hs]
    exact mem_filter
  have ht : (s.remove waiterId).tickets = s.tickets.ownerStep (.retireWaiter waiterId) := hs
  refine .of_fits (h.sound.step (.retireWaiter waiterId)) (ht ▸ h.idle)
    (fun identity hm => ?_) (ht ▸ h.pairs) fun o found hf => ?_
  · obtain ⟨hin, hne⟩ := (hr identity).mp hm
    exact (congrArg _ (lookup_erase_ne hne)).trans (h.owned identity hin)
  have hne : o ≠ waiterId := by
    rintro rfl
    cases (lookup_erase _ _).symm.trans hf
  have hfits := h.fits ((lookup_erase_ne hne).symm.trans hf)
  refine hfits.transfer ?_ ?_ (fun identity hm _ => ((hr identity).mp hm).1)
    (fun identity _ heq hmin next hn hw => ?_) (ht ▸ fun _ hm _ => hm)
    (ht ▸ fun _ => id)
  · rw [ht]
    exact fun hg => (mem_insert.mp hg).elim hne hfits.present
  · rw [ht]
    exact congrArg (Option.getD · 0) (AList.lookup_erase_ne hne)
  · refine hmin next ((hr next).mpr ⟨hn, ?_⟩) hw
    rwa [hw, heq]

end

theorem failBegin_tickets (t : Tickets α) (identity : Identity) : t.step (.failBegin identity) = t ∨
      t.step (.failBegin identity) =
        { t with wake := t.wake.drop identity, retired := insert identity t.retired } := by
  show t.failBegin identity = t ∨ t.failBegin identity = _
  unfold Tickets.failBegin
  split
  · exact .inl rfl
  split
  · exact .inr rfl
  · exact .inl rfl

theorem Agrees.failBegin (h : Agrees s) (identity : Identity) : Agrees (s.failBegin identity) := by
  refine guarded h fun hc => ?_
  obtain ⟨hp, hsome, hb⟩ := hc
  have hs := h.sound.step (.failBegin identity)
  rcases failBegin_tickets s.tickets identity with heq | heq
  · rw [heq]
    exact h
  rw [heq] at hs ⊢
  refine h.access hs h.idle rfl (erase_subset _ _) rfl rfl (fun _ => rfl) ?_
  intro i hi hm o hother hw
  by_cases hsame : o = identity
  · -- an operation has no third phase behind the retired one
    subst hsame
    obtain ⟨hne, hireg⟩ := mem_erase.mp hi
    obtain ⟨ho, -⟩ := h.close hother hireg hw
    have hl := (h.pairs ⟨o.waiterId, o.phase - 1⟩ i (by rw [hb]; exact hsome) (hb.trans ho)).2
    change i.phase ≤ o.phase - 1 + 1 at hl
    omega
  · exact hm o (mem_erase.mpr ⟨hsame, hother⟩) hw

def Ordered (s : OwnerCore α) : Prop :=
  ∀ identity ∈ first? s.tickets.wake.ready (fun _ => true),
    ∀ waiter ∈ s.waiters.lookup identity.waiterId, waiter.later → Least s.tickets identity

instance (s : OwnerCore α) : Decidable s.Ordered := inferInstanceAs (Decidable (∀ _ ∈ _, _))

theorem Agrees.expects_after (h : Agrees s) (hreg : identity ∈ s.tickets.wake.registered)
    (hlookup : s.waiters.lookup identity.waiterId = some waiter)
    (hordered : waiter.later → Least s.tickets identity)
    (ho : o ∈ s.tickets.wake.registered) (hne : o ≠ identity)
    (hs : o.waiterId = identity.waiterId)
    (hm : ∀ next ∈ s.tickets.wake.registered, next ≠ identity →
      next.waiterId = o.waiterId → o.phase ≤ next.phase) :
    (waiter.absorb identity.phase).accepts o.phase := by
  by_cases hlt : o.phase < identity.phase
  · have hl : Least s.tickets o := by
      intro next hn hw
      by_cases heq : next = identity
      · rw [heq]
        exact hlt.le
      · exact hm next hn heq hw
    have ha := h.expects o ho hl waiter (by rwa [hs])
    have hr : ¬waiter.accepts identity.phase := by
      intro ht
      cases hlater : waiter.later with
      | true =>
        have hf := hordered hlater o ho hs
        omega
      | false =>
        have heq := accepts_le hlater ht ha
        omega
    rw [absorb_of_not hr]
    exact ha
  · have hp : o.phase ≠ identity.phase := by
      intro heq
      apply hne
      cases o
      cases identity
      simp_all
    have hc := (h.close hreg ho hs.symm).2
    have hl : Least s.tickets identity := by
      intro next hn hw
      by_cases heq : next = identity
      · rw [heq]
      · have hle := hm next hn heq (hw.trans hs.symm)
        omega
    have ht := h.expects identity hreg hl waiter hlookup
    exact accepts_next ht (fun _ => by omega) (fun _ => by omega)

variable {identity : Identity}

theorem Agrees.collect (h : Agrees s)
    (hr : identity ∈ s.tickets.wake.registered) (hsound : t.Sound) (hb : t.batch = none)
    (hregistered : t.wake.registered = s.tickets.wake.registered.erase identity)
    (hphase : t.wake.nextPhase = s.tickets.wake.nextPhase)
    (hc : t.collected = insert identity s.tickets.collected)
    (hg : t.gone = s.tickets.gone) (hchannels : t.channels = s.tickets.channels)
    (hordered : ∀ waiter ∈ s.waiters.lookup identity.waiterId, waiter.later →
      Least s.tickets identity) :
    Agrees ({ s with tickets := t }.change identity.waiterId (·.absorb identity.phase)) := by
  obtain ⟨waiter, hl⟩ := isSome_iff_exists.mp (h.owned identity hr)
  have ho : ∀ o, t.operationOf o = s.tickets.operationOf o := by
    intro o
    unfold operationOf
    rw [hchannels]
  have hm : ∀ o, o ∈ t.wake.registered ↔ o ≠ identity ∧ o ∈ s.tickets.wake.registered := by
    intro o
    rw [hregistered, Finset.mem_erase]
  have hlastPhase : ∀ waiterId, t.wake.lastPhase waiterId = s.tickets.wake.lastPhase waiterId := by
    intro waiterId
    unfold lastPhase
    rw [hphase]
  have hstate : { s with tickets := t }.change identity.waiterId (·.absorb identity.phase) =
      ⟨t, s.waiters.insert identity.waiterId (waiter.absorb identity.phase)⟩ := by
    unfold OwnerCore.change
    rw [hl]
  rw [hstate]
  refine .of_fits hsound hb (fun o hin => ?_) (fun i j hsome hs => ?_)
    (forall_lookup_insert ?_ fun waiterId found hd ht => ?_)
  · rw [lookup_insert_eq]
    split
    · rfl
    · exact h.owned o ((hm o).mp hin).2
  · rw [ho] at hsome
    rw [ho, ho] at hs
    exact h.pairs i j hsome hs
  · obtain ⟨hp, hnumbered, -, hawaits⟩ := h.fits hl
    refine ⟨hg ▸ hp, ?_, fun o hin hs hmin => ?_, fun a ha => ?_⟩
    · rw [hlastPhase]
      unfold Waiter.absorb
      split
      · have hk := h.sound.known identity (by simp [outstanding, hr])
        obtain ⟨c, hchannel⟩ := isSome_iff_exists.mp hk
        have habsent := h.sound.present identity (mem_union_left _ hr)
        exact (h.sound.channels identity c hchannel).numbered.resolve_right habsent
      · exact hnumbered
    · obtain ⟨hne, hold⟩ := (hm o).mp hin
      refine h.expects_after hr hl (hordered waiter hl) hold hne hs ?_
      exact fun next hn hnot => hmin next ((hm next).mpr ⟨hnot, hn⟩)
    · rw [absorb_awaiting] at ha
      obtain ⟨hw, hsome, hmin, hready⟩ := hawaits a ha
      refine ⟨hw, by rwa [ho], fun hin next hn => ?_, fun hin => ?_⟩
      · exact hmin ((hm a).mp hin).2 next ((hm next).mp hn).2
      rw [hc] at hin
      apply absorb_ready
      rcases mem_insert.mp hin with rfl | hold
      · exact .inr (h.expects a hr (hmin hr) waiter hl)
      · exact .inl (hready hold)
  · have hf := h.fits ht
    refine hf.transfer (hg ▸ hf.present) (hlastPhase waiterId)
      (fun o hin _ => ((hm o).mp hin).2) (fun o hin heq hmin next hn hs => ?_)
      (fun o hin heq => ?_) (fun o hsome => by rwa [ho])
    · refine hmin next ((hm next).mpr ⟨?_, hn⟩) hs
      rintro rfl
      exact hd (heq.symm.trans hs.symm)
    rw [hc] at hin
    refine (mem_insert.mp hin).resolve_left ?_
    rintro rfl
    exact hd heq.symm

theorem Agrees.absorb (h : Agrees s) (c : Bool) (ho : s.Ordered) : Agrees (s.absorb c) := by
  have hs : ((s.tickets.step (.takeIdentities 1)).step
      (.restoreIdentities (if c then 1 else 0))).Sound := (h.sound.step _).step _
  unfold OwnerCore.absorb
  dsimp only
  rcases absorb_tickets h.sound h.idle c with
    ⟨hb, hq⟩ | ⟨identity, hreg, hf, hb, t', ht, hcases⟩
  · rw [hb]
    exact h.quiet hs hq
  rw [hb, ht]
  rw [ht] at hs
  rcases hcases with ⟨rfl, hq⟩ | ⟨rfl, hr, hp, hc, hn, hg, hchannels⟩
  · exact h.quiet hs hq
  · exact h.collect hreg hs hn hr hp hc hg hchannels (ho identity hf)

variable {waiterId p : ℕ}

theorem register_tickets (hb : t.batch = none)
    {i : List Identity} {wake : CompletionWake} (hp : waiterId ∉ t.gone)
    (hr : t.wake.registerPhases waiterId p = some (i, wake)) :
    t.step (.registerPhases waiterId p) =
      { t with
        wake := wake
        operations := t.operations + 1
        channels := i.foldl
          (fun channels identity => channels.insert identity ⟨t.operations, .live, none, true⟩)
          t.channels } := by
  rw [step_owner hb rfl]
  show t.registerPhases waiterId p = _
  unfold Tickets.registerPhases
  rw [if_neg hp, hr]

def Gapless (s : OwnerCore α) (waiterId : ℕ) : Prop :=
  ∀ waiter ∈ s.waiters.lookup waiterId, waiter.later = false →
    s.tickets.wake.lastPhase waiterId = waiter.lastCorePhase

instance (s : OwnerCore α) (waiterId : ℕ) : Decidable (s.Gapless waiterId) :=
  inferInstanceAs (Decidable (∀ _ ∈ _, _))

theorem Operation.phaseCount_le (o : Operation) : o.phaseCount ≤ 2 := by cases o <;> decide

theorem operation_lt (h : t.Sound) (ho : t.operationOf identity = some o) : o < t.operations := by
  obtain ⟨c, hl, rfl⟩ := map_eq_some_iff.mp ho
  exact (h.channels identity c hl).operation

theorem Agrees.register_pairs (h : Agrees s) (hcount : p ≤ 2)
    (ho : ∀ identity, t.operationOf identity =
      if identity ∈ phases waiterId n p then some s.tickets.operations
      else s.tickets.operationOf identity) (i j : Identity) (hsome : (t.operationOf i).isSome)
    (hs : t.operationOf i = t.operationOf j) :
    i.waiterId = j.waiterId ∧ j.phase ≤ i.phase + 1 := by
  rw [ho] at hsome
  rw [ho, ho] at hs
  split at hs
  · next hi =>
    split at hs
    · next hj =>
      obtain ⟨hiwaiter, hilow, -⟩ := mem_phases.mp hi
      obtain ⟨hjwaiter, -, hjhigh⟩ := mem_phases.mp hj
      exact ⟨hiwaiter.trans hjwaiter.symm, by omega⟩
    · exact absurd (operation_lt h.sound hs.symm) (Nat.lt_irrefl _)
  · next hi =>
    rw [if_neg hi] at hsome
    split at hs
    · exact absurd (operation_lt h.sound hs) (Nat.lt_irrefl _)
    · exact h.pairs i j hsome hs

theorem Agrees.accepts_next (h : Agrees s)
    (hl : s.waiters.lookup waiterId = some waiter) (hg : s.Gapless waiterId)
    (hphase : phase = s.tickets.wake.lastPhase waiterId + 1) :
    waiter.accepts phase := by
  have hnumbered := h.numbered waiterId waiter hl
  unfold accepts
  cases hlater : waiter.later with
  | true =>
    have hlt : waiter.lastCorePhase < phase := by omega
    simpa using hlt
  | false =>
    have hlast := hg waiter hl hlater
    have heq : waiter.lastCorePhase + 1 = phase := by omega
    simpa using heq

theorem Agrees.register (h : Agrees s) {waiter : Waiter} {kept : Finset Identity}
    (hl : s.waiters.lookup waiterId = some waiter) (hcount : p ≤ 2)
    (hfree : ∀ identity ∈ s.tickets.wake.registered, identity.waiterId ≠ waiterId)
    (hg : s.Gapless waiterId) (hsound : t.Sound) (hb : t.batch = none)
    (hgone : t.gone = s.tickets.gone) (hc : t.collected = s.tickets.collected)
    (hr : t.wake.registered = s.tickets.wake.registered ∪ kept)
    (hkept : kept = (phases waiterId (s.tickets.wake.lastPhase waiterId) p).toFinset ∨ kept = ∅)
    (hphase : t.wake.nextPhase = s.tickets.wake.nextPhase.insert waiterId
      (s.tickets.wake.lastPhase waiterId + p))
    (ho : ∀ identity, t.operationOf identity =
      if identity ∈ phases waiterId (s.tickets.wake.lastPhase waiterId) p then
        some s.tickets.operations
      else s.tickets.operationOf identity) :
    Agrees { s with tickets := t } := by
  have hpresent := h.present waiterId (by rw [hl]; rfl)
  have hnew : ∀ identity ∈ phases waiterId (s.tickets.wake.lastPhase waiterId) p,
      s.tickets.operationOf identity = none := by
    intro identity hm
    obtain ⟨rfl, hlow, -⟩ := mem_phases.mp hm
    rw [operationOf, h.sound.unregistered hpresent hlow]
    rfl
  have hp : ∀ identity ∈ kept,
      identity ∈ phases waiterId (s.tickets.wake.lastPhase waiterId) p := by
    intro identity hm
    rcases hkept with rfl | rfl
    · exact mem_toFinset.mp hm
    · cases hm
  have hold : ∀ identity ∈ t.wake.registered, identity ∈ s.tickets.wake.registered ∨
      identity ∈ kept := by
    intro identity hm
    rw [hr] at hm
    exact mem_union.mp hm
  refine .of_fits hsound hb (fun identity hm => ?_) (h.register_pairs hcount ho)
    fun o found hfound => ?_
  · rcases hold identity hm with hin | hin
    · exact h.owned identity hin
    show (s.waiters.lookup identity.waiterId).isSome
    rw [(mem_phases.mp (hp identity hin)).1, hl]
    rfl
  · have hf := h.fits hfound
    have hk : ∀ identity, (s.tickets.operationOf identity).isSome →
        identity ∉ phases waiterId (s.tickets.wake.lastPhase waiterId) p := by
      intro identity hsome hin
      rw [hnew identity hin] at hsome
      cases hsome
    have ho' : ∀ identity, (s.tickets.operationOf identity).isSome →
        (t.operationOf identity).isSome := by
      intro identity hsome
      rwa [ho, if_neg (hk identity hsome)]
    by_cases heq : o = waiterId
    · subst heq
      obtain rfl := some.inj (hl.symm.trans hfound)
      have hlast : t.wake.lastPhase o = s.tickets.wake.lastPhase o + p := by
        rw [lastPhase, hphase, lookup_insert]
        rfl
      have hn : ∀ identity ∈ t.wake.registered, identity.waiterId = o → identity ∈ kept :=
        fun identity hm hs => (hold identity hm).resolve_left fun hin => hfree identity hin hs
      refine ⟨hgone ▸ hpresent, ?_, fun identity hm hs hmin => ?_, fun a ha => ?_⟩
      · exact hlast ▸ hf.numbered.trans (Nat.le_add_right _ _)
      · have hin := hn identity hm hs
        obtain ⟨-, hlow, hh⟩ := mem_phases.mp (hp identity hin)
        have hfirst : (⟨o, s.tickets.wake.lastPhase o + 1⟩ : Identity) ∈
            t.wake.registered := by
          rw [hr]
          apply Finset.mem_union_right
          rcases hkept with rfl | rfl
          · refine mem_toFinset.mpr (mem_phases.mpr ⟨rfl, Nat.lt_succ_self _, ?_⟩)
            show s.tickets.wake.lastPhase o + 1 ≤ _
            omega
          · cases hin
        exact h.accepts_next hl hg (Nat.le_antisymm (hmin _ hfirst hs.symm) hlow)
      · obtain ⟨hw, hsome, -, hready⟩ := hf.awaits a ha
        refine ⟨hw, ho' a hsome, fun hin => ?_, hc ▸ hready⟩
        exact absurd (hp a (hn a hin hw)) (hk a hsome)
    · have hprev : ∀ identity ∈ t.wake.registered, identity.waiterId = o →
          identity ∈ s.tickets.wake.registered := by
        intro identity hm hs
        refine (hold identity hm).resolve_right fun hin => heq ?_
        exact hs.symm.trans (mem_phases.mp (hp identity hin)).1
      refine hf.transfer (hgone ▸ hf.present) ?_ hprev (fun identity _ _ hmin next hnext => ?_)
        (fun _ hm _ => hc ▸ hm) ho'
      · rw [lastPhase, hphase, lookup_insert_ne heq]
        rfl
      · exact hmin next (hr ▸ mem_union_left _ hnext)

theorem Agrees.start (h : Agrees s) (waiterId : ℕ) (o : Operation)
    (admitted : Bool) (hg : s.Gapless waiterId) :
    Agrees (s.start waiterId o admitted) := by
  refine guarded h fun hruns => ?_
  split
  · exact h
  next hr =>
  obtain ⟨waiter, hl, -⟩ := (any_eq_true _ _).mp hruns
  have hp := h.present waiterId (by rw [hl]; rfl)
  have hs := register_tickets h.idle hp hr
  have hsound := h.sound.step (.registerPhases waiterId o.phaseCount)
  have hcount := Operation.phaseCount_le o
  obtain ⟨hf, -, rfl, rfl⟩ := registerPhases_some hr
  have hc : ∀ identity, ((phases waiterId (s.tickets.wake.lastPhase waiterId)
      o.phaseCount).foldl (fun channels identity =>
        channels.insert identity ⟨s.tickets.operations, .live, none, true⟩)
      s.tickets.channels).lookup identity = _ :=
    lookup_foldl_insert _ _ _
  have ho : ∀ identity, (s.tickets.step
      (.registerPhases waiterId o.phaseCount)).operationOf identity =
      if identity ∈ phases waiterId (s.tickets.wake.lastPhase waiterId)
        o.phaseCount then some s.tickets.operations
      else s.tickets.operationOf identity := by
    intro identity
    rw [hs]
    unfold operationOf
    rw [hc]
    split <;> rfl
  split
  · refine h.register hl hcount hf hg hsound ?_ ?_ ?_ ?_ (.inl rfl) ?_ ho
    all_goals rw [hs]
    exact h.idle
  -- the phases stay numbered when the operation is not admitted
  obtain ⟨hretired, hregistered, hphase, hcollected, hb, hgone, hchannels⟩ :=
    retire_all (phases waiterId (s.tickets.wake.lastPhase waiterId)
      o.phaseCount) (by rw [hs]; exact h.idle) (by
        intro identity hm
        rw [hs]
        rw [hc, if_pos hm]
        rfl) hsound
  refine h.register hl hcount hf hg hretired hb ?_ ?_ ?_ (.inr rfl) ?_ ?_
  · rw [hgone, hs]
  · rw [hcollected, hs]
  · rw [hregistered, hs]
    ext identity
    simp only [Finset.mem_sdiff, Finset.mem_union, List.mem_toFinset, Finset.notMem_empty, or_false]
    constructor
    · rintro ⟨hin | hin, hn⟩
      · exact hin
      · exact absurd hin hn
    · intro hin
      exact ⟨Or.inl hin, fun hm => hf identity hin (mem_phases.mp hm).1⟩
  · rw [hphase, hs]
  · intro identity
    rw [← ho]
    unfold operationOf
    rw [hchannels]

theorem Agrees.wait (h : Agrees s) (hw : s.Waits identity) :
    Agrees (s.change identity.waiterId fun waiter =>
      { waiter with ready := false, deadlineReady := false, awaiting := some identity }) := by
  obtain ⟨-, hu, hleast, channel, hc, ht, hp⟩ := hw
  refine h.change fun waiter hl => ?_
  have hf := h.fits hl
  refine ⟨hf.present, hf.numbered, hf.expects, fun awaited ha => ?_⟩
  cases ha
  refine ⟨rfl, ?_, fun _ => hleast, fun hcollected => ?_⟩
  · unfold operationOf
    rw [hc]
    rfl
  · exact absurd hp (h.sound.collected_answers hcollected hu hc ht)

def Restartable (s : OwnerCore α) (waiterId : ℕ) : Prop :=
  ∀ identity ∈ s.tickets.wake.registered, identity.waiterId = waiterId →
    Least s.tickets identity → identity.phase = 1

instance (s : OwnerCore α) (waiterId : ℕ) : Decidable (s.Restartable waiterId) :=
  inferInstanceAs (Decidable (∀ _ ∈ _, _))

theorem Agrees.handOver (h : Agrees s) (hr : s.Restartable waiterId) :
    Agrees (s.change waiterId fun waiter =>
      if waiter.obligation then waiter else .retained) := by
  refine h.change fun waiter hl => ?_
  cases hk : waiter.obligation with
  | true => exact h.fits hl
  | false =>
    refine ⟨(h.fits hl).present, Nat.zero_le _, fun identity hm heq hmin => ?_, nofun⟩
    rw [hr identity hm heq hmin]
    rfl

/-- A waiter starts an operation when its numbered phases were all accepted, a request is handed
over before any was, and the phases of a spawn are collected in order. -/
def Steady (s : OwnerCore α) : Turn α → Prop
  | .start waiterId _ _ => s.Gapless waiterId
  | .handOver waiterId => s.Restartable waiterId
  | .absorb _ => s.Ordered
  | _ => True

instance (s : OwnerCore α) (turn : Turn α) : Decidable (s.Steady turn) := by
  cases turn <;> unfold Steady <;> infer_instance

theorem Agrees.lapse (h : Agrees s) (waiterId : ℕ) : Agrees (s.lapse waiterId) := by
  unfold OwnerCore.lapse
  split
  · exact h
  split
  · split
    · exact h.mark (fun _ => rfl) (fun _ => rfl) (fun _ => rfl) (fun _ hr => hr)
    · exact h.remove waiterId
  · exact h

variable [DecidableEq α]

theorem Agrees.step (h : Agrees s) (hs : s.Steady turn) : Agrees (s.step turn) := by
  cases turn with
  | trySend => exact h.quiet (h.sound.step _) (quiet_trySend _ _ _)
  | publishSent => exact h.quiet (h.sound.step _) (quiet_publishSent _ _)
  | dropSender => exact h.quiet (h.sound.step _) (quiet_dropSender _ _)
  | publishDropped => exact h.quiet (h.sound.step _) (quiet_publishDropped _ _)
  | failBegin identity => exact h.failBegin identity
  | request waiterId | retain waiterId => exact h.addWaiter waiterId rfl rfl
  | take => exact h.quiet (h.sound.step _) (quiet_take h.idle)
  | absorb c => exact h.absorb c hs
  | start waiterId o a => exact h.start waiterId o a hs
  | read identity => exact guarded h fun _ => h.quiet (h.sound.step _) (quiet_poll h.idle identity)
  | wait => exact guarded h fun hw => h.wait hw
  | again | mark => exact h.mark (fun _ => rfl) (fun _ => rfl) (fun _ => rfl) (fun _ _ => rfl)
  | finish waiterId => exact guarded h fun _ => h.remove waiterId
  | deadline =>
    refine h.mark ?_ ?_ ?_ ?_
    all_goals
      intro waiter
      unfold markDeadline
    · split
      · split <;> rfl
      · rfl
    · split
      · split <;> rfl
      · rfl
    · split
      · split <;> rfl
      · rfl
    intro hr
    split
    · split
      · rfl
      · exact hr
    · exact hr
  | lapse waiterId => exact h.lapse waiterId
  | handOver => exact h.handOver hs

theorem Agrees.run (h : Agrees s)
    (hs : Machine.Along (fun s turn => some (s.step turn)) Steady s turns) :
    Agrees (s.run turns) := by
  induction turns generalizing s with
  | nil => exact h
  | cons turn _ ih =>
    obtain ⟨hf, hr⟩ := hs
    exact ih (h.step hf) (hr (s.step turn) rfl)

/-- In a steady run a waiter whose awaited phase was collected is ready, and none is stranded. -/
theorem run_reaches_waiter (turns : List (Turn α))
    (hsteady : Machine.Along (fun s turn => some (s.step turn)) Steady (new : OwnerCore α) turns) :
    (∀ waiterId, ∀ waiter ∈ ((new : OwnerCore α).run turns).waiters.lookup waiterId,
      ∀ identity ∈ waiter.awaiting,
        identity ∈ ((new : OwnerCore α).run turns).tickets.collected → waiter.ready = true) ∧
      ∀ waiterId, ¬((new : OwnerCore α).run turns).Stranded waiterId := by
  have h : Agrees ((new : OwnerCore α).run turns) := agrees_new.run hsteady
  refine ⟨fun waiterId waiter hlookup identity hawait => ?_, ?_⟩
  · exact (h.awaits waiterId waiter hlookup identity hawait).2.2.2
  · rintro waiterId ⟨waiter, hlookup, identity, hawait, hcollected, hidle, -⟩
    rw [(h.awaits waiterId waiter hlookup identity hawait).2.2.2 hcollected] at hidle
    cases hidle

def twoPhases : List (Turn ℕ) :=
  [.request 1 true false, .start 1 .submit true, .wait ⟨1, 1⟩, .trySend ⟨1, 1⟩ 0,
    .publishSent ⟨1, 1⟩, .take, .absorb true, .read ⟨1, 1⟩, .start 1 .begin true,
    .wait ⟨1, 2⟩, .trySend ⟨1, 2⟩ 0, .publishSent ⟨1, 2⟩, .take, .absorb true]

theorem run_reaches_waiter_two :
    Machine.Along (fun s turn => some (s.step turn)) Steady (new : OwnerCore ℕ) twoPhases ∧
      ∀ waiterId, ¬((new : OwnerCore ℕ).run twoPhases).Stranded waiterId := by
  have hsteady : Machine.Along (fun s turn => some (s.step turn)) Steady (new : OwnerCore ℕ)
      twoPhases := by decide +kernel
  exact ⟨hsteady, (run_reaches_waiter twoPhases hsteady).2⟩

/-- Both phases of a shutdown whose classification was refused are collected, and the request that
waits for them is not ready and has no deadline left. -/
theorem shutdown_stranded : ((new : OwnerCore ℕ).run
      [.request 1 true false, .start 1 .submit false, .start 1 .begin true, .wait ⟨1, 2⟩,
        .trySend ⟨1, 2⟩ 0, .publishSent ⟨1, 2⟩, .take, .absorb true, .trySend ⟨1, 3⟩ 0,
        .publishSent ⟨1, 3⟩, .take, .absorb true, .deadline 1, .lapse 1]).Stranded 1 := by
  decide +kernel

end OwnerCore

end BotsterHub.Owner
