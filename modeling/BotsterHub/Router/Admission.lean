import BotsterHub.Router.Generations
import BotsterHub.Router.RegistryLedger

/-!
The registrations stay sound.

Unloading, committing and staging keep `Sound` and fail no `expect`; a refused commit gives back
what it started from. `supply` is the multiset of holder generations in use: it only grows by what
is staged.
-/

namespace BotsterHub.Router

open Multiset List Option AList PluginAdmissionSnapshot Registry

namespace Registry

structure Sound (policy : Policy) (r : Registry) : Prop where
  indexed : r.Indexed []
  keyed : r.Keyed
  names : r.NamesExact
  perPlugin_le : ∀ plugin, r.registered plugin ≤ policy.subscriptionsPerPluginMax
  perEvent_le : ∀ owner name, (r.subscribersOf owner name).length ≤ policy.subscribersPerEventMax
  pendingOwned : ∀ pending ∈ r.pending, ∀ contract ∈ pending.contracts,
    contract.owner = pending.owner

def pendingGenerations (r : Registry) : Multiset ℕ :=
  r.pending.elim 0 fun pending => generationsOf pending.subscriptions

def supply (r : Registry) : Multiset ℕ := r.generations + r.pendingGenerations

variable {policy : Policy} {r r' r'' : Registry}

structure Shrunk (policy : Policy) (r r' : Registry) : Prop where
  sound : r'.Sound policy
  narrows : Narrows r r'
  pending_eq : r'.pending = r.pending

theorem Shrunk.refl (h : r.Sound policy) : Shrunk policy r r := ⟨h, Narrows.refl r, rfl⟩

theorem Shrunk.trans (h : Shrunk policy r r') (h' : Shrunk policy r' r'') : Shrunk policy r r'' :=
  ⟨h'.sound, h.narrows.trans h'.narrows, h'.pending_eq.trans h.pending_eq⟩

theorem Shrunk.supply_le (h : Shrunk policy r r') : r'.supply ≤ r.supply := by
  rw [supply, supply, pendingGenerations, pendingGenerations, h.pending_eq]
  exact add_le_add_left h.narrows.generations_le _

theorem Sound.trimmed (h : r.Sound policy) (ht : Trimmed r r') : Shrunk policy r r' where
  sound :=
    { indexed := ht.indexed
      keyed := ht.narrows.keyed h.keyed
      names := by
        rw [NamesExact, ht.names_eq]
        refine Counts.congr h.names fun name => ?_
        rw [declarers, declarers, ht.contracts_eq]
      perPlugin_le := fun p => (ht.narrows.registered_le p).trans (h.perPlugin_le p)
      perEvent_le := fun owner name =>
        (ht.narrows.length_le owner name).trans (h.perEvent_le owner name)
      pendingOwned := ht.pending_eq ▸ h.pendingOwned }
  narrows := ht.narrows
  pending_eq := ht.pending_eq

theorem Sound.setContracts (h : r.Sound policy) {counts : Dict String ℕ}
    {contracts : Dict String (Dict String EmittedContract)}
    (hn : NamesExact { r with contractNameCounts := counts, contracts := contracts }) :
    Shrunk policy r { r with contractNameCounts := counts, contracts := contracts } where
  sound := ⟨⟨h.indexed.perPlugin, h.indexed.byPlugin⟩, h.keyed, hn, h.perPlugin_le, h.perEvent_le,
    h.pendingOwned⟩
  narrows := fun _ _ => Sublist.refl _
  pending_eq := rfl

theorem Sound.removeContract (h : r.Sound policy) (owner name : String) :
    ∃ r', r.removeContract owner name = some r' ∧ Shrunk policy r r' := by
  obtain ⟨counts, contracts, hs, hn⟩ := h.names.removeContract owner name
  exact ⟨_, hs, h.setContracts hn⟩

theorem Sound.foldlM_shrunk {α : Type} (step : Registry → α → Option Registry)
    (hs : ∀ r a, r.Sound policy → ∃ r', step r a = some r' ∧ Shrunk policy r r')
    (l : List α) (h : r.Sound policy) :
    ∃ r', l.foldlM step r = some r' ∧ Shrunk policy r r' := by
  induction l generalizing r with
  | nil => exact ⟨r, rfl, Shrunk.refl h⟩
  | cons a l ih =>
    obtain ⟨r', ha, hr'⟩ := hs r a h
    obtain ⟨r'', hl, hr''⟩ := ih hr'.sound
    exact ⟨r'', by rw [foldlM_cons, ha]; exact hl, hr'.trans hr''⟩

section

variable (h : r.Sound policy)
include h

theorem Sound.eraseEmptyOwner
    {events : Dict String EmittedContract} (hl : r.contracts.lookup owner = some events)
    (he : events.isEmpty) :
    Shrunk policy r { r with contracts := r.contracts.erase owner } := by
  refine h.setContracts (Counts.congr h.names fun name => ?_)
  rw [declarers, total_erase r.contracts _ hl, isEmpty_iff.mp he name]
  exact Nat.zero_add _

theorem Sound.unloadContracts (owner : String) (g : ℕ) :
    ∃ r', r.unloadContracts owner g = some r' ∧ Shrunk policy r r' := by
  obtain ⟨left, hf, hleft⟩ := h.foldlM_shrunk (fun r => r.removeContract owner)
    (fun r name hr => hr.removeContract owner name)
    ((((r.contracts.lookup owner).getD ∅).entries.filter fun e =>
      decide (e.2.packageGeneration ≤ g)).map Sigma.fst)
  refine ⟨_, by rw [Registry.unloadContracts, hf]; rfl, ?_⟩
  cases hl : left.contracts.lookup owner with
  | none => simpa using hleft
  | some events =>
    cases he : events.isEmpty with
    | false => simpa [he] using hleft
    | true => simpa [he] using hleft.trans (hleft.sound.eraseEmptyOwner hl he)

theorem Sound.setClients (holders : Dict String (Dict String (List RegisteredClientEventHolder)))
    (byId : Dict (String × String) (String × String)) :
    Shrunk policy r { r with clientHolders := holders, clientById := byId } :=
  ⟨⟨⟨h.indexed.perPlugin, h.indexed.byPlugin⟩, h.keyed, h.names, h.perPlugin_le, h.perEvent_le,
    h.pendingOwned⟩, fun _ _ => Sublist.refl _, rfl⟩

theorem Sound.unloadClients (owner : String) (g : ℕ) :
    Shrunk policy r (r.unloadClients owner g) := by
  unfold Registry.unloadClients
  split
  · exact Shrunk.refl h
  · exact h.setClients _ _

theorem Sound.unloadRegistrations (owner : String) (g : ℕ) :
    ∃ r', r.unloadRegistrations owner g = some r' ∧ Shrunk policy r r' := by
  obtain ⟨r₁, h₁, hr₁⟩ := h.unloadContracts owner g
  obtain ⟨r₂, h₂, hr₂⟩ := hr₁.sound.foldlM_shrunk (fun r => r.removeUnloadedSubscriptions owner g)
    (fun r key hr => by
      obtain ⟨r', hs, ht⟩ := removeUnloadedSubscriptions_spec hr.indexed owner g key
      exact ⟨r', hs, hr.trimmed ht⟩)
    (r₁.unloadSubscriptionKeys owner)
  exact ⟨r₂.unloadClients owner g, by simp [Registry.unloadRegistrations, h₁, h₂],
    (hr₁.trans hr₂).trans (hr₂.sound.unloadClients owner g)⟩

theorem Sound.unsubscribeClientLocked (c subscriptionId : String) :
    Shrunk policy r (r.unsubscribeClientLocked c subscriptionId).2 := by
  unfold Registry.unsubscribeClientLocked
  split
  · exact Shrunk.refl h
  dsimp only
  split
  · exact h.setClients _ _
  · split <;> exact h.setClients _ _

theorem Sound.cleanupClientHolder (c subscriptionId : String)
    (m : ℕ) : Shrunk policy r (r.cleanupClientHolder c subscriptionId m) := by
  unfold Registry.cleanupClientHolder
  split
  · exact Shrunk.refl h
  dsimp only
  split
  · exact h.unsubscribeClientLocked c subscriptionId
  · exact Shrunk.refl h

theorem Sound.subscribeClientLocked (holder : ClientEventHolder) :
    Shrunk policy r (r.subscribeClientLocked policy holder).2 := by
  unfold Registry.subscribeClientLocked
  split_ifs
  · exact Shrunk.refl h
  · exact Shrunk.refl h
  split
  · exact Shrunk.refl h
  dsimp only
  split
  · exact Shrunk.refl h
  split
  · exact Shrunk.refl h
  · split <;> exact h.setClients _ _

end

theorem subscribeLocked_eq (policy : Policy) (r : Registry) (s : EventSubscription) :
    r.subscribeLocked policy s = (r.subscribeStatus policy s,
      if r.subscribeStatus policy s = .accepted then r.fileSubscription s else r) := by
  unfold subscribeLocked
  by_cases h : r.subscribeStatus policy s = .accepted
  · simp [h]
  · simp [h]

variable {s : EventSubscription}

theorem Sound.fileSubscription (h : r.Sound policy)
    (hs : r.subscribeStatus policy s = .accepted) : (r.fileSubscription s).Sound policy := by
  obtain ⟨hplugin, he⟩ := subscriptionAdmissionStatus_accepted hs
  have hc := h.indexed.count_eq s.pluginKey
  refine ⟨h.indexed.fileSubscription s, h.keyed.fileSubscription s, h.names, fun p => ?_,
    fun owner name => ?_, h.pendingOwned⟩
  · rw [registered_fileSubscription]
    split
    · next hp =>
      subst hp
      omega
    · exact h.perPlugin_le p
  · rw [subscribersOf_fileSubscription]
    split
    · rw [length_append, length_singleton]
      omega
    · exact h.perEvent_le owner name

variable {l : List EventSubscription}

theorem Sound.subscribeAll (h : r.Sound policy) (hok : r.subscribeAll policy l = .ok r') :
    r'.Sound policy ∧ r'.pending = r.pending ∧
      r'.generations = generationsOf l + r.generations := by
  induction l generalizing r with
  | nil =>
    obtain rfl : r = r' := Except.ok.inj hok
    exact ⟨h, rfl, (zero_add _).symm⟩
  | cons s l ih =>
    rw [subscribeAll, subscribeLocked_eq] at hok
    by_cases hs : r.subscribeStatus policy s = .accepted
    · simp only [hs, if_true] at hok
      obtain ⟨hsound, hp, hg⟩ := ih (h.fileSubscription hs) hok
      refine ⟨hsound, hp, ?_⟩
      rw [hg, generations_fileSubscription, add_cons]
      exact (cons_add ..).symm
    · cases hstatus : r.subscribeStatus policy s <;> simp_all

structure AgreesOutside (events : List (String × String)) (plugins : List String)
    (r r' : Registry) : Prop where
  subscriptions : ∀ owner name, (owner, name) ∉ events →
    r'.subscriptions.get₂ owner name = r.subscriptions.get₂ owner name
  perPlugin : ∀ plugin ∉ plugins,
    r'.subscriptionsPerPlugin.lookup plugin = r.subscriptionsPerPlugin.lookup plugin
  byPlugin : ∀ plugin ∉ plugins,
    r'.subscriptionEventsByPlugin.lookup plugin = r.subscriptionEventsByPlugin.lookup plugin

variable {events : List (String × String)} {plugins : List String} {owner : String}

theorem AgreesOutside.refl (r : Registry) : AgreesOutside events plugins r r :=
  ⟨fun _ _ _ => rfl, fun _ _ => rfl, fun _ _ => rfl⟩

theorem AgreesOutside.trans (h : AgreesOutside events plugins r r')
    (h' : AgreesOutside events plugins r' r'') : AgreesOutside events plugins r r'' :=
  ⟨fun o n hk => (h'.subscriptions o n hk).trans (h.subscriptions o n hk),
    fun p hp => (h'.perPlugin p hp).trans (h.perPlugin p hp),
    fun p hp => (h'.byPlugin p hp).trans (h.byPlugin p hp)⟩

theorem AgreesOutside.fileSubscription (he : (s.owner, s.name) ∈ events)
    (hp : s.pluginKey ∈ plugins) : AgreesOutside events plugins r (r.fileSubscription s) := by
  refine ⟨fun o n hk => ?_, fun p hk => ?_, fun p hk => ?_⟩
  · rw [Registry.fileSubscription, get₂_insert₂, if_neg]
    rintro ⟨rfl, rfl⟩
    exact hk he
  · rw [Registry.fileSubscription, bump, lookup_insert_eq, if_neg]
    rintro rfl
    exact hk hp
  rw [Registry.fileSubscription, bump₂, lookup_insert_eq, if_neg]
  rintro rfl
  exact hk hp

theorem AgreesOutside.subscribeAll (events : List (String × String)) (plugins : List String)
    (hl : ∀ s ∈ l, (s.owner, s.name) ∈ events ∧ s.pluginKey ∈ plugins)
    (hsub : r.subscribeAll policy l = .error (status, r')) :
    AgreesOutside events plugins r r' ∧ r'.pending = r.pending ∧
      r'.contracts = r.contracts ∧ r'.contractNameCounts = r.contractNameCounts := by
  induction l generalizing r with
  | nil => cases hsub
  | cons s l ih =>
    rw [subscribeAll, subscribeLocked_eq] at hsub
    obtain ⟨he, hp⟩ := hl s mem_cons_self
    by_cases hs : r.subscribeStatus policy s = .accepted
    · simp only [hs, if_true] at hsub
      obtain ⟨ha, hpending, hc, hcounts⟩ := ih (fun t ht => hl t (mem_cons_of_mem s ht)) hsub
      exact ⟨(AgreesOutside.fileSubscription he hp).trans ha, hpending, hc, hcounts⟩
    · have heq : r = r' := by cases hstatus : r.subscribeStatus policy s <;> simp_all
      exact heq ▸ ⟨AgreesOutside.refl r, rfl, rfl, rfl⟩

theorem AgreesOutside.releaseAll
    (hl : ∀ e ∈ released, e.1 ∈ plugins) (h : r.releaseAll released = some r') :
    AgreesOutside events plugins r r' := by
  induction released generalizing r with
  | nil =>
    obtain rfl : r = r' := some.inj h
    exact AgreesOutside.refl r
  | cons e _ ih =>
    rw [releaseAll, foldlM_cons] at h
    obtain ⟨next, hn, hr⟩ := bind_eq_some_iff.mp h
    refine AgreesOutside.trans ?_ (ih (fun a ha => hl a (mem_cons_of_mem e ha)) hr)
    obtain ⟨perPlugin, hper, hn⟩ := bind_eq_some_iff.mp hn
    obtain ⟨byPlugin, hby, hn⟩ := bind_eq_some_iff.mp hn
    cases hn
    have hm := hl e mem_cons_self
    exact ⟨fun _ _ _ => rfl, fun p hp => lookup_unbump_of_ne hper fun h => hp (h ▸ hm),
      fun p hp => lookup_unbump₂_of_ne hby fun h => hp (h ▸ hm)⟩

theorem AgreesOutside.bindRegistrations
    (he : ∀ e ∈ ((r.subscriptions.lookup owner).getD ∅).entries, (owner, e.1) ∈ events)
    (hp : ∀ e ∈ ((r.subscriptions.lookup owner).getD ∅).entries, ∀ s ∈ e.2, s.pluginKey ∈ plugins)
    (h : r.bindRegistrations owner g = some r') : AgreesOutside events plugins r r' := by
  unfold Registry.bindRegistrations at h
  cases hl : r.subscriptions.lookup owner with
  | none =>
    obtain rfl : r = r' := by simpa [hl] using h
    exact AgreesOutside.refl r
  | some b =>
    simp only [hl, getD_some] at h he hp
    have hset : AgreesOutside events plugins r (r.setEvents owner (b.filterMapVal
        (boundTo (r.declaresForPlugins owner) g))) := by
      refine ⟨fun o n hk => ?_, fun _ _ => rfl, fun _ _ => rfl⟩
      rw [setEvents, get₂_setBucket]
      split
      · next ho =>
        subst ho
        have hnone : b.lookup n = none := by
          cases hn : b.lookup n with
          | none => rfl
          | some => exact absurd (he _ (mem_entries_of_lookup hn)) hk
        rw [lookup_filterMapVal, get₂, hl, hnone, bind_some, hnone]
        rfl
      · rfl
    refine hset.trans (AgreesOutside.releaseAll (fun e hm => ?_) h)
    obtain ⟨entry, hentry, hin⟩ := mem_flatMap.mp hm
    split at hin
    · cases hin
    · obtain ⟨s, hs, rfl⟩ := mem_map.mp hin
      exact hp entry hentry s hs

theorem NamesExact.restoreContracts (h : r.NamesExact) (snapshot : AdmissionSnapshot) :
    ∃ counts contracts, r.restoreContracts snapshot =
        some { r with contractNameCounts := counts, contracts := contracts } ∧
      NamesExact { r with contractNameCounts := counts, contracts := contracts } := by
  have hf (l : List (Sigma fun _ : String => Option EmittedContract)) (r : Registry)
      (h : r.NamesExact) :
      ∃ counts contracts, l.foldlM (fun r e => r.restoreContract snapshot.owner e.1 e.2) r =
          some { r with contractNameCounts := counts, contracts := contracts } ∧
        NamesExact { r with contractNameCounts := counts, contracts := contracts } := by
    induction l generalizing r with
    | nil => exact ⟨r.contractNameCounts, r.contracts, rfl, h⟩
    | cons e l ih =>
      obtain ⟨name, saved⟩ := e
      cases saved with
      | some c =>
        obtain ⟨counts, contracts, hr, he⟩ := ih _ (h.insertContract c)
        exact ⟨counts, contracts, hr, he⟩
      | none =>
        obtain ⟨counts, contracts, hs, he⟩ := h.removeContract snapshot.owner name
        obtain ⟨counts', contracts', hr, he'⟩ := ih _ he
        refine ⟨counts', contracts', ?_, he'⟩
        rw [foldlM_cons, restoreContract, hs]
        exact hr
  obtain ⟨counts, contracts, hs, he⟩ := hf snapshot.contracts.entries r h
  rw [Registry.restoreContracts, hs]
  by_cases hn : snapshot.hadContractOwner && (contracts.lookup snapshot.owner).isNone
  · refine ⟨counts, contracts.insert snapshot.owner ∅, congrArg some (if_pos hn),
      he.congr fun name => ?_⟩
    have hl : contracts.lookup snapshot.owner = none := by simp_all
    exact ((contracts.total_insert_of_none _ ∅ hl).trans (Nat.zero_add _)).symm
  · exact ⟨counts, contracts, congrArg some (if_neg hn), he⟩

theorem get₂_restoreSubscriptions (owners : List String)
    (m : Dict String (Dict String (List EventSubscription))) (key : String × String)
    (saved : Option (List EventSubscription)) (j : String × String) :
    (restoreSubscriptions owners m key saved).get₂ j.1 j.2 =
      if j = key then saved else m.get₂ j.1 j.2 := by
  obtain ⟨o, n⟩ := key
  obtain ⟨o', n'⟩ := j
  simp only [Prod.mk.injEq]
  cases saved with
  | some l => exact get₂_insert₂ m o o' n n' l
  | none =>
    unfold restoreSubscriptions
    cases hl : m.lookup o with
    | none =>
      by_cases hj : o' = o
      · subst hj
        simp [get₂, hl]
      · simp [hj]
    | some events =>
      have hleft : (if (events.erase n).isEmpty && !owners.contains o then m.erase o
          else m.insert o (events.erase n)).get₂ o' n' =
          if o' = o then (events.erase n).lookup n' else m.get₂ o' n' := by
        split
        · next he =>
          rw [get₂_erase_eq]
          split
          · exact (isEmpty_iff.mp (Bool.and_eq_true_iff.mp he).1 n').symm
          · rfl
        · rw [get₂_insert_eq]
      refine hleft.trans ?_
      rw [lookup_erase_eq]
      by_cases ho : o' = o
      · subst ho
        by_cases hn : n' = n
        · simp [hn]
        · simp [hn, get₂, hl]
      · simp [ho]

structure Restored (r r' : Registry) : Prop where
  subscriptions : ∀ owner name, r'.subscriptions.get₂ owner name = r.subscriptions.get₂ owner name
  perPlugin : ∀ plugin,
    r'.subscriptionsPerPlugin.lookup plugin = r.subscriptionsPerPlugin.lookup plugin
  byPlugin : ∀ plugin,
    r'.subscriptionEventsByPlugin.lookup plugin = r.subscriptionEventsByPlugin.lookup plugin

theorem Restored.subscribersOf_eq (h : Restored r r') (owner name : String) :
    r'.subscribersOf owner name = r.subscribersOf owner name := by
  rw [subscribersOf, subscribersOf, h.subscriptions]

theorem Restored.indexed (h : Restored r r') (hi : r.Indexed []) : r'.Indexed [] := by
  constructor
  · intro p
    rw [h.perPlugin, hi.perPlugin]
    congr 2
    exact (subscriberTotal_congr rfl h.subscribersOf_eq).symm
  · refine ⟨fun p key => ?_, fun p b hb => ?_⟩
    · rw [get₂, h.byPlugin, h.subscribersOf_eq]
      exact hi.byPlugin.get₂_eq p key
    · rw [h.byPlugin] at hb
      exact hi.byPlugin.nonempty p b hb

theorem Restored.sound (h : Restored r r') (hr : r.Sound policy) (hn : r'.NamesExact)
    (hp : r'.pending = r.pending) : Shrunk policy r r' := by
  have hnarrows : Narrows r r' := fun owner name => by rw [h.subscribersOf_eq]
  refine ⟨⟨h.indexed hr.indexed, hnarrows.keyed hr.keyed, hn, fun p => ?_,
    fun owner name => ?_, hp ▸ hr.pendingOwned⟩, hnarrows, hp⟩
  · exact (hnarrows.registered_le p).trans (hr.perPlugin_le p)
  · exact (hnarrows.length_le owner name).trans (hr.perEvent_le owner name)

/-- What a failed commit changed is restored from the snapshot. -/
theorem restoreAdmission_spec (contracts : List EmittedContract)
    {subscriptions : List EventSubscription} (hr : r.Sound policy) (hn : r'.NamesExact)
    (hp : r'.pending = r.pending)
    (h : AgreesOutside (r.commitFootprint owner subscriptions).1
      (r.commitFootprint owner subscriptions).2 r r') :
    ∃ r'', r'.restoreAdmission (r.snapshotAdmission owner contracts subscriptions) = some r'' ∧
      Shrunk policy r r'' := by
  obtain ⟨c, contracts', hs, he⟩ :=
    hn.restoreContracts (r.snapshotAdmission owner contracts subscriptions)
  refine ⟨restoreRegistrations { r' with contractNameCounts := c, contracts := contracts' }
    (r.snapshotAdmission owner contracts subscriptions), by rw [restoreAdmission, hs]; rfl,
    Restored.sound ⟨fun o n => ?_, fun p => ?_, fun p => ?_⟩ hr he hp⟩
  · exact foldl_restore _ (fun m (j : String × String) => m.get₂ j.1 j.2) id
      (fun m e => get₂_restoreSubscriptions _ m e.1 e.2)
      (fun key => r.subscriptions.get₂ key.1 key.2) _ r'.subscriptions
      (fun key => h.subscriptions key.1 key.2) (o, n)
  · exact foldl_restore _ (fun (m : Dict String ℕ) (j : String) => m.lookup j)
      count (fun m e j => lookup_put m e.1 j e.2.count)
      r.pluginSnapshot _ r'.subscriptionsPerPlugin h.perPlugin p
  · exact foldl_restore _
      (fun (m : Dict String (Dict (String × String) ℕ)) (j : String) => m.lookup j)
      events (fun m e j => lookup_put m e.1 j e.2.events)
      r.pluginSnapshot _ r'.subscriptionEventsByPlugin h.byPlugin p

theorem NamesExact.foldl_insertContract (l : List EmittedContract) (generation : ℕ)
    (h : r.NamesExact) :
    ∃ counts contracts, l.foldl
        (fun r contract => r.insertContract { contract with packageGeneration := generation }) r =
        { r with contractNameCounts := counts, contracts := contracts } ∧
      NamesExact { r with contractNameCounts := counts, contracts := contracts } := by
  induction l generalizing r with
  | nil => exact ⟨r.contractNameCounts, r.contracts, rfl, h⟩
  | cons contract l ih =>
    obtain ⟨counts, contracts, hr, he⟩ :=
      ih (h.insertContract { contract with packageGeneration := generation })
    exact ⟨counts, contracts, hr, he⟩

/-- A commit ends sound, registers at most the given subscriptions, and leaves the staged generation
alone. -/
structure Committed (policy : Policy) (subscriptions : List EventSubscription)
    (r r' : Registry) : Prop where
  sound : r'.Sound policy
  pending_eq : r'.pending = r.pending
  generations_le : r'.generations ≤ r.generations + generationsOf subscriptions

theorem Shrunk.committed (h : Shrunk policy r r') (subscriptions : List EventSubscription) :
    Committed policy subscriptions r r' :=
  ⟨h.sound, h.pending_eq, h.narrows.generations_le.trans (le_add_right _ _)⟩

theorem Sound.commitRegistrations (h : r.Sound policy)
    {contracts : List EmittedContract} (hown : ∀ c ∈ contracts, c.owner = owner)
    (subscriptions : List EventSubscription) :
    ∃ result r', r.commitRegistrations policy owner contracts subscriptions = some (result, r') ∧
      Committed policy subscriptions r r' := by
  have hg : (contracts.any fun contract => contract.owner != owner) = false := by simpa using hown
  unfold Registry.commitRegistrations
  rw [hg]
  simp only [Bool.false_eq_true, if_false]
  split
  · exact ⟨_, r, rfl, (Shrunk.refl h).committed subscriptions⟩
  set generation := (r.bumpPackageGeneration owner).1
  obtain ⟨counts, contracts', hf, hn⟩ :=
    NamesExact.foldl_insertContract (r := (r.bumpPackageGeneration owner).2) contracts generation
      h.names
  set declared : Registry :=
    { (r.bumpPackageGeneration owner).2 with contractNameCounts := counts, contracts := contracts' }
  have hd : Shrunk policy r declared :=
    ⟨⟨⟨h.indexed.perPlugin, h.indexed.byPlugin⟩, h.keyed, hn, h.perPlugin_le, h.perEvent_le,
      h.pendingOwned⟩, fun _ _ => Sublist.refl _, rfl⟩
  obtain ⟨bound, hbind, ht⟩ := bindRegistrations_spec hd.sound.indexed owner generation
  have hb : Shrunk policy r bound := hd.trans (hd.sound.trimmed ht)
  simp only [hf, hbind, bind_eq_bind, bind_some]
  cases hsub : bound.subscribeAll policy subscriptions with
  | ok r' =>
    obtain ⟨hsound, hp, hgen⟩ := hb.sound.subscribeAll hsub
    refine ⟨_, r', rfl, hsound, hp.trans hb.pending_eq, ?_⟩
    rw [hgen, add_comm]
    exact add_le_add_left hb.narrows.generations_le _
  | error refused =>
    obtain ⟨status, r'⟩ := refused
    obtain ⟨ha, hp, hc, hcounts⟩ := AgreesOutside.subscribeAll
      (r.commitFootprint owner subscriptions).1 (r.commitFootprint owner subscriptions).2
      (fun s hs => ⟨mem_append_left _ (mem_map_of_mem hs),
        mem_append_left _ (mem_map_of_mem hs)⟩) hsub
    have hbindAgree : AgreesOutside (r.commitFootprint owner subscriptions).1
        (r.commitFootprint owner subscriptions).2 declared bound :=
      AgreesOutside.bindRegistrations (fun e he => mem_append_right _ (mem_map_of_mem he))
        (fun e he s hs => mem_append_right _ (mem_flatMap.mpr ⟨e, he, mem_map_of_mem hs⟩)) hbind
    have hsame : AgreesOutside (r.commitFootprint owner subscriptions).1
        (r.commitFootprint owner subscriptions).2 r declared :=
      ⟨fun _ _ _ => rfl, fun _ _ => rfl, fun _ _ => rfl⟩
    have ho := (hsame.trans hbindAgree).trans ha
    have hn' : r'.NamesExact := by
      rw [NamesExact, hcounts]
      refine Counts.congr hb.sound.names fun name => ?_
      rw [declarers, declarers, hc]
    obtain ⟨r'', hr, hshrunk⟩ := restoreAdmission_spec contracts h hn' (hp.trans hb.pending_eq) ho
    exact ⟨.error status, r'', by simp [hr], hshrunk.committed subscriptions⟩

theorem checkedSub_of_le (h : b ≤ a) : checkedSub a b = some (a - b) := by simp [checkedSub, h]

section

variable (r : Registry)

theorem replacementRemovals_fst (owner p : String) :
    ((r.replacementRemovals owner).1.lookup p).getD 0 =
      (r.unloadRemovals owner).countP fun e => e.1 = p := by
  have h := Counts.foldl_bump (fun e : String × String × String => e.1)
    (r.unloadRemovals owner) counts_empty
  rw [show (r.replacementRemovals owner).1.lookup p = _ from h p, positive_getD]
  exact Nat.zero_add _

theorem replacementRemovals_snd (owner : String) (key : String × String) :
    ((r.replacementRemovals owner).2.lookup key).getD 0 =
      (r.unloadRemovals owner).countP fun e => e.2 = key := by
  have h := Counts.foldl_bump (fun e : String × String × String => e.2)
    (r.unloadRemovals owner) counts_empty
  rw [show (r.replacementRemovals owner).2.lookup key = _ from h key, positive_getD]
  exact Nat.zero_add _

theorem countP_unloadRemovals_le (owner p : String) :
    (r.unloadRemovals owner).countP (fun e => decide (e.1 = p)) ≤ r.registered p := by
  refine le_trans ?_ (AList.sum_get₂_le_total₂ r.subscriptions (pluginCount p)
    (r.unloadSubscriptionKeys owner) (nodup_dedup _))
  rw [unloadRemovals, countP_flatMap]
  refine sum_le_sum fun key _ => ?_
  rw [elim_eq_subscribersOf rfl, Function.comp_apply, List.countP_map]
  exact (filter_sublist).countP_le

theorem countP_unloadRemovals_event_le (owner : String) (key : String × String) :
    (r.unloadRemovals owner).countP (fun e => decide (e.2 = key)) ≤
      (r.subscribersOf key.1 key.2).length := by
  have hlist (l : List (String × String)) (hl : l.Nodup) :
      (l.flatMap fun k => ((r.subscribersOf k.1 k.2).filter
        (unloadRemovesRegistration owner (r.generationOf owner))).map
          fun s => (s.pluginKey, k)).countP (fun e => decide (e.2 = key)) ≤
        if key ∈ l then (r.subscribersOf key.1 key.2).length else 0 := by
    induction l with
    | nil => simp
    | cons k l ih =>
      obtain ⟨hk, hl'⟩ := nodup_cons.mp hl
      rw [List.flatMap_cons, List.countP_append, List.countP_map]
      by_cases hkey : key = k
      · subst hkey
        have hr := ih hl'
        rw [if_neg hk] at hr
        rw [if_pos List.mem_cons_self]
        have hlen : ((r.subscribersOf key.1 key.2).filter
            (unloadRemovesRegistration owner (r.generationOf owner))).countP
            ((fun e : String × String × String => decide (e.2 = key)) ∘
              fun s => (s.pluginKey, key)) ≤ (r.subscribersOf key.1 key.2).length :=
          countP_le_length.trans (length_filter_le _ _)
        omega
      · have hz : ((r.subscribersOf k.1 k.2).filter
            (unloadRemovesRegistration owner (r.generationOf owner))).countP
            ((fun e : String × String × String => decide (e.2 = key)) ∘
              fun s => (s.pluginKey, k)) = 0 :=
          countP_eq_zero.mpr fun s _ => by simp [Ne.symm hkey]
        rw [hz, Nat.zero_add]
        simpa [hkey] using ih hl'
  refine (hlist _ (nodup_dedup _)).trans ?_
  split
  · exact le_rfl
  · exact Nat.zero_le _

end

theorem Indexed.pluginCountAfter_isSome (h : r.Indexed []) (owner p : String) :
    (r.pluginCountAfter (r.replacementRemovals owner).1 p).isSome := by
  rw [pluginCountAfter, replacementRemovals_fst, h.count_eq,
    checkedSub_of_le (countP_unloadRemovals_le r owner p)]
  rfl

theorem eventCountAfter_isSome (r : Registry) (owner : String) (key : String × String) :
    (r.eventCountAfter (r.replacementRemovals owner).2 key).isSome := by
  rw [eventCountAfter, replacementRemovals_snd,
    checkedSub_of_le (countP_unloadRemovals_event_le r owner key)]
  rfl

theorem previewSubscriptions_isSome (h : r.Indexed []) (owner : String)
    (proposed : Dict String EmittedContract) (l : List EventSubscription)
    (pluginCounts : Dict String ℕ) (e : Dict (String × String) ℕ) :
    (r.previewSubscriptions policy owner proposed (r.replacementRemovals owner) l
      pluginCounts e).isSome := by
  induction l generalizing pluginCounts e with
  | nil => rfl
  | cons s l ih =>
    obtain ⟨p, hp⟩ : ∃ p, (pluginCounts.lookup s.pluginKey).or
        (r.pluginCountAfter (r.replacementRemovals owner).1 s.pluginKey) = some p :=
      isSome_iff_exists.mp (by simp [h.pluginCountAfter_isSome])
    obtain ⟨n, hn⟩ : ∃ n, (e.lookup (s.owner, s.name)).or
        (r.eventCountAfter (r.replacementRemovals owner).2 (s.owner, s.name)) = some n :=
      isSome_iff_exists.mp (by simp [eventCountAfter_isSome])
    simp only [previewSubscriptions, hp, hn, bind_eq_bind, bind_some]
    split
    · rfl
    · exact ih _ _

theorem previewPackageReplacement_isSome (policy : Policy) (h : r.Indexed []) (owner : String)
    (c : List EmittedContract) (subscriptions : List EventSubscription) :
    (r.previewPackageReplacement policy owner c subscriptions).isSome := by
  unfold previewPackageReplacement
  split
  · rfl
  · exact previewSubscriptions_isSome h owner _ subscriptions ∅ ∅

theorem Sound.setPending (h : r.Sound policy) {pending : Option PendingGeneration}
    (hp : ∀ p ∈ pending, ∀ c ∈ p.contracts, c.owner = p.owner) :
    Sound policy { r with pending := pending } :=
  ⟨⟨h.indexed.perPlugin, h.indexed.byPlugin⟩, h.keyed, h.names, h.perPlugin_le, h.perEvent_le, hp⟩

theorem Sound.stagePackageGeneration (h : r.Sound policy) (owner : String)
    (contracts : List EmittedContract) (subscriptions : List EventSubscription)
    (retainedBytes : PendingGeneration → ℕ) (reservedBytes : ℕ) :
    ∃ result r', r.stagePackageGeneration policy owner contracts subscriptions retainedBytes
        reservedBytes = some (result, r') ∧ r'.Sound policy ∧
      r'.supply ≤ r.supply + generationsOf subscriptions := by
  have hs : r.supply ≤ r.supply + generationsOf subscriptions := le_add_right _ _
  unfold Registry.stagePackageGeneration
  split
  · exact ⟨_, r, rfl, h, hs⟩
  split
  · exact ⟨_, r, rfl, h, hs⟩
  next hpending =>
  split
  · exact ⟨_, r, rfl, h, hs⟩
  next ho =>
  obtain ⟨preview, hpreview⟩ := isSome_iff_exists.mp
    (previewPackageReplacement_isSome policy h.indexed owner contracts subscriptions)
  rw [hpreview, map_some]
  cases preview with
  | error => exact ⟨_, r, rfl, h, hs⟩
  | ok =>
    dsimp only
    split
    · exact ⟨_, r, rfl, h, hs⟩
    refine ⟨_, _, rfl, h.setPending ?_, ?_⟩
    · intro p hp c hc
      cases hp
      change c.owner = owner
      by_contra hne
      exact ho (any_eq_true.mpr ⟨c, hc, by simp [hne]⟩)
    · have hn : r.pending = none := by simpa using hpending
      rw [supply, supply, pendingGenerations, pendingGenerations, hn, elim_none, add_zero]
      exact le_rfl

theorem takeStaged_eq (r : Registry) (staged : StagedGeneration) : r.takeStaged staged = (none, r) ∨
      ∃ pending, r.pending = some pending ∧
        r.takeStaged staged = (some pending, { r with pending := none }) := by
  unfold takeStaged
  cases hp : r.pending with
  | none => exact .inl rfl
  | some pending =>
    dsimp only
    split
    · exact .inr ⟨pending, rfl, rfl⟩
    · exact .inl rfl

theorem supply_of_pending {pending : PendingGeneration} (hp : r.pending = some pending) :
    r.supply = { r with pending := none }.supply + generationsOf pending.subscriptions := by
  rw [supply, supply, pendingGenerations, pendingGenerations, hp, elim_some, elim_none, add_zero]
  rfl

theorem Sound.discard (h : r.Sound policy) : Sound policy { r with pending := none } :=
  h.setPending fun p hp => by cases hp

end Registry

end BotsterHub.Router
