import BotsterHub.Router.Registry

/-!
The indexes of the registrations.

Every registration is counted per plugin, and per plugin and event. Bulk removals return their
counts afterwards, so `Indexed` carries those still owed. `Narrows`: an operation only drops or
rebinds registrations.
-/

namespace BotsterHub.Router

open Multiset List Option AList

namespace Registry

def subscriberTotal {M : Type} [AddCommMonoid M] (r : Registry)
    (f : List EventSubscription → M) : M :=
  r.subscriptions.total₂ f

def pluginCount (plugin : String) (l : List EventSubscription) : ℕ :=
  l.countP fun s => s.pluginKey = plugin

def registered (r : Registry) (plugin : String) : ℕ := r.subscriberTotal (pluginCount plugin)

def generationsOf (l : List EventSubscription) : Multiset ℕ :=
  (l.map EventSubscription.generation : List ℕ)

theorem generationsOf_append (l l' : List EventSubscription) :
    generationsOf (l ++ l') = generationsOf l + generationsOf l' := by
  rw [generationsOf, map_append, ← coe_add]
  rfl

def generations (r : Registry) : Multiset ℕ := r.subscriberTotal generationsOf

section Totals

variable {M : Type} [AddCommMonoid M] {r r' : Registry} {f : List EventSubscription → M}

theorem elim_eq_subscribersOf (hf : f [] = 0) (r : Registry) (owner name : String) :
    (r.subscriptions.get₂ owner name).elim 0 f = f (r.subscribersOf owner name) := by
  rw [subscribersOf]
  cases r.subscriptions.get₂ owner name with
  | none => exact hf.symm
  | some => rfl

theorem subscriberTotal_congr (hf : f [] = 0)
    (h : ∀ owner name, r'.subscribersOf owner name = r.subscribersOf owner name) :
    r'.subscriberTotal f = r.subscriberTotal f := by
  refine total₂_eq_of_get₂_eq _ _ _ fun owner name => ?_
  rw [elim_eq_subscribersOf hf, elim_eq_subscribersOf hf, h]

theorem subscriberTotal_of_update (hf : f [] = 0)
    (h : ∀ o n, r'.subscribersOf o n = if o = owner ∧ n = name then l else r.subscribersOf o n) :
    r'.subscriberTotal f + f (r.subscribersOf owner name) = r.subscriberTotal f + f l := by
  have hm := total₂_insert₂_getD r.subscriptions f owner name l [] hf
  have hs : r'.subscriberTotal f = (r.subscriptions.insert₂ owner name l).total₂ f := by
    refine total₂_eq_of_get₂_eq _ _ _ fun o n => ?_
    rw [elim_eq_subscribersOf hf, h, get₂_insert₂]
    split
    · rfl
    · rw [elim_eq_subscribersOf hf]
  rw [hs]
  exact hm

theorem subscriberTotal_mono [PartialOrder M] [IsOrderedAddMonoid M] (hf : f [] = 0)
    (h : ∀ owner name, f (r'.subscribersOf owner name) ≤ f (r.subscribersOf owner name)) :
    r'.subscriberTotal f ≤ r.subscriberTotal f := by
  refine total₂_le_of_get₂_le _ _ _ fun owner name => ?_
  rw [elim_eq_subscribersOf hf, elim_eq_subscribersOf hf]
  exact h owner name

end Totals

theorem generationsOf_le (r : Registry) (owner name : String) :
    generationsOf (r.subscribersOf owner name) ≤ r.generations := by
  cases ho : r.subscriptions.lookup owner with
  | none =>
    rw [subscribersOf, get₂, ho]
    exact zero_le _
  | some events =>
    cases hn : events.lookup name with
    | none =>
      rw [subscribersOf, get₂, ho, bind_some, hn]
      exact zero_le _
    | some l =>
      have he : generationsOf l ≤ events.total generationsOf := by
        rw [total_erase events _ hn]
        exact le_add_right _ _
      rw [subscribersOf, get₂, ho, bind_some, hn, getD_some]
      refine he.trans ?_
      rw [generations, subscriberTotal, total₂, total_erase r.subscriptions _ ho]
      exact le_add_right _ _

def core (s : EventSubscription) : String × String × String × ℕ :=
  (s.pluginKey, s.owner, s.name, s.generation)

def Narrows (r r' : Registry) : Prop :=
  ∀ owner name, ((r'.subscribersOf owner name).map core).Sublist
    ((r.subscribersOf owner name).map core)

variable {r r' r'' : Registry}

theorem Narrows.refl (r : Registry) : Narrows r r := fun _ _ => Sublist.refl _

theorem Narrows.trans (h : Narrows r r') (h' : Narrows r' r'') : Narrows r r'' :=
  fun owner name => (h' owner name).trans (h owner name)

theorem Narrows.length_le (h : Narrows r r') (owner name : String) :
    (r'.subscribersOf owner name).length ≤ (r.subscribersOf owner name).length := by
  simpa using (h owner name).length_le

theorem pluginCount_eq_map (p : String) (l : List EventSubscription) :
    pluginCount p l = (l.map core).countP fun c => c.1 = p := by
  rw [pluginCount, List.countP_map]
  rfl

theorem Narrows.registered_le (h : Narrows r r') (p : String) :
    r'.registered p ≤ r.registered p := by
  refine subscriberTotal_mono rfl fun owner name => ?_
  rw [pluginCount_eq_map, pluginCount_eq_map]
  exact (h owner name).countP_le

theorem Narrows.generations_le (h : Narrows r r') : r'.generations ≤ r.generations := by
  refine subscriberTotal_mono rfl fun owner name => ?_
  have hm (l : List EventSubscription) : l.map EventSubscription.generation =
      (l.map core).map fun c => c.2.2.2 := by
    rw [List.map_map]
    rfl
  rw [generationsOf, generationsOf, hm, hm]
  exact coe_le.mpr ((h owner name).map _).subperm

def Keyed (r : Registry) : Prop :=
  ∀ owner name, ∀ s ∈ r.subscribersOf owner name, s.owner = owner ∧ s.name = name

theorem Narrows.keyed (h : Narrows r r') (hk : r.Keyed) : r'.Keyed := by
  intro owner name s hs
  obtain ⟨s', hs', hc⟩ := mem_map.mp ((h owner name).subset (mem_map_of_mem hs))
  have hold := hk owner name s' hs'
  simp only [core, Prod.mk.injEq] at hc
  exact ⟨hc.2.1 ▸ hold.1, hc.2.2.1 ▸ hold.2⟩

/-- Both indexes count the registrations, and on top the plugins and events in `owed`. -/
structure Indexed (owed : List (String × String × String)) (r : Registry) : Prop where
  perPlugin : r.subscriptionsPerPlugin.Counts fun plugin =>
    r.registered plugin + owed.countP fun e => e.1 = plugin
  byPlugin : r.subscriptionEventsByPlugin.Counts₂ fun plugin key =>
    pluginCount plugin (r.subscribersOf key.1 key.2) + owed.countP fun e => e.1 = plugin ∧ e.2 = key

theorem Indexed.count_eq (h : r.Indexed []) (p : String) :
    (r.subscriptionsPerPlugin.lookup p).getD 0 = r.registered p := by
  rw [h.perPlugin, positive_getD]
  rfl

variable {owed : List (String × String × String)}

theorem Indexed.release (h : r.Indexed (e :: owed)) :
    ∃ perPlugin b, r.releaseRegistrationCounts e.1 e.2 =
        some { r with subscriptionsPerPlugin := perPlugin, subscriptionEventsByPlugin := b } ∧
      Indexed owed { r with
        subscriptionsPerPlugin := perPlugin
        subscriptionEventsByPlugin := b } := by
  obtain ⟨perPlugin, hper, hcount⟩ := h.perPlugin.unbump (k := e.1)
    (Nat.add_pos_right _ (countP_pos_iff.mpr ⟨e, mem_cons_self, by simp⟩))
  obtain ⟨b, hby, hcount₂⟩ := h.byPlugin.unbump₂ (k := e.1) (i := e.2)
    (Nat.add_pos_right _ (countP_pos_iff.mpr ⟨e, mem_cons_self, by simp⟩))
  refine ⟨perPlugin, b, by simp [releaseRegistrationCounts, hper, hby], ?_, ?_⟩
  · refine hcount.congr fun p => ?_
    change _ = r.registered p + _
    by_cases hp : p = e.1
    · subst hp
      simp
    · simp [hp, Ne.symm hp]
  · refine hcount₂.congr fun p key => ?_
    change _ = pluginCount p (r.subscribersOf key.1 key.2) + _
    by_cases hp : p = e.1 ∧ key = e.2
    · obtain ⟨rfl, rfl⟩ := hp
      simp
    · have hp' : ¬(e.1 = p ∧ e.2 = key) := fun hc => hp ⟨hc.1.symm, hc.2.symm⟩
      simp [hp, hp']

theorem Indexed.releaseAll (released : List (String × String × String)) (h : r.Indexed released) :
    ∃ perPlugin byPlugin, r.releaseAll released =
        some { r with
          subscriptionsPerPlugin := perPlugin
          subscriptionEventsByPlugin := byPlugin } ∧
      Indexed [] { r with
        subscriptionsPerPlugin := perPlugin
        subscriptionEventsByPlugin := byPlugin } := by
  induction released generalizing r with
  | nil => exact ⟨_, _, rfl, h⟩
  | cons _ _ ih =>
    obtain ⟨a, b, hs, hr⟩ := h.release
    obtain ⟨a', b', hrest, hr'⟩ := ih hr
    refine ⟨a', b', ?_, hr'⟩
    rw [Registry.releaseAll, foldlM_cons, hs]
    exact hrest

@[simp] theorem pluginCount_nil (p : String) : pluginCount p [] = 0 := rfl

theorem pluginCount_append_singleton (p : String) (l : List EventSubscription)
    (s : EventSubscription) : pluginCount p (l ++ [s]) =
      pluginCount p l + if p = s.pluginKey then 1 else 0 := by
  simp [pluginCount, countP_append, countP_singleton, decide_eq_true_eq, eq_comm (a := p)]

theorem subscriptionAdmissionStatus_accepted
    (h : subscriptionAdmissionStatus policy s c a p e = .accepted) :
    p < policy.subscriptionsPerPluginMax ∧ e < policy.subscribersPerEventMax := by
  unfold subscriptionAdmissionStatus at h
  split_ifs at h
  omega

theorem subscribersOf_fileSubscription (r : Registry) (s : EventSubscription)
    (owner name : String) :
    (r.fileSubscription s).subscribersOf owner name =
      if owner = s.owner ∧ name = s.name then
        r.subscribersOf s.owner s.name ++ [r.boundSubscription s]
      else r.subscribersOf owner name := by
  simp only [subscribersOf, fileSubscription, get₂_insert₂]
  split <;> rfl

theorem registered_fileSubscription (r : Registry) (s : EventSubscription) (p : String) :
    (r.fileSubscription s).registered p = r.registered p + if p = s.pluginKey then 1 else 0 := by
  have hm := subscriberTotal_of_update (f := pluginCount p) rfl (subscribersOf_fileSubscription r s)
  rw [pluginCount_append_singleton] at hm
  change _ + _ = _ + (_ + if p = s.pluginKey then 1 else 0) at hm
  simp only [registered]
  omega

theorem generations_fileSubscription (r : Registry) (s : EventSubscription) :
    (r.fileSubscription s).generations = s.generation ::ₘ r.generations := by
  have hm := subscriberTotal_of_update (f := generationsOf) rfl (subscribersOf_fileSubscription r s)
  have ha : generationsOf (r.subscribersOf s.owner s.name ++ [r.boundSubscription s]) =
      {s.generation} + generationsOf (r.subscribersOf s.owner s.name) := by
    rw [generationsOf, generationsOf, map_append, ← coe_add, add_comm]
    rfl
  rw [ha, ← add_assoc] at hm
  rw [generations, add_right_cancel hm, add_comm, singleton_add]
  rfl

theorem Indexed.fileSubscription (h : r.Indexed []) (s : EventSubscription) :
    (r.fileSubscription s).Indexed [] := by
  constructor
  · refine (h.perPlugin.bump s.pluginKey).congr fun p => ?_
    rw [registered_fileSubscription]
    by_cases hp : p = s.pluginKey
    · subst hp
      simp
    · simp [hp]
  · refine (h.byPlugin.bump₂ s.pluginKey (s.owner, s.name)).congr fun p key => ?_
    rw [subscribersOf_fileSubscription]
    by_cases hk : key.1 = s.owner ∧ key.2 = s.name
    · obtain ⟨owner, name⟩ := key
      obtain ⟨rfl, rfl⟩ := hk
      simp only [and_true, and_self, if_true, countP_nil, Nat.add_zero,
        pluginCount_append_singleton]
      change _ = _ + if p = s.pluginKey then 1 else 0
      split <;> rfl
    · have hk' : ¬(p = s.pluginKey ∧ key = (s.owner, s.name)) := by
        rintro ⟨-, rfl⟩
        exact hk ⟨rfl, rfl⟩
      simp [hk, hk']

theorem Keyed.fileSubscription (h : r.Keyed) (s : EventSubscription) :
    (r.fileSubscription s).Keyed := by
  intro owner name t ht
  rw [subscribersOf_fileSubscription] at ht
  split at ht
  · next hk =>
    rcases mem_append.mp ht with ht | ht
    · rw [hk.1, hk.2]
      exact h _ _ t ht
    · obtain rfl := List.mem_singleton.mp ht
      exact ⟨hk.1.symm, hk.2.symm⟩
  · exact h owner name t ht

structure Trimmed (r r' : Registry) : Prop where
  indexed : r'.Indexed []
  narrows : Narrows r r'
  contracts_eq : r'.contracts = r.contracts
  names_eq : r'.contractNameCounts = r.contractNameCounts
  pending_eq : r'.pending = r.pending
  generation_eq : r'.packageGeneration = r.packageGeneration

theorem Trimmed.refl (h : r.Indexed []) : Trimmed r r := ⟨h, Narrows.refl r, rfl, rfl, rfl, rfl⟩

theorem Trimmed.of_releaseAll
    (hi : r'.Indexed released) (hn : Narrows r r') (hc : r'.contracts = r.contracts)
    (hnames : r'.contractNameCounts = r.contractNameCounts) (hp : r'.pending = r.pending)
    (hg : r'.packageGeneration = r.packageGeneration) :
    ∃ r'', r'.releaseAll released = some r'' ∧ Trimmed r r'' := by
  obtain ⟨a, b, hs, hindexed⟩ := hi.releaseAll
  exact ⟨_, hs, hindexed, hn, hc, hnames, hp, hg⟩

variable {events : Dict String (List EventSubscription)}

theorem subscribersOf_setSubscribers
    (h : r.subscriptions.lookup owner = some events) (name : String) (l : List EventSubscription)
    (o n : String) :
    (r.setSubscribers owner name events l).subscribersOf o n =
      if o = owner ∧ n = name then l else r.subscribersOf o n := by
  have hp : (if l.isEmpty then events.erase name else events.insert name l) =
      events.put name (if l.isEmpty then none else some l) := by
    split <;> rfl
  rw [subscribersOf, setSubscribers, setEvents, get₂_setBucket, hp, lookup_put]
  by_cases ho : o = owner
  · subst ho
    by_cases hn : n = name
    · simp only [hn, and_self, if_true]
      cases l <;> rfl
    · simp [hn, subscribersOf, get₂, h]
  · simp [ho, subscribersOf]

theorem Indexed.setSubscribers (h : r.Indexed []) {owner name : String}
    (hl : r.subscriptions.lookup owner = some events) {kept removed : List EventSubscription}
    (hp : (kept.map core ++ removed.map core).Perm ((r.subscribersOf owner name).map core)) :
    (r.setSubscribers owner name events kept).Indexed
      (removed.map fun s => (s.pluginKey, owner, name)) := by
  have hv := subscribersOf_setSubscribers hl name kept
  have hc (p : String) : pluginCount p (r.subscribersOf owner name) =
      pluginCount p kept + pluginCount p removed := by
    simp [pluginCount_eq_map, ← hp.countP_eq, countP_append]
  constructor
  · refine h.perPlugin.congr fun p => ?_
    have hm := subscriberTotal_of_update (f := pluginCount p) rfl hv
    have ho : (removed.map fun s => (s.pluginKey, owner, name)).countP
        (fun e => decide (e.1 = p)) = pluginCount p removed := by
      rw [List.countP_map]
      rfl
    rw [ho]
    simp only [registered, countP_nil, Nat.add_zero]
    rw [hc] at hm
    omega
  · refine h.byPlugin.congr fun p key => ?_
    obtain ⟨o, n⟩ := key
    have ho : (removed.map fun s => (s.pluginKey, owner, name)).countP
        (fun e => decide (e.1 = p ∧ e.2 = (o, n))) =
        if o = owner ∧ n = name then pluginCount p removed else 0 := by
      rw [List.countP_map]
      split
      · next hk =>
        obtain ⟨rfl, rfl⟩ := hk
        exact countP_congr fun s _ => by simp
      next hk =>
      refine countP_eq_zero.mpr fun s _ => ?_
      simp only [Function.comp_apply, Prod.mk.injEq, decide_eq_true_eq]
      rintro ⟨-, rfl, rfl⟩
      exact hk ⟨rfl, rfl⟩
    rw [hv, ho]
    by_cases hk : o = owner ∧ n = name
    · obtain ⟨rfl, rfl⟩ := hk
      simp [hc]
    · simp [hk]

theorem removeUnloadedSubscriptions_spec (h : r.Indexed []) (owner : String) (generation : ℕ)
    (key : String × String) :
    ∃ r', r.removeUnloadedSubscriptions owner generation key = some r' ∧ Trimmed r r' := by
  obtain ⟨o, n⟩ := key
  unfold removeUnloadedSubscriptions
  cases hl : r.subscriptions.lookup o with
  | none => exact ⟨r, rfl, Trimmed.refl h⟩
  | some events =>
    cases hn : events.lookup n with
    | none => exact ⟨r, by simp [hn], Trimmed.refl h⟩
    | some subscriptions =>
      have hs : r.subscribersOf o n = subscriptions := by simp [subscribersOf, get₂, hl, hn]
      simp only [hn]
      set removed := subscriptions.filter (unloadRemovesRegistration owner generation)
      set left := subscriptions.filter fun s => !unloadRemovesRegistration owner generation s
      set kept := left.map fun s => if s.owner = owner ∧ s.eventGeneration ≤ generation then
        { s with eventGeneration := waitingEventGeneration } else s with hkept
      have hc : kept.map core = left.map core := by
        rw [hkept, List.map_map]
        refine map_congr_left fun s _ => ?_
        simp only [Function.comp_apply]
        split <;> rfl
      have hp : (kept.map core ++ removed.map core).Perm (subscriptions.map core) := by
        rw [hc, ← map_append]
        exact (perm_append_comm.trans (filter_append_perm _ _)).map core
      refine Trimmed.of_releaseAll (h.setSubscribers hl (hs ▸ hp)) (fun o' n' => ?_) rfl rfl rfl rfl
      rw [subscribersOf_setSubscribers hl]
      split
      · next hk =>
        rw [hk.1, hk.2, hs, hc]
        exact filter_sublist.map core
      · exact Sublist.refl _

section Bind

variable (d : String → Bool) (g : ℕ)

private theorem countP_refusedAtBind (owner p : String)
    (l : List (Sigma fun _ : String => List EventSubscription)) :
    ((l.filterMap fun e => (boundTo d g e.1 e.2).map
        (Sigma.mk (β := fun _ : String => List EventSubscription) e.1)).map
      fun e => pluginCount p e.2).sum +
      (refusedAtBind d owner l).countP (fun e => decide (e.1 = p)) =
    (l.map fun e => pluginCount p e.2).sum := by
  induction l with
  | nil => rfl
  | cons e l ih =>
    obtain ⟨name, subscriptions⟩ := e
    simp only [refusedAtBind, List.flatMap_cons, List.countP_append, List.map_cons,
      List.sum_cons] at ih ⊢
    cases hd : d name with
    | false =>
      have hb : boundTo d g name subscriptions = none := by simp [boundTo, hd]
      have hc : (subscriptions.map fun s => (s.pluginKey, owner, name)).countP
          (fun e => decide (e.1 = p)) = pluginCount p subscriptions := by
        rw [List.countP_map]
        rfl
      simp only [List.filterMap_cons, hb, Option.map_none, Bool.false_eq_true, if_false, hc]
      omega
    | true =>
      cases subscriptions with
      | nil => simpa [boundTo, hd] using ih
      | cons s subscriptions =>
        simp only [List.filterMap_cons, boundTo, hd, Bool.true_and, List.isEmpty_cons,
          Bool.not_false, if_true, Option.map_some, List.countP_nil, Nat.zero_add,
          pluginCount_eq_map, List.map_map, List.map_cons, List.sum_cons] at ih ⊢
        change List.countP _ (core s :: subscriptions.map core) + _ + _ = _
        omega

private theorem countP_refusedAtBind_event (owner p : String) (key : String × String)
    (hl : l.NodupKeys) :
    (refusedAtBind d owner l).countP (fun e => decide (e.1 = p ∧ e.2 = key)) =
      if key.1 = owner ∧ d key.2 = false then
        pluginCount p ((l.dlookup key.2).getD []) else 0 := by
  induction l with
  | nil => simp [refusedAtBind]
  | cons e l ih =>
    obtain ⟨name, subscriptions⟩ := e
    obtain ⟨o, n⟩ := key
    have hl' := nodupKeys_cons.mp hl
    rw [refusedAtBind, flatMap_cons, countP_append]
    change _ + (refusedAtBind d owner l).countP _ = _
    rw [ih hl'.2]
    by_cases hn : n = name
    · subst hn
      have hr : l.dlookup n = none := dlookup_eq_none.mpr hl'.1
      rw [dlookup_cons_eq, hr]
      cases hd : d n with
      | true => simp
      | false =>
        simp only [Bool.false_eq_true, if_false, and_true, getD_none, getD_some,
          pluginCount_nil, ite_self, Nat.add_zero, List.countP_map]
        by_cases ho : o = owner
        · subst ho
          rw [if_pos rfl]
          exact List.countP_congr fun s _ => by simp
        rw [if_neg ho]
        refine List.countP_eq_zero.mpr fun s _ => ?_
        simp [Ne.symm ho]
    · rw [dlookup_cons_ne _ _ hn]
      have hz : (if d name then [] else subscriptions.map fun s =>
          (s.pluginKey, owner, name)).countP (fun e => decide (e.1 = p ∧ e.2 = (o, n))) = 0 := by
        refine countP_eq_zero.mpr fun s hs => ?_
        split at hs
        · cases hs
        · obtain ⟨t, -, rfl⟩ := mem_map.mp hs
          simp [Ne.symm hn]
      rw [hz, Nat.zero_add]

variable {owner : String} {events : Dict String (List EventSubscription)}

theorem subscribersOf_bound (hl : r.subscriptions.lookup owner = some events) (o n : String) :
    (r.setEvents owner (events.filterMapVal (boundTo d g))).subscribersOf o n =
      if o = owner then
        if d n then (r.subscribersOf o n).map fun s => { s with eventGeneration := g }
        else []
      else r.subscribersOf o n := by
  rw [subscribersOf, setEvents, get₂_setBucket]
  split
  · next ho =>
    subst ho
    rw [lookup_filterMapVal, subscribersOf, get₂, hl, bind_some]
    cases events.lookup n with
    | none => simp
    | some l =>
      cases l with
      | nil => simp [boundTo]
      | cons => cases hd : d n <;> simp [boundTo, hd]
  · rfl

theorem registered_setEvents (hl : r.subscriptions.lookup owner = some events)
    (bound : Dict String (List EventSubscription)) (p : String) :
    (r.setEvents owner bound).registered p + events.total (pluginCount p) =
      r.registered p + bound.total (pluginCount p) := by
  have hempty (b : Dict String (List EventSubscription)) (he : b.isEmpty) :
      b.total (pluginCount p) = 0 := by
    rw [AList.total, List.isEmpty_iff.mp he]
    rfl
  have hm := r.subscriptions.total_setBucket _ hempty owner bound
  rw [hl, getD_some] at hm
  exact hm

theorem Indexed.bound (h : r.Indexed []) (hl : r.subscriptions.lookup owner = some events) :
    (r.setEvents owner (events.filterMapVal (boundTo d g))).Indexed
      (refusedAtBind d owner events.entries) := by
  constructor
  · refine h.perPlugin.congr fun p => ?_
    have hm := registered_setEvents hl (events.filterMapVal (boundTo d g)) p
    have hsum : (events.filterMapVal (boundTo d g)).total (pluginCount p) +
        _ = events.total (pluginCount p) :=
      countP_refusedAtBind d g owner p events.entries
    rw [countP_nil, Nat.add_zero]
    omega
  · refine h.byPlugin.congr fun p key => ?_
    obtain ⟨o, n⟩ := key
    rw [countP_refusedAtBind_event d owner p (o, n) events.nodupKeys, subscribersOf_bound d g hl]
    by_cases ho : o = owner
    · subst ho
      have hs : r.subscribersOf o n = (events.entries.dlookup n).getD [] := by
        rw [subscribersOf, get₂, hl]
        rfl
      cases hd : d n with
      | true =>
        simp only [if_true, pluginCount_eq_map, List.map_map]
        rfl
      | false => simp [hs]
    · simp [ho]

end Bind

theorem bindRegistrations_spec (h : r.Indexed []) (owner : String) (g : ℕ) :
    ∃ r', r.bindRegistrations owner g = some r' ∧ Trimmed r r' := by
  unfold bindRegistrations
  cases hl : r.subscriptions.lookup owner with
  | none => exact ⟨r, rfl, Trimmed.refl h⟩
  | some =>
    refine Trimmed.of_releaseAll (h.bound _ g hl) (fun o n => ?_) rfl rfl rfl rfl
    rw [subscribersOf_bound _ g hl]
    split
    · split
      · rw [List.map_map]
        exact Sublist.refl _
      · exact nil_sublist _
    · exact Sublist.refl _

def declarers (r : Registry) (name : String) : ℕ :=
  r.contracts.total fun events => if (events.lookup name).isSome then 1 else 0

def NamesExact (r : Registry) : Prop := r.contractNameCounts.Counts r.declarers

theorem declarers_setBucket (r : Registry) (owner : String) (events : Dict String EmittedContract)
    (name : String) :
    { r with contracts := r.contracts.setBucket owner events }.declarers name +
        (if (r.contracts.get₂ owner name).isSome then 1 else 0) =
      r.declarers name + if (events.lookup name).isSome then 1 else 0 := by
  have hm := r.contracts.total_setBucket (fun b => if (b.lookup name).isSome then 1 else 0)
    (fun b he => by simp [isEmpty_iff.mp he name]) owner events
  rw [← get₂_eq_getD] at hm
  exact hm

theorem NamesExact.insertContract (h : r.NamesExact) (c : EmittedContract) :
    (r.insertContract c).NamesExact := by
  intro name
  have hm : (r.insertContract c).declarers name +
      (if (r.contracts.get₂ c.owner name).isSome then 1 else 0) =
      r.declarers name + if name = c.name ∨ (r.contracts.get₂ c.owner name).isSome
        then 1 else 0 := by
    have ht := r.contracts.total_insert_getD
      (fun b => if (b.lookup name).isSome then 1 else 0) c.owner
      (((r.contracts.lookup c.owner).getD ∅).insert c.name c) ∅ rfl
    simp only [← get₂_eq_getD, lookup_insert_eq] at ht
    refine ht.trans (congrArg _ ?_)
    by_cases hn : name = c.name <;> simp [hn]
  simp only [Registry.insertContract] at hm ⊢
  by_cases hn : name = c.name
  · subst hn
    cases hp : r.contracts.get₂ c.owner c.name with
    | none =>
      simp only [hp, isNone_none, if_true, isSome_none, Bool.false_eq_true,
        if_false, or_false, Nat.add_zero] at hm ⊢
      rw [hm, (h.bump c.name) c.name, Function.update_self]
    | some =>
      simp only [hp, isNone_some, Bool.false_eq_true, if_false, isSome_some,
        or_true, if_true, Nat.add_right_cancel_iff] at hm ⊢
      rw [hm, h c.name]
  · simp only [hn, false_or, Nat.add_right_cancel_iff] at hm
    rw [hm]
    split
    · rw [(h.bump c.name) name, Function.update_of_ne hn]
    · exact h name

theorem NamesExact.removeContract (h : r.NamesExact) (owner name : String) :
    ∃ c contracts, r.removeContract owner name =
        some { r with contractNameCounts := c, contracts := contracts } ∧
      NamesExact { r with contractNameCounts := c, contracts := contracts } := by
  unfold Registry.removeContract
  cases hl : r.contracts.lookup owner with
  | none => exact ⟨_, _, rfl, h⟩
  | some events =>
    have hg (n : String) : r.contracts.get₂ owner n = events.lookup n := by simp [get₂, hl]
    have hmove (n : String) := declarers_setBucket r owner (events.erase name) n
    simp only [hg, lookup_erase_eq] at hmove
    cases hn : events.lookup name with
    | none =>
      refine ⟨r.contractNameCounts, r.contracts.setBucket owner (events.erase name),
        by simp [hn], h.congr fun n => ?_⟩
      have hm := hmove n
      by_cases hname : n = name
      · subst hname
        simp only [hn, if_true, isSome_none, Bool.false_eq_true, if_false] at hm
        exact hm.symm
      · simp only [hname, if_false, Nat.add_right_cancel_iff] at hm
        exact hm.symm
    | some =>
      have hm := hmove name
      simp only [hn, if_true, isSome_some, isSome_none, Bool.false_eq_true,
        if_false, Nat.add_zero] at hm
      obtain ⟨c, hc, he⟩ := Counts.unbump h (k := name) (by omega)
      refine ⟨c, r.contracts.setBucket owner (events.erase name),
        by simp [hn, hc], he.congr fun n => ?_⟩
      by_cases hname : n = name
      · subst hname
        rw [Function.update_self, ← hm, Nat.add_sub_cancel]
        rfl
      have hm := hmove n
      simp only [hname, if_false, Nat.add_right_cancel_iff] at hm
      rw [Function.update_of_ne hname]
      exact hm.symm

end Registry

end BotsterHub.Router
