import BotsterHub.Lib.Dict
import BotsterHub.Lib.Machine
import Mathlib.Data.List.ReduceOption

/-!
The table of causal scopes. A scope lives as long as somebody holds a lease on it. The permits of
publications that leases carry along are left out.
-/

namespace BotsterHub.Causal

def u32Max : ℕ := 2 ^ 32 - 1

structure CausalScope (ι : Type) where
  leases : ℕ
  identities : Finset ι

inductive LeaseOp (ι : Type) where
  | acquire (identity : ι)
  | transfer (source : ι) (targets : Vector (Option ι) 3)
  | release (identity : ι)

structure CausalScopeTable (ι : Type) where
  scopes : Dict ℕ (CausalScope ι) := ∅
  /-- Zero when there are no more numbers. -/
  nextId : ℕ := 1
  minted : List ℕ := []

inductive Refusal where
  | waiting
  | fault

inductive Reply where
  | done
  | missingScope
  | refused (refusal : Refusal)

inductive ScopeStep (ι : Type) where
  | mint (identity : Option ι) (refusal : Option Refusal)
  | apply (scopeId : ℕ) (op : LeaseOp ι) (refusal : Option Refusal)

variable {ι : Type} [DecidableEq ι]

namespace CausalScope

variable (scope : CausalScope ι)

def acquire (identity : ι) : CausalScope ι :=
  if identity ∈ scope.identities then scope
  else ⟨min (scope.leases + 1) u32Max, insert identity scope.identities⟩

def remove (identity : ι) : CausalScope ι :=
  if identity ∈ scope.identities then ⟨scope.leases - 1, scope.identities.erase identity⟩
  else scope

def unlessEmpty : Option (CausalScope ι) := if scope.leases = 0 then none else some scope

def apply : LeaseOp ι → Option (CausalScope ι)
  | .acquire identity => some (scope.acquire identity)
  | .transfer source targets =>
    (targets.toList.reduceOption.foldl acquire (scope.remove source)).unlessEmpty
  | .release identity => (scope.remove identity).unlessEmpty

end CausalScope

namespace CausalScopeTable

variable (t : CausalScopeTable ι)

def mintWithLease (identity : Option ι) (refusal : Option Refusal) : CausalScopeTable ι × Reply :=
  if t.nextId = 0 then (t, .refused .fault)
  else
    let nextId := if t.nextId = 2 ^ 64 - 1 then 0 else t.nextId + 1
    match refusal with
    | none =>
      let scope := identity.elim ⟨0, ∅⟩ fun identity => ⟨1, {identity}⟩
      (⟨t.scopes.insert t.nextId scope, nextId, t.nextId :: t.minted⟩, .done)
    | some refusal => ({ t with nextId }, .refused refusal)

def tryApply (scopeId : ℕ) (op : LeaseOp ι) : Option Refusal → CausalScopeTable ι × Reply
  | none =>
    match t.scopes.lookup scopeId with
    | none => (t, match op with | .acquire _ => .missingScope | _ => .done)
    | some scope => ({ t with scopes := t.scopes.put scopeId (scope.apply op) }, .done)
  | some refusal => (t, .refused refusal)

def step : ScopeStep ι → CausalScopeTable ι × Reply
  | .mint identity refusal => t.mintWithLease identity refusal
  | .apply scopeId op refusal => t.tryApply scopeId op refusal

/-- A new scope has a lease, and no scope gets more leases than its counter can hold. -/
def Leased (a : ScopeStep ι) : Prop :=
  (∀ refusal, a ≠ .mint none refusal) ∧
    ∀ id scope, (t.step a).1.scopes.lookup id = some scope → scope.identities.card ≤ u32Max

end CausalScopeTable

open List Finset AList

def LeaseOp.holders (held : Finset ι) : LeaseOp ι → Finset ι
  | .acquire identity => insert identity held
  | .transfer source targets => held.erase source ∪ targets.toList.reduceOption.toFinset
  | .release identity => held.erase identity

def Counted (scope : CausalScope ι) : Prop := scope.leases = min scope.identities.card u32Max

def Behind (held : Finset ι) : Option (CausalScope ι) → Prop
  | none => held = ∅
  | some scope => held.Nonempty ∧ scope.identities = held ∧ Counted scope

section

variable {scope : CausalScope ι} {identity : ι}

theorem identities_acquire : (scope.acquire identity).identities =
    insert identity scope.identities := by
  unfold CausalScope.acquire
  split
  · next hin => exact (insert_eq_of_mem hin).symm
  · rfl

theorem identities_remove : (scope.remove identity).identities =
    scope.identities.erase identity := by
  unfold CausalScope.remove
  split
  · rfl
  · next ho => exact (erase_eq_of_notMem ho).symm

theorem identities_foldl_acquire (i : List ι) : (i.foldl CausalScope.acquire scope).identities =
      scope.identities ∪ i.toFinset := by
  induction i generalizing scope with
  | nil => simp
  | cons _ _ ih =>
    rw [foldl_cons, ih, identities_acquire, toFinset_cons, Finset.insert_union, union_insert]

theorem Counted.acquire (h : Counted scope) : Counted (scope.acquire identity) := by
  unfold Counted CausalScope.acquire at *
  split
  · exact h
  · next ho =>
    rw [card_insert_of_notMem ho]
    dsimp only
    omega

theorem Counted.remove (h : Counted scope) (hf : scope.identities.card ≤ u32Max) :
    Counted (scope.remove identity) := by
  unfold Counted CausalScope.remove at *
  split
  · next hin =>
    rw [card_erase_of_mem hin]
    dsimp only
    omega
  · exact h

omit [DecidableEq ι] in
theorem Counted.unlessEmpty (h : Counted scope)
    (hh : scope.identities = held) : Behind held scope.unlessEmpty := by
  have hz : scope.leases = 0 ↔ held = ∅ := by
    rw [h, Nat.min_eq_zero_iff, card_eq_zero, hh]
    exact or_iff_left (by decide)
  unfold CausalScope.unlessEmpty
  split
  · next hn => exact hz.mp hn
  · next hs => exact ⟨nonempty_iff_ne_empty.mpr (mt hz.mpr hs), hh, h⟩

theorem Counted.apply (h : Counted scope) (hf : scope.identities.card ≤ u32Max)
    (op : LeaseOp ι) : Behind (op.holders scope.identities) (scope.apply op) := by
  cases op with
  | acquire => exact ⟨insert_nonempty _ _, identities_acquire, h.acquire⟩
  | release => exact (h.remove hf).unlessEmpty identities_remove
  | transfer s targets =>
    have hc : Counted (targets.toList.reduceOption.foldl CausalScope.acquire (scope.remove s)) :=
      foldlRecOn _ _ (h.remove hf) fun _ hc _ _ => hc.acquire
    refine hc.unlessEmpty ?_
    rw [identities_foldl_acquire, identities_remove]
    rfl

end

namespace CausalScopeTable

variable {t : CausalScopeTable ι} {a : ScopeStep ι}

theorem step_cases (t : CausalScopeTable ι) (a : ScopeStep ι) :
    (∃ nextId, (t.step a).1 = { t with nextId } ∧
        (nextId = t.nextId ∨ nextId = 0 ∨ t.nextId ≠ 0 ∧ nextId = t.nextId + 1)) ∨
      (∃ identity, a = .mint identity none ∧ t.nextId ≠ 0 ∧ (t.step a).2 = .done ∧
        ∃ scope nextId, (t.step a).1 = ⟨t.scopes.insert t.nextId scope, nextId,
          t.nextId :: t.minted⟩ ∧ (nextId = 0 ∨ nextId = t.nextId + 1) ∧
          ∀ holder ∈ identity, Counted scope ∧ scope.identities = {holder}) ∨
      ∃ id op scope, a = .apply id op none ∧ t.scopes.lookup id = some scope ∧
        t.step a = ({ t with scopes := t.scopes.put id (scope.apply op) }, .done) := by
  cases a with
  | mint identity r =>
    simp only [step, mintWithLease]
    split
    · exact .inl ⟨_, rfl, .inl rfl⟩
    next hnext =>
    have hn : ∀ id, (if id = 2 ^ 64 - 1 then 0 else id + 1) = 0 ∨
        (if id = 2 ^ 64 - 1 then 0 else id + 1) = id + 1 := by
      intro id
      split_ifs <;> simp
    cases r with
    | none =>
      refine .inr (.inl ⟨identity, rfl, hnext, rfl, _, _, rfl, hn _, ?_⟩)
      rintro holder rfl
      simp [Counted, u32Max]
    | some => exact .inl ⟨_, rfl, .inr ((hn _).imp_right (⟨hnext, ·⟩))⟩
  | apply id op r =>
    cases r with
    | none =>
      simp only [step, tryApply]
      split
      · exact .inl ⟨_, rfl, .inl rfl⟩
      · next scope hl => exact .inr (.inr ⟨id, op, scope, rfl, hl, rfl⟩)
    | some => exact .inl ⟨_, rfl, .inl rfl⟩

structure Sound (t : CausalScopeTable ι) : Prop where
  counted : ∀ id scope, t.scopes.lookup id = some scope → scope.identities.Nonempty ∧
    scope.identities.card ≤ u32Max ∧ Counted scope
  known : ∀ id scope, t.scopes.lookup id = some scope → id ∈ t.minted
  once : t.minted.Nodup
  below : ∀ id ∈ t.minted, 0 < id ∧ (t.nextId = 0 ∨ id < t.nextId)

theorem Sound.step (h : Sound t) (hleased : t.Leased a) : Sound (t.step a).1 := by
  have hfew := hleased.2
  obtain ⟨n, hs, hn⟩ | ⟨identity, rfl, hn, -, scope, n, hs, hlater, hscope⟩ |
    ⟨id, op, scope, -, hl, hs⟩ := step_cases t a
  · rw [hs]
    refine { h with below := fun id hid => ?_ }
    have := h.below id hid
    dsimp only
    omega
  · obtain ⟨holder, hh⟩ : ∃ holder, identity = some holder := by
      cases identity with
      | none => exact absurd rfl (hleased.1 none)
      | some holder => exact ⟨holder, rfl⟩
    obtain ⟨hc, hi⟩ := hscope holder hh
    have hfresh : t.nextId ∉ t.minted := fun hid => by
      have := h.below _ hid
      omega
    rw [hs]
    refine ⟨?_, ?_, nodup_cons.mpr ⟨hfresh, h.once⟩, forall_mem_cons.mpr ⟨?_, fun id hid => ?_⟩⟩
    · refine forall_lookup_insert ⟨?_, ?_, hc⟩ fun id scope _ => h.counted id scope
      · exact hi ▸ singleton_nonempty holder
      · rw [hi, card_singleton]
        decide
    · exact forall_lookup_insert mem_cons_self fun id scope _ hl =>
        mem_cons_of_mem _ (h.known id scope hl)
    · dsimp only
      omega
    · have := h.below id hid
      dsimp only
      omega
  · rw [hs] at hfew ⊢
    obtain ⟨-, hr, hc⟩ := h.counted id scope hl
    have hb := hc.apply hr op
    refine { h with counted := fun o f hf => ?_, known := fun o f hf => ?_ }
    · have hfew := hfew o f hf
      rw [lookup_put] at hf
      split at hf
      · rw [hf] at hb
        exact ⟨hb.2.1 ▸ hb.1, hfew, hb.2.2⟩
      · exact h.counted o f hf
    · rw [lookup_put] at hf
      split at hf
      · next heq => exact heq ▸ h.known id scope hl
      · exact h.known o f hf

theorem scopes_of_refused (h : (t.step a).2 ≠ .done) : (t.step a).1.scopes = t.scopes := by
  obtain ⟨_, hs, -⟩ | ⟨_, -, -, hd, -⟩ | ⟨id, op, scope, -, -, hs⟩ := step_cases t a
  · rw [hs]
  · exact absurd hd h
  · rw [hs] at h
    exact absurd rfl h

theorem Sound.lookup_apply (h : Sound t) {id : ℕ} {scope : CausalScope ι}
    (hl : t.scopes.lookup id = some scope) (op : LeaseOp ι) :
    Behind (op.holders scope.identities)
      ((t.step (.apply id op none)).1.scopes.lookup id) := by
  obtain ⟨-, hr, hc⟩ := h.counted id scope hl
  simp only [CausalScopeTable.step, tryApply, hl, lookup_put, if_true]
  exact hc.apply hr op

/-- A step leaves the scopes alone that it does not name. -/
theorem Sound.lookup_step (h : Sound t) {id : ℕ} (hid : id ∈ t.minted)
    (ha : ∀ op, a = .apply id op none → t.scopes.lookup id = none) :
    (t.step a).1.scopes.lookup id = t.scopes.lookup id := by
  obtain ⟨_, hs, -⟩ | ⟨_, -, hn, -, _, _, hs, -⟩ | ⟨other, op, scope, rfl, hl, hs⟩ := step_cases t a
  · rw [hs]
  · have := h.below id hid
    rw [hs]
    exact lookup_insert_ne (by omega)
  · rw [hs, lookup_put]
    split
    · next heq =>
      subst heq
      cases hl.symm.trans (ha op rfl)
    · rfl

def advance (t : CausalScopeTable ι) (a : ScopeStep ι) : Option (CausalScopeTable ι) :=
  some (t.step a).1

/-- The counters are right and no id was given out twice. A refused step changes nothing. A step on
a scope that is present changes its identities as it says, and ends it exactly if none is left;
every other scope stays as it is, and one that has ended does not come back. -/
theorem run_scopes {as : List (ScopeStep ι)} {t : CausalScopeTable ι}
    (halong : Machine.Along advance Leased {} as) (hrun : as.foldlM advance {} = some t) :
    t.minted.Nodup ∧ (∀ id scope, t.scopes.lookup id = some scope →
        id ∈ t.minted ∧ 0 < scope.leases ∧ scope.leases = scope.identities.card) ∧
      (∀ a, (t.step a).2 ≠ .done → (t.step a).1.scopes = t.scopes) ∧
      (∀ id scope op, t.scopes.lookup id = some scope → Behind (op.holders scope.identities)
        ((t.step (.apply id op none)).1.scopes.lookup id)) ∧
      ∀ id ∈ t.minted, ∀ a, (∀ op, a = .apply id op none → t.scopes.lookup id = none) →
        (t.step a).1.scopes.lookup id = t.scopes.lookup id := by
  have h : Sound t := by
    refine Machine.run_along (fun _ _ _ h hleased hstep => ?_) halong ⟨?_, ?_, ?_, ?_⟩ hrun
    · cases hstep
      exact h.step hleased
    all_goals simp
  refine ⟨h.once, fun id scope hlookup => ?_, fun _ => scopes_of_refused,
    fun _ _ op hlookup => h.lookup_apply hlookup op, fun _ hid _ => h.lookup_step hid⟩
  obtain ⟨hheld, hfew, hcounted⟩ := h.counted id scope hlookup
  have hleases : scope.leases = scope.identities.card := hcounted.trans (min_eq_left hfew)
  exact ⟨h.known id scope hlookup, hleases ▸ hheld.card_pos, hleases⟩

theorem run_scopes_handed_on : ∃ t : CausalScopeTable Bool, [.mint (some false) none,
      .apply 1 (.transfer false #v[some true, none, none]) none].foldlM advance {} = some t ∧
    t.minted.Nodup := by
  have hfew (scope : CausalScope Bool) : scope.identities.card ≤ u32Max :=
    (card_le_univ _).trans (by decide)
  refine Exists.imp (fun t hrun => ⟨hrun, (run_scopes ?_ hrun).1⟩) ⟨_, rfl⟩
  exact ⟨⟨nofun, fun _ scope _ => hfew scope⟩, fun _ _ =>
    ⟨⟨nofun, fun _ scope _ => hfew scope⟩, fun _ _ => trivial⟩⟩

/-- A scope minted without a holder has no lease. -/
theorem minted_without_lease : ∃ scope, (({} : CausalScopeTable Bool).step
    (.mint none none)).1.scopes.lookup 1 = some scope ∧ scope.leases = 0 :=
  ⟨_, rfl, rfl⟩

end CausalScopeTable

end BotsterHub.Causal
