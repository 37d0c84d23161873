import BotsterHub.Lib.Dict
import BotsterHub.Lib.Machine

/-!
Who releases the token of an explicit session reservation. A spawn registers a record and hands
its token over when it succeeds; a removal takes it from the record, or leaves a mark for the
handoff. A token is written as its identity.
-/

namespace BotsterHub.Session

open Machine Multiset Option

inductive RecordState where
  | launching (removed : Bool)
  | installed (token : ℕ)
  | releasing

structure Record where
  identity : ℕ
  state : RecordState
  charge : ℕ

def Record.isLaunching (record : Record) : Bool :=
  match record.state with
  | .launching _ => true
  | _ => false

inductive Handoff where
  | kept
  | releaseNow (token : ℕ)
  | unregistered (token : ℕ)

inductive Removal where
  | releaseNow (token : ℕ)
  | deferred
  | none

structure SessionReservations where
  records : Dict String Record := ∅
  used : ℕ := 0

namespace SessionReservations

variable (s : SessionReservations) (sessionId : String) (identity : ℕ)

def charge (capacity bytes : ℕ) : Option SessionReservations :=
  if s.used + bytes ≤ capacity then some { s with used := s.used + bytes } else none

def uncharge (bytes : ℕ) : SessionReservations := { s with used := s.used - bytes }

/-- `false`: `Duplicate`; the charge is dropped. -/
def register (bytes : ℕ) : SessionReservations × Bool :=
  if (s.records.lookup sessionId).isSome then (s.uncharge bytes, false)
  else ({ s with records := s.records.insert sessionId ⟨identity, .launching false, bytes⟩ }, true)

/-- The record, if its identity is the given one. -/
def find : Option Record := (s.records.lookup sessionId).filter (·.identity = identity)

def setState (record : Record) (state : RecordState) : SessionReservations :=
  { s with records := s.records.insert sessionId { record with state } }

def install : SessionReservations × Handoff :=
  match s.find sessionId identity with
  | none => (s, .unregistered identity)
  | some record =>
    match record.state with
    | .launching false => (s.setState sessionId record (.installed identity), .kept)
    | .launching true => (s.setState sessionId record .releasing, .releaseNow identity)
    | .installed _ | .releasing => (s, .unregistered identity)

def removed : SessionReservations × Removal :=
  match s.find sessionId identity with
  | none => (s, .none)
  | some record =>
    match record.state with
    | .installed token => (s.setState sessionId record .releasing, .releaseNow token)
    | .launching _ => (s.setState sessionId record (.launching true), .deferred)
    | .releasing => (s.setState sessionId record .releasing, .none)

def retire : SessionReservations :=
  match s.find sessionId identity with
  | none => s
  | some record => { s with records := s.records.erase sessionId }.uncharge record.charge

end SessionReservations

/-- `reserve`: Core gives a spawn the token of a new identity. -/
inductive ReservationOp where
  | reserve (identity : ℕ)
  | charge (sessionId : String) (bytes : ℕ)
  | dropCharge (sessionId : String) (bytes : ℕ)
  | register (sessionId : String) (bytes identity : ℕ)
  | install (sessionId : String) (identity : ℕ)
  | removed (sessionId : String) (captured : ℕ)
  | retire (sessionId : String) (identity : ℕ)

/-- The records, the charges without a record, and the tokens outside records: `spawn` not handed
over, `returned` as unregistered, `told` to be released. `deferred` are all calls of `removed` for a
launching record. -/
structure ReservationRun where
  store : SessionReservations := {}
  charges : Multiset (String × ℕ) := 0
  reserved : Multiset ℕ := 0
  spawn : Multiset ℕ := 0
  returned : Multiset ℕ := 0
  told : Multiset ℕ := 0
  deferred : List (String × ℕ) := []

namespace ReservationRun

/-- Callers hand a token over once, and retire an identity whose token is theirs to release; other
calls change nothing. -/
def step (capacity : ℕ) (s : ReservationRun) : ReservationOp → ReservationRun
  | .reserve identity =>
    if identity ∈ s.reserved then s
    else { s with reserved := identity ::ₘ s.reserved, spawn := identity ::ₘ s.spawn }
  | .charge sessionId bytes =>
    match s.store.charge capacity bytes with
    | none => s
    | some store => { s with store, charges := (sessionId, bytes) ::ₘ s.charges }
  | .dropCharge sessionId bytes =>
    if (sessionId, bytes) ∈ s.charges then
      { s with store := s.store.uncharge bytes, charges := s.charges.erase (sessionId, bytes) }
    else s
  | .register sessionId bytes identity =>
    if (sessionId, bytes) ∈ s.charges then
      { s with
        store := (s.store.register sessionId identity bytes).1
        charges := s.charges.erase (sessionId, bytes) }
    else s
  | .install sessionId identity =>
    if identity ∈ s.spawn then
      let s := { s with spawn := s.spawn.erase identity }
      match s.store.install sessionId identity with
      | (store, .kept) => { s with store }
      | (store, .releaseNow token) => { s with store, told := token ::ₘ s.told }
      | (store, .unregistered token) => { s with store, returned := token ::ₘ s.returned }
    else s
  | .removed sessionId captured =>
    let deferred := if (s.store.find sessionId captured).any Record.isLaunching then
      (sessionId, captured) :: s.deferred else s.deferred
    match s.store.removed sessionId captured with
    | (store, .releaseNow token) => { s with store, deferred, told := token ::ₘ s.told }
    | (store, _) => { s with store, deferred }
  | .retire sessionId identity =>
    if identity ∈ s.returned + s.told then { s with store := s.store.retire sessionId identity }
    else s

def run (capacity : ℕ) (ops : List ReservationOp) : ReservationRun := ops.foldl (step capacity) {}

end ReservationRun

def Record.tokens (record : Record) : Multiset ℕ :=
  match record.state with
  | .installed token => {token}
  | _ => 0

open AList SessionReservations

namespace ReservationRun

structure Kept (held : Multiset ℕ) (s : ReservationRun) : Prop where
  once : s.reserved.Nodup
  owned : s.reserved = s.spawn + s.returned + s.told + s.store.records.total Record.tokens + held
  own : ∀ sessionId record, s.store.records.lookup sessionId = some record →
    ∀ token, record.state = .installed token → token = record.identity
  budget : s.store.used = s.store.records.total Record.charge + (s.charges.map Prod.snd).sum
  deferred : ∀ d ∈ s.deferred, (d.2 ∈ s.reserved → d.2 ∈ s.spawn) →
    ∃ record, s.store.find d.1 d.2 = some record ∧ record.state = .launching true

section

variable {s : ReservationRun} {held : Multiset ℕ} {sessionId : String} {identity : ℕ}
  {record : Record}

theorem find_eq_some {s : SessionReservations} : s.find sessionId identity = some record ↔
    s.records.lookup sessionId = some record ∧ record.identity = identity := by
  simp [find, filter_eq_some_iff]

theorem Kept.setState (h : Kept held s) (hf : s.store.find sessionId identity = some record)
    (state : RecordState) (held' : Multiset ℕ)
    (ht : Record.tokens { record with state } + held' = record.tokens + held)
    (ho : ∀ token, state = .installed token → token = identity)
    (hd : (identity ∈ s.reserved → identity ∈ s.spawn) → record.state = .launching true →
      state = .launching true) :
    Kept held' { s with store := s.store.setState sessionId record state } := by
  obtain ⟨hl, hi⟩ := find_eq_some.mp hf
  refine ⟨h.once, ?_, ?_, ?_, fun d hm hs => ?_⟩
  · have htotal := total_insert_of_some s.store.records Record.tokens { record with state } hl
    refine h.owned.trans (add_right_cancel (b := record.tokens) ?_)
    rw [add_assoc _ held, add_comm held, ← ht, ← add_assoc, add_assoc _ _ (Record.tokens _),
      ← htotal]
    ac_rfl
  · refine forall_lookup_insert (fun token hs => ?_) fun id other _ => h.own id other
    exact (ho token hs).trans hi.symm
  · have htotal := total_insert_of_some s.store.records Record.charge { record with state } hl
    exact h.budget.trans (congrArg (· + _) (Nat.add_right_cancel htotal).symm)
  · obtain ⟨other, hother, hstate⟩ := h.deferred d hm hs
    obtain ⟨hl', hi'⟩ := find_eq_some.mp hother
    by_cases heq : d.1 = sessionId
    · rw [heq, hl] at hl'
      cases hl'
      refine ⟨{ record with state }, find_eq_some.mpr ⟨?_, hi'⟩, hd (hi ▸ hi' ▸ hs) hstate⟩
      exact heq ▸ lookup_insert _
    · exact ⟨other, find_eq_some.mpr ⟨(lookup_insert_ne heq).trans hl', hi'⟩, hstate⟩

theorem Kept.apart (h : Kept held s) (hm : identity ∈ s.returned + s.told) :
    identity ∉ s.spawn ∧ identity ∉ s.store.records.total Record.tokens := by
  have hone := nodup_iff_count_le_one.mp h.once identity
  have hout := one_le_count_iff_mem.mpr hm
  rw [h.owned] at hone
  simp only [count_add] at hone hout
  constructor <;> intro hin <;> have := one_le_count_iff_mem.mpr hin <;> omega

theorem Kept.tell (h : Kept {token} s) : Kept 0 { s with told := token ::ₘ s.told } :=
  { h with
    owned := by
      refine h.owned.trans ?_
      dsimp only
      rw [← singleton_add, add_zero]
      ac_rfl }

theorem Kept.giveBack (h : Kept {token} s) : Kept 0 { s with returned := token ::ₘ s.returned } :=
  { h with
    owned := by
      refine h.owned.trans ?_
      dsimp only
      rw [← singleton_add, add_zero]
      ac_rfl }

theorem Kept.install (h : Kept 0 s) (hm : identity ∈ s.spawn) (capacity : ℕ) :
    Kept 0 (s.step capacity (.install sessionId identity)) := by
  have hs : s.spawn.Nodup := by
    have := h.once
    rw [h.owned] at this
    simp only [nodup_add] at this
    exact this.1.1.1.1
  have htaken : Kept {identity} { s with spawn := s.spawn.erase identity } :=
    { h with
      owned := by
        refine h.owned.trans ?_
        dsimp only
        nth_rewrite 1 [← cons_erase hm]
        rw [← singleton_add, add_zero]
        ac_rfl
      deferred := fun d hd hin => h.deferred d hd fun hr => mem_of_mem_erase (hin hr) }
  have hgone (hin : identity ∈ s.reserved → identity ∈ s.spawn.erase identity) : False := by
    refine hs.notMem_erase (hin ?_)
    rw [h.owned]
    simp [hm]
  simp only [step, if_pos hm, SessionReservations.install]
  cases hf : s.store.find sessionId identity with
  | none => exact htaken.giveBack
  | some record =>
    dsimp only
    cases hr : record.state with
    | launching removed =>
      cases removed with
      | false =>
        refine htaken.setState hf (.installed identity) 0 ?_ (fun _ heq => ?_)
          fun hin => absurd hin hgone
        · simp [Record.tokens, hr]
        · exact (RecordState.installed.inj heq).symm
      | true =>
        exact (htaken.setState hf .releasing {identity} (by simp [Record.tokens, hr]) nofun
          fun hin => absurd hin hgone).tell
    | installed | releasing => exact htaken.giveBack

theorem Kept.removed (h : Kept 0 s) (capacity : ℕ) :
    Kept 0 (s.step capacity (.removed sessionId identity)) := by
  simp only [step, SessionReservations.removed]
  cases hf : s.store.find sessionId identity with
  | none => exact h
  | some record =>
    dsimp only [Option.any_some]
    cases hr : record.state with
    | installed token =>
      simp only [Record.isLaunching, hr, Bool.false_eq_true, if_false]
      refine (h.setState hf .releasing {token} ?_ nofun fun _ heq => ?_).tell
      · simp [Record.tokens, hr]
      · cases hr.symm.trans heq
    | launching =>
      simp only [Record.isLaunching, hr, if_true]
      have hmarked := h.setState hf (.launching true) 0 (by simp [Record.tokens, hr]) nofun
        fun _ _ => rfl
      refine { hmarked with deferred := fun d hd hs => ?_ }
      rcases List.mem_cons.mp hd with rfl | hd
      · exact ⟨_, find_eq_some.mpr ⟨lookup_insert _, (find_eq_some.mp hf).2⟩, rfl⟩
      · exact hmarked.deferred d hd hs
    | releasing =>
      simp only [Record.isLaunching, hr, Bool.false_eq_true, if_false]
      refine h.setState hf .releasing 0 (by simp [Record.tokens, hr]) nofun fun _ heq => ?_
      cases hr.symm.trans heq

theorem Kept.retire (h : Kept 0 s) (hm : identity ∈ s.returned + s.told) :
    Kept 0 { s with store := s.store.retire sessionId identity } := by
  unfold SessionReservations.retire
  cases hf : s.store.find sessionId identity with
  | none => exact h
  | some record =>
    obtain ⟨hl, hi⟩ := find_eq_some.mp hf
    have hnone : record.tokens = 0 := by
      unfold Record.tokens
      split
      · next token hstate =>
        refine absurd ((mem_total _ _ _).mpr ⟨sessionId, record, hl, ?_⟩) (h.apart hm).2
        rw [Record.tokens, hstate, ← hi, h.own sessionId record hl token hstate]
        exact mem_singleton_self _
      · rfl
    refine ⟨h.once, ?_, fun id other ho => h.own id other (lookup_of_erase ho), ?_,
      fun d hd hs => ?_⟩
    · rw [h.owned, total_erase _ _ hl, hnone, zero_add]
      rfl
    · have := h.budget
      rw [total_erase _ _ hl] at this
      simp only [uncharge]
      omega
    · obtain ⟨other, hother, hstate⟩ := h.deferred d hd hs
      obtain ⟨hl', hi'⟩ := find_eq_some.mp hother
      refine ⟨other, find_eq_some.mpr ⟨?_, hi'⟩, hstate⟩
      refine (lookup_erase_ne fun heq => ?_).trans hl'
      rw [heq, hl] at hl'
      cases hl'
      refine (h.apart hm).1 (hi ▸ hi' ▸ hs ?_)
      rw [← hi', hi, h.owned]
      simp only [mem_add] at hm ⊢
      tauto

theorem Kept.dropCharge (h : Kept 0 s) (hm : (sessionId, bytes) ∈ s.charges) :
    Kept 0 { s with
      store := s.store.uncharge bytes
      charges := s.charges.erase (sessionId, bytes) } :=
  { h with
    budget := by
      have hsum := sum_map_erase (f := Prod.snd) hm
      have := h.budget
      simp only [uncharge] at *
      omega }

theorem Kept.step (h : Kept 0 s) (capacity : ℕ) (op : ReservationOp) :
    Kept 0 (s.step capacity op) := by
  cases op with
  | reserve identity =>
    rw [ReservationRun.step]
    split
    · exact h
    next hnew =>
    refine { h with once := nodup_cons.mpr ⟨hnew, h.once⟩, owned := ?_, deferred := ?_ }
    · rw [h.owned]
      simp only [cons_add]
    · intro d hd hs
      refine h.deferred d hd fun hr => (mem_cons.mp (hs (mem_cons_of_mem hr))).resolve_left ?_
      exact fun heq => hnew (heq ▸ hr)
  | charge sessionId bytes =>
    simp only [ReservationRun.step, charge]
    split_ifs
    · refine { h with budget := (congrArg (· + bytes) h.budget).trans ?_ }
      simp only [map_cons, sum_cons]
      omega
    · exact h
  | dropCharge sessionId bytes => exact guarded h fun hm => h.dropCharge hm
  | register sessionId bytes identity =>
    refine guarded h fun hm => ?_
    unfold register
    split
    · exact h.dropCharge hm
    next hnone =>
    have hl := not_isSome_iff_eq_none.mp hnone
    refine ⟨h.once, ?_, forall_lookup_insert nofun fun id other _ => h.own id other, ?_,
      fun d hd hs => ?_⟩
    · rw [h.owned, total_insert_of_none _ _ _ hl]
      simp [Record.tokens]
    · have hsum := sum_map_erase (f := Prod.snd) hm
      have htotal := total_insert_of_none _ Record.charge ⟨identity, .launching false, bytes⟩ hl
      have := h.budget
      dsimp only at *
      omega
    · obtain ⟨other, hother, hstate⟩ := h.deferred d hd hs
      obtain ⟨hl', hi'⟩ := find_eq_some.mp hother
      refine ⟨other, find_eq_some.mpr ⟨?_, hi'⟩, hstate⟩
      refine (lookup_insert_ne fun heq => ?_).trans hl'
      rw [heq, hl] at hl'
      cases hl'
  | install sessionId identity =>
    by_cases hm : identity ∈ s.spawn
    · exact h.install hm capacity
    · rw [ReservationRun.step, if_neg hm]
      exact h
  | removed sessionId captured => exact h.removed capacity
  | retire sessionId identity => exact guarded h fun hm => h.retire hm

end

theorem kept_run (capacity : ℕ) (ops : List ReservationOp) : Kept 0 (run capacity ops) :=
  List.foldlRecOn ops (step capacity) ⟨nodup_zero, rfl, nofun, rfl, nofun⟩
    fun _ h op _ => h.step capacity op

end ReservationRun

end BotsterHub.Session
