import BotsterHub.Entity.Resync
import BotsterHub.Lib.Dict

/-!
The mutations that a package publishes for one family, handed out by their sequence numbers. One
that comes early waits in a window of sixteen; a snapshot of the provider stands for all numbers
up to its own. Leases are left out.
-/

namespace BotsterHub.Entity

open List Option

def pendingWindow : ℕ := 16

structure Mutation (α : Type) where
  snapshotSeq : ℕ
  frame : α

inductive PublishStatus where
  | accepted
  | pendingGap
  | resyncScheduled
  | staleSequence
  | duplicateSequence

inductive Handed (α : Type) where
  | ready (mutation : Mutation α)
  | discarded (mutation : Mutation α)
  | nothing

structure FamilyState (α : Type) where
  lastAcceptedSeq : ℕ := 0
  highWaterSeq : ℕ := 0
  pendingBySeq : Dict ℕ (Mutation α) := ∅
  resync : ResyncState := {}

def u64Max : ℕ := 2 ^ 64 - 1

def checkedSucc (n : ℕ) : Option ℕ := if n < u64Max then some (n + 1) else none

theorem checkedSucc_eq_some (h : checkedSucc n = some k) : k = n + 1 :=
  (some.inj (ite_none_right_eq_some.mp h).2).symm

namespace FamilyState

variable {α : Type} (s : FamilyState α)

def hasLivePending : Bool := s.pendingBySeq.keys.any fun seq => s.lastAcceptedSeq < seq

def converged : Bool := s.highWaterSeq ≤ s.lastAcceptedSeq && !s.hasLivePending

def afterPublishProgress (now : ℕ) : FamilyState α :=
  { s with
    resync :=
      if s.lastAcceptedSeq < s.highWaterSeq ∨ s.hasLivePending then s.resync.rearm now
      else s.resync.clearNeeded.clearDegradedOnProgress }

def recomputeResyncNeed (now : ℕ) (preserve : Bool) : FamilyState α :=
  { s with
    resync :=
      if !s.converged then s.resync.markNeeded now
      else if preserve then s.resync
      else s.resync.clearNeeded.clearDegradedOnProgress }

def accept (seq : ℕ) : FamilyState α :=
  { s with lastAcceptedSeq := seq, highWaterSeq := max s.highWaterSeq seq }

def admitRetained (m : Mutation α) (now : ℕ) : FamilyState α × PublishStatus × Handed α :=
  let seq := m.snapshotSeq
  if seq < s.lastAcceptedSeq then (s, .staleSequence, .discarded m)
  else if seq = s.lastAcceptedSeq then (s, .duplicateSequence, .discarded m)
  else if checkedSucc s.lastAcceptedSeq = some seq then
    ((s.accept seq).afterPublishProgress now, .accepted, .ready m)
  else if seq ≤ min (s.lastAcceptedSeq + pendingWindow) u64Max then
    if (s.pendingBySeq.lookup seq).isSome then (s, .duplicateSequence, .discarded m)
    else
      ({ s with
          pendingBySeq := s.pendingBySeq.insert seq m
          highWaterSeq := max s.highWaterSeq seq
          resync := s.resync.rearm now }, .pendingGap, .nothing)
  else
    ({ s with highWaterSeq := max s.highWaterSeq seq, resync := s.resync.rearm now },
      .resyncScheduled, .discarded m)

def beginProviderSnapshotSeq (seq now : ℕ) : FamilyState α :=
  { s with highWaterSeq := max s.highWaterSeq seq, lastAcceptedSeq := max s.lastAcceptedSeq seq }
    |>.recomputeResyncNeed now true

def erase (seq : ℕ) : FamilyState α := { s with pendingBySeq := s.pendingBySeq.erase seq }

def firstPending : Option (ℕ × Mutation α) :=
  s.pendingBySeq.keys.min?.bind fun seq => (s.pendingBySeq.lookup seq).map (seq, ·)

def stepProviderSnapshot (now : ℕ) (preserve : Bool) : FamilyState α × Handed α :=
  match s.firstPending with
  | none => (s.recomputeResyncNeed now preserve, .nothing)
  | some (seq, m) =>
    if seq ≤ s.lastAcceptedSeq then ((s.erase seq).recomputeResyncNeed now preserve, .discarded m)
    else if checkedSucc s.lastAcceptedSeq = some seq then
      (((s.erase seq).accept seq).recomputeResyncNeed now preserve, .ready m)
    else (s.recomputeResyncNeed now preserve, .nothing)

def takeNextPending (now : ℕ) : FamilyState α × Handed α :=
  match checkedSucc s.lastAcceptedSeq with
  | none => (s, .nothing)
  | some next =>
    match s.pendingBySeq.lookup next with
    | none => (s, .nothing)
    | some m => (((s.erase next).accept next).afterPublishProgress now, .ready m)

end FamilyState

inductive Note (α : Type) where
  | ready (mutation : Mutation α)
  | snapshot (seq : ℕ)

namespace Note

variable {α : Type} {last n : ℕ} {notes more : List (Note α)}

def handed : Note α → Option (Mutation α)
  | .ready m => some m
  | .snapshot _ => none

def after (last : ℕ) : Note α → ℕ
  | .ready m => m.snapshotSeq
  | .snapshot seq => max last seq

def Sequenced : ℕ → List (Note α) → Prop
  | _, [] => True
  | last, .ready m :: notes => m.snapshotSeq = last + 1 ∧ Sequenced m.snapshotSeq notes
  | last, .snapshot seq :: notes => Sequenced (max last seq) notes

def Covered (n : ℕ) (notes : List (Note α)) : Prop :=
  (∃ m, .ready m ∈ notes ∧ m.snapshotSeq = n) ∨ ∃ k, .snapshot k ∈ notes ∧ n ≤ k

theorem sequenced_append : Sequenced last (notes ++ more) ↔
    Sequenced last notes ∧ Sequenced (notes.foldl after last) more := by
  induction notes generalizing last with
  | nil => exact ⟨fun h => ⟨trivial, h⟩, And.right⟩
  | cons note _ ih =>
    cases note with
    | ready => rw [cons_append, Sequenced, Sequenced, ih, and_assoc]; rfl
    | snapshot => exact ih

theorem Covered.cons (h : Covered n notes) : Covered n (note :: notes) :=
  h.imp (fun ⟨m, hm, heq⟩ => ⟨m, .tail _ hm, heq⟩) fun ⟨k, hk, hle⟩ => ⟨k, .tail _ hk, hle⟩

theorem Sequenced.covered (h : Sequenced last notes) (hl : last < n)
    (hh : n ≤ notes.foldl after last) : Covered n notes := by
  induction notes generalizing last with
  | nil => exact absurd hh (Nat.not_le_of_lt hl)
  | cons note _ ih =>
    cases note with
    | ready m =>
      obtain heq | hlt := Nat.eq_or_lt_of_le (h.1.trans_le (Nat.succ_le_of_lt hl))
      · exact .inl ⟨m, mem_cons_self, heq⟩
      · exact (ih h.2 hlt hh).cons
    | snapshot seq =>
      by_cases hle : n ≤ seq
      · exact .inr ⟨seq, mem_cons_self, hle⟩
      · exact (ih h (by omega) hh).cons

theorem Sequenced.increasing (h : Sequenced last notes) :
    (∀ m, .ready m ∈ notes → last < m.snapshotSeq) ∧
      ((notes.filterMap handed).map Mutation.snapshotSeq).Pairwise (· < ·) := by
  induction notes generalizing last with
  | nil => exact ⟨nofun, .nil⟩
  | cons note _ ih =>
    cases note with
    | snapshot seq =>
      refine ⟨fun m hm => ?_, (ih h).2⟩
      exact lt_of_le_of_lt (le_max_left last seq) ((ih h).1 m ((mem_cons.mp hm).resolve_left nofun))
    | ready =>
      obtain ⟨hf, hr⟩ := h
      obtain ⟨hl, hp⟩ := ih hr
      refine ⟨fun m hm => ?_, .cons (fun n hn => ?_) hp⟩
      · obtain heq | ht := mem_cons.mp hm
        · cases heq
          omega
        · have := hl m ht
          omega
      · obtain ⟨m, hm, rfl⟩ := mem_map.mp hn
        obtain ⟨note, hnote, hh⟩ := mem_filterMap.mp hm
        cases note with
        | snapshot => cases hh
        | ready =>
          cases hh
          exact hl m hnote

end Note

inductive FamilyOp (α : Type) where
  | admitRetained (mutation : Mutation α) (now : ℕ)
  | takeNextPending (now : ℕ)
  | beginProviderSnapshot (seq now : ℕ)
  | stepProviderSnapshot (now : ℕ) (preserve : Bool)

structure FamilyRun (α : Type) where
  state : FamilyState α := {}
  admitted : Multiset (Mutation α) := 0
  discarded : Multiset (Mutation α) := 0
  notes : List (Note α) := []

namespace FamilyRun

variable {α : Type}

variable (s : FamilyRun α)

def hand : FamilyState α × Handed α → FamilyRun α
  | (state, .ready m) => { s with state, notes := s.notes ++ [.ready m] }
  | (state, .discarded m) => { s with state, discarded := s.discarded + {m} }
  | (state, .nothing) => { s with state }

def step : FamilyOp α → FamilyRun α
  | .admitRetained m now =>
    let (state, _, handed) := s.state.admitRetained m now
    { s with admitted := s.admitted + {m} }.hand (state, handed)
  | .takeNextPending now => s.hand (s.state.takeNextPending now)
  | .beginProviderSnapshot seq now =>
    { s with
      state := s.state.beginProviderSnapshotSeq seq now
      notes := s.notes ++ [.snapshot seq] }
  | .stepProviderSnapshot now preserve => s.hand (s.state.stepProviderSnapshot now preserve)

variable (ops : List (FamilyOp α))

def run : FamilyRun α := ops.foldl step {}

def handedOut : List (Mutation α) := s.notes.filterMap Note.handed

def pending : Multiset (Mutation α) := s.state.pendingBySeq.total ({·})

structure Kept (held : Multiset (Mutation α)) (s : FamilyRun α) : Prop where
  sequenced : Note.Sequenced 0 s.notes
  last : s.notes.foldl Note.after 0 = s.state.lastAcceptedSeq
  waiting : ∀ seq m, s.state.pendingBySeq.lookup seq = some m →
    m.snapshotSeq = seq ∧ 0 < seq ∧ seq ≤ s.state.lastAcceptedSeq + pendingWindow
  once : s.admitted = s.handedOut + s.discarded + (s.pending + held)
  high : s.state.lastAcceptedSeq ≤ s.state.highWaterSeq

section

variable {s : FamilyRun α} {m : Mutation α}

theorem Kept.erase (h : Kept 0 s) (hl : s.state.pendingBySeq.lookup seq = some m) :
    Kept {m} { s with state := s.state.erase seq } :=
  { h with
    waiting := fun o f hf => h.waiting o f (AList.lookup_of_erase hf)
    once := by
      have ht := s.state.pendingBySeq.total_erase ({·} : Mutation α → Multiset _) hl
      refine h.once.trans (congrArg _ ?_)
      rw [add_zero, add_comm]
      exact ht }

theorem Kept.accept (h : Kept {m} s) (hn : m.snapshotSeq = s.state.lastAcceptedSeq + 1) :
    Kept 0 (s.hand (s.state.accept m.snapshotSeq, .ready m)) where
  sequenced := by
    refine Note.sequenced_append.mpr ⟨h.sequenced, ?_, trivial⟩
    rw [h.last]
    exact hn
  last := by
    rw [hand, foldl_append]
    rfl
  waiting := by
    intro seq f hf
    obtain ⟨hs, hp, hle⟩ := h.waiting seq f hf
    refine ⟨hs, hp, hle.trans (Nat.add_le_add_right ?_ _)⟩
    exact hn ▸ Nat.le_succ _
  once := by
    refine h.once.trans ?_
    have hh : (s.hand (s.state.accept m.snapshotSeq, .ready m)).handedOut =
        s.handedOut ++ [m] := filterMap_append
    rw [hh, ← Multiset.coe_add]
    change _ = s.handedOut + {m} + s.discarded + (s.pending + 0)
    rw [add_zero]
    ac_rfl
  high := le_max_right _ _

theorem Kept.discard (h : Kept {m} s) : Kept 0 (s.hand (s.state, .discarded m)) :=
  { h with
    once := by
      refine h.once.trans ?_
      change _ = s.handedOut + (s.discarded + {m}) + (s.pending + 0)
      rw [add_zero]
      ac_rfl }

theorem Kept.insert {r : ResyncState} {high : ℕ} (h : Kept {m} s)
    (hn : s.state.pendingBySeq.lookup m.snapshotSeq = none)
    (hl : s.state.lastAcceptedSeq < m.snapshotSeq)
    (hw : m.snapshotSeq ≤ s.state.lastAcceptedSeq + pendingWindow)
    (hh : s.state.highWaterSeq ≤ high) :
    Kept 0 { s with
      state := ⟨s.state.lastAcceptedSeq, high, s.state.pendingBySeq.insert m.snapshotSeq m,
        r⟩ } :=
  { h with
    waiting := AList.forall_lookup_insert ⟨rfl, Nat.zero_lt_of_lt hl, hw⟩ fun o f _ => h.waiting o f
    once := by
      have ht := s.state.pendingBySeq.total_insert_of_none ({·} : Mutation α → Multiset _) m hn
      refine h.once.trans (congrArg _ ?_)
      rw [add_zero, add_comm]
      exact ht.symm
    high := h.high.trans hh }

theorem Kept.step (h : Kept 0 s) (op : FamilyOp α) : Kept 0 (s.step op) := by
  cases op with
  | admitRetained m =>
    have hh : Kept {m} { s with admitted := s.admitted + {m} } := by
      refine { h with once := (congrArg (· + {m}) h.once).trans ?_ }
      rw [add_zero, add_assoc]
      rfl
    simp only [FamilyRun.step, FamilyState.admitRetained]
    split_ifs with hs hsame hn hw ht
    · exact hh.discard
    · exact hh.discard
    · exact { hh.accept (checkedSucc_eq_some hn) with }
    · exact hh.discard
    · have hlow : s.state.lastAcceptedSeq < m.snapshotSeq := by omega
      exact hh.insert (not_isSome_iff_eq_none.mp ht) hlow
        (hw.trans (min_le_left _ _)) (le_max_left _ _)
    · exact { hh.discard with high := h.high.trans (le_max_left _ _) }
  | takeNextPending =>
    simp only [FamilyRun.step, FamilyState.takeNextPending]
    split
    · exact h
    next next hn =>
    split
    · exact h
    next m hl =>
    obtain rfl := (h.waiting next m hl).1
    exact { (h.erase hl).accept (checkedSucc_eq_some hn) with }
  | beginProviderSnapshot seq =>
    refine { h with sequenced := ?_, last := ?_, waiting := ?_, once := ?_, high := ?_ }
    · exact Note.sequenced_append.mpr ⟨h.sequenced, trivial⟩
    · rw [FamilyRun.step, foldl_append, h.last]
      rfl
    · intro o f hf
      obtain ⟨hseq, hpos, hle⟩ := h.waiting o f hf
      exact ⟨hseq, hpos, hle.trans (Nat.add_le_add_right (le_max_left _ _) _)⟩
    · rw [FamilyRun.step, handedOut, filterMap_append]
      exact (append_nil s.handedOut).symm ▸ h.once
    · exact max_le_max_right seq h.high
  | stepProviderSnapshot =>
    simp only [FamilyRun.step, FamilyState.stepProviderSnapshot]
    split
    · exact { h with }
    next seq m hfirst =>
    obtain ⟨_, -, hl⟩ := bind_eq_some_iff.mp hfirst
    obtain ⟨_, hl, hp⟩ := map_eq_some_iff.mp hl
    cases hp
    obtain rfl := (h.waiting seq m hl).1
    split_ifs with hs hn
    · exact { (h.erase hl).discard with }
    · exact { (h.erase hl).accept (checkedSucc_eq_some hn) with }
    · exact { h with }

end

theorem kept_run : Kept 0 (run ops) :=
  foldlRecOn ops step ⟨trivial, rfl, nofun, rfl, le_rfl⟩ fun _ h op _ => h.step op

/-- The numbers handed out increase, and one is missing only behind a snapshot that stands for it.
Every mutation is in one place. What waits is less than a window ahead; what has fallen behind was
handed out or is in a snapshot. -/
theorem run_sequenced (ops : List (FamilyOp α)) : let s := run ops
    (s.handedOut.map Mutation.snapshotSeq).Pairwise (· < ·) ∧ (∀ before a between b behind n,
        s.notes = before ++ .ready a :: (between ++ .ready b :: behind) →
        a.snapshotSeq < n → n < b.snapshotSeq → Note.Covered n between) ∧
      s.admitted = s.handedOut + s.discarded + s.pending ∧
      (∀ seq m, s.state.pendingBySeq.lookup seq = some m →
        seq ≤ s.state.lastAcceptedSeq + pendingWindow ∧
        (seq ≤ s.state.lastAcceptedSeq → Note.Covered seq s.notes)) ∧
      s.state.lastAcceptedSeq ≤ s.state.highWaterSeq := by
  have h := kept_run ops
  refine ⟨h.sequenced.increasing.2, ?_, ?_, ?_, h.high⟩
  · intro before a between b behind n hnotes hlow hhigh
    have hseq := h.sequenced
    rw [hnotes, Note.sequenced_append] at hseq
    obtain ⟨hbetween, hlast, -⟩ := Note.sequenced_append.mp hseq.2.2
    exact hbetween.covered hlow (by omega)
  · rw [h.once, add_zero]
  · intro seq m hlookup
    obtain ⟨-, hpos, hle⟩ := h.waiting seq m hlookup
    exact ⟨hle, fun hbehind => h.sequenced.covered hpos (h.last ▸ hbehind)⟩

/-- Behind a snapshot a mutation still waits under a number below the last accepted one. -/
theorem pending_below_last :
    ∃ ops : List (FamilyOp Unit), ((run ops).state.pendingBySeq.lookup 3).isSome ∧
      3 < (run ops).state.lastAcceptedSeq :=
  ⟨[.admitRetained ⟨3, ()⟩ 0, .beginProviderSnapshot 5 0], by decide⟩

end FamilyRun

end BotsterHub.Entity
