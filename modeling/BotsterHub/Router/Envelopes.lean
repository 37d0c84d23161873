import BotsterHub.Lib.Machine
import BotsterHub.Router.Types

/-!
The envelopes of the router: one entry per accepted event that some consumer has not finished
with, with bytes, occupancy of producers, holders, and the payloads an unload is destroying.
`none` is a failing `expect`, assertion or checked subtraction.
-/

namespace BotsterHub.Router

open Option AList

structure EnvelopeStore where
  envelopes : Dict ℕ Envelope
  globalInFlightBytes : ℕ
  producer : Dict String ProducerOccupancy
  admitted : Dict ℕ (Dict (String × ℕ) AdmittedHolder)
  /-- The envelopes each cleanup still has to retire (a set, without repetitions). -/
  retiringByCleanup : Dict (String × ℕ) (List ℕ)
  nextEnvelope : ℕ

namespace EnvelopeStore

def empty : EnvelopeStore :=
  ⟨∅, 0, (∅ : Dict String ProducerOccupancy).insert hubEventOwner default, ∅, ∅, 1⟩

variable (s : EnvelopeStore)

variable (id : ℕ)

def liveEnvelope : Option Envelope :=
  (s.envelopes.lookup id).filter fun envelope => envelope.retirement.isNone

def producerOf (owner : String) : ProducerOccupancy := (s.producer.lookup owner).getD default

def ensureProducer (owner : String) : EnvelopeStore :=
  match s.producer.lookup owner with
  | some _ => s
  | none => { s with producer := s.producer.insert owner default }

def insertEnvelope (envelope : Envelope) : EnvelopeStore :=
  let occupancy := s.producerOf envelope.owner
  { s with
    nextEnvelope := envelope.id + 1
    envelopes := s.envelopes.insert envelope.id envelope
    globalInFlightBytes := s.globalInFlightBytes + envelope.size
    producer := s.producer.insert envelope.owner
      ⟨occupancy.events + 1, occupancy.bytes + envelope.size⟩ }

def noteAdmitted (key : String × ℕ) : EnvelopeStore :=
  if (s.liveEnvelope id).isSome then
    match s.admitted.get₂ id key with
    | some _ => s
    | none => { s with admitted := s.admitted.insert₂ id key ⟨false⟩ }
  else s

/-- Mark one holder exactly once; the flag says that it was the last one. -/
def markHolderRetired (key : String × ℕ) : Bool × EnvelopeStore :=
  if (s.liveEnvelope id).isNone then (false, s)
  else if s.admitted.get₂ id key = some ⟨true⟩ then (false, s)
  else
    let s := { s with admitted := s.admitted.insert₂ id key ⟨true⟩ }
    match s.envelopes.lookup id with
    | none => (false, s)
    | some envelope =>
      let envelope := { envelope with remainingHolders := envelope.remainingHolders - 1 }
      (decide (envelope.remainingHolders = 0),
        { s with envelopes := s.envelopes.insert id envelope })

/-- A retiring envelope leaves the set of its cleanup; `none` when it is not in it. -/
def leaveCleanup : Option EnvelopeRetirement → Option EnvelopeStore
  | none => some s
  | some retirement =>
    match s.retiringByCleanup.lookup retirement.cleanup with
    | none => none
    | some ids =>
      if id ∈ ids then
        let left := ids.erase id
        some { s with retiringByCleanup :=
          if left.isEmpty then s.retiringByCleanup.erase retirement.cleanup
          else s.retiringByCleanup.insert retirement.cleanup left }
      else none

/-- `if let Some(producer) = producer.get_mut(owner)` with saturating releases. -/
def releaseProducer (owner : String) (size : ℕ) : EnvelopeStore :=
  match s.producer.lookup owner with
  | none => s
  | some occupancy =>
    let occupancy := ⟨occupancy.events - 1, occupancy.bytes - size⟩
    { s with producer := s.producer.insert owner occupancy }

/-- Remove an envelope and release its charges; `none` is a failed check. -/
def retireEnvelopeLocked : Option EnvelopeStore :=
  match s.envelopes.lookup id with
  | none => some s
  | some envelope => do
    let s := { s with envelopes := s.envelopes.erase id, admitted := s.admitted.erase id }
    let s ← s.leaveCleanup id envelope.retirement
    let bytes ← checkedSub s.globalInFlightBytes envelope.size
    let s := { s with globalInFlightBytes := bytes }
    some (s.releaseProducer envelope.owner envelope.size)

def retireHolderLocked (key : String × ℕ) : Option (Bool × EnvelopeStore) :=
  let (last, s) := s.markHolderRetired id key
  if last then (s.retireEnvelopeLocked id).map fun s => (true, s)
  else some (false, s)

/-- The last holder was dropped by an unload: the envelope keeps its charge until its payload is
destroyed. `none` when it is gone. -/
def beginRetirement (cleanup : String × ℕ) : Option EnvelopeStore :=
  let ids := (s.retiringByCleanup.lookup cleanup).getD []
  let s := { s with retiringByCleanup := s.retiringByCleanup.insert cleanup (ids.insert id) }
  match s.envelopes.lookup id with
  | none => none
  | some envelope => some { s with envelopes := s.envelopes.insert id { envelope with
      retirement := some ⟨cleanup, false⟩
      payload := []
      payloadJson := .null } }

def destroyPayload : EnvelopeStore :=
  match s.envelopes.lookup id with
  | none => s
  | some envelope =>
    match envelope.retirement with
    | none => s
    | some retirement => { s with envelopes := s.envelopes.insert id { envelope with
        retirement := some { retirement with destroyed := true } } }

def isDestroyed : Bool :=
  match s.envelopes.lookup id with
  | none => false
  | some envelope => envelope.retirement.any fun retirement => retirement.destroyed

def retireDestroyedPayloads (cleanup : String × ℕ) : Option EnvelopeStore :=
  match s.retiringByCleanup.lookup cleanup with
  | none => some s
  | some ids => (ids.filter s.isDestroyed).foldlM (fun s id => s.retireEnvelopeLocked id) s

def size (s : EnvelopeStore) (id : ℕ) : ℕ := ((s.envelopes.lookup id).map Envelope.size).getD 0

theorem liveEnvelope_eq_some {s : EnvelopeStore} {id : ℕ} {e : Envelope} :
    s.liveEnvelope id = some e ↔ s.envelopes.lookup id = some e ∧ e.retirement = none := by
  simp [liveEnvelope, filter_eq_some_iff]

theorem size_of_lookup {s : EnvelopeStore} {id : ℕ} {e : Envelope}
    (h : s.envelopes.lookup id = some e) : s.size id = e.size := by
  simp [size, h]

section

variable (s : EnvelopeStore)

@[simp] theorem producerOf_ensureProducer (o other : String) :
    (s.ensureProducer o).producerOf other = s.producerOf other := by
  unfold ensureProducer
  cases h : s.producer.lookup o with
  | some => rfl
  | none =>
    simp only [producerOf, lookup_insert_eq]
    by_cases ho : other = o
    · subst ho
      simp [h]
    · simp [ho]

theorem ensureProducer_eq (o : String) :
    s.ensureProducer o = { s with producer := (s.ensureProducer o).producer } := by
  unfold ensureProducer
  split <;> rfl

theorem releaseProducer_eq (o : String) (size : ℕ) : s.releaseProducer o size =
      { s with producer := (s.releaseProducer o size).producer } := by
  unfold releaseProducer
  split <;> rfl

@[simp] theorem producerOf_releaseProducer (o other : String) (size : ℕ) :
    (s.releaseProducer o size).producerOf other =
      if other = o then ⟨(s.producerOf o).events - 1, (s.producerOf o).bytes - size⟩
      else s.producerOf other := by
  unfold releaseProducer
  cases h : s.producer.lookup o with
  | some =>
    simp only [producerOf, lookup_insert_eq, h]
    split <;> rfl
  | none =>
    by_cases ho : other = o
    · subst ho
      simp [producerOf, h, default]
    · simp [ho]

end

variable {s s' : EnvelopeStore} {id : ℕ} {key c : String × ℕ}

theorem next_ensureProducer (s : EnvelopeStore) (o : String) :
    (s.ensureProducer o).nextEnvelope = s.nextEnvelope := by
  rw [ensureProducer_eq]

theorem next_noteAdmitted (s : EnvelopeStore) (id : ℕ) (key : String × ℕ) :
    (s.noteAdmitted id key).nextEnvelope = s.nextEnvelope := by
  unfold noteAdmitted
  split
  · split <;> rfl
  · rfl

theorem next_markHolderRetired (s : EnvelopeStore) (id : ℕ) (key : String × ℕ) :
    (s.markHolderRetired id key).2.nextEnvelope = s.nextEnvelope := by
  unfold markHolderRetired
  split
  · rfl
  split
  · rfl
  dsimp only
  split <;> rfl

theorem leaveCleanup_keeps (h : s.leaveCleanup id r = some s') :
    s'.envelopes = s.envelopes ∧ s'.nextEnvelope = s.nextEnvelope := by
  cases r with
  | none =>
    cases h
    exact ⟨rfl, rfl⟩
  | some =>
    simp only [leaveCleanup] at h
    split at h
    · cases h
    split at h
    · cases h
      exact ⟨rfl, rfl⟩
    · cases h

theorem next_retireEnvelopeLocked (h : s.retireEnvelopeLocked id = some s') :
    s'.nextEnvelope = s.nextEnvelope := by
  unfold retireEnvelopeLocked at h
  split at h
  · cases h
    rfl
  obtain ⟨s₁, hl, h⟩ := bind_eq_some_iff.mp h
  obtain ⟨bytes, -, h⟩ := bind_eq_some_iff.mp h
  cases h
  rw [releaseProducer_eq]
  exact (leaveCleanup_keeps hl).2

theorem next_retireHolderLocked
    (h : s.retireHolderLocked id key = some (last, s')) : s'.nextEnvelope = s.nextEnvelope := by
  unfold retireHolderLocked at h
  have hm := s.next_markHolderRetired id key
  dsimp only at h
  split at h
  · obtain ⟨s₁, hr, heq⟩ := map_eq_some_iff.mp h
    cases heq
    rw [next_retireEnvelopeLocked hr, hm]
  · cases h
    exact hm

theorem next_beginRetirement (h : s.beginRetirement id c = some s') :
    s'.nextEnvelope = s.nextEnvelope := by
  unfold beginRetirement at h
  dsimp only at h
  split at h
  · cases h
  · cases h
    rfl

theorem next_destroyPayload (s : EnvelopeStore) (id : ℕ) :
    (s.destroyPayload id).nextEnvelope = s.nextEnvelope := by
  unfold destroyPayload
  split
  · rfl
  split <;> rfl

theorem next_retireDestroyedPayloads (h : s.retireDestroyedPayloads c = some s') :
    s'.nextEnvelope = s.nextEnvelope := by
  unfold retireDestroyedPayloads at h
  split at h
  · cases h
    rfl
  exact Machine.run_rel (fun _ => rfl) (fun _ _ _ h h' => h'.trans h)
    (R := fun s s' : EnvelopeStore => s'.nextEnvelope = s.nextEnvelope)
    (fun _ _ _ => next_retireEnvelopeLocked) h

def Outlives (s s' : EnvelopeStore) : Prop :=
  ∀ id envelope', s'.liveEnvelope id = some envelope' →
    ∃ envelope, s.liveEnvelope id = some envelope ∧
      envelope'.enqueuedAt = envelope.enqueuedAt ∧ envelope'.size = envelope.size

theorem Outlives.trans (h : s.Outlives s') (h' : s'.Outlives s'') : s.Outlives s'' := by
  intro id envelope'' hl''
  obtain ⟨envelope', hl', heq', hs'⟩ := h' id envelope'' hl''
  obtain ⟨envelope, hl, heq, hs⟩ := h id envelope' hl'
  exact ⟨envelope, hl, heq'.trans heq, hs'.trans hs⟩

theorem Outlives.of_envelopes_eq (h : s'.envelopes = s.envelopes) : s.Outlives s' := by
  intro id e hl
  rw [liveEnvelope, h] at hl
  exact ⟨e, hl, rfl, rfl⟩

theorem outlives_markHolderRetired (s : EnvelopeStore) (id : ℕ) (key : String × ℕ) :
    s.Outlives (s.markHolderRetired id key).2 := by
  unfold markHolderRetired
  split
  · exact .of_envelopes_eq rfl
  split
  · exact .of_envelopes_eq rfl
  dsimp only
  split
  · exact .of_envelopes_eq rfl
  next envelope hlookup =>
  intro other e he
  obtain ⟨he, hl⟩ := liveEnvelope_eq_some.mp he
  rw [lookup_insert_eq] at he
  split at he
  · next ho =>
    cases he
    exact ⟨envelope, liveEnvelope_eq_some.mpr ⟨ho ▸ hlookup, hl⟩, rfl, rfl⟩
  · exact ⟨e, liveEnvelope_eq_some.mpr ⟨he, hl⟩, rfl, rfl⟩

theorem envelopes_releaseProducer (s : EnvelopeStore) (o : String) (size : ℕ) :
    (s.releaseProducer o size).envelopes = s.envelopes := by
  unfold releaseProducer
  split <;> rfl

theorem outlives_retireEnvelopeLocked (h : s.retireEnvelopeLocked id = some s') :
    s.Outlives s' := by
  unfold retireEnvelopeLocked at h
  split at h
  · cases h
    exact .of_envelopes_eq rfl
  obtain ⟨s₁, hl, h⟩ := bind_eq_some_iff.mp h
  obtain ⟨bytes, -, h⟩ := bind_eq_some_iff.mp h
  cases h
  intro other e he
  obtain ⟨he, hlive⟩ := liveEnvelope_eq_some.mp he
  have henvelopes : s₁.envelopes = s.envelopes.erase id := (leaveCleanup_keeps hl).1
  rw [envelopes_releaseProducer, henvelopes] at he
  exact ⟨e, liveEnvelope_eq_some.mpr ⟨lookup_of_erase he, hlive⟩, rfl, rfl⟩

theorem outlives_retireHolderLocked
    (h : s.retireHolderLocked id key = some (last, s')) : s.Outlives s' := by
  unfold retireHolderLocked at h
  have hm := s.outlives_markHolderRetired id key
  dsimp only at h
  split at h
  · obtain ⟨s₁, hr, heq⟩ := map_eq_some_iff.mp h
    cases heq
    exact hm.trans (outlives_retireEnvelopeLocked hr)
  · cases h
    exact hm

end EnvelopeStore

end BotsterHub.Router
