import BotsterHub.Client.Connection
import BotsterHub.Lib.Machine
import Mathlib.Data.Nat.Digits.Lemmas

/-!
Correlation of requests and responses.

Every frame goes to the caller, to one of the three stores, or is a response that nobody waits
for. A cancelled id stays cancelled unless `next_event` reads its late response: that call parks
every response whose id was ever submitted, while `cancel` promises to discard it.
-/

namespace BotsterHub.Client

open List ServerFrame Connection Note

theorem digitChar_isDigit (h : ch.isDigit = true) : Nat.digitChar (ch.toNat - 48) = ch := by
  simp only [Char.isDigit, Bool.and_eq_true, decide_eq_true_eq] at h
  have h₁ : 48 ≤ ch.toNat := h.1
  have h₂ : ch.toNat ≤ 57 := h.2
  apply Char.toNat_inj.mp
  rw [Nat.toNat_digitChar_of_lt_ten (by omega)]
  omega

theorem digits_ofDigits_text {text : List Char} (hdigits : ∀ ch ∈ text, ch.isDigit = true)
    (hh : text.head? ≠ some '0') :
    Nat.digits 10 (Nat.ofDigits 10 (text.reverse.map fun ch => ch.toNat - 48)) =
      text.reverse.map fun ch => ch.toNat - 48 := by
  have hr : ∀ ch ∈ text, 48 ≤ ch.toNat ∧ ch.toNat ≤ 57 := by
    intro ch hm
    have hd := hdigits ch hm
    simp only [Char.isDigit, Bool.and_eq_true, decide_eq_true_eq] at hd
    exact ⟨hd.1, hd.2⟩
  refine Nat.digits_ofDigits 10 (by decide) _ ?_ ?_
  · intro digit hm
    obtain ⟨ch, hch, rfl⟩ := mem_map.mp hm
    have := hr ch (mem_reverse.mp hch)
    omega
  · intro hne
    cases text with
    | nil => simp at hne
    | cons ch =>
      have hch := hr ch mem_cons_self
      have hz : ch.toNat ≠ 48 := by
        intro h48
        exact hh (congrArg some (Char.toNat_inj.mp h48))
      simp only [reverse_cons, map_append, map_cons, map_nil, getLast_append_singleton]
      omega

theorem encodeRequestId_parse {text : String} {id : ℕ} (h : parseRequestId text = some id) :
    encodeRequestId id = text := by
  unfold parseRequestId at h
  dsimp only at h
  split at h
  · cases h
  next hs =>
  split at h
  · next hd =>
    split at h
    · cases h
      have ha := all_eq_true.mp hd
      have hr := digits_ofDigits_text ha fun hh => hs (.inr (.inr hh))
      have hp : Nat.ofDigits 10 (text.toList.reverse.map fun ch => ch.toNat - 48) ≠ 0 := by
        intro hz
        rw [hz, Nat.digits_zero] at hr
        exact hs (.inl (by simpa using hr.symm))
      have hc : (text.toList.map fun ch => Nat.digitChar (ch.toNat - 48)) =
          text.toList := by
        rw [map_congr_left fun ch hm => digitChar_isDigit (ha ch hm), map_id']
      rw [encodeRequestId, if_neg hp, hr, ← map_reverse, reverse_reverse, map_map]
      exact (congrArg String.ofList hc).trans String.ofList_toList
    · cases h
  · cases h

variable {Ack Response Event Entity : Type*}

namespace ServerFrame

def response? : ServerFrame Ack Response Event Entity → Option (String × Response)
  | .response requestId r => some (requestId, r)
  | _ => none

def event? : ServerFrame Ack Response Event Entity → Option Event
  | .event e => some e
  | _ => none

def entity? : ServerFrame Ack Response Event Entity → Option Entity
  | .entity e => some e
  | _ => none

end ServerFrame

namespace Connection

variable (incoming : List (Incoming Ack Response Event Entity))

def framesOf : List (ServerFrame Ack Response Event Entity) := incoming.filterMap Except.toOption

variable (c : Connection Ack Response Event Entity)

def cancelledIds : List ℕ :=
  c.trace.notes.filterMap fun
    | .cancelled id => some id
    | .answered _ _ => none

def parked : List (String × Response) :=
  c.parkedResponses.map fun entry => (encodeRequestId entry.1, entry.2)

abbrev Given (Response Event Entity : Type*) := List (String × Response) × List Event × List Entity

def given (t : Trace Ack Response Event Entity) : Given Response Event Entity :=
  (t.responses, t.events, t.entities)

/-- What the caller has been given once it is given one frame more. -/
def givenWith (t : Trace Ack Response Event Entity) :
    ServerFrame Ack Response Event Entity → Given Response Event Entity
  | .response id r => (t.responses ++ [(id, r)], t.events, t.entities)
  | .event e => (t.responses, t.events ++ [e], t.entities)
  | .entity e => (t.responses, t.events, t.entities ++ [e])
  | .helloAck _ | .close _ => given t

structure Keeps (stream : List (ServerFrame Ack Response Event Entity)) : Prop where
  stream : stream = c.trace.taken ++ framesOf c.incoming
  events : c.trace.taken.filterMap (·.event?) = c.trace.events ++ c.skippedEvents
  entities : c.trace.taken.filterMap (·.entity?) = c.trace.entities ++ c.skippedEntityFrames
  responses : (c.trace.responses ++ c.parked).Subperm (c.trace.taken.filterMap (·.response?))
  answered : ∀ id response, .answered id response ∈ c.trace.notes →
    (encodeRequestId id, response) ∈ c.trace.taken.filterMap (·.response?)

structure Forgets : Prop where
  submitted : ∀ id ∈ c.cancelledIds, id ≤ c.lastId
  outstanding : ∀ id ∈ c.cancelledIds, id ∉ c.outstanding
  parked : ∀ id ∈ c.cancelledIds, ∀ response, (id, response) ∉ c.parkedResponses
  notes : c.trace.notes.Pairwise fun first later =>
    ∀ id response, first = .cancelled id → later ≠ .answered id response

structure Correlates (stream : List (ServerFrame Ack Response Event Entity)) : Prop where
  keeps : c.Keeps stream
  forgets : c.Forgets
  limit : c.outstanding.length ≤ maxOutstandingRequests

variable {c} {stream : List (ServerFrame Ack Response Event Entity)}

theorem correlates_start : (start incoming).Correlates (framesOf incoming) where
  keeps := ⟨rfl, rfl, rfl, Subperm.refl _, by simp [start]⟩
  forgets := ⟨by simp [start, cancelledIds], by simp [start, cancelledIds],
    by simp [start, cancelledIds], Pairwise.nil⟩
  limit := Nat.zero_le _

structure Moves (c c' : Connection Ack Response Event Entity)
    (frames : List (ServerFrame Ack Response Event Entity)) : Prop where
  incoming : framesOf c.incoming = frames ++ framesOf c'.incoming
  taken : c'.trace.taken = c.trace.taken ++ frames
  events : c'.trace.events ++ c'.skippedEvents =
    c.trace.events ++ c.skippedEvents ++ frames.filterMap (·.event?)
  entities : c'.trace.entities ++ c'.skippedEntityFrames =
    c.trace.entities ++ c.skippedEntityFrames ++ frames.filterMap (·.entity?)
  responses : (c'.trace.responses ++ c'.parked).Subperm
    (c.trace.responses ++ c.parked ++ frames.filterMap (·.response?))
  answered : ∀ id response, .answered id response ∈ c'.trace.notes →
    .answered id response ∈ c.trace.notes ∨
      (encodeRequestId id, response) ∈ c.parked ++ frames.filterMap (·.response?)

structure Respects (c c' : Connection Ack Response Event Entity) : Prop where
  lastId : c'.lastId = c.lastId
  outstanding : c'.outstanding.Sublist c.outstanding
  parked : ∀ entry ∈ c'.parkedResponses, entry ∈ c.parkedResponses ∨ entry.1 ∉ c.cancelledIds
  notes : c'.trace.notes = c.trace.notes ∨ ∃ id response,
    c'.trace.notes = c.trace.notes ++ [.answered id response] ∧ id ∉ c.cancelledIds

variable {c' : Connection Ack Response Event Entity}
  {frames : List (ServerFrame Ack Response Event Entity)}

theorem Keeps.moves (h : c.Keeps stream) (hm : c.Moves c' frames) : c'.Keeps stream where
  stream := by
    rw [hm.taken, append_assoc, ← hm.incoming]
    exact h.stream
  events := by rw [hm.taken, filterMap_append, h.events, hm.events]
  entities := by rw [hm.taken, filterMap_append, h.entities, hm.entities]
  responses := by
    rw [hm.taken, filterMap_append]
    exact hm.responses.trans ((subperm_append_right _).mpr h.responses)
  answered := by
    intro id response hmem
    rw [hm.taken, filterMap_append]
    rcases hm.answered id response hmem with hold | hn
    · exact mem_append_left _ (h.answered id response hold)
    rcases mem_append.mp hn with hp | hr
    · have hk := h.responses.subset (mem_append_right _ hp)
      exact mem_append_left _ hk
    · exact mem_append_right _ hr

theorem mem_cancelledIds {id : ℕ} : id ∈ c.cancelledIds ↔ .cancelled id ∈ c.trace.notes := by
  unfold cancelledIds
  rw [mem_filterMap]
  constructor
  · rintro ⟨note, hm, hid⟩
    cases note with
    | cancelled =>
      cases hid
      exact hm
    | answered => cases hid
  · intro hm
    exact ⟨_, hm, rfl⟩

theorem Respects.cancelledIds (hr : c.Respects c') : c'.cancelledIds = c.cancelledIds := by
  unfold Connection.cancelledIds
  rcases hr.notes with heq | ⟨id, response, heq, -⟩
  · rw [heq]
  · rw [heq, filterMap_append]
    simp

theorem Forgets.respects (h : c.Forgets) (hr : c.Respects c') : c'.Forgets where
  submitted id hid := by
    rw [hr.cancelledIds] at hid
    rw [hr.lastId]
    exact h.submitted id hid
  outstanding id hid ho := by
    rw [hr.cancelledIds] at hid
    exact h.outstanding id hid (hr.outstanding.subset ho)
  parked id hid response hm := by
    rw [hr.cancelledIds] at hid
    rcases hr.parked _ hm with hold | hn
    · exact h.parked id hid response hold
    · exact hn hid
  notes := by
    rcases hr.notes with heq | ⟨id, response, heq, hnot⟩
    · rw [heq]
      exact h.notes
    rw [heq]
    refine pairwise_append.mpr ⟨h.notes, pairwise_singleton _ _, ?_⟩
    rintro first hf later hl id' response' rfl rfl
    obtain ⟨rfl, -⟩ := answered.inj (mem_singleton.mp hl)
    exact hnot (mem_cancelledIds.mpr hf)

theorem Correlates.step (h : c.Correlates stream)
    (frames : List (ServerFrame Ack Response Event Entity)) (hm : c.Moves c' frames)
    (hr : c.Respects c') : c'.Correlates stream where
  keeps := h.keeps.moves hm
  forgets := h.forgets.respects hr
  limit := hr.outstanding.length_le.trans h.limit

theorem Moves.refl (c : Connection Ack Response Event Entity) : c.Moves c [] :=
  ⟨rfl, (append_nil _).symm, (append_nil _).symm, (append_nil _).symm,
    (append_nil _).symm ▸ Subperm.refl _, fun _ _ => .inl⟩

theorem Respects.refl (c : Connection Ack Response Event Entity) : c.Respects c :=
  ⟨rfl, Sublist.refl _, fun _ => .inl, .inl rfl⟩

section Frames

variable {rest : List (Incoming Ack Response Event Entity)}

variable {frame : ServerFrame Ack Response Event Entity}

theorem framesOf_cons
    (hr : c.incoming = .ok frame :: rest) : framesOf c.incoming = [frame] ++ framesOf rest := by
  rw [hr]
  rfl

theorem Moves.take (hr : c.incoming = .ok frame :: rest) (hevent : frame.event? = none)
    (he : frame.entity? = none) : c.Moves (c.take rest frame) [frame] where
  incoming := framesOf_cons hr
  taken := rfl
  events := by simp [hevent, Connection.take]
  entities := by simp [he, Connection.take]
  responses := (sublist_append_left _ _).subperm
  answered _ _ := .inl

theorem responses_hand (c : Connection Ack Response Event Entity) (a : String × Response) :
    (c.trace.responses ++ [a] ++ c.parked).Subperm (c.trace.responses ++ c.parked ++ [a]) := by
  refine Perm.subperm ?_
  rw [append_assoc, append_assoc]
  exact Perm.append_left _ perm_append_comm

section

variable (h : c.Correlates stream)

include h

theorem Correlates.fail (hr : c.incoming = .error e :: rest) :
    Correlates { c with incoming := rest } stream := by
  refine h.step [] { Moves.refl c with incoming := ?_ } { Respects.refl c with }
  rw [hr]
  rfl

theorem Correlates.empty (hr : c.incoming = []) : Correlates { c with incoming := [] } stream := by
  obtain ⟨incoming, _, _, _, _, _, _, _⟩ := c
  obtain rfl : incoming = [] := hr
  exact h

theorem Correlates.discard (hr : c.incoming = .ok frame :: rest)
    (hevent : frame.event? = none) (he : frame.entity? = none) :
    (c.take rest frame).Correlates stream :=
  h.step [frame] (.take hr hevent he) { Respects.refl c with }

theorem Correlates.close : Correlates { c with closed := some r } stream :=
  h.step [] { Moves.refl c with } { Respects.refl c with }

theorem Correlates.skipEvent {event : Event} (hr : c.incoming = .ok (.event event) :: rest) :
    ((c.take rest (.event event)).skipEvent event).Correlates stream :=
  h.step [.event event] ⟨framesOf_cons hr, rfl, (append_assoc ..).symm, (append_nil _).symm,
      (sublist_append_left _ _).subperm, fun _ _ => .inl⟩
    { Respects.refl c with }

theorem Correlates.skipEntity (hr : c.incoming = .ok (.entity e) :: rest) :
    ((c.take rest (.entity e)).skipEntity e).Correlates stream :=
  h.step [.entity e] ⟨framesOf_cons hr, rfl, (append_nil _).symm, (append_assoc ..).symm,
      (sublist_append_left _ _).subperm, fun _ _ => .inl⟩
    { Respects.refl c with }

theorem Correlates.handEvent {event : Event}
    (hr : c.incoming = .ok (.event event) :: rest) (hn : c.skippedEvents = []) :
    ((c.take rest (.event event)).handEvent event).Correlates stream := by
  refine h.step [.event event] ⟨framesOf_cons hr, rfl, ?_, (append_nil _).symm,
      (sublist_append_left _ _).subperm, fun _ _ => .inl⟩
    { Respects.refl c with }
  simp [take, Connection.handEvent, hn, ServerFrame.event?]

theorem Correlates.handEntity
    (hr : c.incoming = .ok (.entity e) :: rest) (hn : c.skippedEntityFrames = []) :
    ((c.take rest (.entity e)).handEntity e).Correlates stream := by
  refine h.step [.entity e] ⟨framesOf_cons hr, rfl, (append_nil _).symm, ?_,
      (sublist_append_left _ _).subperm, fun _ _ => .inl⟩
    { Respects.refl c with }
  simp [take, Connection.handEntity, hn, ServerFrame.entity?]

end

variable {text : String}

section

variable (h : c.Correlates stream)

include h

variable {response : Response}

section

variable (hr : c.incoming = .ok (.response text response) :: rest)
include hr

theorem Correlates.retire (id : ℕ) :
    ((c.take rest (.response text response)).retireOutstanding id).Correlates stream :=
  h.step [.response text response] { Moves.take hr rfl rfl with }
    { Respects.refl c with outstanding := filter_sublist }

theorem Correlates.park {id : ℕ}
    (hparse : parseRequestId text = some id) (hid : id ∉ c.cancelledIds) :
    (((c.take rest (.response text response)).retireOutstanding id).park id response).Correlates
      stream := by
  refine h.step [.response text response] { Moves.take hr rfl rfl with responses := ?_ }
    ⟨rfl, filter_sublist, fun entry he => ?_, .inl rfl⟩
  · have hp : Connection.parked
        (((c.take rest (.response text response)).retireOutstanding id).park id response) =
          c.parked ++ [(text, response)] := by
      simp [Connection.parked, Connection.park, retireOutstanding, take,
        encodeRequestId_parse hparse]
    rw [hp, ← append_assoc]
    exact Subperm.refl _
  · rcases mem_append.mp he with hold | hn
    · exact .inl hold
    · obtain rfl := mem_singleton.mp hn
      exact .inr hid

theorem Correlates.answer {id : ℕ}
    (hp : parseRequestId text = some id) (hid : id ∉ c.cancelledIds) :
    ((((c.take rest (.response text response)).retireOutstanding id).handResponse
      (encodeRequestId id) response).note (.answered id response)).Correlates stream := by
  rw [encodeRequestId_parse hp]
  refine h.step [.response text response]
    { Moves.take hr rfl rfl with
      responses := responses_hand c _, answered := fun id' response' hm => ?_ }
    ⟨rfl, filter_sublist, fun _ => .inl, .inr ⟨id, response, rfl, hid⟩⟩
  rcases mem_append.mp hm with hold | hn
  · exact .inl hold
  obtain ⟨rfl, rfl⟩ := answered.inj (mem_singleton.mp hn)
  refine .inr (mem_append_right _ ?_)
  simp [response?, encodeRequestId_parse hp]

theorem Correlates.handResponse (hl : left.Sublist c.outstanding) :
    Correlates (({ c.take rest (.response text response) with outstanding := left } :
      Connection Ack Response Event Entity).handResponse text response) stream :=
  h.step [.response text response] { Moves.take hr rfl rfl with responses := responses_hand c _ }
    { Respects.refl c with outstanding := hl }

end

end

end Frames

variable {incoming : List (Incoming Ack Response Event Entity)}

theorem Correlates.waitLoop (h : c.Correlates stream) (hid : requestId ∉ c.cancelledIds)
    (hi : c.incoming = incoming) : (waitLoop requestId incoming c).2.Correlates stream ∧
      ∀ response, (waitLoop requestId incoming c).1 = .ok response →
        (waitLoop requestId incoming c).2.trace.notes =
          c.trace.notes ++ [.answered requestId response] := by
  induction incoming generalizing c with
  | nil => exact ⟨h.empty hi, nofun⟩
  | cons r _ ih =>
    cases r with
    | error => exact ⟨h.fail hi, nofun⟩
    | ok frame =>
      cases frame with
      | helloAck => exact ⟨h.discard hi rfl rfl, nofun⟩
      | close => exact ⟨(h.discard hi rfl rfl).close, nofun⟩
      | event => exact ih (h.skipEvent hi) hid rfl
      | entity => exact ih (h.skipEntity hi) hid rfl
      | response =>
        unfold waitLoop
        dsimp only
        split
        · exact ⟨h.discard hi rfl rfl, nofun⟩
        next id hp =>
        split
        · next hs =>
          subst hs
          refine ⟨h.answer hi hp hid, ?_⟩
          rintro _ ⟨⟩
          rfl
        split
        · next ho =>
          have hn : id ∉ c.cancelledIds := fun hm => h.forgets.outstanding id hm ho
          exact ih (h.park hi hp hn) hid rfl
        · exact ih (h.retire hi id) hid rfl

/-- Up to the next event no response answers a cancelled id. -/
def quiet (cancelled : List ℕ) : List (Incoming Ack Response Event Entity) → Bool
  | .ok (.response text _) :: rest =>
    (parseRequestId text).all fun id => id ∉ cancelled && quiet cancelled rest
  | .ok (.entity _) :: rest => quiet cancelled rest
  | _ => true

theorem Correlates.eventLoop (h : c.Correlates stream) (hn : c.skippedEvents = [])
    (hi : c.incoming = incoming) (hq : quiet c.cancelledIds incoming) :
    (eventLoop incoming c).2.Correlates stream ∧
      ∀ event, (eventLoop incoming c).1 = .ok event →
        (eventLoop incoming c).2.trace.events = c.trace.events ++ [event] := by
  induction incoming generalizing c with
  | nil => exact ⟨h.empty hi, nofun⟩
  | cons r rest ih =>
    cases r with
    | error => exact ⟨h.fail hi, nofun⟩
    | ok frame =>
      cases frame with
      | helloAck => exact ⟨h.discard hi rfl rfl, nofun⟩
      | close => exact ⟨(h.discard hi rfl rfl).close, nofun⟩
      | event =>
        refine ⟨h.handEvent hi hn, ?_⟩
        rintro _ ⟨⟩
        rfl
      | entity => exact ih (h.skipEntity hi) hn rfl hq
      | response =>
        unfold eventLoop
        dsimp only
        split
        · exact ⟨h.discard hi rfl rfl, nofun⟩
        next id hp =>
        obtain ⟨hnot, hr⟩ : id ∉ c.cancelledIds ∧ quiet c.cancelledIds rest := by
          simpa [quiet, hp] using hq
        split
        · exact ih (h.park hi hp hnot) hn rfl hr
        · exact ih (h.retire hi id) hn rfl hr

variable {event : Event}

theorem Correlates.popEvent (h : c.Correlates stream) (he : c.skippedEvents = event :: rest) :
    Correlates { c.handEvent event with skippedEvents := rest } stream := by
  refine h.step [] { Moves.refl c with events := ?_ } { Respects.refl c with }
  simp [Connection.handEvent, he]

theorem Correlates.popEntity (h : c.Correlates stream) (he : c.skippedEntityFrames = e :: rest) :
    Correlates { c.handEntity e with skippedEntityFrames := rest } stream := by
  refine h.step [] { Moves.refl c with entities := ?_ } { Respects.refl c with }
  simp [Connection.handEntity, he]

variable {response : Response} {left : List (ℕ × Response)} {requestId : ℕ}

theorem responses_pop {id : ℕ} (hperm : c.parkedResponses.Perm ((id, response) :: left)) :
    (c.trace.responses ++ [(encodeRequestId id, response)] ++
      left.map fun e => (encodeRequestId e.1, e.2)).Subperm
        (c.trace.responses ++ c.parked ++ []) := by
  have hp := hperm.map fun e : ℕ × Response => (encodeRequestId e.1, e.2)
  rw [append_assoc, append_nil]
  exact (Perm.append_left _ hp.symm).subperm

section

variable (h : c.Correlates stream)

include h

theorem Correlates.popResponse {id : ℕ} (hp : c.parkedResponses.Perm ((id, response) :: left)) :
    Correlates ({ c with parkedResponses := left }.handResponse (encodeRequestId id) response)
      stream := by
  refine h.step [] { Moves.refl c with responses := responses_pop hp }
    { Respects.refl c with parked := fun entry he => .inl ?_ }
  exact hp.mem_iff.mpr (mem_cons_of_mem _ he)

theorem Correlates.popAnswer {id : ℕ} (hp : c.parkedResponses.Perm ((id, response) :: left)) :
    Correlates (({ c with parkedResponses := left }.handResponse (encodeRequestId id) response).note
        (.answered id response)) stream := by
  have hm : (id, response) ∈ c.parkedResponses := hp.mem_iff.mpr mem_cons_self
  refine h.step []
    { Moves.refl c with responses := responses_pop hp, answered := fun id' response' hn => ?_ }
    ⟨rfl, Sublist.refl _, fun entry he => .inl ?_,
      .inr ⟨id, response, rfl, fun hid => h.forgets.parked id hid response hm⟩⟩
  · rcases mem_append.mp hn with hold | hnew
    · exact .inl hold
    · obtain ⟨rfl, rfl⟩ := answered.inj (mem_singleton.mp hnew)
      exact .inr (mem_append_left _ (mem_map_of_mem hm))
  · exact hp.mem_iff.mpr (mem_cons_of_mem _ he)

theorem Correlates.waitResponse (requestId : ℕ) : (c.waitResponse requestId).2.Correlates stream ∧
    ∀ response, (c.waitResponse requestId).1 = .ok response →
      (c.waitResponse requestId).2.trace.notes =
        c.trace.notes ++ [.answered requestId response] := by
  unfold Connection.waitResponse
  split
  · next i hi =>
    split
    · next id response hg =>
      obtain ⟨hlt, hs, -⟩ := findIdx?_eq_some_iff_getElem.mp hi
      have he : c.parkedResponses[i] = (id, response) :=
        Option.some.inj ((getElem?_eq_getElem hlt).symm.trans hg)
      obtain rfl : id = requestId := by simpa [he] using hs
      have hp := (getElem_cons_eraseIdx_perm hlt).symm
      rw [he] at hp
      refine ⟨h.popAnswer hp, ?_⟩
      rintro _ ⟨⟩
      rfl
    · exact ⟨h, nofun⟩
  · split
    · next ho =>
      exact h.waitLoop (fun hm => h.forgets.outstanding requestId hm ho) rfl
    · exact ⟨h, nofun⟩

theorem Correlates.nextEvent (hq : quiet c.cancelledIds c.incoming) :
    c.nextEvent.2.Correlates stream ∧ ∀ event, c.nextEvent.1 = .ok event →
      c.nextEvent.2.trace.events = c.trace.events ++ [event] := by
  unfold Connection.nextEvent
  split
  · next he =>
    refine ⟨h.popEvent he, ?_⟩
    rintro _ ⟨⟩
    rfl
  · next hn => exact h.eventLoop hn rfl hq

theorem Correlates.nextFrame : c.nextFrame.2.Correlates stream ∧
    ∀ frame, c.nextFrame.1 = .ok frame → given c.nextFrame.2.trace = givenWith c.trace frame := by
  have hgive {c' : Connection Ack Response Event Entity} {frame} (hc : c'.Correlates stream)
      (hf : given c'.trace = givenWith c.trace frame) : c'.Correlates stream ∧
        ∀ f, (.ok frame : Incoming Ack Response Event Entity) = .ok f →
          given c'.trace = givenWith c.trace f := by
    refine ⟨hc, ?_⟩
    rintro _ ⟨⟩
    exact hf
  unfold Connection.nextFrame
  split
  · next hl =>
    have hs := dropLast_append_getLast? _ hl
    refine hgive (h.popResponse ?_) rfl
    conv_lhs => rw [← hs]
    exact perm_append_singleton _ _
  · split
    · next hevents => exact hgive (h.popEvent hevents) rfl
    next hevents =>
    split
    · next he => exact hgive (h.popEntity he) rfl
    next he =>
    unfold readNextFrame
    cases hi : c.incoming with
    | nil => exact ⟨h, nofun⟩
    | cons r =>
      cases r with
      | error => exact ⟨h.fail hi, nofun⟩
      | ok frame =>
        cases frame with
        | helloAck => exact hgive (h.discard hi rfl rfl) rfl
        | close => exact hgive (h.discard hi rfl rfl).close rfl
        | event => exact hgive (h.handEvent hi hevents) rfl
        | entity => exact hgive (h.handEntity hi he) rfl
        | response text =>
          cases hp : parseRequestId text with
          | none =>
            simp only [hp]
            exact hgive (h.handResponse hi (Sublist.refl _)) rfl
          | some =>
            simp only [hp]
            exact hgive (h.handResponse hi filter_sublist) rfl

theorem Correlates.pollFrame (hr : o.restoreTimeout = none) :
    (c.pollFrame o).2.Correlates stream ∧ ∀ frame, (c.pollFrame o).1 = .ok (some frame) →
      given (c.pollFrame o).2.trace = givenWith c.trace frame := by
  have hn := h.nextFrame
  unfold Connection.pollFrame
  split
  · exact ⟨h, nofun⟩
  · exact ⟨h, nofun⟩
  split
  · next heq =>
    rw [heq] at hn
    rw [hr]
    refine ⟨hn.1, ?_⟩
    rintro _ ⟨⟩
    exact hn.2 _ rfl
  · next heq =>
    rw [heq] at hn
    rw [hr]
    split <;> exact ⟨hn.1, nofun⟩

theorem Correlates.submit (hl : c.lastId < maxRequestId)
    (f : Option DaemonTransportError) : (c.submit f).2.Correlates stream := by
  unfold Connection.submit
  split
  · exact h
  next hr =>
  have hid : min (c.lastId + 1) maxRequestId = c.lastId + 1 := Nat.min_eq_left hl
  rw [hid]
  have hs : ∀ id ∈ c.cancelledIds, id ≤ c.lastId + 1 := fun id hm =>
    (h.forgets.submitted id hm).trans (Nat.le_succ _)
  cases f with
  | some =>
    exact { h with keeps := { h.keeps with }, forgets := { h.forgets with submitted := hs } }
  | none =>
    refine ⟨{ h.keeps with }, { h.forgets with
      submitted := hs, outstanding := fun id hm ho => ?_ }, ?_⟩
    · rcases mem_append.mp ho with hold | hn
      · exact h.forgets.outstanding id hm hold
      have hle := h.forgets.submitted id hm
      have hn := mem_singleton.mp hn
      omega
    · change (c.outstanding ++ [c.lastId + 1]).length ≤ _
      rw [length_append, length_singleton]
      omega

theorem Correlates.cancel (hs : requestId ≤ c.lastId) : (c.cancel requestId).Correlates stream := by
  have hm {id : ℕ} : id ∈ (c.cancel requestId).cancelledIds ↔
      id ∈ c.cancelledIds ∨ id = requestId := by
    rw [mem_cancelledIds, mem_cancelledIds]
    change _ ∈ c.trace.notes ++ [_] ↔ _
    rw [mem_append, mem_singleton, cancelled.injEq]
  constructor
  · refine ⟨h.keeps.stream, h.keeps.events, h.keeps.entities, ?_, ?_⟩
    · refine Subperm.trans ?_ h.keeps.responses
      exact (Sublist.append_left (filter_sublist.map _) _).subperm
    intro id response hn
    rcases mem_append.mp hn with hold | hnew
    · exact h.keeps.answered id response hold
    · cases mem_singleton.mp hnew
  · refine ⟨fun id hid => ?_, fun id hid ho => ?_, fun id hid response hp => ?_, ?_⟩
    · rcases hm.mp hid with hold | rfl
      · exact h.forgets.submitted id hold
      · exact hs
    · obtain ⟨ho, hne⟩ := mem_filter.mp ho
      rcases hm.mp hid with hold | rfl
      · exact h.forgets.outstanding id hold ho
      · simp at hne
    · obtain ⟨hp, hne⟩ := mem_filter.mp hp
      rcases hm.mp hid with hold | rfl
      · exact h.forgets.parked id hold response hp
      · simp at hne
    · refine pairwise_append.mpr ⟨h.forgets.notes, pairwise_singleton _ _, ?_⟩
      rintro first hf later hl id response - rfl
      cases mem_singleton.mp hl
  · exact (filter_sublist.length_le).trans h.limit

end

/-- A fresh id can be made, a cancelled id was submitted, `next_event` meets no late response to a
cancelled id, and the socket takes its timeout back. -/
def allowed (c : Connection Ack Response Event Entity) : Call → Bool
  | .submit _ => c.lastId < maxRequestId
  | .cancel requestId => requestId ≤ c.lastId
  | .nextEvent => quiet c.cancelledIds c.incoming
  | .pollFrame options => options.restoreTimeout = none
  | _ => true

/-- What a call returns is what the trace records. -/
def Returns (c : Connection Ack Response Event Entity) : Call → Prop
  | .waitResponse requestId => ∀ response, (c.waitResponse requestId).1 = .ok response →
      (c.waitResponse requestId).2.trace.notes =
        c.trace.notes ++ [.answered requestId response]
  | .nextEvent => ∀ event, c.nextEvent.1 = .ok event →
      c.nextEvent.2.trace.events = c.trace.events ++ [event]
  | .nextFrame => ∀ frame, c.nextFrame.1 = .ok frame →
      given c.nextFrame.2.trace = givenWith c.trace frame
  | .pollFrame options => ∀ frame, (c.pollFrame options).1 = .ok (some frame) →
      given (c.pollFrame options).2.trace = givenWith c.trace frame
  | .submit _ | .cancel _ => True

theorem Correlates.call (h : c.Correlates stream) (call : Call) (ha : c.allowed call) :
    (c.step call).Correlates stream ∧ c.Returns call := by
  cases call with
  | submit f => exact ⟨h.submit (of_decide_eq_true ha) f, trivial⟩
  | cancel => exact ⟨h.cancel (of_decide_eq_true ha), trivial⟩
  | waitResponse requestId => exact h.waitResponse requestId
  | nextEvent => exact h.nextEvent ha
  | nextFrame => exact h.nextFrame
  | pollFrame => exact h.pollFrame (of_decide_eq_true ha)

def Allowed (c : Connection Ack Response Event Entity) (calls : List Call) : Prop :=
  Machine.Along (fun c call => some (step c call)) (fun c call => c.allowed call = true) c calls

instance (calls : List Call) : Decidable (c.Allowed calls) :=
  inferInstanceAs (Decidable (Machine.Along _ _ _ _))

theorem Correlates.run (h : c.Correlates stream) (calls : List Call) (ha : c.Allowed calls) :
    (c.run calls).Correlates stream := by
  induction calls generalizing c with
  | nil => exact h
  | cons call _ ih =>
    obtain ⟨hc, hr⟩ := ha
    exact ih (h.call call hc).1 (hr _ rfl)

structure Correlated (c : Connection Ack Response Event Entity)
    (stream : List (ServerFrame Ack Response Event Entity)) : Prop where
  answered : ∀ id response, .answered id response ∈ c.trace.notes →
    (encodeRequestId id, response) ∈ stream.filterMap (·.response?)
  once : c.trace.responses.Subperm (stream.filterMap (·.response?))
  cancelled : ∀ before after id, c.trace.notes = before ++ .cancelled id :: after →
    (∀ response, .answered id response ∉ after) ∧ ∀ response, (id, response) ∉ c.parkedResponses
  events : c.trace.events ++ c.skippedEvents ++ (framesOf c.incoming).filterMap (·.event?) =
    stream.filterMap (·.event?)
  entities : c.trace.entities ++ c.skippedEntityFrames ++
    (framesOf c.incoming).filterMap (·.entity?) = stream.filterMap (·.entity?)
  limit : c.outstanding.length ≤ maxOutstandingRequests
  returns : ∀ call, c.allowed call → c.Returns call

theorem Correlates.correlated (h : c.Correlates stream) : c.Correlated stream where
  answered id response hm := by
    rw [h.keeps.stream, filterMap_append]
    exact mem_append_left _ (h.keeps.answered id response hm)
  once := by
    rw [h.keeps.stream, filterMap_append]
    refine (sublist_append_left _ c.parked).subperm.trans (h.keeps.responses.trans ?_)
    exact (sublist_append_left _ _).subperm
  cancelled before after id hn := by
    have hp := h.forgets.notes
    rw [hn, pairwise_append, pairwise_cons] at hp
    refine ⟨fun response hm => ?_, h.forgets.parked id ?_⟩
    · exact hp.2.1.1 _ hm id response rfl rfl
    · rw [mem_cancelledIds, hn]
      exact mem_append_right _ mem_cons_self
  events := by rw [← h.keeps.events, ← filterMap_append, ← h.keeps.stream]
  entities := by rw [← h.keeps.entities, ← filterMap_append, ← h.keeps.stream]
  limit := h.limit
  returns call ha := (h.call call ha).2

/-- In every run of allowed calls on any bytes, however the socket delivers them. -/
theorem run_correlates (codec : JsonCodec (ServerFrame Ack Response Event Entity))
    (bytes : List UInt8) (answers : List ReadAnswer) (n : ℕ) (calls : List Call)
    (hallowed : (start (readResults codec n .new ⟨bytes, answers⟩)).Allowed calls) :
    ((start (readResults codec n .new ⟨bytes, answers⟩)).run calls).Correlated
      (framesOf (readResults codec n .new ⟨bytes, answers⟩)) :=
  ((correlates_start _).run calls hallowed).correlated

def smallCodec : JsonCodec (ServerFrame Unit Bool Bool Bool) where
  toVec frame :=
    if frame = .response "1" true then some [49]
    else if frame = .event true then some [50] else none
  fromSlice
    | [49] => some (.response "1" true)
    | [50] => some (.event true)
    | _ => none
  round_trip value bytes h := by
    split at h
    · next hvalue =>
      cases h
      subst hvalue
      rfl
    · split at h
      · next hvalue =>
        cases h
        subst hvalue
        rfl
      · cases h

def received (body : UInt8) : List (Incoming Unit Bool Bool Bool) :=
  readResults smallCodec 2 .new ⟨[2, 0, 0, 0, 1, body], [.bytes 9, .bytes 9, .bytes 9]⟩

def cancelledEarly : List Call := [.submit none, .cancel 1, .nextEvent, .waitResponse 1]

def cancelledLate : List Call := [.submit none, .nextEvent, .waitResponse 1, .cancel 1]

/-- `next_event` reads the response of a cancelled request and `wait_response` returns it; a polled
event is lost when the timeout cannot be restored. -/
theorem cancelled_id_answered : (((start (received 49)).run cancelledEarly).trace.notes =
        [.cancelled 1, .answered 1 true] ∧
      ¬((start (received 49)).run cancelledEarly).Correlated (framesOf (received 49))) ∧
    ¬((start (received 50)).run [.pollFrame ⟨none, none, some .other⟩]).Correlated
      (framesOf (received 50)) := by
  have hnotes : ((start (received 49)).run cancelledEarly).trace.notes =
      [.cancelled 1, .answered 1 true] := by decide +kernel
  refine ⟨⟨hnotes, fun h => ?_⟩, fun h => absurd h.events (by decide +kernel)⟩
  exact (h.cancelled [] _ 1 hnotes).1 true mem_cons_self

theorem run_correlates_parked : (start (received 49)).Allowed cancelledLate ∧
      ((start (received 49)).run cancelledLate).Correlated (framesOf (received 49)) ∧
      ((start (received 49)).run cancelledLate).trace.notes =
        [.answered 1 true, .cancelled 1] :=
  have hallowed : (start (received 49)).Allowed cancelledLate := by decide +kernel
  ⟨hallowed, run_correlates smallCodec _ _ 2 cancelledLate hallowed, by decide +kernel⟩

end Connection

end BotsterHub.Client
