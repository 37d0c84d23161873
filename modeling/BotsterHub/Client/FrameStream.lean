import BotsterHub.Client.Frames
import BotsterHub.Lib.Machine
import Mathlib.Data.Nat.Basic
import Mathlib.Order.Basic

/-!
Reading a stream of Unix frames.

However the socket delivers its bytes, the stream is at every moment the frames returned so far,
the partial frame, and the bytes that were not read.
-/

namespace BotsterHub.Client

open List DaemonUnixFrame FrameReader

def supply (answers : List ReadAnswer) : ℕ :=
  answers.countP fun
    | .bytes _ => true
    | .fail _ => false

structure FillSpec (want : ℕ) (held bytes : List UInt8) (answers : List ReadAnswer)
    (out : Filled × List UInt8 × ByteSource) : Prop where
  moved : held ++ bytes = out.2.1 ++ out.2.2.bytes
  length_le : out.2.1.length ≤ want
  full_iff : out.1 = .full ↔ out.2.1.length = want
  answers_le : out.2.2.answers.length ≤ answers.length
  answers_lt : held.length < want → answers ≠ [] → out.2.2.answers.length < answers.length
  supplied : bytes.length ≤ supply answers → out.2.2.bytes.length ≤ supply out.2.2.answers

theorem fill_spec (want : ℕ) (a : List ReadAnswer) (held bytes : List UInt8)
    (hh : held.length ≤ want) :
    FillSpec want held bytes a (fill want held bytes a) := by
  induction a generalizing held bytes with
  | nil =>
    unfold fill
    refine ⟨rfl, hh, ?_, le_rfl, fun _ => absurd rfl, id⟩
    split
    · next hf => exact ⟨fun _ => le_antisymm hh hf, fun _ => rfl⟩
    · next hf => exact ⟨fun h => (by cases h), fun h => absurd h.ge hf⟩
  | cons answer a ih =>
    unfold fill
    split
    · next hf =>
      exact ⟨rfl, hh, ⟨fun _ => le_antisymm hh hf, fun _ => rfl⟩, le_rfl,
        fun hlt => absurd hf (Nat.not_le.mpr hlt), id⟩
    next hf =>
    have ho : ∀ out : Filled, out ≠ .full → (out = .full ↔ held.length = want) :=
      fun out hout => ⟨fun h => absurd h hout, fun h => absurd h.ge hf⟩
    cases answer with
    | fail =>
      exact ⟨rfl, hh, ho _ (by simp), Nat.le_succ _, fun _ _ => Nat.lt_succ_self _, id⟩
    | bytes n =>
      dsimp only
      split
      · next he =>
        exact ⟨by rw [he], hh, ho _ (by simp), Nat.le_succ _,
          fun _ _ => Nat.lt_succ_self _, fun _ => Nat.zero_le _⟩
      next hs =>
      set count := min (n + 1) (want - held.length) with hc
      have hp : 0 < count := by omega
      have hlen : 0 < bytes.length := length_pos_iff.mpr hs
      have hroom : (held ++ bytes.take count).length ≤ want := by
        rw [length_append, length_take]
        omega
      have hr := ih (held ++ bytes.take count) (bytes.drop count) hroom
      have hl := Nat.lt_succ_of_le hr.answers_le
      refine ⟨?_, hr.length_le, hr.full_iff, hl.le, fun _ _ => hl, fun hsupply => ?_⟩
      · rw [← hr.moved, append_assoc, take_append_drop]
      refine hr.supplied ?_
      have hcons : supply (.bytes n :: a) = supply a + 1 := by simp [supply]
      rw [length_drop]
      omega

namespace FrameReader

def held (r : FrameReader) : List UInt8 := r.lengthPrefix ++ r.frame

def Waiting (r : FrameReader) : Prop :=
  (r.lengthPrefix.length < unixFrameLengthPrefixBytes ∧ r.frame = [] ∧ r.frameLen = 0) ∨
    (r.lengthPrefix.length = unixFrameLengthPrefixBytes ∧ r.frameLen = ofLe r.lengthPrefix ∧
      r.frame.length < r.frameLen)

theorem waiting_new : new.Waiting := Or.inl ⟨by decide, rfl, rfl⟩

def covers (r : FrameReader) (maxFrameBytes : ℕ) : Bool :=
  r.lengthPrefix.length < unixFrameLengthPrefixBytes ||
    (r.frameLen ≠ 0 && r.frameLen ≤ maxFrameBytes)

/-- A call returns a frame, waits, or refuses the declared length. -/
inductive Outcome (maxFrameBytes : ℕ) (stream : List UInt8) :
    Except DaemonTransportError (List UInt8) × FrameReader × ByteSource → Prop
  | returned {declared frame : List UInt8} {source : ByteSource}
      (hstream : stream = declared ++ frame ++ source.bytes)
      (hlength : declared.length = unixFrameLengthPrefixBytes)
      (hdeclared : ofLe declared = frame.length) (hbound : frame.length ≤ maxFrameBytes) :
      Outcome maxFrameBytes stream (.ok frame, new, source)
  | waiting {error : DaemonTransportError} {r : FrameReader} {source : ByteSource}
      (hstream : stream = r.held ++ source.bytes) (hwaiting : r.Waiting) :
      Outcome maxFrameBytes stream (.error error, r, source)
  | refused {error : DaemonTransportError} {r : FrameReader} {source : ByteSource}
      (hstream : stream = r.held ++ source.bytes)
      (hlength : r.lengthPrefix.length = unixFrameLengthPrefixBytes)
      (hframe : r.frame = []) (hframeLen : r.frameLen = 0)
      (hdeclared : ofLe r.lengthPrefix = 0 ∨ maxFrameBytes < ofLe r.lengthPrefix) :
      Outcome maxFrameBytes stream (.error error, r, source)

structure Uses (source source' : ByteSource) : Prop where
  answers_le : source'.answers.length ≤ source.answers.length
  answers_lt : source.answers ≠ [] → source'.answers.length < source.answers.length
  supplied : source.bytes.length ≤ supply source.answers →
    source'.bytes.length ≤ supply source'.answers

theorem Uses.trans (h : Uses source source')
    (h' : Uses source' source'') : Uses source source'' where
  answers_le := h'.answers_le.trans h.answers_le
  answers_lt hne := h'.answers_le.trans_lt (h.answers_lt hne)
  supplied hs := h'.supplied (h.supplied hs)

variable {r : FrameReader}

theorem readBody_outcome (hw : r.lengthPrefix.length = unixFrameLengthPrefixBytes)
    (hd : r.frameLen = ofLe r.lengthPrefix) (hframe : r.frame.length < r.frameLen)
    (hmax : r.frameLen ≤ m) (source : ByteSource) :
    Outcome m (r.held ++ source.bytes) (r.readBody source) ∧
      Uses source (r.readBody source).2.2 := by
  obtain ⟨hm, hle, ho, hanswers, hlt, hs⟩ :=
    fill_spec r.frameLen source.answers r.frame source.bytes hframe.le
  have hu : Uses source (fill r.frameLen r.frame source.bytes source.answers).2.2 :=
    ⟨hanswers, hlt hframe, hs⟩
  unfold readBody
  split
  case h_3 frame source' hf =>
    rw [hf] at hm ho hu
    have hl : frame.length = r.frameLen := ho.mp rfl
    refine ⟨.returned ?_ hw ?_ ?_, hu⟩
    · rw [held, append_assoc, append_assoc, hm]
    · rw [hl, hd]
    · rw [hl]
      exact hmax
  all_goals
    next frame source' hf =>
    rw [hf] at hm ho hle hu
    have hlt : frame.length < r.frameLen := lt_of_le_of_ne hle fun h => by simpa using ho.mpr h
    refine ⟨.waiting ?_ (.inr ⟨hw, hd, hlt⟩), hu⟩
    rw [held, held, append_assoc, append_assoc, hm]

theorem readRawFrame_outcome (hr : r.Waiting) (source : ByteSource) (hmax : r.covers m) :
    Outcome m (r.held ++ source.bytes) (r.readRawFrame source m) ∧
      Uses source (r.readRawFrame source m).2.2 := by
  rcases hr with ⟨hshort, hf, hframeLen⟩ | ⟨hword, hd, hf⟩
  · obtain ⟨hm, hle, ho, hanswers, hlt, hsupplied⟩ := fill_spec unixFrameLengthPrefixBytes
      source.answers r.lengthPrefix source.bytes hshort.le
    have hu : Uses source
        (fill unixFrameLengthPrefixBytes r.lengthPrefix source.bytes source.answers).2.2 :=
      ⟨hanswers, hlt hshort, hsupplied⟩
    have hh : r.held = r.lengthPrefix := by rw [held, hf, append_nil]
    rw [readRawFrame, if_pos hshort, readPrefix, hh]
    generalize fill unixFrameLengthPrefixBytes r.lengthPrefix source.bytes source.answers = filled
      at hm hle ho hu
    obtain ⟨out, d, source'⟩ := filled
    have hs : r.lengthPrefix ++ source.bytes =
        held { r with lengthPrefix := d } ++ source'.bytes := by
      rw [hm, held, hf, append_nil]
    have hw (hout : out ≠ .full) : Waiting { r with lengthPrefix := d } :=
      .inl ⟨lt_of_le_of_ne hle fun h => hout (ho.mpr h), hf, hframeLen⟩
    cases out with
    | failed | eof => exact ⟨.waiting hs (hw (by simp)), hu⟩
    | full =>
      have hl : d.length = unixFrameLengthPrefixBytes := ho.mp rfl
      by_cases hb : ofLe d = 0 ∨ m < ofLe d
      · simp only [if_pos hb]
        exact ⟨.refused hs hl hf hframeLen hb, hu⟩
      have hp : ([] : List UInt8).length < ofLe d := Nat.pos_of_ne_zero fun h => hb (.inl h)
      have hbound : ofLe d ≤ m := Nat.le_of_not_lt fun h => hb (.inr h)
      have hbody := readBody_outcome (r := ⟨d, [], ofLe d⟩) hl rfl hp hbound source'
      rw [held, append_nil] at hbody
      simp only [if_neg hb, hm]
      exact ⟨hbody.1, hu.trans hbody.2⟩
  · have hn : ¬r.lengthPrefix.length < unixFrameLengthPrefixBytes := hword.ge.not_gt
    rw [readRawFrame, if_neg hn]
    refine readBody_outcome hword hd hf ?_ source
    simp only [covers, hn, decide_false, Bool.false_or, Bool.and_eq_true, decide_eq_true_eq] at hmax
    exact hmax.2

end FrameReader

structure ReadRun where
  reader : FrameReader
  source : ByteSource
  returned : List (ℕ × List UInt8)

namespace ReadRun

def start (bytes : List UInt8) (answers : List ReadAnswer) : ReadRun := ⟨.new, ⟨bytes, answers⟩, []⟩

def call (s : ReadRun) (maxFrameBytes : ℕ) : ReadRun :=
  match s.reader.readRawFrame s.source maxFrameBytes with
  | (.ok frame, reader, source) => ⟨reader, source, s.returned ++ [(maxFrameBytes, frame)]⟩
  | (.error _, reader, source) => ⟨reader, source, s.returned⟩

def run (s : ReadRun) (bounds : List ℕ) : ReadRun := bounds.foldl call s

def frames (s : ReadRun) : List (List UInt8) := s.returned.map (·.2)

/-- No call follows a refused length or has a bound below the frame that was begun. -/
def Covered (s : ReadRun) (bounds : List ℕ) : Prop :=
  Machine.Along (fun s bound => some (call s bound)) (fun s bound => s.reader.covers bound = true)
    s bounds

instance (s : ReadRun) (bounds : List ℕ) : Decidable (s.Covered bounds) :=
  inferInstanceAs (Decidable (Machine.Along _ _ _ _))

end ReadRun

def container (frame : List UInt8) : List UInt8 :=
  leBytes unixFrameLengthPrefixBytes frame.length ++ frame

theorem container_eq {d frame : List UInt8} (hl : d.length = unixFrameLengthPrefixBytes)
    (hd : ofLe d = frame.length) : container frame = d ++ frame := by
  rw [container, ← hd, ← hl, leBytes_ofLe]

namespace ReadRun

/-- The stream is the returned frames, the partial frame and the unread bytes; returned frames are
within their bounds. -/
structure Accounts (stream : List UInt8) (s : ReadRun) : Prop where
  bytes : stream = (s.frames.map container).flatten ++ s.reader.held ++ s.source.bytes
  bound : ∀ entry ∈ s.returned, entry.2.length ≤ entry.1

def Resumable (s : ReadRun) : Prop :=
  s.reader.Waiting ∨
    (s.reader.lengthPrefix.length = unixFrameLengthPrefixBytes ∧ s.reader.frameLen = 0)

variable {stream : List UInt8} {s : ReadRun} {bound : ℕ}

theorem waiting_of_covers (hs : s.Resumable) (hc : s.reader.covers bound) :
    s.reader.Waiting := by
  rcases hs with hw | ⟨hl, hz⟩
  · exact hw
  · simp [covers, hl, hz] at hc

theorem call_accounts (h : Accounts stream s) (hs : s.Resumable) (hc : s.reader.covers bound) :
    Accounts stream (s.call bound) ∧ (s.call bound).Resumable := by
  have ho := (readRawFrame_outcome (waiting_of_covers hs hc) s.source hc).1
  have hb := h.bytes
  rw [append_assoc] at hb
  unfold call
  generalize s.reader.readRawFrame s.source bound = result at ho
  cases ho with
  | @returned _ _ _ hstream hl hd hbound =>
    refine ⟨⟨?_, ?_⟩, .inl waiting_new⟩
    · rw [hb, hstream, ← container_eq hl hd]
      simp [frames, new, held]
    intro e he
    rcases mem_append.mp he with hold | hn
    · exact h.bound e hold
    · obtain rfl := mem_singleton.mp hn
      exact hbound
  | waiting hstream hw =>
    refine ⟨⟨?_, h.bound⟩, .inl hw⟩
    rw [hb, hstream, append_assoc]
    rfl
  | refused hstream hl _ hf =>
    refine ⟨⟨?_, h.bound⟩, .inr ⟨hl, hf⟩⟩
    rw [hb, hstream, append_assoc]
    rfl

theorem run_accounts (h : Accounts stream s) (hs : s.Resumable) (b : List ℕ)
    (hc : s.Covered b) : Accounts stream (s.run b) := by
  induction b generalizing s with
  | nil => exact h
  | cons _ _ ih =>
    obtain ⟨hcovers, hrest⟩ := hc
    obtain ⟨ha, hr⟩ := call_accounts h hs hcovers
    exact ih ha hr (hrest _ rfl)

theorem accounts_start (b : List UInt8) (a : List ReadAnswer) : Accounts b (start b a) :=
  ⟨rfl, by simp [start]⟩

end ReadRun

def Admissible (raw : List UInt8) : Prop := 0 < raw.length ∧ raw.length ≤ maxUnixFrameBytes

theorem Admissible.ofLe_length (h : Admissible raw) :
    ofLe (leBytes unixFrameLengthPrefixBytes raw.length) = raw.length :=
  ofLe_leBytes (h.2.trans_lt (by decide))

theorem Admissible.isBlock (h : Admissible raw) :
    IsBlock unixFrameLengthPrefixBytes (container raw) := by
  have ht : (container raw).take unixFrameLengthPrefixBytes =
      leBytes unixFrameLengthPrefixBytes raw.length :=
    take_left' (length_leBytes _ _)
  refine ⟨?_, ?_⟩
  · simp [container]
  · rw [ht, h.ofLe_length]
    simp [container]

theorem container_injective (h : Admissible raw) (h' : Admissible raw')
    (heq : container raw = container raw') : raw = raw' := by
  have hl := congrArg (fun b => ofLe (b.take unixFrameLengthPrefixBytes)) heq
  simp only [container, take_left' (length_leBytes _ _), h.ofLe_length, h'.ofLe_length] at hl
  rw [container, container, hl] at heq
  exact append_cancel_left heq

namespace ReadRun

variable {raws : List (List UInt8)} {s : ReadRun}

/-- The reader has returned the first frames and stands inside the next one. -/
structure Follows (raws : List (List UInt8)) (s : ReadRun) : Prop where
  returned : s.frames <+: raws
  rest : s.reader.held ++ s.source.bytes = ((raws.drop s.frames.length).map container).flatten
  waiting : s.reader.Waiting

section

variable (hraws : ∀ raw ∈ raws, Admissible raw)
include hraws

theorem Follows.declared {returned : ℕ}
    {d rest : List UInt8} (hl : d.length = unixFrameLengthPrefixBytes)
    (hr : d ++ rest = ((raws.drop returned).map container).flatten) :
    0 < ofLe d ∧ ofLe d ≤ maxUnixFrameBytes := by
  cases hd : raws.drop returned with
  | nil =>
    rw [hd] at hr
    have hn : d = [] := (append_eq_nil_iff.mp hr).1
    rw [hn] at hl
    exact absurd hl (by decide)
  | cons raw =>
    have hm : raw ∈ raws := mem_of_mem_drop (hd ▸ mem_cons_self)
    have hraw := hraws raw hm
    rw [hd, map_cons, flatten_cons, container, append_assoc] at hr
    obtain ⟨rfl, -⟩ := append_inj hr (by rw [hl, length_leBytes])
    rw [hraw.ofLe_length]
    exact hraw

theorem Follows.covers (h : Follows raws s) : s.reader.covers maxUnixFrameBytes := by
  rcases h.waiting with ⟨hs, -⟩ | ⟨hl, hf, hframe⟩
  · simp [FrameReader.covers, hs]
  have hr := h.rest
  rw [held, append_assoc] at hr
  obtain ⟨-, hb⟩ := Follows.declared hraws hl hr
  rw [← hf] at hb
  have hne : s.reader.frameLen ≠ 0 := by omega
  simp [FrameReader.covers, hne, hb]

theorem Follows.call (h : Follows raws s) : Follows raws (s.call maxUnixFrameBytes) := by
  have ho := (readRawFrame_outcome h.waiting s.source (h.covers hraws)).1
  have hr := h.rest
  unfold ReadRun.call
  generalize s.reader.readRawFrame s.source maxUnixFrameBytes = result at ho
  cases ho with
  | @returned _ frame source hs hl hd hb =>
    obtain ⟨done, hraws'⟩ := h.returned
    have hn : raws.drop s.frames.length = done := by rw [← hraws', drop_left]
    rw [hn, hs] at hr
    obtain ⟨hp, -⟩ := Follows.declared hraws hl (by rw [hn, ← hr, append_assoc])
    rw [← container_eq hl hd] at hr
    have hf : Admissible frame := ⟨hd ▸ hp, hb⟩
    cases done with
    | nil =>
      have hnil := (append_eq_nil_iff.mp hr).1
      have hlong := hf.isBlock.long
      rw [hnil] at hlong
      exact absurd hlong (by decide)
    | cons raw done =>
      have hraw : Admissible raw := hraws raw (by rw [← hraws']; simp)
      rw [map_cons, flatten_cons] at hr
      obtain ⟨hsame, ht⟩ := hf.isBlock.append_inj hraw.isBlock hr
      obtain rfl := container_injective hf hraw hsame
      have hframes : ReadRun.frames ⟨.new, source, s.returned ++ [(maxUnixFrameBytes, frame)]⟩ =
          s.frames ++ [frame] := by simp [ReadRun.frames]
      refine ⟨?_, ?_, waiting_new⟩
      · rw [hframes]
        exact ⟨done, by rw [← hraws', append_assoc, singleton_append]⟩
      have hdrop : raws.drop (s.frames ++ [frame]).length = done := by
        rw [← hraws', append_cons s.frames frame done, drop_left]
      rw [hframes, hdrop]
      exact ht
  | waiting hs hw =>
    exact ⟨h.returned, hs.symm.trans hr, hw⟩
  | @refused _ r source hs hl hf =>
    have hdec : r.lengthPrefix ++ source.bytes =
        ((raws.drop s.frames.length).map container).flatten := by
      rw [← hr, hs, held, hf, append_nil]
    obtain ⟨hp, hb⟩ := Follows.declared hraws hl hdec
    omega

end

theorem follows_start (raws : List (List UInt8)) (a : List ReadAnswer) :
    Follows raws (start (raws.map container).flatten a) :=
  ⟨List.nil_prefix, rfl, waiting_new⟩

structure Supplied (n : ℕ) (s : ReadRun) : Prop where
  bytes : s.source.bytes.length ≤ supply s.source.answers
  answers : s.source.answers.length ≤ n

theorem Supplied.call (hu : Uses s.source (s.reader.readRawFrame s.source bound).2.2)
    (h : Supplied (n + 1) s) : Supplied n (s.call bound) := by
  have hs : (s.call bound).source = (s.reader.readRawFrame s.source bound).2.2 := by
    unfold ReadRun.call
    split
    · next heq => rw [heq]
    · next heq => rw [heq]
  rw [← hs] at hu
  refine ⟨hu.supplied h.bytes, ?_⟩
  have ha := h.answers
  by_cases hn : s.source.answers = []
  · have hle := hu.answers_le
    rw [hn, length_nil] at hle
    omega
  · have hlt := hu.answers_lt hn
    omega

theorem run_follows (hraws : ∀ raw ∈ raws, Admissible raw) (h : Follows raws s) (n : ℕ) :
    Follows raws (s.run (replicate n maxUnixFrameBytes)) ∧
      (Supplied n s → Supplied 0 (s.run (replicate n maxUnixFrameBytes))) := by
  induction n generalizing s with
  | zero => exact ⟨h, id⟩
  | succ n ih =>
    obtain ⟨hf, hsupplied⟩ := ih (h.call hraws)
    have hu := (readRawFrame_outcome h.waiting s.source (h.covers hraws)).2
    exact ⟨hf, fun hs => hsupplied (hs.call hu)⟩

theorem Follows.complete (hraws : ∀ raw ∈ raws, Admissible raw) (h : Follows raws s)
    (hs : Supplied 0 s) : s.frames = raws := by
  have ha : s.source.answers = [] := length_eq_zero_iff.mp (Nat.le_zero.mp hs.2)
  have hb : s.source.bytes = [] := by
    have hle := hs.bytes
    rw [ha] at hle
    exact length_eq_zero_iff.mp (Nat.le_zero.mp hle)
  obtain ⟨done, hraws'⟩ := h.returned
  have hr := h.rest
  rw [hb, append_nil, ← hraws', drop_left] at hr
  cases done with
  | nil => rw [← hraws', append_nil]
  | cons raw =>
    -- a partial frame is shorter than the frame it belongs to
    exfalso
    have hraw : Admissible raw := hraws raw (by rw [← hraws']; simp)
    rw [map_cons, flatten_cons, container, append_assoc] at hr
    have hlen := congrArg length hr
    simp only [held, length_append, length_leBytes] at hlen
    rcases h.waiting with ⟨hshort, hf, -⟩ | ⟨hl, hframeLen, hf⟩
    · rw [hf, length_nil] at hlen
      omega
    rw [held] at hr
    obtain ⟨hw, -⟩ := append_inj hr (by rw [hl, length_leBytes])
    rw [hframeLen, hw, hraw.ofLe_length] at hf
    omega

end ReadRun

variable {T : Type*}

def encodeUnixFrame (codec : JsonCodec T) : DaemonUnixFrame T → Option (List UInt8)
  | .control frame => (encodeControlFrame codec frame).toOption
  | .terminal frame => encodeUnixTerminalFrame frame

def DaemonUnixFrame.routeClean : DaemonUnixFrame T → Bool
  | .control _ => true
  | .terminal frame => !frame.route.toList.any isControl

def terminalPayload (frame : TerminalFrame) : List UInt8 :=
  leBytes 2 (routeBytes frame.route).length ++ routeBytes frame.route ++
    leBytes 8 frame.generation.toNat ++ leBytes 4 frame.streamEpoch.toNat ++ frame.body

variable {f : TerminalFrame}

theorem encodeUnixTerminalFrame_eq (h : encodeUnixTerminalFrame f = some b) :
    b = container (unixContainerTerminal :: terminalPayload f) ∧
      Admissible (unixContainerTerminal :: terminalPayload f) ∧ 0 < (routeBytes f.route).length ∧
      (routeBytes f.route).length ≤ maxUnixTerminalRouteBytes := by
  obtain ⟨header, hh, rfl⟩ := Option.map_eq_some_iff.mp h
  unfold unixTerminalContainerHeader at hh
  dsimp only at hh
  split at hh
  · cases hh
  next hr =>
  split at hh
  · cases hh
  next hb =>
  cases hh
  have hl : (unixContainerTerminal :: terminalPayload f).length =
      1 + (unixTerminalContainerFixedBytes + (routeBytes f.route).length + f.body.length) := by
    simp [terminalPayload, unixTerminalContainerFixedBytes]
    omega
  refine ⟨?_, ⟨by simp, by rw [hl]; omega⟩, ?_, by omega⟩
  · rw [container, hl]
    simp [terminalPayload, unixFrameLengthPrefixBytes]
  · exact length_pos_iff.mpr fun h => hr (.inl h)

theorem fromUTF8_routeBytes (route : String) :
    String.fromUTF8? ⟨(routeBytes route).toArray⟩ = some route := by
  have hb : (⟨(routeBytes route).toArray⟩ : ByteArray) = route.toByteArray := rfl
  rw [hb, String.fromUTF8?, dif_pos route.isValidUTF8]
  rfl

theorem decodeTerminalPayload_eq (hpos : 0 < (routeBytes f.route).length)
    (hlong : (routeBytes f.route).length ≤ maxUnixTerminalRouteBytes) :
    decodeTerminalPayload (terminalPayload f) =
      if f.route.toList.any isControl then .error .invalidRoute else .ok f := by
  set route := routeBytes f.route with hroute
  set rest := leBytes 8 f.generation.toNat ++ leBytes 4 f.streamEpoch.toNat ++ f.body with hr
  have hp : terminalPayload f = leBytes 2 route.length ++ (route ++ rest) := by
    simp [terminalPayload, hr, ← hroute]
  have hrestLength : 12 ≤ rest.length := by
    simp only [hr, length_append, length_leBytes]
    omega
  have hrouteLen : ofLe ((terminalPayload f).take 2) = route.length := by
    rw [hp, take_left' (length_leBytes _ _)]
    exact ofLe_leBytes (hlong.trans_lt (by decide))
  have hd : (terminalPayload f).drop 2 = route ++ rest := by
    rw [hp, drop_left' (length_leBytes _ _)]
  have hl : (terminalPayload f).length = 2 + (route.length + rest.length) := by
    rw [hp, length_append, length_append, length_leBytes]
  have hs : ¬(terminalPayload f).length < unixTerminalContainerFixedBytes := by
    rw [hl, unixTerminalContainerFixedBytes]
    omega
  have hv : ¬(route.length = 0 ∨ maxUnixTerminalRouteBytes < route.length ∨
      (terminalPayload f).length < unixTerminalContainerFixedBytes + route.length) := by
    rw [hl, unixTerminalContainerFixedBytes]
    omega
  have hg : ofLe (rest.take 8) = f.generation.toNat := by
    rw [hr, append_assoc, take_left' (length_leBytes _ _)]
    exact ofLe_leBytes f.generation.toNat_lt
  have ht : rest.drop 8 = leBytes 4 f.streamEpoch.toNat ++ f.body := by
    rw [hr, append_assoc, drop_left' (length_leBytes _ _)]
  have he : ofLe ((rest.drop 8).take 4) = f.streamEpoch.toNat := by
    rw [ht, take_left' (length_leBytes _ _)]
    exact ofLe_leBytes f.streamEpoch.toNat_lt
  have hb : (rest.drop 8).drop 4 = f.body := by rw [ht, drop_left' (length_leBytes _ _)]
  unfold decodeTerminalPayload
  rw [if_neg hs]
  rw [hrouteLen, if_neg hv, hd, take_left, drop_left, hroute, fromUTF8_routeBytes]
  dsimp only
  split
  · rfl
  · rw [hg, he, hb, UInt64.ofNat_toNat, UInt32.ofNat_toNat]

/-- An encoded frame is an admissible raw frame, and decodes to what was encoded exactly if its
route is clean. -/
theorem encodeUnixFrame_spec (c : JsonCodec T) {f : DaemonUnixFrame T}
    {b : List UInt8} (h : encodeUnixFrame c f = some b) :
    ∃ raw, b = container raw ∧ Admissible raw ∧ (decodeUnixFrame c raw = .ok f ↔ f.routeClean) := by
  cases f with
  | control v =>
    simp only [encodeUnixFrame, encodeControlFrame] at h
    cases hj : c.toVec v with
    | none => simp [hj, Except.toOption] at h
    | some json =>
      rw [hj] at h
      dsimp only [encodeControlJson] at h
      split at h
      · cases h
      next hb =>
      cases h
      refine ⟨unixContainerControl :: json, ?_, ⟨by simp, ?_⟩, ?_⟩
      · rw [container, length_cons, Nat.add_comm]
        simp [unixFrameLengthPrefixBytes]
      · have hcap : max maxControlRequestBytes maxControlResponseBytes + 1 ≤
            maxUnixFrameBytes := by decide
        rw [length_cons]
        omega
      · simp [decodeUnixFrame, c.round_trip v json hj, routeClean]
  | terminal v =>
    obtain ⟨rfl, ha, hp, hl⟩ := encodeUnixTerminalFrame_eq h
    refine ⟨_, rfl, ha, ?_⟩
    have hc : ¬unixContainerTerminal = unixContainerControl := by decide
    rw [decodeUnixFrame, if_neg hc, if_pos rfl, decodeTerminalPayload_eq hp hl]
    by_cases hclean : v.route.toList.any isControl
    · simp [hclean, routeClean, Except.map]
    · simp [hclean, routeClean, Except.map]

theorem encoded_raws (c : JsonCodec T) {i : List (DaemonUnixFrame T)} {e : List (List UInt8)}
    (h : i.map (encodeUnixFrame c) = e.map some) :
    ∃ raws : List (List UInt8), e = raws.map container ∧ (∀ raw ∈ raws, Admissible raw) ∧
      (raws.map (decodeUnixFrame c) = i.map .ok ↔ ∀ item ∈ i, item.routeClean) := by
  induction i generalizing e with
  | nil =>
    obtain rfl : e = [] := by simpa using h.symm
    exact ⟨[], rfl, by simp, by simp⟩
  | cons _ _ ih =>
    cases e with
    | nil => simp at h
    | cons =>
      simp only [map_cons, cons.injEq] at h
      obtain ⟨raw, rfl, hr, hdecode⟩ := encodeUnixFrame_spec c h.1
      obtain ⟨raws, rfl, hraws, hd⟩ := ih h.2
      refine ⟨raw :: raws, rfl, ?_, ?_⟩
      · intro raw' hm
        rcases mem_cons.mp hm with rfl | hm
        · exact hr
        · exact hraws raw' hm
      · simp only [map_cons, cons.injEq, forall_mem_cons, hdecode, hd]

/-- Written frames are read back in order, in whatever portions the bytes come, and decode to what
was written exactly if their routes are clean. On any bytes, as long as the bounds cover the frame
held, a returned frame is within its bound and no byte is lost. -/
theorem frame_stream_round_trip (codec : JsonCodec T) :
    (∀ (items : List (DaemonUnixFrame T)) (encoded : List (List UInt8)),
      items.map (encodeUnixFrame codec) = encoded.map some →
      ∃ raws : List (List UInt8), encoded = raws.map container ∧
        (∀ (answers : List ReadAnswer) (n : ℕ), ((ReadRun.start encoded.flatten answers).run
            (List.replicate n maxUnixFrameBytes)).frames <+: raws ∧
          (encoded.flatten.length ≤ supply answers → answers.length ≤ n →
            ((ReadRun.start encoded.flatten answers).run
              (List.replicate n maxUnixFrameBytes)).frames = raws)) ∧
        (raws.map (decodeUnixFrame codec) = items.map .ok ↔ ∀ item ∈ items, item.routeClean)) ∧
    ∀ (bytes : List UInt8) (answers : List ReadAnswer) (bounds : List ℕ),
      (ReadRun.start bytes answers).Covered bounds →
      ReadRun.Accounts bytes ((ReadRun.start bytes answers).run bounds) := by
  refine ⟨fun items encoded hencoded => ?_, fun bytes answers bounds hcovered =>
    ReadRun.run_accounts (ReadRun.accounts_start bytes answers) (.inl waiting_new) bounds hcovered⟩
  obtain ⟨raws, rfl, hraws, hdecode⟩ := encoded_raws codec hencoded
  refine ⟨raws, rfl, fun answers n => ?_, hdecode⟩
  obtain ⟨hfollows, hsupplied⟩ := ReadRun.run_follows hraws (ReadRun.follows_start raws answers) n
  exact ⟨hfollows.returned, fun hbytes hn => hfollows.complete hraws (hsupplied ⟨hbytes, hn⟩)⟩

def boolCodec : JsonCodec Bool where
  toVec value := some [if value then 49 else 48]
  fromSlice
    | [49] => some true
    | [48] => some false
    | _ => none
  round_trip value bytes h := by
    cases h
    cases value <;> rfl

/-- The encoder accepts a route with a line break, the decoder does not. After a refused length the
next call returns an empty frame. A frame begun under one bound is returned under a smaller one. -/
theorem frame_stream_breaks :
    (∃ bytes, encodeUnixFrame boolCodec (.terminal ⟨"a\nb", 1, 0, [7]⟩) = some bytes ∧
      decodeUnixFrame boolCodec (bytes.drop unixFrameLengthPrefixBytes) = .error .invalidRoute) ∧
    (((ReadRun.start [9, 0, 0, 0, 1] [.bytes 3]).run [8, 8]).returned = [(8, [])] ∧
      ¬ReadRun.Accounts [9, 0, 0, 0, 1] ((ReadRun.start [9, 0, 0, 0, 1] [.bytes 3]).run [8, 8])) ∧
    ((ReadRun.start [2, 0, 0, 0, 1, 2] [.bytes 3, .fail .timedOut, .bytes 1]).run [2, 1]).returned =
      [(1, [1, 2])] := by
  refine ⟨⟨_, rfl, by decide +kernel⟩, ⟨by decide +kernel, fun h => ?_⟩, by decide +kernel⟩
  exact absurd h.bytes (by decide +kernel)

theorem frame_stream_round_trip_two : (∃ raws : List (List UInt8),
      [[2, 0, 0, 0, 1, 49], [17, 0, 0, 0, 2, 1, 0, 97, 5, 0, 0, 0, 0, 0, 0, 0, 3, 0, 0, 0, 7]] =
        raws.map container ∧
      ((ReadRun.start (raws.map container).flatten
          (.fail .timedOut :: List.replicate 27 (.bytes 0))).run
        (List.replicate 28 maxUnixFrameBytes)).frames = raws ∧
      raws.map (decodeUnixFrame boolCodec) =
        [.ok (.control true), .ok (.terminal ⟨"a", 5, 3, [7]⟩)]) ∧
    (ReadRun.start [2, 0, 0, 0, 1, 49] [.bytes 0]).Covered [2, 2] ∧
      ReadRun.Accounts [2, 0, 0, 0, 1, 49]
        ((ReadRun.start [2, 0, 0, 0, 1, 49] [.bytes 0]).run [2, 2]) := by
  obtain ⟨hencoded, hbytes⟩ := frame_stream_round_trip boolCodec
  obtain ⟨raws, hraws, hread, hdecode⟩ := hencoded [.control true, .terminal ⟨"a", 5, 3, [7]⟩]
    [[2, 0, 0, 0, 1, 49], [17, 0, 0, 0, 2, 1, 0, 97, 5, 0, 0, 0, 0, 0, 0, 0, 3, 0, 0, 0, 7]]
    (by decide +kernel)
  refine ⟨⟨raws, hraws, ?_, ?_⟩, by decide +kernel, hbytes _ _ _ (by decide +kernel)⟩
  · rw [← hraws]
    exact (hread _ 28).2 (by decide +kernel) (by decide)
  · exact hdecode.mpr (by decide +kernel)

end BotsterHub.Client
