import BotsterHub.Lua.PluginLogs
import Mathlib.Data.List.TakeWhile

/-!
The readers and the mirror of a plugin log.

Appends, reads and the mirror thread take the lock of the log in any order. The ring may have
evicted a record before the mirror comes to it, and the account may not fund its copy.
-/

namespace BotsterHub.Lua

open List

structure LogPage where
  records : List LogRecord
  nextSeq : ℕ
  firstAvailableSeq : ℕ

/-- `none`: the account does not fund the page. -/
def read (entry : Option PluginLog) (afterSeq : ℕ) (funded : Bool) : Option LogPage :=
  match entry with
  | none => some ⟨[], 1, 1⟩
  | some log =>
    if funded then
      some ⟨log.records.filter (afterSeq < ·.seq), log.nextSeq,
        log.records.head?.elim log.nextSeq (·.seq)⟩
    else none

/-- One incarnation of a log. `accepted` and `written`, the lines with their `unmirrored_before`,
are history. -/
structure MirroredLog where
  log : PluginLog
  mirrorNext : ℕ := 1
  unmirrored : ℕ := 0
  accepted : List LogRecord := []
  written : List (LogRecord × ℕ) := []

inductive LogStep
  | append (a : Append)
  | mirror (funded : Bool)

namespace MirroredLog

variable (m : MirroredLog)

def append (a : Append) : MirroredLog :=
  match Lua.append (some m.log) a with
  | (.accepted seq, some log) =>
    { m with log, accepted := m.accepted ++ [a.record seq m.log.rateDropped] }
  | (_, some log) => { m with log }
  | _ => m

/-- What `next_mirror_line` does to a log that it visits. Without a line it goes on to the next. -/
def mirror (funded : Bool) : MirroredLog :=
  if m.log.nextSeq ≤ m.mirrorNext then m
  else
    match funded, (m.log.records.dropWhile (·.seq < m.mirrorNext)).head? with
    | true, some record =>
      { m with
        mirrorNext := record.seq + 1
        unmirrored := 0
        written := m.written ++ [(record, m.unmirrored + (record.seq - m.mirrorNext))] }
    | _, _ =>
      { m with
        mirrorNext := m.log.nextSeq
        unmirrored := m.unmirrored + (m.log.nextSeq - m.mirrorNext) }

def step : LogStep → MirroredLog
  | .append a => m.append a
  | .mirror funded => m.mirror funded

structure Kept : Prop where
  seqs : m.accepted.map LogRecord.seq = range' 1 m.accepted.length
  next : m.log.nextSeq = m.accepted.length + 1
  ring : m.log.records <:+ m.accepted
  text : m.log.textBytes = (m.log.records.map LogRecord.textBytes).sum
  count : m.log.records.length ≤ ringRecords
  bytes : m.log.textBytes ≤ ringTextBytes
  cursor : m.mirrorNext ≤ m.log.nextSeq
  owed : m.mirrorNext = (m.written.map (·.2 + 1)).sum + m.unmirrored + 1
  lines : ∀ lines, lines <+: m.written → ∀ line ∈ lines.getLast?,
    line.1 ∈ m.accepted ∧ line.1.seq = (lines.map (·.2 + 1)).sum

variable {m}

theorem evict_spec {text bytes : ℕ} {records : List LogRecord} (htext : text ≤ ringTextBytes)
    (h : bytes = (records.map LogRecord.textBytes).sum) :
    let kept := evict text records bytes
    kept.1 <:+ records ∧ kept.2 = (kept.1.map LogRecord.textBytes).sum ∧
      kept.1.length < ringRecords ∧ kept.2 + text ≤ ringTextBytes := by
  induction records generalizing bytes with
  | nil => exact ⟨suffix_rfl, h, Nat.zero_lt_succ _, by simpa [evict, h] using htext⟩
  | cons record records ih =>
    simp only [evict]
    split
    · have hsum : bytes - record.textBytes = (records.map LogRecord.textBytes).sum := by simp [h]
      exact (ih hsum).imp_left (·.trans (suffix_cons _ _))
    · next hfit =>
      rw [not_or, not_le, not_lt] at hfit
      exact ⟨suffix_rfl, h, hfit⟩

theorem Kept.shorten (h : m.Kept) {log : PluginLog} (hn : log.nextSeq = m.log.nextSeq)
    (hs : log.records <:+ m.log.records)
    (ht : log.textBytes = (log.records.map LogRecord.textBytes).sum) : { m with log }.Kept :=
  { h with
    next := hn.trans h.next
    ring := hs.trans h.ring
    text := ht
    count := hs.length_le.trans h.count
    bytes := by
      obtain ⟨old, ho⟩ := hs
      have hb := h.bytes
      rw [h.text, ← ho, map_append, sum_append] at hb
      exact (ht.trans_le (Nat.le_add_left _ _)).trans hb
    cursor := h.cursor.trans_eq hn.symm }

theorem Kept.append (h : m.Kept) (a : Append) : (m.append a).Kept := by
  simp only [MirroredLog.append, Lua.append]
  by_cases hsize : maxRecordBytes < (a.record 0 0).textBytes
  · rwa [if_pos hsize]
  rw [if_neg hsize]
  by_cases htokens : (m.log.refill a.nowMs).tokensMilli < milli
  · simp only [PluginLog.append, if_pos htokens, Prod.map]
    exact h.shorten rfl suffix_rfl h.text
  have htext : (a.record 0 0).textBytes ≤ ringTextBytes := (not_lt.mp hsize).trans (by decide)
  obtain ⟨hs, ht, hcount, hbytes⟩ := evict_spec htext h.text
  -- The ring has been shortened before the account is asked.
  cases hfunded : a.textFunded with
  | false =>
    simp only [PluginLog.append, if_neg htokens, hfunded]
    exact h.shorten rfl hs ht
  | true =>
    simp only [PluginLog.append, if_neg htokens, hfunded, if_true, Prod.map, id]
    have hlog : (m.log.refill a.nowMs).nextSeq = m.accepted.length + 1 := h.next
    refine { h with
      seqs := ?_, next := ?_, ring := ?_, text := ?_, count := ?_, bytes := hbytes, cursor := ?_
      lines := fun lines hl line hm => (h.lines lines hl line hm).imp_left (mem_append_left _) }
    · simp [h.seqs, range'_concat, Append.record, hlog, Nat.add_comm]
    · simp [hlog]
    · obtain ⟨old, ho⟩ := hs.trans h.ring
      exact ⟨old, by rw [← ho, append_assoc]; rfl⟩
    · rw [map_append, sum_append]
      exact congrArg (· + _) ht
    · rw [length_append]
      exact hcount
    · exact h.cursor.trans (Nat.le_succ _)

theorem Kept.seq_lt (h : m.Kept) {record : LogRecord} (hm : record ∈ m.accepted) :
    record.seq < m.log.nextSeq := by
  have hseq := mem_map_of_mem (f := LogRecord.seq) hm
  rw [h.seqs, mem_range'_1] at hseq
  rw [h.next]
  omega

theorem Kept.mirror (h : m.Kept) (funded : Bool) : (m.mirror funded).Kept := by
  unfold MirroredLog.mirror
  split
  · exact h
  next hbehind =>
  have howed := h.owed
  split
  · next record hrecord =>
    have hm : record ∈ m.log.records := dropWhile_subset _ (mem_of_head? hrecord)
    -- What lies between the cursor and this record was evicted, and the line counts it.
    have hge : m.mirrorNext ≤ record.seq := by
      have := head?_dropWhile_not (·.seq < m.mirrorNext) m.log.records
      simpa [hrecord] using this
    refine { h with
      cursor := h.seq_lt (h.ring.subset hm), owed := ?_, lines := fun lines hl line hline => ?_ }
    · simp only [map_append, map_cons, map_nil, sum_append, sum_singleton]
      omega
    · rcases prefix_concat_iff.mp hl with rfl | hl
      · simp only [getLast?_concat, Option.mem_some_iff] at hline
        subst hline
        refine ⟨h.ring.subset hm, ?_⟩
        simp only [map_append, map_cons, map_nil, sum_append, sum_singleton]
        omega
      · exact h.lines lines hl line hline
  · refine { h with cursor := le_rfl, owed := ?_ }
    dsimp only
    omega

theorem Kept.caught_up (h : m.Kept) {funded : Bool}
    (hn : (m.mirror funded).written = m.written) :
    (m.mirror funded).mirrorNext = m.log.nextSeq := by
  revert hn
  unfold MirroredLog.mirror
  split
  · next hend => exact fun _ => h.cursor.antisymm hend
  · split <;> simp

theorem Kept.funded (h : m.Kept) {record : LogRecord}
    (hr : m.log.records.find? (m.mirrorNext ≤ ·.seq) = some record) :
    (m.mirror true).written =
      m.written ++ [(record, m.unmirrored + (record.seq - m.mirrorNext))] := by
  have hbehind : m.mirrorNext < m.log.nextSeq := by
    have hge := find?_some hr
    have := h.seq_lt (h.ring.subset (mem_of_find?_eq_some hr))
    exact (of_decide_eq_true hge).trans_lt this
  have hhead : (m.log.records.dropWhile (·.seq < m.mirrorNext)).head? = some record := by
    simpa [← find?_not_eq_head?_dropWhile, ← decide_not] using hr
  simp only [MirroredLog.mirror, if_neg hbehind.not_ge, hhead]

def run (nowMs : ℕ) (steps : List LogStep) : MirroredLog :=
  steps.foldl step { log := newLog nowMs }

theorem kept_run (nowMs : ℕ) (steps : List LogStep) : (run nowMs steps).Kept := by
  refine foldlRecOn steps step ?_ fun m h step _ => ?_
  · exact ⟨rfl, rfl, suffix_rfl, rfl, Nat.zero_le _, Nat.zero_le _, le_rfl, rfl,
      fun lines hl line hm => by simp [prefix_nil.mp hl] at hm⟩
  · cases step with
    | append a => exact h.append a
    | mirror funded => exact h.mirror funded

/-- The mirror writes accepted records only and loses none silently: the number of a line counts the
lines so far and the records that they report as not mirrored. A funded visit writes the first
record left, and one without a line ends at the end of the log. -/
theorem mirror_accounts (nowMs : ℕ) (steps : List LogStep) : let m := run nowMs steps
    (∀ lines line, lines ++ [line] <+: m.written → line.1 ∈ m.accepted ∧
      line.1.seq = ((lines ++ [line]).map (·.2 + 1)).sum) ∧
    m.mirrorNext = (m.written.map (·.2 + 1)).sum + m.unmirrored + 1 ∧
    m.mirrorNext ≤ m.accepted.length + 1 ∧
    (∀ record ∈ m.log.records.find? (m.mirrorNext ≤ ·.seq), (m.mirror true).written =
      m.written ++ [(record, m.unmirrored + (record.seq - m.mirrorNext))]) ∧
    ∀ funded, (m.mirror funded).written = m.written →
      (m.mirror funded).mirrorNext = m.accepted.length + 1 := by
  have h := kept_run nowMs steps
  exact ⟨fun lines line hl => h.lines _ hl line (by simp), h.owed, h.next ▸ h.cursor,
    fun _ hr => h.funded hr, fun funded hn => (h.caught_up hn).trans h.next⟩

/-- A funded page holds the records of the ring past the cursor. The ring is what is left of the
accepted records from the first one that the page names. -/
theorem read_exact (nowMs : ℕ) (steps : List LogStep) (afterSeq : ℕ) :
    let m := run nowMs steps
    ∃ page ∈ read (some m.log) afterSeq true,
      page.records = m.log.records.filter (afterSeq < ·.seq) ∧
      m.accepted.drop (page.firstAvailableSeq - 1) = m.log.records ∧
      page.nextSeq = m.accepted.length + 1 ∧ page.records.length ≤ ringRecords ∧
      (page.records.map LogRecord.textBytes).sum ≤ ringTextBytes := by
  intro m
  have h : m.Kept := kept_run nowMs steps
  refine ⟨_, rfl, rfl, ?_⟩
  have hsub := filter_sublist (p := (decide <| afterSeq < LogRecord.seq ·)) (l := m.log.records)
  refine ⟨?_, h.next, hsub.length_le.trans h.count,
    ((hsub.map _).sum_le_sum fun _ _ => Nat.zero_le _).trans (h.text ▸ h.bytes)⟩
  -- The records in front of the ring are those that were evicted.
  have hdrop := suffix_iff_eq_drop.mp h.ring
  have hfirst : m.log.records.head?.elim m.log.nextSeq (·.seq) - 1 =
      m.accepted.length - m.log.records.length := by
    have hseq := congrArg (·[m.accepted.length - m.log.records.length]?) h.seqs
    rw [getElem?_map, ← head?_drop, ← hdrop] at hseq
    cases hr : m.log.records.head? with
    | none => simp [head?_eq_none_iff.mp hr, h.next]
    | some first =>
      rw [hr, Option.map_some, eq_comm, getElem?_eq_some_iff] at hseq
      obtain ⟨_, hseq⟩ := hseq
      simp [← hseq]
  rw [hfirst, ← hdrop]

end MirroredLog

end BotsterHub.Lua
