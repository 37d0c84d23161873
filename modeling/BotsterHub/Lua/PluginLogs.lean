import BotsterHub.Router.Types

/-!
The rate limit of the plugin logs (`plugin_logs.rs`).

A log is a ring of records behind a token bucket. Writers read the clock before they take the
lock, so a reading may come after a later one. The charge and the mirror are left out; what the
memory account answers comes with the append.
-/

namespace BotsterHub.Lua

open Router List

def maxRecordBytes : ℕ := 64 * 1024
def ringRecords : ℕ := 256
def ringTextBytes : ℕ := 512 * 1024
def ratePerSecond : ℕ := 100
def burst : ℕ := 200
def milli : ℕ := 1000

inductive LogLevel where
  | debug
  | info
  | warn
  | error

structure LogRecord where
  seq : ℕ
  generation : ℕ
  atMs : ℕ
  level : LogLevel
  message : String
  fields : Option String
  droppedBefore : ℕ

def LogRecord.textBytes (record : LogRecord) : ℕ :=
  record.message.utf8ByteSize + record.fields.elim 0 String.utf8ByteSize

structure PluginLog where
  records : List LogRecord
  textBytes : ℕ
  nextSeq : ℕ
  rateDropped : ℕ
  tokensMilli : ℕ
  refilledAtMs : ℕ

inductive AppendOutcome where
  | accepted (seq : ℕ)
  | rateLimited (dropped : ℕ)
  | tooLarge
  | capacity

structure Append where
  generation : ℕ
  level : LogLevel
  message : String
  fields : Option String
  nowMs : ℕ
  wallMs : ℕ
  logFunded : Bool
  textFunded : Bool

def Append.record (a : Append) (seq droppedBefore : ℕ) : LogRecord :=
  ⟨seq, a.generation, a.wallMs, a.level, a.message, a.fields, droppedBefore⟩

def newLog (nowMs : ℕ) : PluginLog := ⟨[], 0, 1, 0, burst * milli, nowMs⟩

def evict (text : ℕ) : List LogRecord → ℕ → List LogRecord × ℕ
  | [], textBytes => ([], textBytes)
  | record :: records, textBytes =>
    if ringRecords ≤ records.length + 1 ∨ ringTextBytes < textBytes + text then
      evict text records (textBytes - record.textBytes)
    else (record :: records, textBytes)

def PluginLog.refill (log : PluginLog) (nowMs : ℕ) : PluginLog :=
  let refilled := min ((nowMs - log.refilledAtMs) * ratePerSecond) u64Max
  { log with
    tokensMilli := min (saturatingAdd log.tokensMilli refilled) (burst * milli)
    refilledAtMs := nowMs }

def PluginLog.append (log : PluginLog) (a : Append) : AppendOutcome × PluginLog :=
  let log := log.refill a.nowMs
  if log.tokensMilli < milli then
    let dropped := saturatingAdd log.rateDropped 1
    (.rateLimited dropped, { log with rateDropped := dropped })
  else
    let text := (a.record 0 0).textBytes
    let (records, textBytes) := evict text log.records log.textBytes
    if a.textFunded then
      (.accepted log.nextSeq,
        { log with
          records := records ++ [a.record log.nextSeq log.rateDropped]
          textBytes := textBytes + text
          nextSeq := log.nextSeq + 1
          rateDropped := 0
          tokensMilli := log.tokensMilli - milli })
    else (.capacity, { log with records, textBytes })

def append (entry : Option PluginLog) (a : Append) : AppendOutcome × Option PluginLog :=
  if maxRecordBytes < (a.record 0 0).textBytes then (.tooLarge, entry)
  else
    match entry with
    | some log => (log.append a).map id some
    | none => if a.logFunded then ((newLog a.nowMs).append a).map id some else (.capacity, none)

/-- The readings of the accepted appends, in the order of the lock. -/
def acceptedAt : Option PluginLog → List Append → List ℕ
  | _, [] => []
  | entry, a :: appends =>
    let (outcome, entry) := append entry a
    let later := acceptedAt entry appends
    match outcome with
    | .accepted _ => a.nowMs :: later
    | _ => later

section

variable (start stop : ℕ)

def AppendOutcome.cost (nowMs : ℕ) : AppendOutcome → ℕ
  | accepted _ => if start ≤ nowMs ∧ nowMs ≤ stop then milli else 0
  | _ => 0

def allowance : Option PluginLog → ℕ
  | none => burst * milli + (stop - start) * ratePerSecond
  | some log =>
    if stop < log.refilledAtMs then 0
    else if start ≤ log.refilledAtMs then
      log.tokensMilli + (stop - log.refilledAtMs) * ratePerSecond
    else burst * milli + (stop - start) * ratePerSecond

theorem tokens_append (log : PluginLog) (a : Append) :
    (log.append a).1.cost start stop a.nowMs + (log.append a).2.tokensMilli ≤
        min (log.tokensMilli + (a.nowMs - log.refilledAtMs) * ratePerSecond) (burst * milli) ∧
      (log.append a).2.refilledAtMs = a.nowMs := by
  have hr : (log.refill a.nowMs).tokensMilli ≤
      min (log.tokensMilli + (a.nowMs - log.refilledAtMs) * ratePerSecond) (burst * milli) :=
    min_le_min_right _ ((min_le_left _ _).trans (Nat.add_le_add_left (min_le_left _ _) _))
  unfold PluginLog.append
  dsimp only
  split
  · exact ⟨(Nat.zero_add _).trans_le hr, rfl⟩
  next htokens =>
  split
  · refine ⟨le_trans ?_ hr, rfl⟩
    dsimp only [AppendOutcome.cost]
    split <;> omega
  · exact ⟨(Nat.zero_add _).trans_le hr, rfl⟩

theorem allowance_append (log : PluginLog) (a : Append) (h : log.refilledAtMs ≤ a.nowMs) :
    (log.append a).1.cost start stop a.nowMs + allowance start stop (some (log.append a).2) ≤
      allowance start stop (some log) := by
  obtain ⟨htokens, htime⟩ := tokens_append start stop log a
  have hout (hw : ¬(start ≤ a.nowMs ∧ a.nowMs ≤ stop)) :
      (log.append a).1.cost start stop a.nowMs = 0 := by
    cases (log.append a).1 <;> simp [AppendOutcome.cost, hw]
  simp only [allowance, htime, le_min_iff, ratePerSecond, burst, milli] at htokens ⊢
  split_ifs <;> omega

theorem append_spec {entry : Option PluginLog} (a : Append)
    (h : ∀ log ∈ entry, log.refilledAtMs ≤ a.nowMs) :
    (append entry a).1.cost start stop a.nowMs + allowance start stop (append entry a).2 ≤
        allowance start stop entry ∧
      ∀ log ∈ (append entry a).2, log.refilledAtMs ≤ a.nowMs := by
  have hlog (log : PluginLog) : ∀ log' ∈ some (log.append a).2, log'.refilledAtMs ≤ a.nowMs :=
    fun _ hl => Option.mem_some.mp hl ▸ (tokens_append start stop log a).2.le
  have hnew : allowance start stop (some (newLog a.nowMs)) ≤ allowance start stop none := by
    dsimp only [allowance, newLog, ratePerSecond]
    split_ifs <;> omega
  unfold append
  split
  · exact ⟨(Nat.zero_add _).le, h⟩
  cases entry with
  | some log =>
    rw [Prod.map_fst, Prod.map_snd, id]
    exact ⟨allowance_append start stop log a (h log rfl), hlog log⟩
  | none =>
    dsimp only
    split
    · rw [Prod.map_fst, Prod.map_snd, id]
      exact ⟨(allowance_append start stop (newLog a.nowMs) a le_rfl).trans hnew, hlog _⟩
    · exact ⟨(Nat.zero_add _).le, h⟩

theorem countP_acceptedAt_le (appends : List Append) (entry : Option PluginLog)
    (hsorted : appends.Pairwise fun a b => a.nowMs ≤ b.nowMs)
    (hentry : ∀ log ∈ entry, ∀ a ∈ appends, log.refilledAtMs ≤ a.nowMs) :
    milli * (acceptedAt entry appends).countP (fun t => start ≤ t ∧ t ≤ stop) ≤
      allowance start stop entry := by
  induction appends generalizing entry with
  | nil => simp [acceptedAt]
  | cons a appends ih =>
    obtain ⟨hlater, hsorted⟩ := pairwise_cons.mp hsorted
    obtain ⟨hpaid, htime⟩ := append_spec start stop a
      fun log hlog => hentry log hlog a mem_cons_self
    have hrest := ih (append entry a).2 hsorted
      fun log hlog b hb => (htime log hlog).trans (hlater b hb)
    rw [acceptedAt]
    cases hout : (append entry a).1 with
    | accepted =>
      simp only [hout, countP_cons, AppendOutcome.cost, decide_eq_true_eq, Nat.mul_add] at hpaid ⊢
      split_ifs at hpaid ⊢ <;> omega
    | _ =>
      simp only [hout, AppendOutcome.cost, Nat.zero_add] at hpaid ⊢
      exact hrest.trans hpaid

end

/-- If the readings come in their order, those accepted in any `length` milliseconds are at most a
burst and what is refilled meanwhile. -/
theorem accepted_within_le (appends : List Append)
    (hsorted : appends.Pairwise fun a b => a.nowMs ≤ b.nowMs) (start length : ℕ) :
    (acceptedAt none appends).countP (fun t => start ≤ t ∧ t ≤ start + length) ≤
      burst + length * ratePerSecond / milli := by
  have h := countP_acceptedAt_le start (start + length) appends none hsorted nofun
  simp only [allowance, Nat.add_sub_cancel_left, burst, milli, ratePerSecond] at h ⊢
  omega

def appendAt (nowMs : ℕ) : Append := ⟨1, .info, "", none, nowMs, 0, true, true⟩

/-- The earlier reading of one VM comes to the lock after that of another, is refused, and sets the
bucket back by ten milliseconds. -/
def lateReading : List Append := replicate 200 (appendAt 0) ++ [10, 0, 10].map appendAt

theorem lateReading_exceeds :
    burst + 10 * ratePerSecond / milli <
      (acceptedAt none lateReading).countP fun t => 0 ≤ t ∧ t ≤ 0 + 10 := by
  decide +kernel

theorem accepted_within_le_two : (acceptedAt none [appendAt 0, appendAt 10]).length = 2 ∧
    (acceptedAt none [appendAt 0, appendAt 10]).countP (fun t => 0 ≤ t ∧ t ≤ 0 + 10) ≤
      burst + 10 * ratePerSecond / milli :=
  ⟨by decide +kernel, accepted_within_le _ (by simp [appendAt]) 0 10⟩

end BotsterHub.Lua
