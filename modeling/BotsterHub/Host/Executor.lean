import BotsterHub.Lib.Dict
import BotsterHub.Lib.Machine

/-!
The bounded host executor.

A command runs under a permit, one of eight operation slots and a reservation of prepared bytes,
which goes through the job queue, a worker and the completion mailbox back to the owner. Every
access to a shared cell is a step, in the order of the source, with any number of workers.
-/

namespace BotsterHub.Host

def hostOperationCapacity : ℕ := 8

def hostPreparedByteCapacity : ℕ := 8 * 1024 * 1024

def hostPreparedAggregateByteCapacity : ℕ := hostOperationCapacity * hostPreparedByteCapacity

/-- The bytes of a prepared result; `normalize_result_size` and the frame limits keep them within
one reservation. -/
abbrev LogicalBytes := Fin (hostPreparedByteCapacity + 1)

/-- A `HostWorkPermit`, by the account of its prepared reservation. -/
abbrev Permit := Option ℕ

/-- Prepared bytes in use: a `HostPreparedReservation` or the `HostPreparedCharge` it became.
`permitRef`: its permit refers to it. `loose`: how many charges and holders do. -/
structure Account where
  bytes : ℕ
  permitRef : Bool
  loose : ℕ
deriving DecidableEq

inductive JobKind where
  | run
  | dispose
deriving DecidableEq

structure Job where
  id : ℕ
  kind : JobKind
  permit : Permit
deriving DecidableEq

inductive Worker where
  | received (job : Job)
  | executing (job : Job)
  /-- The completion is in the mailbox; its bit is not set. -/
  | sent
deriving DecidableEq

/-- What is left of a `drop` on some thread. -/
inductive Releaser where
  /-- The slot is free; the bit is to be set and then the reservation to be dropped. -/
  | slot (permit : Permit)
  | unref (account : ℕ)
  /-- Nothing refers to the account; its bytes are to be released. -/
  | bytes (account : ℕ)
  /-- The bytes are free; the bit is to be set. -/
  | bit
deriving DecidableEq

def Releaser.rings : Releaser → Bool
  | .slot _ | .bit => true
  | .unref _ | .bytes _ => false

inductive OwnerPc where
  | idle
  | reserving
  | givingBack
  | submitting (permit : Permit) (kind : JobKind)
deriving DecidableEq

inductive Ending where
  | polled
  | disposed
  | discarded
deriving DecidableEq

/-- `draining`: the owner has taken the completion bit and the mailbox is not yet empty. `waiting`:
a reservation was refused and the capacity bit not taken since. -/
structure Executor where
  outstanding : ℕ
  used : ℕ
  accounts : Dict ℕ Account
  nextAccount : ℕ
  pc : OwnerPc
  owner : Multiset Permit
  queue : List Job
  workers : Multiset Worker
  mailbox : Option (List Job)
  remaining : List Job
  releasers : Multiset Releaser
  stopping : Bool
  jobsOpen : Bool
  completionPending : Bool
  capacityPending : Bool
  draining : Bool
  waiting : Bool
  nextJob : ℕ
  ended : Multiset (ℕ × Ending)

inductive Step where
  | reserveSlot
  | reserveBytes
  | giveBack
  | submitCheck (permit : Permit) (kind : JobKind)
  | submitSend
  | dispose (permit : Permit)
  | poll
  | close
  | disposeRemaining
  | takeCompletion
  | takeCapacity
  | dropPermit (permit : Permit)
  | retain (account : ℕ)
  | dropLoose (account : ℕ)
  | chargeOwned (account : ℕ) (logical : LogicalBytes)
  | chargeWorker (job : Job) (account : ℕ) (logical : LogicalBytes)
  | recv
  | start (job : Job)
  | publish (job : Job)
  | ring
  | release (releaser : Releaser)
  | stop

namespace Executor

def new : Executor :=
  { outstanding := 0, used := 0, accounts := ∅, nextAccount := 0, pc := .idle, owner := 0
    queue := [], workers := 0, mailbox := some [], remaining := [], releasers := 0
    stopping := false, jobsOpen := true, completionPending := false, capacityPending := false
    draining := false, waiting := false, nextJob := 0, ended := 0 }

variable (s : Executor)

def releaseSlot (permit : Permit) : Executor :=
  { s with outstanding := s.outstanding - 1, releasers := .slot permit ::ₘ s.releasers }

def finish (job : Job) (ending : Ending) : Executor :=
  { s.releaseSlot job.permit with ended := (job.id, ending) ::ₘ s.ended }

def enqueue (permit : Permit) (kind : JobKind) : Executor :=
  if s.queue.length < hostOperationCapacity then
    { s with queue := s.queue ++ [⟨s.nextJob, kind, permit⟩], nextJob := s.nextJob + 1 }
  else { s with owner := permit ::ₘ s.owner }

def unref (account : ℕ) (act : Account → Account) : Executor :=
  match s.accounts.lookup account with
  | none => s
  | some entry =>
    let entry := act entry
    { s with
      accounts := s.accounts.insert account entry
      releasers :=
        if entry.permitRef = false ∧ entry.loose = 0 then .bytes account ::ₘ s.releasers
        else s.releasers }

/-- `take_prepared_charge`. A reservation that nothing else refers to becomes a charge
(`into_charge`) and gives back the rest at once; another one is kept whole. -/
def charge (account : ℕ) (logical : LogicalBytes) : Executor :=
  match s.accounts.lookup account with
  | none => s
  | some entry =>
    if entry.permitRef = false then s
    else if entry.loose = 0 then
      { s with
        used := s.used - (entry.bytes - logical)
        accounts := s.accounts.insert account ⟨logical, false, 1⟩ }
    else
      { s with accounts := s.accounts.insert account ⟨entry.bytes, false, entry.loose + 1⟩ }

def releaseStep : Releaser → Executor
  | .slot none => { s with capacityPending := true }
  | .slot (some account) =>
    { s with capacityPending := true, releasers := .unref account ::ₘ s.releasers }
  | .unref account => s.unref account fun entry => { entry with permitRef := false }
  | .bytes account =>
    match s.accounts.lookup account with
    | none => s
    | some entry =>
      { s with
        used := s.used - entry.bytes
        accounts := s.accounts.erase account
        releasers := if 0 < entry.bytes then .bit ::ₘ s.releasers else s.releasers }
  | .bit => { s with capacityPending := true }

def publish (job : Job) : Executor :=
  match s.mailbox with
  | none => { s.finish job .discarded with stopping := true }
  | some completions =>
    if s.stopping then s.finish job .discarded
    else if completions.length < hostOperationCapacity then
      { s with mailbox := some (completions ++ [job]), workers := .sent ::ₘ s.workers }
    else { s.finish job .discarded with stopping := true }

def start (job : Job) : Executor :=
  match job.kind with
  | .dispose => s.finish job .disposed
  | .run =>
    if s.stopping then s.finish job .discarded
    else { s with workers := .executing job ::ₘ s.workers }

def ownerStep : Step → Executor
  | .reserveSlot =>
    if s.stopping ∨ s.jobsOpen = false then s
    else if hostOperationCapacity ≤ s.outstanding then { s with waiting := true }
    else { s with outstanding := s.outstanding + 1, pc := .reserving }
  | .submitCheck permit kind =>
    if permit ∈ s.owner ∧ s.stopping = false then
      { s with owner := s.owner.erase permit, pc := .submitting permit kind }
    else s
  | .dispose permit =>
    if permit ∈ s.owner then
      { s with owner := s.owner.erase permit }.enqueue permit .dispose
    else s
  | .poll =>
    match s.mailbox with
    | some (job :: rest) =>
      { s with
        mailbox := some rest
        owner := job.permit ::ₘ s.owner
        ended := (job.id, .polled) ::ₘ s.ended }
    | _ => { s with draining := false }
  | .close =>
    { s with stopping := true, mailbox := none, remaining := s.remaining ++ s.mailbox.getD [] }
  | .disposeRemaining =>
    match s.remaining with
    | [] => s
    | job :: rest =>
      if s.queue.length < hostOperationCapacity then
        { s with remaining := rest, queue := s.queue ++ [{ job with kind := .dispose }] }
      else s
  | .takeCompletion =>
    { s with draining := s.draining || s.completionPending, completionPending := false }
  | .takeCapacity =>
    { s with waiting := s.waiting && !s.capacityPending, capacityPending := false }
  | .dropPermit permit =>
    if permit ∈ s.owner then
      { s with owner := s.owner.erase permit }.releaseSlot permit
    else s
  | .chargeOwned account logical =>
    if some account ∈ s.owner then
      { s with owner := none ::ₘ s.owner.erase (some account) }.charge account logical
    else s
  | .stop =>
    let dropped := s.mailbox.getD []
    { s with
      stopping := true
      jobsOpen := false
      mailbox := none
      outstanding := s.outstanding - dropped.length
      releasers := (dropped.map fun job => Releaser.slot job.permit : Multiset Releaser) +
        s.releasers
      ended := (dropped.map fun job => (job.id, Ending.discarded) : Multiset (ℕ × Ending)) +
        s.ended }
  | _ => s

def step (s : Executor) : Step → Executor
  | .reserveBytes =>
    if s.pc = .reserving then
      if hostPreparedAggregateByteCapacity < s.used + hostPreparedByteCapacity then
        { s with pc := .givingBack, waiting := true }
      else
        { s with
          pc := .idle
          used := s.used + hostPreparedByteCapacity
          accounts := s.accounts.insert s.nextAccount ⟨hostPreparedByteCapacity, true, 0⟩
          nextAccount := s.nextAccount + 1
          owner := some s.nextAccount ::ₘ s.owner }
    else s
  | .giveBack =>
    if s.pc = .givingBack then { s with pc := .idle, outstanding := s.outstanding - 1 } else s
  | .submitSend =>
    match s.pc with
    | .submitting permit kind =>
      let s : Executor := { s with pc := .idle }
      if s.jobsOpen then s.enqueue permit kind else { s with owner := permit ::ₘ s.owner }
    | _ => s
  | .retain account =>
    match s.accounts.lookup account with
    | some entry =>
      if entry.permitRef then
        { s with accounts := s.accounts.insert account { entry with loose := entry.loose + 1 } }
      else s
    | none => s
  | .dropLoose account =>
    if (s.accounts.lookup account).any fun entry => 0 < entry.loose then
      s.unref account fun entry => { entry with loose := entry.loose - 1 }
    else s
  | .chargeWorker job account logical =>
    if .executing job ∈ s.workers ∧ job.permit = some account then
      ({ s with workers := .executing { job with permit := none } ::ₘ
          s.workers.erase (.executing job) } : Executor).charge account logical
    else s
  | .recv =>
    match s.queue with
    | [] => s
    | job :: rest => { s with queue := rest, workers := .received job ::ₘ s.workers }
  | .start job =>
    if .received job ∈ s.workers then
      { s with workers := s.workers.erase (.received job) }.start job
    else s
  | .publish job =>
    if .executing job ∈ s.workers then
      { s with workers := s.workers.erase (.executing job) }.publish job
    else s
  | .ring =>
    if .sent ∈ s.workers then { s with workers := s.workers.erase .sent, completionPending := true }
    else s
  | .release releaser =>
    if releaser ∈ s.releasers then
      { s with releasers := s.releasers.erase releaser }.releaseStep releaser
    else s
  | step => if s.pc = .idle then s.ownerStep step else s

def run (steps : List Step) : Executor := steps.foldl step s

end Executor

end BotsterHub.Host
