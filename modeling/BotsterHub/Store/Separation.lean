import BotsterHub.Store.Ownership

/-!
Plugins do not see each other's records.

Core keeps namespaces apart, and no two plugins share one. So an operation of a plugin leaves the
records of the others alone, returns none of them, and is decided without them, whatever the
database holds.
-/

namespace BotsterHub.Store

open AList StoreOp Except

open Capability

variable {Payload : Type} {core : Core Payload} {limits : Limits} {turn : Turn}
  {db db' : Database Payload} {pluginKey : PluginKey} {ns : String} {key : StoreKey}

def SameRecords (ns : String) (db db' : Database Payload) : Prop :=
  ∀ key, (db.records ns).lookup key = (db'.records ns).lookup key

section

variable (h : SameRecords ns db db')
include h

theorem SameRecords.keysAfter (a : Option StoreKey) :
    (db.records ns).keysAfter a = (db'.records ns).keysAfter a := by
  refine keysAfter_congr (fun key => ?_) a
  rw [← lookup_isSome, ← lookup_isSome, h key]

theorem SameRecords.range (a : Option StoreKey) (i : ℕ) : db.range ns a i = db'.range ns a i := by
  unfold Database.range
  simp [h.keysAfter, h _]

theorem SameRecords.readPages (fuel : ℕ) (a : Option StoreKey) (r : Records Payload) :
    readPages turn db pluginKey ns fuel a r = readPages turn db' pluginKey ns fuel a r := by
  induction fuel generalizing a r with
  | zero => rfl
  | succ _ ih => simp [Store.readPages, h.range, ih]

theorem SameRecords.readRecords :
    readRecords turn db pluginKey ns = readRecords turn db' pluginKey ns := by
  unfold Store.readRecords
  rw [h.keysAfter, h.readPages]

theorem SameRecords.readRecord :
    readRecord turn db pluginKey ns key = readRecord turn db' pluginKey ns key := by
  simp [Store.readRecord, h key]

end

theorem SameRecords.plan (h : SameRecords (pluginNamespaceText pluginKey) db db')
    (o : Operation Payload) :
    plan core limits turn db pluginKey o = plan core limits turn db' pluginKey o := by
  cases o with
  | get | delete =>
    refine congrArg (Except.mapError _) (Except.bind_congr_ok fun ns hns => ?_)
    rw [namespaceOf_ok hns, h.readRecord]
  | set | list | patch =>
    refine congrArg (Except.mapError _) (Except.bind_congr_ok fun ns hns => ?_)
    rw [namespaceOf_ok hns, h.readRecords]
  | batch =>
    refine bind_congr_ok fun ns hns => ?_
    rw [namespaceOf_ok (mapError_eq_ok.mp hns), h.readRecords]

theorem lookup_foldl_apply_congr (ops : List (StoreOp Payload))
    (h : ∀ key, records.lookup key = records'.lookup key) (key : StoreKey) :
    (ops.foldl apply records).lookup key = (ops.foldl apply records').lookup key := by
  induction ops generalizing records records' with
  | nil => exact h key
  | cons op _ ih =>
    refine ih fun key => ?_
    cases op with
    | put => simp [apply, lookup_insert_eq, h key]
    | delete => simp [apply, lookup_erase_eq, h key]

theorem SameRecords.batch (h : SameRecords ns db db') (w : String) (ops : List (StoreOp Payload)) :
    SameRecords ns (db.batch w ops) (db'.batch w ops) := by
  intro key
  simp only [Database.batch, records_insert]
  split
  · next heq =>
    subst heq
    exact lookup_foldl_apply_congr ops h key
  · exact h key

theorem SameRecords.commit (h : SameRecords ns db db') (turn : Turn) (plan : Plan Payload) :
    (commit turn db plan).2 = (commit turn db' plan).2 ∧
      SameRecords ns (commit turn db plan).1 (commit turn db' plan).1 := by
  unfold Store.commit
  split
  · exact ⟨rfl, h⟩
  split
  · exact ⟨rfl, h⟩
  · exact ⟨rfl, h.batch _ _⟩

variable {request : Request Payload}

theorem SameRecords.execute (h : SameRecords (pluginNamespaceText request.pluginKey) db db') :
    (execute core limits db request).2 = (execute core limits db' request).2 ∧
      SameRecords (pluginNamespaceText request.pluginKey) (execute core limits db request).1
        (execute core limits db' request).1 := by
  unfold Store.execute
  rw [h.plan]
  split
  · exact ⟨rfl, h⟩
  split
  · exact ⟨rfl, h⟩
  · exact h.commit _ _

/-- The other plugins' records stay, none is returned, and they have no part in the result or the
write. -/
structure Separated (core : Core Payload) (limits : Limits) (db : Database Payload)
    (request : Request Payload) : Prop where
  others : ∀ other, other ≠ request.pluginKey →
    (execute core limits db request).1.records (pluginNamespaceText other) =
      db.records (pluginNamespaceText other)
  returned : ∀ result, (execute core limits db request).2 = .ok result →
    ∀ record ∈ result.returned, record.pluginKey = request.pluginKey
  independent : ∀ db', SameRecords (pluginNamespaceText request.pluginKey) db db' →
    (execute core limits db request).2 = (execute core limits db' request).2 ∧
      SameRecords (pluginNamespaceText request.pluginKey) (execute core limits db request).1
        (execute core limits db' request).1

/-- Distinct identities have distinct namespaces, in letters that Core accepts, and every operation
of every run, from any database, is separated. -/
theorem run_separated (core : Core Payload) (limits : Limits) (db : Database Payload)
    (requests : List (Request Payload)) (request : Request Payload) :
    Function.Injective pluginNamespaceText ∧
      (∀ pluginKey, ∀ c ∈ (pluginNamespaceText pluginKey).toList, isNamespaceLetter c = true) ∧
      Separated core limits (run core limits db requests) request := by
  refine ⟨pluginNamespaceText_injective, pluginNamespaceText_letters, ?_⟩
  exact
    { others := fun other hother => records_execute core limits request hother
      returned := fun result hok record => returned_execute hok
      independent := fun db' h => h.execute }

end BotsterHub.Store
