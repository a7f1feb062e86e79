import DashCore.Llmq.Signing
import Mathlib.Data.List.AList

/-! The store of recovered signatures, `CRecoveredSigsDb` (llmq/signing.cpp). Each signature is
written under five keys in one batch: by `(llmqType, id)`, by `(llmqType, id, msgHash)` with its
write time, by its hash, by its sign hash and by its write time. Three caches under `cs` remember
which ids, sign hashes and hashes the database holds. The queries read a cache under `cs`, read
the database without it and fill the cache under `cs` again; `WriteRecoveredSig` writes its batch
before it fills the caches; `CleanupOldRecoveredSigs` scans the time keys without `cs`, gathers
its erasures and clears the caches under `cs`, and writes its batch after releasing it. The model
keeps the database as a map of typed keys, the caches as maps without eviction, each locked or
database step as a function, and a run as a schedule of these steps over the calls in flight.
The batch of a cleanup is written once, at its end. -/
namespace DashCore

inductive RecSigKey where
  /-- `("rs_r", llmqType, id)` -/
  | r (llmqType : LLMQType) (id : uint256)
  /-- `("rs_r", llmqType, id, msgHash)` -/
  | rMsg (llmqType : LLMQType) (id msgHash : uint256)
  /-- `("rs_h", hash)` -/
  | h (hash : uint256)
  /-- `("rs_s", signHash)` -/
  | s (signHash : uint256)
  /-- `("rs_t", htobe32(time), llmqType, id)` -/
  | t (time : UInt32) (llmqType : LLMQType) (id : uint256)
deriving DecidableEq, Repr

inductive RecSigValue where
  | recSig (recSig : CRecoveredSig)
  | time (curTime : UInt32)
  | byHash (llmqType : LLMQType) (id : uint256)
  | flag
deriving DecidableEq, Repr

inductive BatchOp where
  | Write (k : RecSigKey) (v : RecSigValue)
  | Erase (k : RecSigKey)
deriving DecidableEq, Repr

abbrev RecSigStore := AList fun _ : RecSigKey => RecSigValue

def WriteBatch (db : RecSigStore) (batch : List BatchOp) : RecSigStore :=
  batch.foldl (fun db op =>
    match op with
    | .Write k v => db.insert k v
    | .Erase k => db.erase k) db

def Exists (db : RecSigStore) (k : RecSigKey) : Bool := (db.lookup k).isSome

structure RecSigHashes where
  GetHash : CRecoveredSig → uint256
  buildSignHash : CRecoveredSig → uint256

structure CRecoveredSigsDb where
  db : RecSigStore := ∅
  hasSigForIdCache : AList (fun _ : LLMQType × uint256 => Bool) := ∅
  hasSigForSessionCache : AList (fun _ : uint256 => Bool) := ∅
  hasSigForHashCache : AList (fun _ : uint256 => Bool) := ∅

namespace CRecoveredSigsDb

variable (H : RecSigHashes)

def ReadRecoveredSig (db : RecSigStore) (llmqType : LLMQType) (id : uint256) :
    Option CRecoveredSig :=
  match db.lookup (.r llmqType id) with
  | some (.recSig recSig) => some recSig
  | _ => none

def HasRecoveredSig (s : CRecoveredSigsDb) (llmqType : LLMQType) (id msgHash : uint256) : Bool :=
  Exists s.db (.rMsg llmqType id msgHash)

def WriteRecoveredSigBatch (recSig : CRecoveredSig) (curTime : UInt32) : List BatchOp :=
  [.Write (.r recSig.llmqType recSig.id) (.recSig recSig),
   .Write (.rMsg recSig.llmqType recSig.id recSig.msgHash) (.time curTime),
   .Write (.h (H.GetHash recSig)) (.byHash recSig.llmqType recSig.id),
   .Write (.s (H.buildSignHash recSig)) .flag,
   .Write (.t curTime recSig.llmqType recSig.id) .flag]

def WriteRecoveredSigCaches (s : CRecoveredSigsDb) (recSig : CRecoveredSig) : CRecoveredSigsDb :=
  { s with
    hasSigForIdCache := s.hasSigForIdCache.insert (recSig.llmqType, recSig.id) true
    hasSigForSessionCache := s.hasSigForSessionCache.insert (H.buildSignHash recSig) true
    hasSigForHashCache := s.hasSigForHashCache.insert (H.GetHash recSig) true }

/-- `RemoveRecoveredSig(batch, llmqType, id, deleteHashKey, deleteTimeKey)`, under `cs`: the
erasures it adds to the batch, and the caches it clears. -/
def RemoveRecoveredSig (s : CRecoveredSigsDb) (batch : List BatchOp) (llmqType : LLMQType)
    (id : uint256) (deleteHashKey deleteTimeKey : Bool) : CRecoveredSigsDb × List BatchOp :=
  match ReadRecoveredSig s.db llmqType id with
  | none => (s, batch)
  | some recSig =>
    let signHash := H.buildSignHash recSig
    let k2 := RecSigKey.rMsg recSig.llmqType recSig.id recSig.msgHash
    let batch := batch ++ [.Erase (.r recSig.llmqType recSig.id), .Erase k2] ++
      (if deleteHashKey then [.Erase (.h (H.GetHash recSig))] else []) ++ [.Erase (.s signHash)]
    let batch :=
      if deleteTimeKey then
        match s.db.lookup k2 with
        | some (.time writeTime) => batch ++ [.Erase (.t writeTime recSig.llmqType recSig.id)]
        | _ => batch
      else batch
    ({ s with
      hasSigForIdCache := s.hasSigForIdCache.erase (recSig.llmqType, recSig.id)
      hasSigForSessionCache := s.hasSigForSessionCache.erase signHash
      hasSigForHashCache :=
        if deleteHashKey then s.hasSigForHashCache.erase (H.GetHash recSig)
        else s.hasSigForHashCache }, batch)

/-- `TruncateRecoveredSig(llmqType, id)`, all under `cs`: the signature and the keys from its id
go, its by-hash key stays. -/
def TruncateRecoveredSig (s : CRecoveredSigsDb) (llmqType : LLMQType) (id : uint256) :
    CRecoveredSigsDb :=
  let (s, batch) := RemoveRecoveredSig H s [] llmqType id false false
  { s with db := WriteBatch s.db batch }

/-- The scan of `CleanupOldRecoveredSigs`: the ids and the time keys written before `endTime`. -/
def CleanupScan (db : RecSigStore) (endTime : UInt32) :
    List (LLMQType × uint256) × List RecSigKey :=
  let old := db.entries.filterMap fun e =>
    match e.1 with
    | .t time llmqType id => if time < endTime then some ((llmqType, id), e.1) else none
    | _ => none
  (old.map (·.1), old.map (·.2))

/-- The critical section of `CleanupOldRecoveredSigs`: each old id removed with its by-hash key. -/
def CleanupRemove (s : CRecoveredSigsDb) (toDelete : List (LLMQType × uint256)) :
    CRecoveredSigsDb × List BatchOp :=
  toDelete.foldl (fun (s, batch) e => RemoveRecoveredSig H s batch e.1 e.2 true false) (s, [])

/-- The end of `CleanupOldRecoveredSigs`, after `cs` is released: the time keys are erased too
and the batch is written. -/
def CleanupWrite (s : CRecoveredSigsDb) (batch : List BatchOp) (toDelete2 : List RecSigKey) :
    CRecoveredSigsDb :=
  { s with db := WriteBatch s.db (batch ++ toDelete2.map .Erase) }

/-- What `HasRecoveredSigForId(llmqType, id)` returns when it runs alone: the cached answer, or
the database's. -/
def HasRecoveredSigForId (s : CRecoveredSigsDb) (llmqType : LLMQType) (id : uint256) : Bool :=
  (s.hasSigForIdCache.lookup (llmqType, id)).getD (Exists s.db (.r llmqType id))

def HasRecoveredSigForSession (s : CRecoveredSigsDb) (signHash : uint256) : Bool :=
  (s.hasSigForSessionCache.lookup signHash).getD (Exists s.db (.s signHash))

@[simp] theorem WriteRecoveredSigCaches_db (s : CRecoveredSigsDb) (recSig : CRecoveredSig) :
    (WriteRecoveredSigCaches H s recSig).db = s.db := rfl

theorem lookup_WriteBatch_erases {k : RecSigKey} {keys : List RecSigKey} (hk : k ∈ keys) :
    ∀ db : RecSigStore, (WriteBatch db (keys.map .Erase)).lookup k = none := by
  induction keys with
  | nil => cases hk
  | cons k' rest ih =>
    intro db
    by_cases hmem : k ∈ rest
    · exact ih hmem _
    · have hkk : k = k' := by simpa [hmem] using hk
      subst hkk
      have hkeep : ∀ db' : RecSigStore, db'.lookup k = none →
          (WriteBatch db' (rest.map .Erase)).lookup k = none := by
        clear ih hk
        induction rest with
        | nil => exact fun _ h => h
        | cons k'' rest' ih' =>
          intro db' h
          have hne : k ≠ k'' := fun he => hmem (he ▸ List.mem_cons_self)
          exact ih' (fun hm => hmem (List.mem_cons_of_mem _ hm)) _
            (by rw [AList.lookup_erase_ne hne]; exact h)
      exact hkeep _ (AList.lookup_erase _ _)

theorem ReadRecoveredSig_WriteRecoveredSigBatch (db : RecSigStore) (recSig : CRecoveredSig)
    (curTime : UInt32) :
    ReadRecoveredSig (WriteBatch db (WriteRecoveredSigBatch H recSig curTime)) recSig.llmqType
      recSig.id = some recSig := by
  simp [ReadRecoveredSig, WriteBatch, WriteRecoveredSigBatch, AList.lookup_insert_ne]

theorem lookup_WriteRecoveredSigBatch_rMsg (db : RecSigStore) (recSig : CRecoveredSig)
    (curTime : UInt32) (msgHash : uint256) :
    (WriteBatch db (WriteRecoveredSigBatch H recSig curTime)).lookup
        (.rMsg recSig.llmqType recSig.id msgHash) =
      if msgHash = recSig.msgHash then some (.time curTime)
      else db.lookup (.rMsg recSig.llmqType recSig.id msgHash) := by
  by_cases hm : msgHash = recSig.msgHash
  · subst hm
    simp [WriteBatch, WriteRecoveredSigBatch, AList.lookup_insert_ne]
  · simp [WriteBatch, WriteRecoveredSigBatch, AList.lookup_insert_ne, hm]

theorem CleanupScan_WriteRecoveredSigBatch_empty (recSig : CRecoveredSig) {curTime endTime : UInt32}
    (hlt : curTime < endTime) :
    CleanupScan (WriteBatch ∅ (WriteRecoveredSigBatch H recSig curTime)) endTime =
      ([(recSig.llmqType, recSig.id)], [.t curTime recSig.llmqType recSig.id]) := by
  simp [CleanupScan, WriteBatch, WriteRecoveredSigBatch, hlt]

end CRecoveredSigsDb

/-- A call in flight, by what it does next: a write filling the caches; a query reading the
database after a cache miss, or filling the cache with what it read; a cleanup entering its
critical section, or writing its batch. -/
inductive RecSigsThread where
  | WriteCaches (recSig : CRecoveredSig)
  | ReadForId (llmqType : LLMQType) (id : uint256)
  | CacheForId (llmqType : LLMQType) (id : uint256) (ret : Bool)
  | ReadForSession (signHash : uint256)
  | CacheForSession (signHash : uint256) (ret : Bool)
  | ReadForHash (hash : uint256)
  | CacheForHash (hash : uint256) (ret : Bool)
  | CleanupRemove (toDelete : List (LLMQType × uint256)) (toDelete2 : List RecSigKey)
  | CleanupWrite (batch : List BatchOp) (toDelete2 : List RecSigKey)

structure RecSigsSystem where
  store : CRecoveredSigsDb := {}
  threads : List RecSigsThread := []

/-- One step of a schedule: a call starting with its first step, or the next step of the `i`-th
call in flight. -/
inductive RecSigsEvent where
  | WriteRecoveredSig (recSig : CRecoveredSig) (curTime : UInt32)
  | TruncateRecoveredSig (llmqType : LLMQType) (id : uint256)
  | CleanupOldRecoveredSigs (endTime : UInt32)
  | HasRecoveredSigForId (llmqType : LLMQType) (id : uint256)
  | HasRecoveredSigForSession (signHash : uint256)
  | HasRecoveredSigForHash (hash : uint256)
  | Advance (i : Nat)

namespace RecSigsSystem

open CRecoveredSigsDb

variable (H : RecSigHashes)

/-- The next step of a call in flight: the new store, and what the call does after it. -/
def advance (s : CRecoveredSigsDb) : RecSigsThread → CRecoveredSigsDb × Option RecSigsThread
  | .WriteCaches recSig => (WriteRecoveredSigCaches H s recSig, none)
  | .ReadForId llmqType id => (s, some (.CacheForId llmqType id (Exists s.db (.r llmqType id))))
  | .CacheForId llmqType id ret =>
    ({ s with hasSigForIdCache := s.hasSigForIdCache.insert (llmqType, id) ret }, none)
  | .ReadForSession signHash => (s, some (.CacheForSession signHash (Exists s.db (.s signHash))))
  | .CacheForSession signHash ret =>
    ({ s with hasSigForSessionCache := s.hasSigForSessionCache.insert signHash ret }, none)
  | .ReadForHash hash => (s, some (.CacheForHash hash (Exists s.db (.h hash))))
  | .CacheForHash hash ret =>
    ({ s with hasSigForHashCache := s.hasSigForHashCache.insert hash ret }, none)
  | .CleanupRemove toDelete toDelete2 =>
    let (s, batch) := CleanupRemove H s toDelete
    (s, some (.CleanupWrite batch toDelete2))
  | .CleanupWrite batch toDelete2 => (CleanupWrite s batch toDelete2, none)

def step (sys : RecSigsSystem) : RecSigsEvent → RecSigsSystem
  | .WriteRecoveredSig recSig curTime =>
    { store := { sys.store with db := WriteBatch sys.store.db (WriteRecoveredSigBatch H recSig curTime) }
      threads := sys.threads ++ [.WriteCaches recSig] }
  | .TruncateRecoveredSig llmqType id =>
    { sys with store := TruncateRecoveredSig H sys.store llmqType id }
  | .CleanupOldRecoveredSigs endTime =>
    let (toDelete, toDelete2) := CleanupScan sys.store.db endTime
    if toDelete.isEmpty then sys
    else { sys with threads := sys.threads ++ [.CleanupRemove toDelete toDelete2] }
  | .HasRecoveredSigForId llmqType id =>
    match sys.store.hasSigForIdCache.lookup (llmqType, id) with
    | some _ => sys
    | none => { sys with threads := sys.threads ++ [.ReadForId llmqType id] }
  | .HasRecoveredSigForSession signHash =>
    match sys.store.hasSigForSessionCache.lookup signHash with
    | some _ => sys
    | none => { sys with threads := sys.threads ++ [.ReadForSession signHash] }
  | .HasRecoveredSigForHash hash =>
    match sys.store.hasSigForHashCache.lookup hash with
    | some _ => sys
    | none => { sys with threads := sys.threads ++ [.ReadForHash hash] }
  | .Advance i =>
    match sys.threads[i]? with
    | none => sys
    | some thread =>
      let (store, next) := advance H sys.store thread
      { store := store
        threads := match next with
          | some thread' => sys.threads.set i thread'
          | none => sys.threads.eraseIdx i }

def run (sys : RecSigsSystem) (events : List RecSigsEvent) : RecSigsSystem :=
  events.foldl (step H) sys

theorem run_WriteRecoveredSig {sys : RecSigsSystem} (hidle : sys.threads = [])
    (recSig : CRecoveredSig) (curTime : UInt32) :
    run H sys [.WriteRecoveredSig recSig curTime, .Advance 0] =
      { store := WriteRecoveredSigCaches H
          { sys.store with db := WriteBatch sys.store.db (WriteRecoveredSigBatch H recSig curTime) }
          recSig } := by
  simp [run, step, advance, hidle]

theorem run_WriteRecoveredSig_keeps_old_msgHash {sys : RecSigsSystem} (hidle : sys.threads = [])
    {r₁ r₂ : CRecoveredSig} (time₁ time₂ : UInt32) (ht : r₂.llmqType = r₁.llmqType)
    (hid : r₂.id = r₁.id) (hm : r₁.msgHash ≠ r₂.msgHash) :
    (run H sys [.WriteRecoveredSig r₁ time₁, .Advance 0, .WriteRecoveredSig r₂ time₂,
      .Advance 0]).threads = [] ∧
    (run H sys [.WriteRecoveredSig r₁ time₁, .Advance 0, .WriteRecoveredSig r₂ time₂,
      .Advance 0]).store.HasRecoveredSig r₁.llmqType r₁.id r₁.msgHash = true ∧
    ReadRecoveredSig (run H sys [.WriteRecoveredSig r₁ time₁, .Advance 0,
      .WriteRecoveredSig r₂ time₂, .Advance 0]).store.db r₁.llmqType r₁.id = some r₂ := by
  have hsplit : run H sys [.WriteRecoveredSig r₁ time₁, .Advance 0, .WriteRecoveredSig r₂ time₂,
      .Advance 0] = run H (run H sys [.WriteRecoveredSig r₁ time₁, .Advance 0])
        [.WriteRecoveredSig r₂ time₂, .Advance 0] := by
    rw [run, run, run, ← List.foldl_append]
    rfl
  rw [hsplit, run_WriteRecoveredSig H hidle, run_WriteRecoveredSig H rfl]
  refine ⟨rfl, ?_, ?_⟩
  · simp only [HasRecoveredSig, Exists, WriteRecoveredSigCaches_db]
    rw [← ht, ← hid, lookup_WriteRecoveredSigBatch_rMsg, if_neg hm, ht, hid,
      lookup_WriteRecoveredSigBatch_rMsg, if_pos rfl]
    rfl
  · simp only [WriteRecoveredSigCaches_db]
    rw [← ht, ← hid]
    exact ReadRecoveredSig_WriteRecoveredSigBatch H _ r₂ time₂

theorem run_CleanupOldRecoveredSigs_leaves_stale_cache (r : CRecoveredSig) {time endTime : UInt32} (hlt : time < endTime) :
    (run H {} [.WriteRecoveredSig r time, .Advance 0, .CleanupOldRecoveredSigs endTime, .Advance 0,
      .HasRecoveredSigForId r.llmqType r.id, .Advance 1, .Advance 1, .Advance 0]).threads = [] ∧
    (run H {} [.WriteRecoveredSig r time, .Advance 0, .CleanupOldRecoveredSigs endTime, .Advance 0,
      .HasRecoveredSigForId r.llmqType r.id, .Advance 1, .Advance 1, .Advance 0]).store.HasRecoveredSigForId
        r.llmqType r.id = true ∧
    ReadRecoveredSig (run H {} [.WriteRecoveredSig r time, .Advance 0, .CleanupOldRecoveredSigs endTime, .Advance 0,
      .HasRecoveredSigForId r.llmqType r.id, .Advance 1, .Advance 1, .Advance 0]).store.db r.llmqType r.id = none := by
  set db₁ := WriteBatch ∅ (WriteRecoveredSigBatch H r time)
  set St₁ := WriteRecoveredSigCaches H { db := db₁ } r
  set batch : List BatchOp := [.Erase (.r r.llmqType r.id), .Erase (.rMsg r.llmqType r.id r.msgHash),
    .Erase (.h (H.GetHash r)), .Erase (.s (H.buildSignHash r))]
  set St₂ : CRecoveredSigsDb :=
    { St₁ with
      hasSigForIdCache := St₁.hasSigForIdCache.erase (r.llmqType, r.id)
      hasSigForSessionCache := St₁.hasSigForSessionCache.erase (H.buildSignHash r)
      hasSigForHashCache := St₁.hasSigForHashCache.erase (H.GetHash r) }
  have hsplit : ∀ rest, run H {} (.WriteRecoveredSig r time :: .Advance 0 :: rest) =
      run H { store := St₁ } rest := fun rest => by
    rw [show .WriteRecoveredSig r time :: .Advance 0 :: rest =
      [.WriteRecoveredSig r time, .Advance 0] ++ rest from rfl, run, List.foldl_append]
    exact congrArg (fun s => List.foldl (step H) s rest) (run_WriteRecoveredSig H rfl r time)
  -- the cleanup finds the signature's time key and clears the caches under `cs`
  have h₃ : step H { store := St₁ } (.CleanupOldRecoveredSigs endTime) =
      { store := St₁, threads := [.CleanupRemove [(r.llmqType, r.id)] [.t time r.llmqType r.id]] } := by
    have hscan : CleanupScan db₁ endTime =
        ([(r.llmqType, r.id)], [.t time r.llmqType r.id]) :=
      CleanupScan_WriteRecoveredSigBatch_empty H r hlt
    simp [step, St₁, hscan]
  have hread : ReadRecoveredSig db₁ r.llmqType r.id = some r :=
    ReadRecoveredSig_WriteRecoveredSigBatch H ∅ r time
  have h₄ : step H { store := St₁, threads := [.CleanupRemove [(r.llmqType, r.id)] [.t time r.llmqType r.id]] }
      (.Advance 0) = { store := St₂, threads := [.CleanupWrite batch [.t time r.llmqType r.id]] } := by
    simp [step, advance, CleanupRemove, RemoveRecoveredSig, St₁, St₂, batch, hread]
  -- a query misses the cleared cache, reads the database before the batch, and caches `true`
  have h₅ : step H { store := St₂, threads := [.CleanupWrite batch [.t time r.llmqType r.id]] }
      (.HasRecoveredSigForId r.llmqType r.id) =
      { store := St₂, threads := [.CleanupWrite batch [.t time r.llmqType r.id], .ReadForId r.llmqType r.id] } := by
    simp [step, St₂]
  have hexists : Exists St₂.db (.r r.llmqType r.id) = true := by
    simp only [St₂, St₁, WriteRecoveredSigCaches_db]
    unfold ReadRecoveredSig at hread
    split at hread
    · simp [Exists, *]
    · cases hread
  have h₆ : step H { store := St₂, threads := [.CleanupWrite batch [.t time r.llmqType r.id], .ReadForId r.llmqType r.id] }
      (.Advance 1) =
      { store := St₂, threads := [.CleanupWrite batch [.t time r.llmqType r.id], .CacheForId r.llmqType r.id true] } := by
    simp [step, advance, hexists]
  set St₃ : CRecoveredSigsDb := { St₂ with hasSigForIdCache := St₂.hasSigForIdCache.insert (r.llmqType, r.id) true }
  have h₇ : step H { store := St₂, threads := [.CleanupWrite batch [.t time r.llmqType r.id], .CacheForId r.llmqType r.id true] }
      (.Advance 1) = { store := St₃, threads := [.CleanupWrite batch [.t time r.llmqType r.id]] } := by
    simp [step, advance, St₃]
  -- the batch is written last: the signature is gone, the cached `true` stays
  have h₈ : step H { store := St₃, threads := [.CleanupWrite batch [.t time r.llmqType r.id]] } (.Advance 0) =
      { store := CleanupWrite St₃ batch [.t time r.llmqType r.id] } := by
    simp [step, advance]
  rw [hsplit]
  simp only [run, List.foldl_cons, List.foldl_nil, h₃, h₄, h₅, h₆, h₇, h₈, true_and]
  refine ⟨by simp [HasRecoveredSigForId, CleanupWrite, St₃], ?_⟩
  have hnone := @lookup_WriteBatch_erases (.r r.llmqType r.id)
    [.r r.llmqType r.id, .rMsg r.llmqType r.id r.msgHash, .h (H.GetHash r),
      .s (H.buildSignHash r), .t time r.llmqType r.id] List.mem_cons_self St₃.db
  simp only [List.map_cons, List.map_nil] at hnone
  simp only [CleanupWrite, ReadRecoveredSig, batch, List.cons_append, List.nil_append,
    List.map_cons, List.map_nil, hnone]

/-- Once all calls have returned, the store can disagree with itself: after two writes for one
id with different message hashes, `HasRecoveredSig` answers `true` for a message hash other than
the stored signature's; and when a query runs between a cleanup's critical section and its
batch, the id cache answers `true` for a signature the database no longer holds. -/
theorem run_CRecoveredSigsDb_disagrees :
    (∀ (sys : RecSigsSystem) (r₁ r₂ : CRecoveredSig) (time₁ time₂ : UInt32), sys.threads = [] →
      r₂.llmqType = r₁.llmqType → r₂.id = r₁.id → r₁.msgHash ≠ r₂.msgHash →
      (run H sys [.WriteRecoveredSig r₁ time₁, .Advance 0, .WriteRecoveredSig r₂ time₂,
        .Advance 0]).threads = [] ∧
      (run H sys [.WriteRecoveredSig r₁ time₁, .Advance 0, .WriteRecoveredSig r₂ time₂,
        .Advance 0]).store.HasRecoveredSig r₁.llmqType r₁.id r₁.msgHash = true ∧
      ReadRecoveredSig (run H sys [.WriteRecoveredSig r₁ time₁, .Advance 0,
        .WriteRecoveredSig r₂ time₂, .Advance 0]).store.db r₁.llmqType r₁.id = some r₂) ∧
    (∀ (r : CRecoveredSig) (time endTime : UInt32), time < endTime →
      (run H {} [.WriteRecoveredSig r time, .Advance 0, .CleanupOldRecoveredSigs endTime,
        .Advance 0, .HasRecoveredSigForId r.llmqType r.id, .Advance 1, .Advance 1,
        .Advance 0]).threads = [] ∧
      (run H {} [.WriteRecoveredSig r time, .Advance 0, .CleanupOldRecoveredSigs endTime,
        .Advance 0, .HasRecoveredSigForId r.llmqType r.id, .Advance 1, .Advance 1,
        .Advance 0]).store.HasRecoveredSigForId r.llmqType r.id = true ∧
      ReadRecoveredSig (run H {} [.WriteRecoveredSig r time, .Advance 0,
        .CleanupOldRecoveredSigs endTime, .Advance 0, .HasRecoveredSigForId r.llmqType r.id,
        .Advance 1, .Advance 1, .Advance 0]).store.db r.llmqType r.id = none) :=
  ⟨fun _ _ _ time₁ time₂ hidle ht hid hm =>
    run_WriteRecoveredSig_keeps_old_msgHash H hidle time₁ time₂ ht hid hm,
   fun r _ _ hlt => run_CleanupOldRecoveredSigs_leaves_stale_cache H r hlt⟩

/-- Signatures for request 7 of quorum type 1 with message hashes 9 and 10, a signature's hash
its message hash and its sign hash id plus message hash; written at times 5 and 6, and a cleanup
of what is older than 10. -/
theorem run_CRecoveredSigsDb_disagrees_on_id_seven :
    (run ⟨fun r => r.msgHash, fun r => r.id + r.msgHash⟩ {}
      [.WriteRecoveredSig ⟨1, 0, 7, 9, {}⟩ 5, .Advance 0, .WriteRecoveredSig ⟨1, 0, 7, 10, {}⟩ 6,
        .Advance 0]).store.HasRecoveredSig 1 7 9 = true ∧
    (run ⟨fun r => r.msgHash, fun r => r.id + r.msgHash⟩ {}
      [.WriteRecoveredSig ⟨1, 0, 7, 9, {}⟩ 5, .Advance 0, .CleanupOldRecoveredSigs 10, .Advance 0,
        .HasRecoveredSigForId 1 7, .Advance 1, .Advance 1,
        .Advance 0]).store.HasRecoveredSigForId 1 7 = true :=
  ⟨((run_CRecoveredSigsDb_disagrees _).1 {} ⟨1, 0, 7, 9, {}⟩ ⟨1, 0, 7, 10, {}⟩ 5 6 rfl rfl rfl
      (by decide)).2.1,
    ((run_CRecoveredSigsDb_disagrees _).2 ⟨1, 0, 7, 9, {}⟩ 5 10 (by decide)).2.1⟩

end RecSigsSystem

end DashCore
