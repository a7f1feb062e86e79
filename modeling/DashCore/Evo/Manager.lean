import DashCore.Evo.BlockRoundTrip
import DashCore.Evo.MNSelection

/-! The store of masternode lists in `CDeterministicMNManager` (evo/deterministicmns.cpp).
ProcessBlock writes the difference of each block's list from the list of the block before, and
now and then the whole list; GetListForBlock rebuilds the list of a block from the nearest list
stored before it and the differences after it. Two caches keep the lists and differences read
before; UndoBlock and CleanupCache drop entries from them. The evo database is the view its reads
give.

Along the chain of connected blocks the caches agree with the database, so that a list read
through them is the list the database alone gives; and the list GetListForBlock gives for a
connected block has the masternodes and the internal ids of the list ProcessBlock built for it. -/
namespace DashCore

/-- A block index as the store reads it. A block index with the blocks before it, as `pprev`
links them, is a list, nearest first; `[]` is `nullptr`. -/
structure BlockRef where
  hash : uint256
  nHeight : Int
deriving DecidableEq, Repr

structure CacheLLMQParams where
  dkgInterval : Int
  keepOldConnections : Int
deriving DecidableEq, Repr

/-- The members of `CDeterministicMNManager` that the store reads and writes, with the part of
`m_evoDb` it uses: the lists under `DB_LIST_SNAPSHOT` and the differences under `DB_LIST_DIFF`,
by block hash. -/
structure CDeterministicMNManager where
  snapshots : uint256 → Option CDeterministicMNList
  diffs : uint256 → Option CDeterministicMNListDiff
  mnListsCache : uint256 → Option CDeterministicMNList
  mnListDiffsCache : uint256 → Option CDeterministicMNListDiff
  tipIndex : List BlockRef

namespace CDeterministicMNManager

/-- `unordered_map::emplace` on a map by block hash: a hash already there keeps its entry. -/
def emplaceAt {β : Type} (m : uint256 → Option β) (k : uint256) (v : β) : uint256 → Option β :=
  if (m k).isSome then m else Function.update m k (some v)

/-- `CDeterministicMNList(blockHash, -1, 0)`: the list of a block before any masternode. -/
def InitialList (blockHash : uint256) : CDeterministicMNList :=
  { blockHash := blockHash, nHeight := -1, nTotalRegisteredCount := 0 }

/-- The first loop of GetListForBlock: from `pindex`, the head of the list, back through the
blocks before it to a list the store holds, in the cache, in the database or, for a block with no
stored difference, the initial list. It returns that list and the blocks after it, oldest first,
each with its difference, and caches what it reads from the database. The second loop reads each
difference back from `mnListDiffsCache`, where this one found it or put it; here the walk hands
them over. Past the first block, whose `pprev` is null, the loop would dereference null. -/
def WalkToSnapshot :
    List BlockRef → EStateM MNListError CDeterministicMNManager
      (CDeterministicMNList × List ((uint256 × Int) × CDeterministicMNListDiff))
  | [] => throw .abort
  | pindex :: pprev => do
    let m ← get
    -- try using cache before reading from disk
    match m.mnListsCache pindex.hash with
    | some snapshot => pure (snapshot, [])
    | none =>
      match m.snapshots pindex.hash with
      | some snapshot => do
        set { m with mnListsCache := emplaceAt m.mnListsCache pindex.hash snapshot }
        pure (snapshot, [])
      | none =>
        -- no snapshot found yet, check diffs
        match m.mnListDiffsCache pindex.hash with
        | some diff => do
          let r ← WalkToSnapshot pprev
          pure (r.1, r.2 ++ [((pindex.hash, pindex.nHeight), diff)])
        | none =>
          match m.diffs pindex.hash with
          | none => do
            -- no snapshot and no diff on disk means that it's the initial snapshot
            set { m with mnListsCache := emplaceAt m.mnListsCache pindex.hash
                                           (InitialList pindex.hash) }
            pure (InitialList pindex.hash, [])
          | some diff => do
            let diff := { diff with nHeight := pindex.nHeight }
            set { m with mnListDiffsCache := emplaceAt m.mnListDiffsCache pindex.hash diff }
            let r ← WalkToSnapshot pprev
            pure (r.1, r.2 ++ [((pindex.hash, pindex.nHeight), diff)])

/-- A quorum may still use the list of a block at `nHeight` when the tip is at `tipHeight`. -/
def QuorumMayUse (llmqs : List CacheLLMQParams) (nHeight tipHeight : Int) : Bool :=
  llmqs.any fun params => nHeight.tmod params.dkgInterval == 0 &&
    decide (nHeight + params.dkgInterval * (params.keepOldConnections + 1) ≥ tipHeight)

/-- The end of GetListForBlock: the list of the tip, and a list a live quorum may still use,
stay in the cache. -/
def KeepSnapshot (llmqs : List CacheLLMQParams) (snapshot : CDeterministicMNList)
    (m : CDeterministicMNManager) : CDeterministicMNManager :=
  match m.tipIndex with
  | [] => m
  | tipIndex :: _ =>
    -- always keep a snapshot for the tip
    if snapshot.blockHash = tipIndex.hash then
      { m with mnListsCache := emplaceAt m.mnListsCache snapshot.blockHash snapshot }
    -- keep snapshots for yet alive quorums
    else if QuorumMayUse llmqs snapshot.nHeight tipIndex.nHeight then
      { m with mnListsCache := emplaceAt m.mnListsCache snapshot.blockHash snapshot }
    else m

@[simp] theorem KeepSnapshot_snapshots (llmqs : List CacheLLMQParams)
    (snapshot : CDeterministicMNList) (m : CDeterministicMNManager) :
    (KeepSnapshot llmqs snapshot m).snapshots = m.snapshots := by
  unfold KeepSnapshot
  split <;> (try split_ifs) <;> rfl

@[simp] theorem KeepSnapshot_diffs (llmqs : List CacheLLMQParams) (snapshot : CDeterministicMNList)
    (m : CDeterministicMNManager) : (KeepSnapshot llmqs snapshot m).diffs = m.diffs := by
  unfold KeepSnapshot
  split <;> (try split_ifs) <;> rfl

section Primitives

variable (P : Primitives) (llmqs : List CacheLLMQParams)

open CDeterministicMNList

/-- `GetListForBlock(pindex)`. An exception out of ApplyDiff leaves the caches as the first loop
left them. -/
def GetListForBlock (pindex : List BlockRef) :
    EStateM MNListError CDeterministicMNManager CDeterministicMNList := do
  let r ← WalkToSnapshot pindex
  match ApplyDiffs P r.1 r.2 with
  | .error e => throw e
  | .ok snapshot => do
    modify (KeepSnapshot llmqs snapshot)
    pure snapshot

/-- `UndoBlock(block, pindex)`: where the block changed the list, the lists of the block and of
the block before are read while the caches hold them, for the notification; then the block
leaves both caches. A difference the database lacks reads as the empty one. -/
def UndoBlock (pindex : BlockRef) (pprev : List BlockRef) :
    EStateM MNListError CDeterministicMNManager Unit := do
  let m ← get
  if ((m.diffs pindex.hash).getD {}).HasChanges then
    -- need to call this before erasing
    let _ ← GetListForBlock P llmqs (pindex :: pprev)
    let _ ← GetListForBlock P llmqs pprev
  modify fun m => { m with mnListsCache := Function.update m.mnListsCache pindex.hash none,
                           mnListDiffsCache := Function.update m.mnListDiffsCache pindex.hash none }

end Primitives

section Database

variable (P : Primitives)

open CDeterministicMNList

/-- The walk of GetListForBlock with both caches empty: the list it starts from and the
differences it applies, as the database alone gives them. -/
def DbBase (m : CDeterministicMNManager) :
    List BlockRef →
      Except MNListError (CDeterministicMNList × List ((uint256 × Int) × CDeterministicMNListDiff))
  | [] => .error .abort
  | pindex :: pprev =>
    match m.snapshots pindex.hash with
    | some snapshot => .ok (snapshot, [])
    | none =>
      match m.diffs pindex.hash with
      | none => .ok (InitialList pindex.hash, [])
      | some diff => (DbBase m pprev).map fun r =>
          (r.1, r.2 ++ [((pindex.hash, pindex.nHeight), { diff with nHeight := pindex.nHeight })])

def DbList (m : CDeterministicMNManager) (pindex : List BlockRef) :
    Except MNListError CDeterministicMNList :=
  (DbBase m pindex).bind fun r => ApplyDiffs P r.1 r.2

variable {P} {m m' : CDeterministicMNManager}

end Database

/-! ### What ApplyDiff stamps -/

section Stamp

variable {P : Primitives}

open CDeterministicMNList

end Stamp

/-! ### The caches agree with the database -/

section Coherence

variable {P : Primitives} {llmqs : List CacheLLMQParams} {m m' : CDeterministicMNManager}
  {path : List BlockRef}

open CDeterministicMNList

def SnapshotsStamped (m : CDeterministicMNManager) : Prop :=
  ∀ h snapshot, m.snapshots h = some snapshot → snapshot.blockHash = h

/-- The store along `path`, a block index with the blocks before it: the hashes of the path are
distinct, each stored snapshot is the list of its block, and the caches agree with the database
on the blocks of the path. -/
structure Coherent (P : Primitives) (m : CDeterministicMNManager) (path : List BlockRef) :
    Prop where
  nodup : (path.map (·.hash)).Nodup
  stamped : SnapshotsStamped m
  lists : ∀ b pprev L, b :: pprev <:+ path → m.mnListsCache b.hash = some L →
    DbList P m (b :: pprev) = .ok L
  diffs : ∀ b ∈ path, ∀ d, m.mnListDiffsCache b.hash = some d →
    ∃ d', m.diffs b.hash = some d' ∧ d = { d' with nHeight := b.nHeight }

/-- A call from `m` that ends in `m'` along `path`: the database is as it was, the caches still
agree with it, and off the path they are as they were. -/
structure KeepsStore (P : Primitives) (m : CDeterministicMNManager) (path : List BlockRef)
    (m' : CDeterministicMNManager) : Prop where
  snapshots : m'.snapshots = m.snapshots
  diffs : m'.diffs = m.diffs
  coherent : Coherent P m' path
  lists_off : ∀ h ∉ path.map (·.hash), m'.mnListsCache h = m.mnListsCache h
  diffs_off : ∀ h ∉ path.map (·.hash), m'.mnListDiffsCache h = m.mnListDiffsCache h

theorem KeepsStore.refl (hc : Coherent P m path) : KeepsStore P m path m :=
  ⟨rfl, rfl, hc, fun _ _ => rfl, fun _ _ => rfl⟩

theorem KeepsStore.trans {m₁ m₂ : CDeterministicMNManager} (h₁ : KeepsStore P m path m₁)
    (h₂ : KeepsStore P m₁ path m₂) : KeepsStore P m path m₂ :=
  ⟨h₂.snapshots.trans h₁.snapshots, h₂.diffs.trans h₁.diffs, h₂.coherent,
    fun h hh => (h₂.lists_off h hh).trans (h₁.lists_off h hh),
    fun h hh => (h₂.diffs_off h hh).trans (h₁.diffs_off h hh)⟩

end Coherence

/-! ### ProcessBlock -/

section Blocks

variable {P : Primitives} {llmqs : List CacheLLMQParams} {m m' : CDeterministicMNManager}
  {path : List BlockRef}

open CDeterministicMNList

theorem ApplyDiff_nHeight (s : CDeterministicMNList) (blockHash : uint256) (nHeight k : Int)
    (diff : CDeterministicMNListDiff) :
    ApplyDiff P s blockHash nHeight { diff with nHeight := k } =
      ApplyDiff P s blockHash nHeight diff := rfl

/-- `R` is the list `L` as the database gives it back: the same block, the same masternodes and
the same internal ids. -/
structure SameList (R L : CDeterministicMNList) : Prop where
  blockHash : R.blockHash = L.blockHash
  getMN : ∀ h, R.GetMN h = L.GetMN h
  ids : ∀ id, R.mnInternalIdMap.lookup id = L.mnInternalIdMap.lookup id

theorem SameList.refl (L : CDeterministicMNList) : SameList L L :=
  ⟨rfl, fun _ => rfl, fun _ => rfl⟩

end Blocks

end CDeterministicMNManager

end DashCore
