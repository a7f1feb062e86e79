import DashCore.Evo.ProTx
import DashCore.Llmq.MineableCommitments
import Mathlib.Data.Finset.Basic

/-! The transactions that InstantSend tracks while they are neither locked nor ChainLocked
(llmq/instantsend.cpp), and the conflicts with an ISLOCK that `ResolveBlockConflicts` collects
from them. `nonLockedTxs` holds an entry per transaction, and a placeholder for a parent that
only collects children; `nonLockedTxsByOutpoints` maps an outpoint to the first tracked spender
that indexed it. Blocks are the opaque `const CBlockIndex*`; the ancestor test of
`HandleFullyConfirmedBlock` and the ChainLock test of `ResolveBlockConflicts` are parameters.
The hash maps are association lists; where the source iterates one, the model takes the
list's order. -/
namespace DashCore

structure CInstantSendLock where
  inputs : List COutPoint
  txid : uint256

namespace CInstantSendManager

variable {Block : Type}

/-- `NonLockedTxInfo`; `tx` is `none` for a parent that is only known through its children. -/
structure NonLockedTxInfo (Block : Type) where
  pindexMined : Option Block := none
  tx : Option CTransaction := none
  children : Finset uint256 := ∅

/-- The members of `CInstantSendManager` under `cs_nonLocked`, and `pendingRetryTxs`. -/
structure NonLocked (Block : Type) where
  nonLockedTxs : AList (fun _ : uint256 => NonLockedTxInfo Block) := ∅
  nonLockedTxsByOutpoints : AList (fun _ : COutPoint => uint256) := ∅
  pendingRetryTxs : Finset uint256 := ∅

namespace NonLocked

/-- One input of a newly tracked transaction: `nonLockedTxs[in.prevout.hash]` (default-
constructed where absent) gets the child, and the outpoint is indexed unless it already is. -/
def indexInput (txid : uint256) (s : NonLocked Block) (prevout : COutPoint) : NonLocked Block :=
  let parent := (s.nonLockedTxs.lookup prevout.hash).getD {}
  { s with
    nonLockedTxs := s.nonLockedTxs.insert prevout.hash
      { parent with children := insert txid parent.children }
    nonLockedTxsByOutpoints := mapEmplace prevout txid s.nonLockedTxsByOutpoints }

/-- `AddNonLockedTx(tx, pindexMined)`: a known entry (also a placeholder) only gets the block;
a new one gets the transaction, and its inputs are indexed. -/
def AddNonLockedTx (s : NonLocked Block) (tx : CTransaction) (pindexMined : Option Block) :
    NonLocked Block :=
  match s.nonLockedTxs.lookup tx.hash with
  | some info => { s with nonLockedTxs := s.nonLockedTxs.insert tx.hash { info with pindexMined } }
  | none =>
    let s := { s with nonLockedTxs := s.nonLockedTxs.insert tx.hash { pindexMined, tx := some tx } }
    tx.vin.foldl (indexInput tx.hash) s

/-- One input of a removed transaction: the parent forgets the child, and is dropped if it is a
placeholder with no children left; the outpoint's index is erased, whoever it names. -/
def unindexInput (txid : uint256) (s : NonLocked Block) (prevout : COutPoint) : NonLocked Block :=
  let s :=
    match s.nonLockedTxs.lookup prevout.hash with
    | none => s
    | some parent =>
      let parent := { parent with children := parent.children.erase txid }
      if parent.tx.isNone && parent.children = ∅ then
        { s with nonLockedTxs := s.nonLockedTxs.erase prevout.hash }
      else { s with nonLockedTxs := s.nonLockedTxs.insert prevout.hash parent }
  { s with nonLockedTxsByOutpoints := s.nonLockedTxsByOutpoints.erase prevout }

def RemoveNonLockedTx (s : NonLocked Block) (txid : uint256) (retryChildren : Bool) :
    NonLocked Block :=
  match s.nonLockedTxs.lookup txid with
  | none => s
  | some info =>
    -- TX got locked, so we can retry locking children
    let s := if retryChildren then { s with pendingRetryTxs := s.pendingRetryTxs ∪ info.children }
      else s
    let s := match info.tx with
      | none => s
      | some tx => tx.vin.foldl (unindexInput txid) s
    { s with nonLockedTxs := s.nonLockedTxs.erase txid }

/-- `RemoveConflictedTx(tx)`; its erasure of the input request ids is not modelled. -/
def RemoveConflictedTx (s : NonLocked Block) (tx : CTransaction) : NonLocked Block :=
  s.RemoveNonLockedTx tx.hash false

/-- `HandleFullyConfirmedBlock(pindex)` on the tracked transactions: every entry mined in a
block that `pindex` has as ancestor (`pindex->GetAncestor(pindexMined->nHeight) == pindexMined`)
is removed, its children retried. The ISLOCK database work before it is not modelled. -/
def HandleFullyConfirmedBlock (IsInstantSendEnabled : Bool) (HasAncestor : Block → Block → Bool)
    (s : NonLocked Block) (pindex : Block) : NonLocked Block :=
  if !IsInstantSendEnabled then s
  else
    let toRemove := s.nonLockedTxs.entries.filterMap fun p =>
      match p.2.pindexMined with
      | some pindexMined => if HasAncestor pindex pindexMined then some p.1 else none
      | none => none
    toRemove.foldl (fun s txid => s.RemoveNonLockedTx txid true) s

variable [DecidableEq Block]

/-- The first loop of `ResolveBlockConflicts(islockHash, islock)`: for each input of the ISLOCK,
the transaction indexed for it, if it is not the locked one and is tracked with a transaction
and a block; `conflicts[info.pindexMined].emplace(conflictTxid, info.tx)`. -/
def CollectConflicts (s : NonLocked Block) (islock : CInstantSendLock) :
    AList (fun _ : Block × uint256 => CTransaction) :=
  islock.inputs.foldl (fun conflicts input =>
    match s.nonLockedTxsByOutpoints.lookup input with
    | none => conflicts
    | some conflictTxid =>
      if conflictTxid = islock.txid then conflicts
      else match s.nonLockedTxs.lookup conflictTxid with
        | none => conflicts
        | some info =>
          match info.pindexMined, info.tx with
          | some pindexMined, some tx => mapEmplace (pindexMined, conflictTxid) tx conflicts
          | _, _ => conflicts) ∅

/-- What `ResolveBlockConflicts` does besides the chain: with a conflict in a ChainLocked block
it removes the ISLOCK instead; otherwise it removes every conflicting transaction and
invalidates the blocks they were mined in. -/
inductive Resolution (Block : Type) where
  | RemoveConflictingLock
  | InvalidateBlocks (blocks : List Block)

def ResolveBlockConflicts (HasChainLock : Block → Bool) (s : NonLocked Block)
    (islock : CInstantSendLock) : NonLocked Block × Resolution Block :=
  let conflicts := s.CollectConflicts islock
  if conflicts.entries.any (HasChainLock ·.1.1) then (s, .RemoveConflictingLock)
  else
    (conflicts.entries.foldl (fun s p => s.RemoveConflictedTx p.2) s,
      .InvalidateBlocks (conflicts.entries.map (·.1.1)).dedup)

end NonLocked

namespace NonLocked

def txOf (s : NonLocked Block) (h : uint256) : Option CTransaction :=
  (s.nonLockedTxs.lookup h).bind (·.tx)

def minedOf (s : NonLocked Block) (h : uint256) : Option Block :=
  (s.nonLockedTxs.lookup h).bind (·.pindexMined)

theorem lookup_indexInput (txid : uint256) (s : NonLocked Block) (prevout : COutPoint)
    (h : uint256) :
    (indexInput txid s prevout).nonLockedTxs.lookup h =
      if h = prevout.hash then
        some { (s.nonLockedTxs.lookup h).getD {} with
          children := insert txid ((s.nonLockedTxs.lookup h).getD {}).children }
      else s.nonLockedTxs.lookup h := by
  unfold indexInput
  split
  · rename_i hh
    subst hh
    exact AList.lookup_insert _
  · exact AList.lookup_insert_ne ‹_›

@[simp] theorem byOutpoints_indexInput (txid : uint256) (s : NonLocked Block) (prevout : COutPoint) :
    (indexInput txid s prevout).nonLockedTxsByOutpoints =
      mapEmplace prevout txid s.nonLockedTxsByOutpoints := rfl

@[simp] theorem txOf_indexInput (txid : uint256) (s : NonLocked Block) (prevout : COutPoint)
    (h : uint256) : (indexInput txid s prevout).txOf h = s.txOf h := by
  unfold txOf
  rw [lookup_indexInput]
  split
  · cases s.nonLockedTxs.lookup h <;> rfl
  · rfl

@[simp] theorem minedOf_indexInput (txid : uint256) (s : NonLocked Block) (prevout : COutPoint)
    (h : uint256) : (indexInput txid s prevout).minedOf h = s.minedOf h := by
  unfold minedOf
  rw [lookup_indexInput]
  split
  · cases s.nonLockedTxs.lookup h <;> rfl
  · rfl

theorem lookup_foldl_indexInput_of_ne (txid h : uint256) (l : List COutPoint)
    (hl : ∀ p ∈ l, h ≠ p.hash) (s : NonLocked Block) :
    (l.foldl (indexInput txid) s).nonLockedTxs.lookup h = s.nonLockedTxs.lookup h := by
  induction l generalizing s with
  | nil => rfl
  | cons p rest ih =>
    rw [List.foldl_cons, ih (fun q hq => hl q (List.mem_cons_of_mem _ hq)), lookup_indexInput,
      if_neg (hl p List.mem_cons_self)]

theorem lookup_foldl_indexInput_ne_none (txid : uint256) (l : List COutPoint) (s : NonLocked Block)
    {h : uint256} (hh : s.nonLockedTxs.lookup h ≠ none ∨ ∃ p ∈ l, p.hash = h) :
    (l.foldl (indexInput txid) s).nonLockedTxs.lookup h ≠ none := by
  induction l generalizing s with
  | nil =>
    rcases hh with hh | ⟨p, hp, -⟩
    · exact hh
    · cases hp
  | cons p rest ih =>
    rw [List.foldl_cons]
    refine ih _ ?_
    by_cases hp : p.hash = h
    · left
      simp [lookup_indexInput, hp]
    · rcases hh with hh | ⟨q, hq, hqh⟩
      · left
        rwa [lookup_indexInput, if_neg (Ne.symm hp)]
      · rcases List.mem_cons.mp hq with rfl | hq
        · exact absurd hqh hp
        · exact .inr ⟨q, hq, hqh⟩

theorem txOf_foldl_indexInput (txid h : uint256) (l : List COutPoint) (s : NonLocked Block) :
    (l.foldl (indexInput txid) s).txOf h = s.txOf h := by
  induction l generalizing s with
  | nil => rfl
  | cons p rest ih => rw [List.foldl_cons, ih, txOf_indexInput]

theorem minedOf_foldl_indexInput (txid h : uint256) (l : List COutPoint) (s : NonLocked Block) :
    (l.foldl (indexInput txid) s).minedOf h = s.minedOf h := by
  induction l generalizing s with
  | nil => rfl
  | cons p rest ih => rw [List.foldl_cons, ih, minedOf_indexInput]

theorem byOutpoints_foldl_indexInput (txid : uint256) (l : List COutPoint)
    (s : NonLocked Block) :
    (l.foldl (indexInput txid) s).nonLockedTxsByOutpoints =
      l.foldl (fun m p => mapEmplace p txid m) s.nonLockedTxsByOutpoints := by
  induction l generalizing s with
  | nil => rfl
  | cons p rest ih => rw [List.foldl_cons, ih, List.foldl_cons, byOutpoints_indexInput]

theorem txOf_AddNonLockedTx (s : NonLocked Block) (tx : CTransaction) (pindexMined : Option Block)
    (h : uint256) :
    (s.AddNonLockedTx tx pindexMined).txOf h =
      if h = tx.hash ∧ s.nonLockedTxs.lookup tx.hash = none then some tx else s.txOf h := by
  unfold AddNonLockedTx
  split
  · rename_i info hinfo
    have hne : s.nonLockedTxs.lookup tx.hash ≠ none := by simp [hinfo]
    rw [if_neg (fun hc => hne hc.2)]
    unfold txOf
    by_cases hh : h = tx.hash
    · subst hh
      simp [AList.lookup_insert, hinfo]
    · simp [AList.lookup_insert_ne hh]
  · rename_i hnone
    rw [txOf_foldl_indexInput]
    unfold txOf
    by_cases hh : h = tx.hash
    · subst hh
      simp [AList.lookup_insert, hnone]
    · simp [AList.lookup_insert_ne hh, hh]

theorem minedOf_AddNonLockedTx (s : NonLocked Block) (tx : CTransaction)
    (pindexMined : Option Block) (h : uint256) :
    (s.AddNonLockedTx tx pindexMined).minedOf h =
      if h = tx.hash then pindexMined else s.minedOf h := by
  unfold AddNonLockedTx
  split
  · unfold minedOf
    by_cases hh : h = tx.hash
    · subst hh
      simp [AList.lookup_insert]
    · simp [AList.lookup_insert_ne hh, hh]
  · rw [minedOf_foldl_indexInput]
    unfold minedOf
    by_cases hh : h = tx.hash
    · subst hh
      simp [AList.lookup_insert]
    · simp [AList.lookup_insert_ne hh, hh]

theorem byOutpoints_AddNonLockedTx_of_known {s : NonLocked Block} {tx : CTransaction}
    (pindexMined : Option Block) (hs : s.nonLockedTxs.lookup tx.hash ≠ none) :
    (s.AddNonLockedTx tx pindexMined).nonLockedTxsByOutpoints = s.nonLockedTxsByOutpoints := by
  unfold AddNonLockedTx
  split
  · rfl
  · contradiction

theorem byOutpoints_AddNonLockedTx_of_new {s : NonLocked Block} {tx : CTransaction}
    (pindexMined : Option Block) (hs : s.nonLockedTxs.lookup tx.hash = none) :
    (s.AddNonLockedTx tx pindexMined).nonLockedTxsByOutpoints =
      tx.vin.foldl (fun m p => mapEmplace p tx.hash m) s.nonLockedTxsByOutpoints := by
  unfold AddNonLockedTx
  rw [hs]
  exact byOutpoints_foldl_indexInput _ _ _

theorem lookup_AddNonLockedTx_of_ne {s : NonLocked Block} {tx : CTransaction}
    (pindexMined : Option Block) {h : uint256} (hh : h ≠ tx.hash) (hvin : ∀ p ∈ tx.vin, h ≠ p.hash) :
    (s.AddNonLockedTx tx pindexMined).nonLockedTxs.lookup h = s.nonLockedTxs.lookup h := by
  unfold AddNonLockedTx
  split
  · exact AList.lookup_insert_ne hh
  · rw [lookup_foldl_indexInput_of_ne _ _ _ hvin]
    exact AList.lookup_insert_ne hh

theorem lookup_AddNonLockedTx_parent_ne_none {s : NonLocked Block} {tx : CTransaction}
    (pindexMined : Option Block) (hs : s.nonLockedTxs.lookup tx.hash = none) {p : COutPoint}
    (hp : p ∈ tx.vin) :
    (s.AddNonLockedTx tx pindexMined).nonLockedTxs.lookup p.hash ≠ none := by
  unfold AddNonLockedTx
  rw [hs]
  exact lookup_foldl_indexInput_ne_none _ _ _ (.inr ⟨p, hp, rfl⟩)

end NonLocked

inductive NonLockedCall (Block : Type) where
  | AddNonLockedTx (tx : CTransaction) (pindexMined : Option Block)
  | RemoveNonLockedTx (txid : uint256) (retryChildren : Bool)
  | RemoveConflictedTx (tx : CTransaction)
  | HandleFullyConfirmedBlock (pindex : Block)

namespace NonLockedCall

/-- One call, with the node's InstantSend switch and ancestor test for a fully confirmed block. -/
def apply (IsInstantSendEnabled : Bool) (HasAncestor : Block → Block → Bool) :
    NonLockedCall Block → NonLocked Block → NonLocked Block
  | .AddNonLockedTx tx pindexMined, s => s.AddNonLockedTx tx pindexMined
  | .RemoveNonLockedTx txid retryChildren, s => s.RemoveNonLockedTx txid retryChildren
  | .RemoveConflictedTx tx, s => s.RemoveConflictedTx tx
  | .HandleFullyConfirmedBlock pindex, s =>
    s.HandleFullyConfirmedBlock IsInstantSendEnabled HasAncestor pindex

end NonLockedCall

def NonLocked.run (IsInstantSendEnabled : Bool) (HasAncestor : Block → Block → Bool)
    (calls : List (NonLockedCall Block)) (s : NonLocked Block) : NonLocked Block :=
  calls.foldl (fun s c => c.apply IsInstantSendEnabled HasAncestor s) s

namespace NonLocked

theorem CollectConflicts_misses_second_spender [DecidableEq Block] {s : NonLocked Block}
    {t₁ t₂ : CTransaction} {o : COutPoint} (b : Block) {islock : CInstantSendLock}
    (hs₁ : s.nonLockedTxs.lookup t₁.hash = none) (hs₂ : s.nonLockedTxs.lookup t₂.hash = none)
    (hso : s.nonLockedTxsByOutpoints.lookup o = none) (hv₁ : t₁.vin = [o]) (hv₂ : t₂.vin = [o])
    (hne : t₁.hash ≠ t₂.hash) (ho : o.hash ≠ t₂.hash) (hL : islock.inputs = [o]) :
    ((s.AddNonLockedTx t₁ none).AddNonLockedTx t₂ (some b)).txOf t₂.hash = some t₂ ∧
      ((s.AddNonLockedTx t₁ none).AddNonLockedTx t₂ (some b)).minedOf t₂.hash = some b ∧
      ((s.AddNonLockedTx t₁ none).AddNonLockedTx t₂ (some b)).CollectConflicts islock = ∅ := by
  set s₁ := s.AddNonLockedTx t₁ none
  set s₂ := s₁.AddNonLockedTx t₂ (some b)
  have h₁ : s₁.nonLockedTxs.lookup t₂.hash = none := by
    rw [lookup_AddNonLockedTx_of_ne _ (Ne.symm hne) (by simp [hv₁, Ne.symm ho]), hs₂]
  have hbo₁ : s₁.nonLockedTxsByOutpoints.lookup o = some t₁.hash := by
    rw [byOutpoints_AddNonLockedTx_of_new _ hs₁, hv₁]
    simp [MineableCommitments.lookup_mapEmplace, AList.lookup_eq_none.mp hso]
  have hbo₂ : s₂.nonLockedTxsByOutpoints.lookup o = some t₁.hash := by
    rw [byOutpoints_AddNonLockedTx_of_new _ h₁, hv₂]
    have hmem : o ∈ s₁.nonLockedTxsByOutpoints :=
      AList.lookup_isSome.mp (by simp [hbo₁])
    simp [MineableCommitments.lookup_mapEmplace, hbo₁, hmem]
  have hmined : s₂.minedOf t₁.hash = none := by
    rw [minedOf_AddNonLockedTx, if_neg hne, minedOf_AddNonLockedTx, if_pos rfl]
  refine ⟨?_, ?_, ?_⟩
  · rw [txOf_AddNonLockedTx, if_pos ⟨rfl, h₁⟩]
  · rw [minedOf_AddNonLockedTx, if_pos rfl]
  · unfold CollectConflicts
    rw [hL, List.foldl_cons, List.foldl_nil, hbo₂]
    dsimp only
    split
    · rfl
    · unfold minedOf at hmined
      cases hlk : s₂.nonLockedTxs.lookup t₁.hash with
      | none => rfl
      | some info =>
        rw [hlk] at hmined
        simp only [Option.bind_some] at hmined
        simp only [hmined]

theorem AddNonLockedTx_keeps_placeholder {s : NonLocked Block} {c p : CTransaction} {n : UInt32}
    (b : Block) (hsc : s.nonLockedTxs.lookup c.hash = none)
    (hsp : s.nonLockedTxs.lookup p.hash = none)
    (hptr : ∀ o, s.nonLockedTxsByOutpoints.lookup o ≠ some p.hash) (hvc : c.vin = [⟨p.hash, n⟩])
    (hne : c.hash ≠ p.hash) :
    ((s.AddNonLockedTx c none).AddNonLockedTx p (some b)).txOf p.hash = none ∧
      ∀ o, ((s.AddNonLockedTx c none).AddNonLockedTx p (some b)).nonLockedTxsByOutpoints.lookup o
        ≠ some p.hash := by
  have h₁ : (s.AddNonLockedTx c none).nonLockedTxs.lookup p.hash ≠ none :=
    lookup_AddNonLockedTx_parent_ne_none _ hsc (p := ⟨p.hash, n⟩) (by simp [hvc])
  refine ⟨?_, fun o => ?_⟩
  · rw [txOf_AddNonLockedTx, if_neg (fun h => h₁ h.2), txOf_AddNonLockedTx,
      if_neg (fun h => hne h.1.symm)]
    simp [txOf, hsp]
  · rw [byOutpoints_AddNonLockedTx_of_known _ h₁, byOutpoints_AddNonLockedTx_of_new _ hsc, hvc]
    simp only [List.foldl_cons, List.foldl_nil, MineableCommitments.lookup_mapEmplace]
    split
    · simpa using hne
    · exact hptr o

end NonLocked

/-- `ResolveBlockConflicts` can miss a mined transaction that spends an input of the ISLOCK,
and `AddNonLockedTx` can leave a transaction untracked with its inputs unindexed: the outpoint
index keeps the first spender, and a placeholder made for a parent by a child turns the parent's
own `AddNonLockedTx` into a block update. -/
theorem AddNonLockedTx_CollectConflicts_miss_spenders [DecidableEq Block] :
    (∀ (s : NonLocked Block) (t₁ t₂ : CTransaction) (o : COutPoint) (b : Block)
      (islock : CInstantSendLock), s.nonLockedTxs.lookup t₁.hash = none →
      s.nonLockedTxs.lookup t₂.hash = none → s.nonLockedTxsByOutpoints.lookup o = none →
      t₁.vin = [o] → t₂.vin = [o] → t₁.hash ≠ t₂.hash → o.hash ≠ t₂.hash →
      islock.inputs = [o] →
      ((s.AddNonLockedTx t₁ none).AddNonLockedTx t₂ (some b)).txOf t₂.hash = some t₂ ∧
      ((s.AddNonLockedTx t₁ none).AddNonLockedTx t₂ (some b)).minedOf t₂.hash = some b ∧
      ((s.AddNonLockedTx t₁ none).AddNonLockedTx t₂ (some b)).CollectConflicts islock = ∅) ∧
    (∀ (s : NonLocked Block) (c p : CTransaction) (n : UInt32) (b : Block),
      s.nonLockedTxs.lookup c.hash = none → s.nonLockedTxs.lookup p.hash = none →
      (∀ o, s.nonLockedTxsByOutpoints.lookup o ≠ some p.hash) →
      c.vin = [⟨p.hash, n⟩] → c.hash ≠ p.hash →
      ((s.AddNonLockedTx c none).AddNonLockedTx p (some b)).txOf p.hash = none ∧
      ∀ o, ((s.AddNonLockedTx c none).AddNonLockedTx p (some b)).nonLockedTxsByOutpoints.lookup o
        ≠ some p.hash) :=
  ⟨fun _ _ _ _ b _ hs₁ hs₂ hso hv₁ hv₂ hne ho hL =>
    NonLocked.CollectConflicts_misses_second_spender b hs₁ hs₂ hso hv₁ hv₂ hne ho hL,
   fun _ _ _ _ b hsc hsp hptr hvc hne =>
    NonLocked.AddNonLockedTx_keeps_placeholder b hsc hsp hptr hvc hne⟩

/-- From no tracked transactions: transactions 1 and 2 both spend `(5, 0)` and only 2 is mined,
in block 7; and the child 1 of transaction 5 is tracked before 5 itself. -/
theorem AddNonLockedTx_CollectConflicts_miss_spenders_of_outpoint_five :
    ((({} : NonLocked Nat).AddNonLockedTx { hash := 1, vin := [⟨5, 0⟩] } none).AddNonLockedTx
        { hash := 2, vin := [⟨5, 0⟩] } (some 7)).CollectConflicts ⟨[⟨5, 0⟩], 3⟩ = ∅ ∧
    ((({} : NonLocked Nat).AddNonLockedTx { hash := 1, vin := [⟨5, 0⟩] } none).AddNonLockedTx
        { hash := 5, vin := [⟨8, 0⟩] } (some 7)).txOf 5 = none :=
  ⟨(AddNonLockedTx_CollectConflicts_miss_spenders.1 {} { hash := 1, vin := [⟨5, 0⟩] }
      { hash := 2, vin := [⟨5, 0⟩] } ⟨5, 0⟩ 7 ⟨[⟨5, 0⟩], 3⟩ rfl rfl rfl rfl rfl (by decide)
      (by decide) rfl).2.2,
    (AddNonLockedTx_CollectConflicts_miss_spenders.2 {} { hash := 1, vin := [⟨5, 0⟩] }
      { hash := 5, vin := [⟨8, 0⟩] } 0 7 rfl rfl (fun _ h => nomatch h) rfl (by decide)).1⟩

end CInstantSendManager

end DashCore
