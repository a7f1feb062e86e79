import DashCore.Llmq.Commitment
import DashCore.Lib.Rollback

/-! The pool of final commitments a miner may put into a block (llmq/blockprocessor.cpp): for
each quorum the hash of the best commitment known for it, and the commitments by hash.
`AddMineableCommitment` adds a commitment that a peer or the local DKG produced, keeping the one
with more signers; `ProcessCommitment` drops a commitment once it is mined, and `UndoBlock`
adds back the commitments of a disconnected block. `::SerializeHash` of a commitment is a
parameter. -/
namespace DashCore

namespace CFinalCommitment

def CountSigners (c : CFinalCommitment) : Nat := c.signers.count true

end CFinalCommitment

def mapEmplace {κ β : Type} [DecidableEq κ] (k : κ) (v : β) (m : AList (fun _ : κ => β)) :
    AList (fun _ : κ => β) :=
  if k ∈ m then m else m.insert k v

/-- The members of `CQuorumBlockProcessor` under `minableCommitmentsCs` that hold the pool. -/
structure MineableCommitments where
  minableCommitmentsByQuorum : AList (fun _ : LLMQType × uint256 => uint256) := ∅
  minableCommitments : AList (fun _ : uint256 => CFinalCommitment) := ∅

namespace MineableCommitments

variable (SerializeHash : CFinalCommitment → uint256)

/-- `AddMineableCommitment(fqc)`: the pool after it, and whether the commitment is relayed.
`minableCommitments.at` throws `std::out_of_range` when the hash is not in the pool. -/
def AddMineableCommitment (pool : MineableCommitments) (fqc : CFinalCommitment) :
    Except String (MineableCommitments × Bool) :=
  let commitmentHash := SerializeHash fqc
  let k := (fqc.llmqType, fqc.quorumHash)
  match pool.minableCommitmentsByQuorum.lookup k with
  | none =>
    .ok ({ minableCommitmentsByQuorum := pool.minableCommitmentsByQuorum.insert k commitmentHash
           minableCommitments := mapEmplace commitmentHash fqc pool.minableCommitments }, true)
  | some oldHash =>
    match pool.minableCommitments.lookup oldHash with
    | none => .error "map::at"
    | some oldFqc =>
      if fqc.CountSigners > oldFqc.CountSigners then
        -- `ins.first->second = commitmentHash;` runs before
        -- `minableCommitments.erase(ins.first->second);`, which so erases the new hash
        let byQuorum := pool.minableCommitmentsByQuorum.insert k commitmentHash
        let erased := pool.minableCommitments.erase commitmentHash
        .ok ({ minableCommitmentsByQuorum := byQuorum
               minableCommitments := mapEmplace commitmentHash fqc erased }, true)
      else .ok (pool, false)

/-- What `ProcessCommitment` does to the pool once it has written a mined commitment to the
database: it forgets the quorum's entry and the mined commitment's hash. -/
def ProcessCommitment (pool : MineableCommitments) (qc : CFinalCommitment) :
    MineableCommitments :=
  { minableCommitmentsByQuorum := pool.minableCommitmentsByQuorum.erase (qc.llmqType, qc.quorumHash)
    minableCommitments := pool.minableCommitments.erase (SerializeHash qc) }

/-- What `UndoBlock` does to the pool: `AddMineableCommitment` of each non-null commitment of
the disconnected block, in the order of `GetCommitmentsFromBlock`. -/
def UndoBlock (P : Primitives) (DecodesSig : BitVec 768 → Bool) (pool : MineableCommitments)
    (qcs : List CFinalCommitment) : Except String MineableCommitments :=
  qcs.foldlM (fun pool qc =>
    if qc.IsNull P DecodesSig then .ok pool
    else (AddMineableCommitment SerializeHash pool qc).map Prod.fst) pool

inductive PoolCall where
  | AddMineableCommitment (fqc : CFinalCommitment)
  | ProcessCommitment (qc : CFinalCommitment)
  | UndoBlock (qcs : List CFinalCommitment)

variable (P : Primitives) (DecodesSig : BitVec 768 → Bool)

def PoolCall.apply (pool : MineableCommitments) : PoolCall → Except String MineableCommitments
  | .AddMineableCommitment fqc =>
    (MineableCommitments.AddMineableCommitment SerializeHash pool fqc).map Prod.fst
  | .ProcessCommitment qc => .ok (MineableCommitments.ProcessCommitment SerializeHash pool qc)
  | .UndoBlock qcs => MineableCommitments.UndoBlock SerializeHash P DecodesSig pool qcs

def run (calls : List PoolCall) (pool : MineableCommitments) : Except String MineableCommitments :=
  calls.foldlM (fun pool call => call.apply SerializeHash P DecodesSig pool) pool

def StoredUnderHash (pool : MineableCommitments) : Prop :=
  ∀ h qc, pool.minableCommitments.lookup h = some qc → SerializeHash qc = h

theorem lookup_mapEmplace {κ β : Type} [DecidableEq κ] (k : κ) (v : β)
    (m : AList (fun _ : κ => β)) (h : κ) :
    (mapEmplace k v m).lookup h = if h = k ∧ k ∉ m then some v else m.lookup h := by
  unfold mapEmplace
  by_cases hk : k ∈ m
  · simp [hk]
  · by_cases hh : h = k
    · subst hh
      simp [hk]
    · simp [hk, hh, AList.lookup_insert_ne hh]

variable {SerializeHash}

theorem hashKeyed_emplace {m : AList (fun _ : uint256 => CFinalCommitment)}
    (hm : ∀ h qc, m.lookup h = some qc → SerializeHash qc = h) (fqc : CFinalCommitment) :
    ∀ h qc, (mapEmplace (SerializeHash fqc) fqc m).lookup h = some qc → SerializeHash qc = h := by
  intro h qc hl
  rw [lookup_mapEmplace] at hl
  split at hl
  · rename_i hh
    cases hl
    exact hh.1.symm
  · exact hm h qc hl

theorem hashKeyed_erase {m : AList (fun _ : uint256 => CFinalCommitment)}
    (hm : ∀ h qc, m.lookup h = some qc → SerializeHash qc = h) (e : uint256) :
    ∀ h qc, (m.erase e).lookup h = some qc → SerializeHash qc = h := by
  intro h qc hl
  by_cases he : h = e
  · subst he
    simp at hl
  · rw [AList.lookup_erase_ne he] at hl
    exact hm h qc hl

theorem StoredUnderHash.add {pool pool' : MineableCommitments} {fqc : CFinalCommitment}
    {relay : Bool} (hp : StoredUnderHash SerializeHash pool)
    (h : AddMineableCommitment SerializeHash pool fqc = .ok (pool', relay)) :
    StoredUnderHash SerializeHash pool' := by
  unfold AddMineableCommitment at h
  dsimp only at h
  split at h
  · cases h
    exact hashKeyed_emplace hp fqc
  · split at h
    · cases h
    · split at h
      · cases h
        exact hashKeyed_emplace (hashKeyed_erase hp _) fqc
      · cases h
        exact hp

theorem StoredUnderHash.apply {pool pool' : MineableCommitments} (call : PoolCall)
    (hp : StoredUnderHash SerializeHash pool)
    (h : call.apply SerializeHash P DecodesSig pool = .ok pool') :
    StoredUnderHash SerializeHash pool' := by
  cases call with
  | AddMineableCommitment fqc =>
    simp only [PoolCall.apply] at h
    cases ha : AddMineableCommitment SerializeHash pool fqc with
    | error e => rw [ha] at h; cases h
    | ok r =>
      rw [ha] at h
      cases h
      exact hp.add ha
  | ProcessCommitment qc =>
    cases h
    exact hashKeyed_erase hp _
  | UndoBlock qcs =>
    refine Rollback.foldlM_invariant _ qcs (fun qc _ p p' hp' hstep => ?_) hp h
    split at hstep
    · cases hstep
      exact hp'
    · cases ha : AddMineableCommitment SerializeHash p qc with
      | error e => rw [ha] at hstep; cases hstep
      | ok r =>
        rw [ha] at hstep
        cases hstep
        exact hp'.add ha

theorem run_storedUnderHash {calls : List PoolCall} {pool : MineableCommitments}
    (h : run SerializeHash P DecodesSig calls {} = .ok pool) :
    StoredUnderHash SerializeHash pool :=
  Rollback.foldlM_invariant _ calls (fun call _ _ _ hp hstep => hp.apply P DecodesSig call hstep)
    (fun _ _ hl => by simp at hl) h

theorem AddMineableCommitment_keeps_replaced {pool : MineableCommitments}
    {fqc oldFqc : CFinalCommitment} {oldHash : uint256}
    (hk : pool.minableCommitmentsByQuorum.lookup (fqc.llmqType, fqc.quorumHash) = some oldHash)
    (hold : pool.minableCommitments.lookup oldHash = some oldFqc)
    (hmore : fqc.CountSigners > oldFqc.CountSigners) (hne : SerializeHash fqc ≠ oldHash) :
    ∃ pool', AddMineableCommitment SerializeHash pool fqc = .ok (pool', true) ∧
      pool'.minableCommitmentsByQuorum =
        pool.minableCommitmentsByQuorum.insert (fqc.llmqType, fqc.quorumHash) (SerializeHash fqc) ∧
      pool'.minableCommitments.lookup oldHash = some oldFqc := by
  refine ⟨{ minableCommitmentsByQuorum := pool.minableCommitmentsByQuorum.insert
                (fqc.llmqType, fqc.quorumHash) (SerializeHash fqc)
            minableCommitments := mapEmplace (SerializeHash fqc) fqc
                (pool.minableCommitments.erase (SerializeHash fqc)) }, ?_, ?_, ?_⟩
  · simp only [AddMineableCommitment, hk, hold, if_pos hmore]
  · rfl
  · rw [lookup_mapEmplace, if_neg (fun h => hne h.1.symm), AList.lookup_erase_ne (Ne.symm hne)]
    exact hold

end MineableCommitments

/-- Two commitments for one quorum, the second with two signers where the first has one, whose
hashes differ: added one after the other to the empty pool, they leave the first in the pool
under a hash that no quorum's entry holds. -/
theorem run_AddMineableCommitment_leaves_unindexed (P : Primitives)
    (DecodesSig : BitVec 768 → Bool) (SerializeHash : CFinalCommitment → uint256)
    (hne : SerializeHash { llmqType := 1, quorumHash := 7, signers := [true, false] } ≠
      SerializeHash { llmqType := 1, quorumHash := 7, signers := [true, true] }) :
    ∃ pool, MineableCommitments.run SerializeHash P DecodesSig
        [.AddMineableCommitment { llmqType := 1, quorumHash := 7, signers := [true, false] },
         .AddMineableCommitment { llmqType := 1, quorumHash := 7, signers := [true, true] }] {} =
        .ok pool ∧
      pool.minableCommitments.lookup
          (SerializeHash { llmqType := 1, quorumHash := 7, signers := [true, false] }) =
        some { llmqType := 1, quorumHash := 7, signers := [true, false] } ∧
      ∀ k, pool.minableCommitmentsByQuorum.lookup k ≠
        some (SerializeHash { llmqType := 1, quorumHash := 7, signers := [true, false] }) := by
  set qc1 : CFinalCommitment := { llmqType := 1, quorumHash := 7, signers := [true, false] }
  set qc2 : CFinalCommitment := { llmqType := 1, quorumHash := 7, signers := [true, true] }
  set pool1 : MineableCommitments :=
    ⟨(∅ : AList _).insert (1, 7) (SerializeHash qc1), mapEmplace (SerializeHash qc1) qc1 ∅⟩
  have hadd1 : MineableCommitments.AddMineableCommitment SerializeHash {} qc1 = .ok (pool1, true) :=
    rfl
  have hk : pool1.minableCommitmentsByQuorum.lookup (qc2.llmqType, qc2.quorumHash) =
      some (SerializeHash qc1) := AList.lookup_insert _
  have hold : pool1.minableCommitments.lookup (SerializeHash qc1) = some qc1 := by
    simp only [pool1, mapEmplace, if_neg (AList.notMem_empty _)]
    exact AList.lookup_insert _
  obtain ⟨pool2, hadd2, hby2, hold2⟩ := MineableCommitments.AddMineableCommitment_keeps_replaced
    hk hold (by decide) (Ne.symm hne)
  refine ⟨pool2, ?_, hold2, fun k => ?_⟩
  · simp only [MineableCommitments.run, List.foldlM_cons, List.foldlM_nil,
      MineableCommitments.PoolCall.apply, hadd1, Except.map, Rollback.ok_bind, hadd2]
    rfl
  · have hkey : (qc2.llmqType, qc2.quorumHash) = ((1 : LLMQType), (7 : uint256)) := rfl
    rw [hby2, hkey]
    by_cases hk2 : k = (1, 7)
    · subst hk2
      rw [AList.lookup_insert]
      exact fun h => hne (Option.some.inj h).symm
    · rw [AList.lookup_insert_ne hk2, AList.lookup_insert_ne hk2, AList.lookup_empty]
      exact Option.some_ne_none _ ∘ Eq.symm

/-- The run above with a commitment hash that tells the two commitments apart by their signer
counts. -/
theorem run_AddMineableCommitment_leaves_unindexed_by_signers :
    ∃ pool, MineableCommitments.run (fun qc => BitVec.ofNat 256 qc.CountSigners)
        ⟨fun _ => 0, fun _ _ => none, fun k _ => k, true⟩ (fun _ => false)
        [.AddMineableCommitment { llmqType := 1, quorumHash := 7, signers := [true, false] },
         .AddMineableCommitment { llmqType := 1, quorumHash := 7, signers := [true, true] }] {} =
        .ok pool ∧
      pool.minableCommitments.lookup 1 =
        some { llmqType := 1, quorumHash := 7, signers := [true, false] } ∧
      ∀ k, pool.minableCommitmentsByQuorum.lookup k ≠ some 1 :=
  run_AddMineableCommitment_leaves_unindexed ⟨fun _ => 0, fun _ _ => none, fun k _ => k, true⟩ (fun _ => false)
    (fun qc => BitVec.ofNat 256 qc.CountSigners) (by decide)

end DashCore
