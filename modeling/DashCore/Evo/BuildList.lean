import DashCore.Evo.ProTx

/-! `CDeterministicMNManager::BuildNewListFromBlock` (evo/deterministicmns.cpp): the list of a
new block, built from the list of the previous block by confirming masternodes, decreasing
penalties, applying the block's provider transactions and commitments, removing masternodes
whose collateral is spent, and recording the payment of the block. The function works on a
copy of the list: a rejected block returns a reason, and an exception of a list function
leaves the function. -/
namespace DashCore

/-- What BuildNewListFromBlock reads besides the old list and the block: the previous block,
the chain, the coins view and the consensus parameters. -/
structure BlockEnv where
  /-- `pindexPrev->nHeight`. -/
  prevHeight : Int
  /-- `pindexPrev->GetBlockHash()`. -/
  prevHash : uint256
  /-- `llmq::utils::IsV19Active(pindexPrev)`. -/
  v19Active : Bool
  /-- `Params().GetConsensus().nMasternodeMinimumConfirmations`. -/
  nMasternodeMinimumConfirmations : Int
  /-- `oldList.GetMNPayee(pindexPrev)`. -/
  payee : Option CDeterministicMN
  /-- The value of the unspent coin `view` holds at an outpoint. -/
  coinValue : COutPoint → Option Int64
  /-- The `dkgInterval` of `GetLLMQParams(llmqType)`, for a known type. -/
  dkgInterval : LLMQType → Option Int
  /-- The hash of `pindexPrev->GetAncestor(height)`, where it exists. -/
  ancestorHash : Int → Option uint256
  /-- The proTxHashes of `llmq::utils::GetAllQuorumMembers(llmqType, base)`, by the base
  block's hash. -/
  quorumMembers : LLMQType → uint256 → List uint256
  /-- `CSHA256` of the bytes of two hashes, one after the other. -/
  sha256Pair : uint256 → uint256 → uint256
  /-- Whether a signature buffer reads as a BLS signature. -/
  DecodesSig : BitVec 768 → Bool

inductive BuildError where
  /-- `_state.Invalid(..., reason)`: the block is rejected. -/
  | invalid (reason : String)
  /-- An exception out of a list function. -/
  | thrown (e : MNListError)
deriving DecidableEq, Repr

def collat_amount : MnType → Int64
  | .Regular => 1000 * 100000000
  | .HighPerformance => 4000 * 100000000

namespace CDeterministicMNState

/-- `UpdateConfirmedHash`: the confirmed block, and its hash together with the proTxHash. -/
def UpdateConfirmedHash (sha256Pair : uint256 → uint256 → uint256) (s : CDeterministicMNState)
    (proTxHash confirmedHash : uint256) : CDeterministicMNState :=
  { s with confirmedHash := confirmedHash,
           confirmedHashWithProRegTxHash := sha256Pair proTxHash confirmedHash }

end CDeterministicMNState

section Primitives

variable (P : Primitives) (env : BlockEnv)

namespace CDeterministicMNManager

open CDeterministicMNList

def call (r : Except MNListError CDeterministicMNList) : Except BuildError CDeterministicMNList :=
  r.mapError .thrown

def newHeight : Int := env.prevHeight + 1

/-- The first loop: a masternode of the old list is confirmed once it has enough
confirmations. -/
def ConfirmMN (newList : CDeterministicMNList) (dmn : CDeterministicMN) :
    Except BuildError CDeterministicMNList :=
  if dmn.pdmnState.confirmedHash != 0 then pure newList
  else if env.prevHeight - dmn.pdmnState.nRegisteredHeight ≥ env.nMasternodeMinimumConfirmations then
    call (UpdateMNByProTxHashResult P dmn.proTxHash
      (dmn.pdmnState.UpdateConfirmedHash env.sha256Pair dmn.proTxHash env.prevHash) newList)
  else pure newList

/-- DecreasePoSePenalties: one point less for every masternode not banned with a penalty. -/
def DecreasePoSePenalties (mnList : CDeterministicMNList) : Except BuildError CDeterministicMNList :=
  let toDecrease := ((mnList.mnMap.entries.map (·.2)).filter fun dmn =>
    !dmn.pdmnState.IsBanned && dmn.pdmnState.nPoSePenalty > 0).map (·.proTxHash)
  toDecrease.foldlM (fun l proTxHash => call (PoSeDecreaseResult P proTxHash l)) mnList

def ProRegTxMN (tx : CTransaction) (proTx : CProRegTx) (internalId : UInt64) : CDeterministicMN :=
  let dmnState : CDeterministicMNState :=
    { keyIDOwner := proTx.keyIDOwner, keyIDVoting := proTx.keyIDVoting, addr := proTx.addr,
      scriptPayout := proTx.scriptPayout, platformNodeID := proTx.platformNodeID,
      platformP2PPort := proTx.platformP2PPort, platformHTTPPort := proTx.platformHTTPPort,
      pubKeyOperator := .set proTx.pubKeyOperator, nRegisteredHeight := newHeight env }
  -- without an address the masternode waits banned for a ProUpServTx
  let dmnState := if proTx.addr == default then dmnState.BanIfNotBanned (newHeight env) else dmnState
  { internalId := internalId, proTxHash := tx.hash, collateralOutpoint := proTx.collateralOf tx.hash,
    nOperatorReward := proTx.nOperatorReward, nType := proTx.nType, pdmnState := dmnState }

def ProcessProRegTx (tx : CTransaction) (proTx : CProRegTx) (newList : CDeterministicMNList) :
    Except BuildError CDeterministicMNList := do
  if proTx.nType == .HighPerformance && !env.v19Active then throw (.invalid "bad-protx-payload")
  let internalId := newList.nTotalRegisteredCount.toUInt64
  let collateralOutpoint := proTx.collateralOf tx.hash
  if proTx.collateralOutpoint.hash != 0 &&
      (env.coinValue collateralOutpoint).all (· != collat_amount proTx.nType) then
    throw (.invalid "bad-protx-collateral")
  -- a masternode with the same collateral is replaced
  let newList ← match newList.GetMNByCollateral P collateralOutpoint with
    | some replacedDmn => call (RemoveMNResult P replacedDmn.proTxHash newList)
    | none => pure newList
  if newList.HasUniqueProperty P (.service proTx.addr) then throw (.invalid "bad-protx-dup-addr")
  if newList.HasUniqueProperty P (.uint160 proTx.keyIDOwner) ||
      newList.HasUniqueProperty P (.blsPublicKey (.set proTx.pubKeyOperator)) then
    throw (.invalid "bad-protx-dup-key")
  call (AddMNResult P (ProRegTxMN env tx proTx internalId) true newList)

def ProUpServState (proTx : CProUpServTx) (state : CDeterministicMNState) : CDeterministicMNState :=
  let newState := { state with
    addr := proTx.addr, scriptOperatorPayout := proTx.scriptOperatorPayout }
  let newState := if proTx.nType == .HighPerformance then
      { newState with platformNodeID := proTx.platformNodeID,
                      platformP2PPort := proTx.platformP2PPort,
                      platformHTTPPort := proTx.platformHTTPPort }
    else newState
  -- a banned masternode is revived once all its keys are set
  if newState.IsBanned && newState.pubKeyOperator.IsValid P &&
      newState.keyIDVoting != 0 && newState.keyIDOwner != 0 then newState.Revive (newHeight env)
  else newState

def ProcessProUpServTx (proTx : CProUpServTx) (newList : CDeterministicMNList) :
    Except BuildError CDeterministicMNList := do
  if proTx.nType == .HighPerformance && !env.v19Active then throw (.invalid "bad-protx-payload")
  if newList.HasUniqueProperty P (.service proTx.addr) then
    match newList.GetUniquePropertyMN P (.service proTx.addr) with
    | some other => if other.proTxHash != proTx.proTxHash then throw (.invalid "bad-protx-dup-addr")
    | none => throw (.thrown .abort)
  let some dmn := newList.GetMN proTx.proTxHash | throw (.invalid "bad-protx-hash")
  if proTx.nType != dmn.nType then throw (.invalid "bad-protx-type-mismatch")
  call (UpdateMNByProTxHashResult P proTx.proTxHash (ProUpServState P env proTx dmn.pdmnState) newList)

def ProUpRegState (proTx : CProUpRegTx) (state : CDeterministicMNState) : CDeterministicMNState :=
  -- a new operator key resets the operator fields and bans
  let newState := if (state.pubKeyOperator.Get P).1 != proTx.pubKeyOperator then
      state.ResetOperatorFields.BanIfNotBanned (newHeight env)
    else state
  { newState with pubKeyOperator := .set proTx.pubKeyOperator,
                  keyIDVoting := proTx.keyIDVoting,
                  scriptPayout := proTx.scriptPayout }

def ProcessProUpRegTx (proTx : CProUpRegTx) (newList : CDeterministicMNList) :
    Except BuildError CDeterministicMNList := do
  let some dmn := newList.GetMN proTx.proTxHash | throw (.invalid "bad-protx-hash")
  call (UpdateMNByProTxHashResult P proTx.proTxHash (ProUpRegState P env proTx dmn.pdmnState) newList)

def ProUpRevState (proTx : CProUpRevTx) (state : CDeterministicMNState) : CDeterministicMNState :=
  { state.ResetOperatorFields.BanIfNotBanned (newHeight env) with nRevocationReason := proTx.nReason }

def ProcessProUpRevTx (proTx : CProUpRevTx) (newList : CDeterministicMNList) :
    Except BuildError CDeterministicMNList := do
  let some dmn := newList.GetMN proTx.proTxHash | throw (.invalid "bad-protx-hash")
  call (UpdateMNByProTxHashResult P proTx.proTxHash (ProUpRevState env proTx dmn.pdmnState) newList)

/-- HandleQuorumCommitment: each member still in the list that the commitment marks invalid is
punished. -/
def HandleQuorumCommitment (qc : CFinalCommitment) (mnList : CDeterministicMNList) :
    Except BuildError CDeterministicMNList :=
  (env.quorumMembers qc.llmqType qc.quorumHash).zipIdx.foldlM (fun l (proTxHash, i) =>
    if (l.GetMN proTxHash).isNone then pure l
    else if !qc.validMembers.getD i false then
      call (PoSePunishResult P proTxHash (l.CalcPenalty 66) l)
    else pure l) mnList

def ProcessQuorumCommitment (qc : CFinalCommitmentTxPayload) (newList : CDeterministicMNList) :
    Except BuildError CDeterministicMNList := do
  if qc.commitment.IsNull P env.DecodesSig then return newList
  let some dkgInterval := env.dkgInterval qc.commitment.llmqType
    | throw (.invalid "bad-qc-commitment-type")
  let qcnHeight : Int := qc.nHeight.toInt32.toInt
  let quorumHeight := qcnHeight - qcnHeight.tmod dkgInterval + qc.commitment.quorumIndex.toInt
  if env.ancestorHash quorumHeight != some qc.commitment.quorumHash then
    throw (.invalid "bad-qc-quorum-hash")
  HandleQuorumCommitment P env qc.commitment newList

def ProcessTx (newList : CDeterministicMNList) (tx : CTransaction) :
    Except BuildError CDeterministicMNList :=
  if tx.nVersion != SPECIAL_TX_VERSION then pure newList
  else if tx.nType == TRANSACTION_PROVIDER_REGISTER then
    match tx.payload with
    | some (.ProRegTx proTx) => ProcessProRegTx P env tx proTx newList
    | _ => throw (.invalid "bad-protx-payload")
  else if tx.nType == TRANSACTION_PROVIDER_UPDATE_SERVICE then
    match tx.payload with
    | some (.ProUpServTx proTx) => ProcessProUpServTx P env proTx newList
    | _ => throw (.invalid "bad-protx-payload")
  else if tx.nType == TRANSACTION_PROVIDER_UPDATE_REGISTRAR then
    match tx.payload with
    | some (.ProUpRegTx proTx) => ProcessProUpRegTx P env proTx newList
    | _ => throw (.invalid "bad-protx-payload")
  else if tx.nType == TRANSACTION_PROVIDER_UPDATE_REVOKE then
    match tx.payload with
    | some (.ProUpRevTx proTx) => ProcessProUpRevTx P env proTx newList
    | _ => throw (.invalid "bad-protx-payload")
  else if tx.nType == TRANSACTION_QUORUM_COMMITMENT then
    match tx.payload with
    | some (.QuorumCommitment qc) => ProcessQuorumCommitment P env qc newList
    | _ => throw (.invalid "bad-qc-payload")
  else pure newList

def SpendCollateral (newList : CDeterministicMNList) (prevout : COutPoint) :
    Except BuildError CDeterministicMNList :=
  match newList.GetMNByCollateral P prevout with
  | some dmn =>
    if dmn.collateralOutpoint == prevout then call (RemoveMNResult P dmn.proTxHash newList)
    else pure newList
  | none => pure newList

def PaidState (dmn : CDeterministicMN) : CDeterministicMNState :=
  let newState := { dmn.pdmnState with nLastPaidHeight := newHeight env }
  if dmn.nType == .HighPerformance then
    { newState with nConsecutivePayments := newState.nConsecutivePayments + 1 }
  else newState

def PayPayee (newList : CDeterministicMNList) : Except BuildError CDeterministicMNList :=
  match env.payee with
  | none => pure newList
  | some payee =>
    match newList.GetMN payee.proTxHash with
    | none => pure newList
    | some dmn => call (UpdateMNByProTxHashResult P payee.proTxHash (PaidState env dmn) newList)

/-- The last loop, over a copy of the list: a HPMN that was not paid loses its count of
consecutive payments. -/
def ResetConsecutivePayments (newList : CDeterministicMNList) (dmn : CDeterministicMN) :
    Except BuildError CDeterministicMNList :=
  if env.payee.any (·.proTxHash == dmn.proTxHash) then pure newList
  else if dmn.nType != .HighPerformance then pure newList
  else if dmn.pdmnState.nConsecutivePayments == 0 then pure newList
  else call (UpdateMNByProTxHashResult P dmn.proTxHash
    { dmn.pdmnState with nConsecutivePayments := 0 } newList)

def BuildNewListFromBlock (block : CBlock) (oldList : CDeterministicMNList) :
    Except BuildError CDeterministicMNList := do
  -- the block hash is not known yet
  let newList := { oldList with blockHash := 0, nHeight := newHeight env }
  let newList ← (oldList.mnMap.entries.map (·.2)).foldlM (ConfirmMN P env) newList
  let newList ← DecreasePoSePenalties P newList
  -- the coinbase is skipped
  let newList ← block.vtx.tail.foldlM (ProcessTx P env) newList
  let newList ← block.vtx.tail.foldlM (fun l tx => tx.vin.foldlM (SpendCollateral P) l) newList
  let newList ← PayPayee P env newList
  (newList.mnMap.entries.map (·.2)).foldlM (ResetConsecutivePayments P env) newList

end CDeterministicMNManager

end Primitives

end DashCore
