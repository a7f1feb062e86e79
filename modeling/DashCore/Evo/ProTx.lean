import DashCore.Evo.MNList
import DashCore.Llmq.Commitment

/-! The provider transactions (evo/providertx.h) and the checks that `CheckSpecialTx` makes of
them against the masternode list of the previous block (evo/deterministicmns.cpp,
evo/providertx.cpp). Only the checks that read the list or the keys are modelled; those of
scripts, coins, signatures and versions are not. -/
namespace DashCore

def TRANSACTION_NORMAL : UInt16 := 0
def TRANSACTION_PROVIDER_REGISTER : UInt16 := 1
def TRANSACTION_PROVIDER_UPDATE_SERVICE : UInt16 := 2
def TRANSACTION_PROVIDER_UPDATE_REGISTRAR : UInt16 := 3
def TRANSACTION_PROVIDER_UPDATE_REVOKE : UInt16 := 4
def TRANSACTION_COINBASE : UInt16 := 5
def TRANSACTION_QUORUM_COMMITMENT : UInt16 := 6
def TRANSACTION_MNHF_SIGNAL : UInt16 := 7

def SPECIAL_TX_VERSION : UInt16 := 3

structure CProRegTx where
  nType : MnType := .Regular
  collateralOutpoint : COutPoint := {}
  addr : CService := {}
  platformNodeID : uint160 := 0
  platformP2PPort : UInt16 := 0
  platformHTTPPort : UInt16 := 0
  keyIDOwner : CKeyID := 0
  /-- The `CBLSPublicKey` the payload carries, as its wrapper decoded it on reading: `none` is
  the invalid key. -/
  pubKeyOperator : Option (BitVec 384) := none
  keyIDVoting : CKeyID := 0
  nOperatorReward : UInt16 := 0
  scriptPayout : CScript := []
deriving DecidableEq, Repr

structure CProUpServTx where
  nType : MnType := .Regular
  proTxHash : uint256 := 0
  addr : CService := {}
  platformNodeID : uint160 := 0
  platformP2PPort : UInt16 := 0
  platformHTTPPort : UInt16 := 0
  scriptOperatorPayout : CScript := []
deriving DecidableEq, Repr

structure CProUpRegTx where
  proTxHash : uint256 := 0
  pubKeyOperator : Option (BitVec 384) := none
  keyIDVoting : CKeyID := 0
  scriptPayout : CScript := []
deriving DecidableEq, Repr

structure CProUpRevTx where
  proTxHash : uint256 := 0
  nReason : UInt16 := REASON_NOT_SPECIFIED
deriving DecidableEq, Repr

inductive TxPayload where
  | ProRegTx (proTx : CProRegTx)
  | ProUpServTx (proTx : CProUpServTx)
  | ProUpRegTx (proTx : CProUpRegTx)
  | ProUpRevTx (proTx : CProUpRevTx)
  | QuorumCommitment (qc : CFinalCommitmentTxPayload)
deriving DecidableEq, Repr

structure CTransaction where
  /-- `GetHash()`. -/
  hash : uint256
  nVersion : UInt16 := SPECIAL_TX_VERSION
  nType : UInt16 := TRANSACTION_NORMAL
  /-- The outpoints the inputs spend. -/
  vin : List COutPoint := []
  /-- The payload; `none` where it does not parse as the type's payload. -/
  payload : Option TxPayload := none
deriving DecidableEq, Repr

structure CBlock where
  vtx : List CTransaction
deriving DecidableEq, Repr

namespace CTransaction

/-- `tx.nVersion != 3 || tx.nType == TRANSACTION_NORMAL`: not a special transaction. -/
def IsNotSpecial (tx : CTransaction) : Bool :=
  tx.nVersion != SPECIAL_TX_VERSION || tx.nType == TRANSACTION_NORMAL

end CTransaction

namespace CProRegTx

/-- The collateral a ProRegTx names: an output of its own transaction when the hash is null. -/
def collateralOf (proTx : CProRegTx) (txHash : uint256) : COutPoint :=
  if proTx.collateralOutpoint.hash == 0 then { hash := txHash, n := proTx.collateralOutpoint.n }
  else proTx.collateralOutpoint

end CProRegTx

section Primitives

variable (P : Primitives)

open CDeterministicMNList

/-- The list check of a value a transaction sets: another masternode must not hold it. -/
def otherHolds (mnList : CDeterministicMNList) (v : UniqueProperty) (proTxHash : uint256) : Bool :=
  mnList.HasUniqueProperty P v &&
    (mnList.GetUniquePropertyMN P v).any fun dmn => dmn.proTxHash != proTxHash

/-- The checks of CheckProRegTx against the list of the previous block, with the key checks of
`CProRegTx::IsTriviallyValid`. -/
def CheckProRegTx (mnList : CDeterministicMNList) (tx : CTransaction) (ptx : CProRegTx) :
    Except String Unit := do
  if ptx.keyIDOwner == 0 || !ptx.pubKeyOperator.isSome || ptx.keyIDVoting == 0 then
    throw "bad-protx-key-null"
  let collateralOutpoint := ptx.collateralOf tx.hash
  -- an address may be reused only with the collateral of the masternode it replaces
  if mnList.HasUniqueProperty P (.service ptx.addr) &&
      (mnList.GetUniquePropertyMN P (.service ptx.addr)).any
        fun dmn => dmn.collateralOutpoint != collateralOutpoint then
    throw "bad-protx-dup-addr"
  if mnList.HasUniqueProperty P (.uint160 ptx.keyIDOwner) ||
      mnList.HasUniqueProperty P (.blsPublicKey (.set ptx.pubKeyOperator)) then
    throw "bad-protx-dup-key"
  if ptx.nType == .HighPerformance && mnList.HasUniqueProperty P (.uint160 ptx.platformNodeID) then
    throw "bad-protx-dup-platformnodeid"

def CheckProUpServTx (mnList : CDeterministicMNList) (ptx : CProUpServTx) : Except String Unit := do
  if (mnList.GetMN ptx.proTxHash).isNone then throw "bad-protx-hash"
  if otherHolds P mnList (.service ptx.addr) ptx.proTxHash then throw "bad-protx-dup-addr"
  if ptx.nType == .HighPerformance && otherHolds P mnList (.uint160 ptx.platformNodeID) ptx.proTxHash then
    throw "bad-protx-dup-platformnodeid"

/-- The checks of CheckProUpRegTx against the list, with the key checks of
`CProUpRegTx::IsTriviallyValid`. -/
def CheckProUpRegTx (mnList : CDeterministicMNList) (ptx : CProUpRegTx) : Except String Unit := do
  if !ptx.pubKeyOperator.isSome || ptx.keyIDVoting == 0 then throw "bad-protx-key-null"
  if (mnList.GetMN ptx.proTxHash).isNone then throw "bad-protx-hash"
  if otherHolds P mnList (.blsPublicKey (.set ptx.pubKeyOperator)) ptx.proTxHash then
    throw "bad-protx-dup-key"

def CheckProUpRevTx (mnList : CDeterministicMNList) (ptx : CProUpRevTx) : Except String Unit := do
  if (mnList.GetMN ptx.proTxHash).isNone then throw "bad-protx-hash"

/-- CheckSpecialTx against the list of the previous block; the checks of the coinbase, of
commitments and of MNHF signals read no list and are not modelled. -/
def CheckSpecialTx (mnList : CDeterministicMNList) (tx : CTransaction) : Except String Unit :=
  if tx.IsNotSpecial then pure ()
  else if tx.nType == TRANSACTION_PROVIDER_REGISTER then
    match tx.payload with
    | some (.ProRegTx ptx) => CheckProRegTx P mnList tx ptx
    | _ => throw "bad-protx-payload"
  else if tx.nType == TRANSACTION_PROVIDER_UPDATE_SERVICE then
    match tx.payload with
    | some (.ProUpServTx ptx) => CheckProUpServTx P mnList ptx
    | _ => throw "bad-protx-payload"
  else if tx.nType == TRANSACTION_PROVIDER_UPDATE_REGISTRAR then
    match tx.payload with
    | some (.ProUpRegTx ptx) => CheckProUpRegTx P mnList ptx
    | _ => throw "bad-protx-payload"
  else if tx.nType == TRANSACTION_PROVIDER_UPDATE_REVOKE then
    match tx.payload with
    | some (.ProUpRevTx ptx) => CheckProUpRevTx mnList ptx
    | _ => throw "bad-protx-payload"
  else if tx.nType == TRANSACTION_COINBASE || tx.nType == TRANSACTION_QUORUM_COMMITMENT ||
      tx.nType == TRANSACTION_MNHF_SIGNAL then pure ()
  else throw "bad-tx-type-check"

end Primitives

end DashCore
