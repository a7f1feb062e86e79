import DashCore.Evo.Types

/-! The final commitment of an LLMQ (llmq/commitment.h): the quorum it commits to, the bits
of its signers and valid members, and its keys and signatures as serialized bytes. -/
namespace DashCore

abbrev LLMQType := UInt8

def LLMQ_NONE : LLMQType := 0xff

structure CBLSSignature where
  vecBytes : BitVec 768 := 0
deriving DecidableEq, Repr

namespace CBLSSignature

/-- `IsValid()`: the bytes were read into a signature, which the all-zero buffer is not. -/
def IsValid (DecodesSig : BitVec 768 → Bool) (s : CBLSSignature) : Bool :=
  s.vecBytes != 0 && DecodesSig s.vecBytes

end CBLSSignature

structure CFinalCommitment where
  nVersion : UInt16 := 1
  llmqType : LLMQType := LLMQ_NONE
  quorumHash : uint256 := 0
  quorumIndex : Int16 := 0
  signers : List Bool := []
  validMembers : List Bool := []
  quorumPublicKey : CBLSPublicKey := {}
  quorumVvecHash : uint256 := 0
  quorumSig : CBLSSignature := {}
  membersSig : CBLSSignature := {}
deriving DecidableEq, Repr

namespace CFinalCommitment

def LEGACY_BLS_NON_INDEXED_QUORUM_VERSION : UInt16 := 1
def LEGACY_BLS_INDEXED_QUORUM_VERSION : UInt16 := 2
def BASIC_BLS_NON_INDEXED_QUORUM_VERSION : UInt16 := 3
def BASIC_BLS_INDEXED_QUORUM_VERSION : UInt16 := 4

/-- `GetVersion(is_rotation_enabled, is_basic_scheme_active)`: rotating quorums carry their
index, and the scheme of the keys follows the fork. -/
def GetVersion (is_rotation_enabled is_basic_scheme_active : Bool) : UInt16 :=
  if is_rotation_enabled then
    if is_basic_scheme_active then BASIC_BLS_INDEXED_QUORUM_VERSION else LEGACY_BLS_INDEXED_QUORUM_VERSION
  else
    if is_basic_scheme_active then BASIC_BLS_NON_INDEXED_QUORUM_VERSION
    else LEGACY_BLS_NON_INDEXED_QUORUM_VERSION

def IsIndexedVersion (nVersion : UInt16) : Bool :=
  nVersion == LEGACY_BLS_INDEXED_QUORUM_VERSION || nVersion == BASIC_BLS_INDEXED_QUORUM_VERSION

def IsLegacyVersion (nVersion : UInt16) : Bool :=
  nVersion == LEGACY_BLS_NON_INDEXED_QUORUM_VERSION || nVersion == LEGACY_BLS_INDEXED_QUORUM_VERSION

/-- A commitment with no signer, no valid member, and no key, hash or signature set. -/
def IsNull (P : Primitives) (DecodesSig : BitVec 768 → Bool) (c : CFinalCommitment) : Bool :=
  c.signers.count true == 0 && c.validMembers.count true == 0 &&
    !c.quorumPublicKey.IsValid P (IsLegacyVersion c.nVersion) && c.quorumVvecHash == 0 &&
    !c.membersSig.IsValid DecodesSig && !c.quorumSig.IsValid DecodesSig

end CFinalCommitment

structure CFinalCommitmentTxPayload where
  nVersion : UInt16 := 1
  nHeight : UInt32 := 0xFFFFFFFF
  commitment : CFinalCommitment := {}
deriving DecidableEq, Repr

end DashCore
