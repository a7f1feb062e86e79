import DashCore.Evo.MNList
import DashCore.Serialize.Ints

/-! The simplified masternode list diff a node sends to light clients (evo/simplifiedmns.h,
`CDeterministicMNList::BuildSimplifiedDiff`). An entry's layout on the wire depends on its
mem-only `nVersion`: the scheme of the operator key, and whether `nType` and the platform fields
follow. `BuildSimplifiedDiff` gives every entry the diff's version, but only the diff's version
is written, and the vector reader reads each entry into a default-constructed one, whose
`nVersion` is `LEGACY_BLS_VERSION`. The partial merkle tree, the coinbase transaction and the
final commitments are carried with the serializers of their own classes, and the operator key
with its lazy wrapper. -/
namespace DashCore

open ByteReader

def LEGACY_BLS_VERSION : UInt16 := 1
def BASIC_BLS_VERSION : UInt16 := 2

def BLS_SCHEME_PROTO_VERSION : Nat := 70225
def DMN_TYPE_PROTO_VERSION : Nat := 70227

/-- What a serializer reads of its stream: whether `s.GetType()` has `SER_NETWORK`, and
`s.GetVersion()`. -/
structure StreamFlags where
  network : Bool
  version : Nat

def MnType.toUInt16 : MnType → UInt16
  | .Regular => 0
  | .HighPerformance => 1

/-- The serializers this model takes from the rest of the code base: those of
`CPartialMerkleTree`, `CTransaction` and `CFinalCommitment`, and the BLS library the operator
key is written with. -/
structure Serializers (Tree Tx Qc : Type) where
  cbTxMerkleTree : Codec Tree
  cbTx : Codec Tx
  finalCommitment : Codec Qc
  P : Primitives

namespace CService

def Serialize (a : CService) : List UInt8 := SerializeBlobBE 16 a.ip ++ SerializeBlobBE 2 a.port.toBitVec

def Unserialize : Reader CService := do
  let ip ← UnserializeBlobBE 128 16
  let port ← UnserializeBlobBE 16 2
  pure { ip, port := UInt16.ofBitVec port }

theorem Unserialize_reads_back (a : CService) : ReadsBack Serialize Unserialize a := by
  intro rest
  rw [Serialize, List.append_assoc, Unserialize, (UnserializeBlobBE_reads_back (by decide) _).bind,
    (UnserializeBlobBE_reads_back (by decide) _).bind]
  rfl

end CService

structure CSimplifiedMNListEntry where
  proRegTxHash : uint256 := 0
  confirmedHash : uint256 := 0
  service : CService := {}
  pubKeyOperator : CBLSLazyPublicKey := default
  keyIDVoting : CKeyID := 0
  isValid : Bool := false
  nType : UInt16 := MnType.Regular.toUInt16
  platformHTTPPort : UInt16 := 0
  platformNodeID : uint160 := 0
  scriptPayout : CScript := []
  scriptOperatorPayout : CScript := []
  nVersion : UInt16 := LEGACY_BLS_VERSION
deriving DecidableEq, Repr

instance : Inhabited CSimplifiedMNListEntry := ⟨{}⟩

namespace CSimplifiedMNListEntry

def ofCDeterministicMN (dmn : CDeterministicMN) : CSimplifiedMNListEntry where
  proRegTxHash := dmn.proTxHash
  confirmedHash := dmn.pdmnState.confirmedHash
  service := dmn.pdmnState.addr
  pubKeyOperator := dmn.pdmnState.pubKeyOperator
  keyIDVoting := dmn.pdmnState.keyIDVoting
  isValid := !dmn.pdmnState.IsBanned
  scriptPayout := dmn.pdmnState.scriptPayout
  scriptOperatorPayout := dmn.pdmnState.scriptOperatorPayout
  nType := dmn.nType.toUInt16
  platformHTTPPort := dmn.pdmnState.platformHTTPPort
  platformNodeID := dmn.pdmnState.platformNodeID

def Equals (a b : CSimplifiedMNListEntry) : Bool :=
  a.proRegTxHash == b.proRegTxHash && a.confirmedHash == b.confirmedHash &&
    a.service == b.service && a.pubKeyOperator == b.pubKeyOperator &&
    a.keyIDVoting == b.keyIDVoting && a.isValid == b.isValid && a.nVersion == b.nVersion &&
    a.nType == b.nType && a.platformHTTPPort == b.platformHTTPPort &&
    a.platformNodeID == b.platformNodeID

variable {Tree Tx Qc : Type} (S : Serializers Tree Tx Qc) (st : StreamFlags)

/-- Whether the stream stops an entry after `isValid`: a network stream older than
`DMN_TYPE_PROTO_VERSION`. -/
def StopsAtIsValid : Bool := st.network && decide (st.version < DMN_TYPE_PROTO_VERSION)

/-- The six fields every layout starts with, the key in the scheme of the entry's own
`nVersion`. -/
def SerializeCommon (obj : CSimplifiedMNListEntry) : List UInt8 :=
  SerializeBlob 32 obj.proRegTxHash ++ SerializeBlob 32 obj.confirmedHash ++
    obj.service.Serialize ++
    SerializeBlobBE 48 (obj.pubKeyOperator.Serialize S.P (obj.nVersion == LEGACY_BLS_VERSION)).1 ++
    SerializeBlob 20 obj.keyIDVoting ++ SerializeBool obj.isValid

/-- What follows `isValid`: for `BASIC_BLS_VERSION` the type, with the platform fields of a
high-performance masternode. -/
def SerializeTail (obj : CSimplifiedMNListEntry) : List UInt8 :=
  if StopsAtIsValid st then []
  else if obj.nVersion == BASIC_BLS_VERSION then
    SerializeUInt16 obj.nType ++
      if obj.nType == MnType.HighPerformance.toUInt16 then
        SerializeUInt16 obj.platformHTTPPort ++ SerializeBlob 20 obj.platformNodeID
      else []
  else []

def Serialize (obj : CSimplifiedMNListEntry) : List UInt8 := SerializeCommon S obj ++ SerializeTail st obj

/-- `SERIALIZE_METHODS` reading into `obj`, whose `nVersion` picks the layout and the scheme the
lazy key keeps its bytes in. -/
def Unserialize (obj : CSimplifiedMNListEntry) : Reader CSimplifiedMNListEntry := do
  let proRegTxHash ← UnserializeBlob 256 32
  let confirmedHash ← UnserializeBlob 256 32
  let service ← CService.Unserialize
  let vecBytes ← UnserializeBlobBE 384 48
  let keyIDVoting ← UnserializeBlob 160 20
  let isValid ← UnserializeBool
  let obj := { obj with proRegTxHash, confirmedHash, service,
                        pubKeyOperator := .buffer vecBytes (obj.nVersion == LEGACY_BLS_VERSION),
                        keyIDVoting, isValid }
  if StopsAtIsValid st then return obj
  if obj.nVersion == BASIC_BLS_VERSION then
    let nType ← UnserializeUInt16
    if nType == MnType.HighPerformance.toUInt16 then
      let platformHTTPPort ← UnserializeUInt16
      let platformNodeID ← UnserializeBlob 160 20
      return { obj with nType, platformHTTPPort, platformNodeID }
    return { obj with nType }
  return obj

end CSimplifiedMNListEntry

structure CSimplifiedMNListDiff (Tree Tx Qc : Type) where
  baseBlockHash : uint256 := 0
  blockHash : uint256 := 0
  cbTxMerkleTree : Tree
  cbTx : Tx
  deletedMNs : List uint256 := []
  mnList : List CSimplifiedMNListEntry := []
  nVersion : UInt16 := LEGACY_BLS_VERSION
  /-- `(LLMQType, quorumHash)` pairs. -/
  deletedQuorums : List (UInt8 × uint256) := []
  newQuorums : List Qc := []

instance {Tree Tx Qc : Type} [Inhabited Tree] [Inhabited Tx] :
    Inhabited (CSimplifiedMNListDiff Tree Tx Qc) :=
  ⟨{ cbTxMerkleTree := default, cbTx := default }⟩

namespace CSimplifiedMNListDiff

variable {Tree Tx Qc : Type} (S : Serializers Tree Tx Qc) (st : StreamFlags)

/-- Whether the diff's own `nVersion` is on the wire: a network stream of
`BLS_SCHEME_PROTO_VERSION` or later. -/
def HasVersion : Bool := st.network && decide (BLS_SCHEME_PROTO_VERSION ≤ st.version)

def SerializeQuorumRef (p : UInt8 × uint256) : List UInt8 := ser_writedata8 p.1 ++ SerializeBlob 32 p.2

def UnserializeQuorumRef : Reader (UInt8 × uint256) := do
  let llmqType ← ser_readdata8
  let quorumHash ← UnserializeBlob 256 32
  pure (llmqType, quorumHash)

def Serialize (obj : CSimplifiedMNListDiff Tree Tx Qc) : List UInt8 :=
  SerializeBlob 32 obj.baseBlockHash ++ SerializeBlob 32 obj.blockHash ++
    S.cbTxMerkleTree.write obj.cbTxMerkleTree ++ S.cbTx.write obj.cbTx ++
    (if HasVersion st then SerializeUInt16 obj.nVersion else []) ++
    WriteVector (SerializeBlob 32) obj.deletedMNs ++
    WriteVector (CSimplifiedMNListEntry.Serialize S st) obj.mnList ++
    WriteVector SerializeQuorumRef obj.deletedQuorums ++
    WriteVector S.finalCommitment.write obj.newQuorums

/-- Reading into `obj`: its `nVersion` stays when the stream does not carry one, and each entry
is read into a default-constructed `CSimplifiedMNListEntry`. -/
def Unserialize (obj : CSimplifiedMNListDiff Tree Tx Qc) :
    Reader (CSimplifiedMNListDiff Tree Tx Qc) := do
  let baseBlockHash ← UnserializeBlob 256 32
  let blockHash ← UnserializeBlob 256 32
  let cbTxMerkleTree ← S.cbTxMerkleTree.read
  let cbTx ← S.cbTx.read
  let nVersion ← (if HasVersion st then UnserializeUInt16 else pure obj.nVersion : Reader UInt16)
  let deletedMNs ← ReadVector (UnserializeBlob 256 32)
  let mnList ← ReadVector (CSimplifiedMNListEntry.Unserialize st default)
  let deletedQuorums ← ReadVector UnserializeQuorumRef
  let newQuorums ← ReadVector S.finalCommitment.read
  pure { baseBlockHash, blockHash, cbTxMerkleTree, cbTx, nVersion, deletedMNs, mnList,
         deletedQuorums, newQuorums }

end CSimplifiedMNListDiff

namespace CDeterministicMNList

variable {Tree Tx Qc : Type} [Inhabited Tree] [Inhabited Tx]

/-- `BuildSimplifiedDiff(to, extended)` from the list `s` to `to'`, with `IsV19Active` at the tip: an entry
for each masternode of `to'` that is new or whose entry changed, and the proTxHash of each one
`to'` no longer has. The maps are walked in the order of their entries. -/
def BuildSimplifiedDiff (v19active : Bool) (s to' : CDeterministicMNList) (extended : Bool) :
    CSimplifiedMNListDiff Tree Tx Qc :=
  let nVersion := if v19active then BASIC_BLS_VERSION else LEGACY_BLS_VERSION
  let mnList := to'.mnMap.entries.filterMap fun ⟨_, toPtr⟩ =>
    let sme1 := { CSimplifiedMNListEntry.ofCDeterministicMN toPtr with nVersion }
    match s.GetMN toPtr.proTxHash with
    | none => some sme1
    | some fromPtr =>
      let sme2 := { CSimplifiedMNListEntry.ofCDeterministicMN fromPtr with nVersion }
      if !sme1.Equals sme2 ||
          (extended && (sme1.scriptPayout != sme2.scriptPayout ||
            sme1.scriptOperatorPayout != sme2.scriptOperatorPayout)) then some sme1
      else none
  let deletedMNs := s.mnMap.entries.filterMap fun ⟨_, fromPtr⟩ =>
    if (to'.GetMN fromPtr.proTxHash).isNone then some fromPtr.proTxHash else none
  { baseBlockHash := s.blockHash, blockHash := to'.blockHash, cbTxMerkleTree := default,
    cbTx := default, nVersion, mnList, deletedMNs }

end CDeterministicMNList

namespace CSimplifiedMNListEntry

variable {Tree Tx Qc : Type} (S : Serializers Tree Tx Qc) (st : StreamFlags)

/-- What a reader into `obj` takes from an entry written as `e` before the fields that depend on
the version: the six fields every layout starts with, the key as the bytes written. -/
def ReadCommon (obj e : CSimplifiedMNListEntry) : CSimplifiedMNListEntry :=
  { obj with
    proRegTxHash := e.proRegTxHash
    confirmedHash := e.confirmedHash
    service := e.service
    pubKeyOperator := .buffer (e.pubKeyOperator.Serialize S.P (e.nVersion == LEGACY_BLS_VERSION)).1
      (obj.nVersion == LEGACY_BLS_VERSION)
    keyIDVoting := e.keyIDVoting
    isValid := e.isValid }

theorem Unserialize_Serialize_of_not_basic (obj : CSimplifiedMNListEntry)
    (hv : obj.nVersion ≠ BASIC_BLS_VERSION ∨ StopsAtIsValid st = true)
    (e : CSimplifiedMNListEntry) (rest : List UInt8) :
    (Unserialize st obj).run (Serialize S st e ++ rest) =
      .ok (ReadCommon S obj e, SerializeTail st e ++ rest) := by
  simp only [Serialize, SerializeCommon, List.append_assoc, Unserialize]
  rw [(UnserializeBlob_reads_back (by decide) _).bind, (UnserializeBlob_reads_back (by decide) _).bind,
    (CService.Unserialize_reads_back _).bind, (UnserializeBlobBE_reads_back (by decide) _).bind,
    (UnserializeBlob_reads_back (by decide) _).bind, (UnserializeBool_reads_back _).bind]
  by_cases hs : StopsAtIsValid st = true
  · simp only [hs, if_true]
    rfl
  · have hn : obj.nVersion ≠ BASIC_BLS_VERSION := hv.resolve_right hs
    simp only [hs, hn, beq_iff_eq, Bool.false_eq_true, if_false]
    rfl

theorem Unserialize_reads_as_of_not_basic {e : CSimplifiedMNListEntry}
    (he : e.nVersion ≠ BASIC_BLS_VERSION) :
    ReadsAs (Serialize S st) (Unserialize st default) e (ReadCommon S default e) := by
  intro rest
  have htail : SerializeTail st e = [] := by
    simp [SerializeTail, he]
  rw [Unserialize_Serialize_of_not_basic S st default (.inl (by decide)), htail, List.nil_append]

end CSimplifiedMNListEntry

namespace CDeterministicMNList

variable {Tree Tx Qc : Type} [Inhabited Tree] [Inhabited Tx]

theorem BuildSimplifiedDiff_entry_nVersion (v19active : Bool) (s to' : CDeterministicMNList)
    (extended : Bool) {e : CSimplifiedMNListEntry}
    (he : e ∈ (BuildSimplifiedDiff v19active s to' extended : CSimplifiedMNListDiff Tree Tx Qc).mnList) :
    e.nVersion =
      (BuildSimplifiedDiff v19active s to' extended : CSimplifiedMNListDiff Tree Tx Qc).nVersion := by
  simp only [BuildSimplifiedDiff, List.mem_filterMap] at he ⊢
  obtain ⟨⟨_, toPtr⟩, -, h⟩ := he
  generalize (if v19active then BASIC_BLS_VERSION else LEGACY_BLS_VERSION) = nVersion at h ⊢
  split at h
  · cases h
    rfl
  · split_ifs at h
    cases h
    rfl

end CDeterministicMNList

namespace CSimplifiedMNListDiff

variable {Tree Tx Qc : Type} (S : Serializers Tree Tx Qc) (st : StreamFlags)

theorem Unserialize_Serialize_basic_regular (hTree : RoundTrip S.cbTxMerkleTree)
    (hTx : RoundTrip S.cbTx) (hst : HasVersion st = true)
    (hstop : CSimplifiedMNListEntry.StopsAtIsValid st = false)
    {d : CSimplifiedMNListDiff Tree Tx Qc} {e : CSimplifiedMNListEntry}
    (hmn : d.mnList = [e]) (he : e.nVersion = BASIC_BLS_VERSION)
    (hreg : e.nType = MnType.Regular.toUInt16) (hdel : d.deletedMNs.length ≤ MAX_SIZE)
    (hdq : d.deletedQuorums = []) (hnq : d.newQuorums = [])
    (obj : CSimplifiedMNListDiff Tree Tx Qc) (rest : List UInt8) :
    (Unserialize S st obj).run (Serialize S st d ++ rest) =
      .ok ({ d with mnList := [CSimplifiedMNListEntry.ReadCommon S default e] }, [0, 0] ++ rest) := by
  have htail : CSimplifiedMNListEntry.SerializeTail st e = [0, 0] := by
    simp [CSimplifiedMNListEntry.SerializeTail, hstop, he, hreg, BASIC_BLS_VERSION, MnType.toUInt16]
    rfl
  have hentry := CSimplifiedMNListEntry.Unserialize_Serialize_of_not_basic S st default
    (.inl (by decide)) e ([0] ++ ([0] ++ rest))
  rw [htail] at hentry
  simp only [Serialize, Unserialize, hmn, hdq, hnq, hst, if_true, List.append_assoc, WriteVector_nil]
  rw [(UnserializeBlob_reads_back (by decide) _).bind, (UnserializeBlob_reads_back (by decide) _).bind,
    (hTree _).bind, (hTx _).bind, (UnserializeUInt16_reads_back _).bind,
    (ReadVector_reads_back hdel fun a _ => UnserializeBlob_reads_back (by decide) a).bind,
    run_bind_of_ok (ReadVector_singleton hentry)]
  simp only [List.cons_append, List.nil_append]
  rw [run_bind_of_ok (ReadVector_zero _ _), run_bind_of_ok (ReadVector_zero _ _)]
  rfl

theorem UnserializeQuorumRef_reads_back (p : UInt8 × uint256) :
    ReadsBack SerializeQuorumRef UnserializeQuorumRef p := by
  intro rest
  rw [SerializeQuorumRef, ser_writedata8, List.singleton_append, List.cons_append,
    UnserializeQuorumRef, run_bind_of_ok (ser_readdata8_cons _ _),
    (UnserializeBlob_reads_back (by decide) _).bind]
  rfl

theorem Unserialize_Serialize_of_not_basic (hTree : RoundTrip S.cbTxMerkleTree)
    (hTx : RoundTrip S.cbTx) (hst : HasVersion st = true) {d : CSimplifiedMNListDiff Tree Tx Qc}
    (hQc : ∀ q ∈ d.newQuorums, ReadsBack S.finalCommitment.write S.finalCommitment.read q)
    (he : ∀ e ∈ d.mnList, e.nVersion ≠ BASIC_BLS_VERSION)
    (hdel : d.deletedMNs.length ≤ MAX_SIZE) (hmn : d.mnList.length ≤ MAX_SIZE)
    (hdq : d.deletedQuorums.length ≤ MAX_SIZE) (hnq : d.newQuorums.length ≤ MAX_SIZE)
    (obj : CSimplifiedMNListDiff Tree Tx Qc) (rest : List UInt8) :
    (Unserialize S st obj).run (Serialize S st d ++ rest) =
      .ok ({ d with mnList := d.mnList.map (CSimplifiedMNListEntry.ReadCommon S default) }, rest) := by
  simp only [Serialize, Unserialize, hst, if_true, List.append_assoc]
  rw [(UnserializeBlob_reads_back (by decide) _).bind, (UnserializeBlob_reads_back (by decide) _).bind,
    (hTree _).bind, (hTx _).bind, (UnserializeUInt16_reads_back _).bind,
    (ReadVector_reads_back hdel fun a _ => UnserializeBlob_reads_back (by decide) a).bind,
    (ReadVector_reads_as hmn fun e h =>
      CSimplifiedMNListEntry.Unserialize_reads_as_of_not_basic S st (he e h)).bind,
    (ReadVector_reads_back hdq fun p _ => UnserializeQuorumRef_reads_back p).bind,
    (ReadVector_reads_back hnq hQc).bind]
  rfl

end CSimplifiedMNListDiff

namespace CDeterministicMNList

variable {Tree Tx Qc : Type} [Inhabited Tree] [Inhabited Tx] (S : Serializers Tree Tx Qc)
  (st : StreamFlags)

/-- Once v19 is active, every diff `BuildSimplifiedDiff` builds with a single entry, a regular
masternode's, and sent with its merkle tree and coinbase transaction on a network stream of
`DMN_TYPE_PROTO_VERSION` or later, is read back with two of its bytes left over: the entry's
`nType`, which the reader of a default-constructed entry does not expect. -/
theorem BuildSimplifiedDiff_Unserialize_leaves_nType (hTree : RoundTrip S.cbTxMerkleTree)
    (hTx : RoundTrip S.cbTx) (hnet : st.network = true) (hver : DMN_TYPE_PROTO_VERSION ≤ st.version)
    (s to' : CDeterministicMNList) (extended : Bool) {e : CSimplifiedMNListEntry}
    (hmn : (BuildSimplifiedDiff true s to' extended : CSimplifiedMNListDiff Tree Tx Qc).mnList = [e])
    (hreg : e.nType = MnType.Regular.toUInt16)
    (hdel : (BuildSimplifiedDiff true s to' extended : CSimplifiedMNListDiff Tree Tx Qc).deletedMNs.length
      ≤ MAX_SIZE)
    (t : Tree) (x : Tx) (obj : CSimplifiedMNListDiff Tree Tx Qc) (rest : List UInt8) :
    let d := { (BuildSimplifiedDiff true s to' extended : CSimplifiedMNListDiff Tree Tx Qc) with
      cbTxMerkleTree := t, cbTx := x }
    (CSimplifiedMNListDiff.Unserialize S st obj).run (CSimplifiedMNListDiff.Serialize S st d ++ rest) =
      .ok ({ d with mnList := [CSimplifiedMNListEntry.ReadCommon S default e] }, [0, 0] ++ rest) := by
  intro d
  have he : e.nVersion = BASIC_BLS_VERSION :=
    BuildSimplifiedDiff_entry_nVersion true s to' extended (hmn ▸ List.mem_singleton_self e)
  have hst : CSimplifiedMNListDiff.HasVersion st = true := by
    unfold CSimplifiedMNListDiff.HasVersion BLS_SCHEME_PROTO_VERSION
    unfold DMN_TYPE_PROTO_VERSION at hver
    simp only [hnet, Bool.true_and, decide_eq_true_eq]
    omega
  have hstop : CSimplifiedMNListEntry.StopsAtIsValid st = false := by
    simp [CSimplifiedMNListEntry.StopsAtIsValid, hver]
  have hmn' : d.mnList = [e] := hmn
  have hdel' : d.deletedMNs.length ≤ MAX_SIZE := hdel
  have hdq : d.deletedQuorums = [] := rfl
  have hnq : d.newQuorums = [] := rfl
  exact CSimplifiedMNListDiff.Unserialize_Serialize_basic_regular S st hTree hTx hst hstop hmn' he
    hreg hdel' hdq hnq obj rest

theorem BuildSimplifiedDiff_Unserialize_legacy (hTree : RoundTrip S.cbTxMerkleTree)
    (hTx : RoundTrip S.cbTx) (hnet : st.network = true) (hver : BLS_SCHEME_PROTO_VERSION ≤ st.version)
    (s to' : CDeterministicMNList) (extended : Bool)
    (hdel : (BuildSimplifiedDiff false s to' extended : CSimplifiedMNListDiff Tree Tx Qc).deletedMNs.length
      ≤ MAX_SIZE)
    (hmn : (BuildSimplifiedDiff false s to' extended : CSimplifiedMNListDiff Tree Tx Qc).mnList.length
      ≤ MAX_SIZE)
    (t : Tree) (x : Tx) (obj : CSimplifiedMNListDiff Tree Tx Qc) (rest : List UInt8) :
    let d := { (BuildSimplifiedDiff false s to' extended : CSimplifiedMNListDiff Tree Tx Qc) with
      cbTxMerkleTree := t, cbTx := x }
    (CSimplifiedMNListDiff.Unserialize S st obj).run (CSimplifiedMNListDiff.Serialize S st d ++ rest) =
      .ok ({ d with mnList := d.mnList.map (CSimplifiedMNListEntry.ReadCommon S default) }, rest) := by
  intro d
  have hst : CSimplifiedMNListDiff.HasVersion st = true := by
    simp [CSimplifiedMNListDiff.HasVersion, hnet, hver]
  have he : ∀ e ∈ d.mnList, e.nVersion ≠ BASIC_BLS_VERSION := fun e h => by
    have hv : e.nVersion = LEGACY_BLS_VERSION :=
      @BuildSimplifiedDiff_entry_nVersion Tree Tx Qc _ _ false s to' extended e h
    rw [hv]
    decide
  have hQc : ∀ q ∈ d.newQuorums, ReadsBack S.finalCommitment.write S.finalCommitment.read q :=
    fun q h => absurd h List.not_mem_nil
  exact CSimplifiedMNListDiff.Unserialize_Serialize_of_not_basic S st hTree hTx hst hQc he hdel hmn
    (by simp [d, BuildSimplifiedDiff, MAX_SIZE]) (by simp [d, BuildSimplifiedDiff, MAX_SIZE]) obj rest

end CDeterministicMNList

/-- Serializers that write nothing for the merkle tree, the coinbase transaction and the
commitments, with the key library of `bytesPrimitives`. -/
def unitSerializers : Serializers Unit Unit Unit where
  cbTxMerkleTree := ⟨fun _ => [], pure ()⟩
  cbTx := ⟨fun _ => [], pure ()⟩
  finalCommitment := ⟨fun _ => [], pure ()⟩
  P := bytesPrimitives

def oneRegularMN : CDeterministicMNList where
  mnMap := (∅ : MnMap).insert 7
    { internalId := 0
      proTxHash := 7
      collateralOutpoint := {}
      pdmnState := {} }

theorem BuildSimplifiedDiff_Unserialize_leaves_nType_of_one_mn :
    let d := { (CDeterministicMNList.BuildSimplifiedDiff true {} oneRegularMN false :
      CSimplifiedMNListDiff Unit Unit Unit) with cbTxMerkleTree := (), cbTx := () }
    (CSimplifiedMNListDiff.Unserialize unitSerializers ⟨true, 70227⟩ d).run
        (CSimplifiedMNListDiff.Serialize unitSerializers ⟨true, 70227⟩ d ++ []) =
      .ok ({ d with mnList := [CSimplifiedMNListEntry.ReadCommon unitSerializers default
        { proRegTxHash := 7, isValid := true, nVersion := BASIC_BLS_VERSION }] }, [0, 0] ++ []) :=
  CDeterministicMNList.BuildSimplifiedDiff_Unserialize_leaves_nType unitSerializers ⟨true, 70227⟩
    (fun _ _ => rfl) (fun _ _ => rfl) rfl (Nat.le_refl _) {} oneRegularMN false rfl rfl
    (by decide) () () _ []

end DashCore
