import DashCore.Llmq.Commitment
import DashCore.Serialize.BitSet

/-! The wire format of a final commitment (llmq/commitment.h, `SERIALIZE_METHODS`). The layout
depends on `nVersion` twice: the indexed versions carry `quorumIndex`, and the legacy versions
write the quorum key and both signatures in the legacy BLS scheme. The BLS wrapper (bls/bls.h)
reads a buffer in the scheme it is asked for and checks that the object writes back to the same
bytes; a buffer canonical only in the other scheme is read and then reset to the null object,
and one canonical in neither throws. The model holds a key or signature as its bytes in the
scheme of its commitment's version, which is what the wrapper writes.

A commitment reads back from its bytes exactly when it is `Encodable`: its bitsets pass the
range check of `ReadCompactSize`, it has no index where its version writes none, and each BLS
field is null or canonical in its version's scheme. -/
namespace DashCore

open ByteReader

/-- What the BLS wrapper asks of the library for a buffer: whether `FromBytes` in the legacy
(`true`) or the basic scheme reads it as a key or signature whose `Serialize` in that scheme
gives the same bytes, the comparison of `CheckMalleable`. -/
structure BLSLibrary where
  PubKeyCanonical : Bool → BitVec 384 → Bool
  SignatureCanonical : Bool → BitVec 768 → Bool

namespace CBLSWrapper

variable {w : Nat}

/-- `CBLSWrapper::Serialize(s, specificLegacyScheme)`: the `SerSize` bytes of the object,
all zero for the null object. -/
def Serialize (SerSize : Nat) (vecBytes : BitVec w) : List UInt8 := SerializeBlobBE SerSize vecBytes

/-- `CBLSWrapper::Unserialize(s, specificLegacyScheme)`, with its malleability check. -/
def Unserialize (SerSize : Nat) (Canonical : Bool → BitVec w → Bool)
    (specificLegacyScheme : Bool) : Reader (BitVec w) := do
  let vecBytes ← UnserializeBlobBE w SerSize
  -- `SetByteVector` resets the object on the all-zero buffer, which then writes back as zeros
  if vecBytes = 0 then pure 0
  else if Canonical specificLegacyScheme vecBytes then pure vecBytes
  -- the second `SetByteVector`, in the other scheme: canonical there, the object is reset
  else if Canonical (!specificLegacyScheme) vecBytes then pure 0
  else throw "malleable BLS object"

/-- The buffers a wrapper holds in a scheme: the null object's, and the canonical ones. -/
def NullOrCanonical (Canonical : Bool → BitVec w → Bool) (legacy : Bool) (v : BitVec w) : Prop :=
  v = 0 ∨ Canonical legacy v = true

instance (Canonical : Bool → BitVec w → Bool) (legacy : Bool) (v : BitVec w) :
    Decidable (NullOrCanonical Canonical legacy v) :=
  inferInstanceAs (Decidable (v = 0 ∨ Canonical legacy v = true))

theorem Unserialize_reads_back (SerSize : Nat) (h : w ≤ 8 * SerSize)
    {Canonical : Bool → BitVec w → Bool} {legacy : Bool} {v : BitVec w}
    (hv : NullOrCanonical Canonical legacy v) :
    ReadsBack (Serialize SerSize) (Unserialize SerSize Canonical legacy) v := by
  intro rest
  rw [Serialize, Unserialize, (UnserializeBlobBE_reads_back h v).bind]
  by_cases h0 : v = 0
  · subst h0
    rfl
  · have hc : Canonical legacy v = true := hv.resolve_left h0
    simp only [if_neg h0, if_pos hc]
    rfl

theorem Unserialize_of_other_scheme (SerSize : Nat) (h : w ≤ 8 * SerSize)
    {Canonical : Bool → BitVec w → Bool} {legacy : Bool} {v : BitVec w} (h0 : v ≠ 0)
    (hc : Canonical legacy v = false) (hother : Canonical (!legacy) v = true) :
    ReadsAs (Serialize SerSize) (Unserialize SerSize Canonical legacy) v 0 := by
  intro rest
  rw [Serialize, Unserialize, (UnserializeBlobBE_reads_back h v).bind]
  simp only [if_neg h0, hc, hother]
  rfl

theorem Unserialize_ensures (SerSize : Nat) (Canonical : Bool → BitVec w → Bool) (legacy : Bool) :
    Ensures (Unserialize SerSize Canonical legacy) (NullOrCanonical Canonical legacy) := by
  unfold Unserialize
  refine Ensures.bind_any fun vecBytes => ?_
  split_ifs with h0 hc
  · exact Ensures.pure (.inl rfl)
  · exact Ensures.pure (.inr hc)
  · exact Ensures.pure (.inl rfl)
  · intro s s' a h
    cases h

end CBLSWrapper

namespace CFinalCommitment

open CBLSWrapper

def Serialize (c : CFinalCommitment) : List UInt8 :=
  SerializeUInt16 c.nVersion ++ ser_writedata8 c.llmqType ++ SerializeBlob 32 c.quorumHash ++
    (if IsIndexedVersion c.nVersion then SerializeInt16 c.quorumIndex else []) ++
    WriteDynBitSet c.signers ++ WriteDynBitSet c.validMembers ++
    CBLSWrapper.Serialize 48 c.quorumPublicKey.vecBytes ++ SerializeBlob 32 c.quorumVvecHash ++
    CBLSWrapper.Serialize 96 c.quorumSig.vecBytes ++ CBLSWrapper.Serialize 96 c.membersSig.vecBytes

/-- `SERIALIZE_METHODS(CFinalCommitment, obj)`, reading into `obj`: a version without an index
leaves the index `obj` had. -/
def Unserialize (lib : BLSLibrary) (obj : CFinalCommitment) : Reader CFinalCommitment := do
  let nVersion ← UnserializeUInt16
  let llmqType ← ser_readdata8
  let quorumHash ← UnserializeBlob 256 32
  let quorumIndex ← (if IsIndexedVersion nVersion then UnserializeInt16 else pure obj.quorumIndex)
  let signers ← ReadDynBitSet
  let validMembers ← ReadDynBitSet
  let legacy := IsLegacyVersion nVersion
  let quorumPublicKey ← CBLSWrapper.Unserialize 48 lib.PubKeyCanonical legacy
  let quorumVvecHash ← UnserializeBlob 256 32
  let quorumSig ← CBLSWrapper.Unserialize 96 lib.SignatureCanonical legacy
  let membersSig ← CBLSWrapper.Unserialize 96 lib.SignatureCanonical legacy
  pure {
    nVersion := nVersion
    llmqType := llmqType
    quorumHash := quorumHash
    quorumIndex := quorumIndex
    signers := signers
    validMembers := validMembers
    quorumPublicKey := ⟨quorumPublicKey⟩
    quorumVvecHash := quorumVvecHash
    quorumSig := ⟨quorumSig⟩
    membersSig := ⟨membersSig⟩ }

structure Encodable (lib : BLSLibrary) (c : CFinalCommitment) : Prop where
  quorumIndex_eq : IsIndexedVersion c.nVersion = false → c.quorumIndex = 0
  signers_le : c.signers.length ≤ MAX_SIZE
  validMembers_le : c.validMembers.length ≤ MAX_SIZE
  quorumPublicKey :
    NullOrCanonical lib.PubKeyCanonical (IsLegacyVersion c.nVersion) c.quorumPublicKey.vecBytes
  quorumSig : NullOrCanonical lib.SignatureCanonical (IsLegacyVersion c.nVersion) c.quorumSig.vecBytes
  membersSig :
    NullOrCanonical lib.SignatureCanonical (IsLegacyVersion c.nVersion) c.membersSig.vecBytes

theorem encodable_iff (lib : BLSLibrary) (c : CFinalCommitment) :
    Encodable lib c ↔ (IsIndexedVersion c.nVersion = false → c.quorumIndex = 0) ∧
      c.signers.length ≤ MAX_SIZE ∧ c.validMembers.length ≤ MAX_SIZE ∧
      NullOrCanonical lib.PubKeyCanonical (IsLegacyVersion c.nVersion) c.quorumPublicKey.vecBytes ∧
      NullOrCanonical lib.SignatureCanonical (IsLegacyVersion c.nVersion) c.quorumSig.vecBytes ∧
      NullOrCanonical lib.SignatureCanonical (IsLegacyVersion c.nVersion) c.membersSig.vecBytes :=
  ⟨fun h => ⟨h.1, h.2, h.3, h.4, h.5, h.6⟩, fun h => ⟨h.1, h.2.1, h.2.2.1, h.2.2.2.1, h.2.2.2.2.1,
    h.2.2.2.2.2⟩⟩

instance (lib : BLSLibrary) (c : CFinalCommitment) : Decidable (Encodable lib c) :=
  decidable_of_iff _ (encodable_iff lib c).symm

theorem Unserialize_reads_back {lib : BLSLibrary} {c : CFinalCommitment} (h : Encodable lib c) :
    ReadsBack Serialize (Unserialize lib {}) c := by
  intro rest
  have hindex : ∀ rest', (if IsIndexedVersion c.nVersion then UnserializeInt16
      else pure ({} : CFinalCommitment).quorumIndex).run
      ((if IsIndexedVersion c.nVersion then SerializeInt16 c.quorumIndex else []) ++ rest') =
      .ok (c.quorumIndex, rest') := by
    intro rest'
    cases hidx : IsIndexedVersion c.nVersion
    · rw [h.quorumIndex_eq hidx]
      rfl
    · exact UnserializeInt16_reads_back _ rest'
  have hpk := CBLSWrapper.Unserialize_reads_back 48 (by decide) h.quorumPublicKey
  have hqs := CBLSWrapper.Unserialize_reads_back 96 (by decide) h.quorumSig
  have hms := CBLSWrapper.Unserialize_reads_back 96 (by decide) h.membersSig
  simp only [Serialize, Unserialize, List.append_assoc]
  rw [(UnserializeUInt16_reads_back _).bind, ser_writedata8, List.singleton_append,
    run_bind_of_ok (ser_readdata8_cons _ _), (UnserializeBlob_reads_back (by decide) _).bind,
    run_bind_of_ok (hindex _), (ReadDynBitSet_reads_back h.signers_le).bind,
    (ReadDynBitSet_reads_back h.validMembers_le).bind, hpk.bind,
    (UnserializeBlob_reads_back (by decide) _).bind, hqs.bind, hms.bind]
  rfl

theorem Unserialize_ensures (lib : BLSLibrary) : Ensures (Unserialize lib {}) (Encodable lib) := by
  unfold Unserialize
  refine Ensures.bind_any fun nVersion => Ensures.bind_any fun llmqType =>
    Ensures.bind_any fun quorumHash => ?_
  refine Ensures.bind (Q := fun qi => IsIndexedVersion nVersion = false → qi = 0) ?_
    fun quorumIndex hidx => ?_
  · split_ifs with h
    · intro s s' qi _ hf
      rw [h] at hf
      cases hf
    · exact Ensures.pure fun _ => rfl
  exact Ensures.bind Ensures.ReadDynBitSet fun signers hs =>
    Ensures.bind Ensures.ReadDynBitSet fun validMembers hv =>
    Ensures.bind (CBLSWrapper.Unserialize_ensures _ _ _) fun _ hpk =>
    Ensures.bind_any fun _ =>
    Ensures.bind (CBLSWrapper.Unserialize_ensures _ _ _) fun _ hqs =>
    Ensures.bind (CBLSWrapper.Unserialize_ensures _ _ _) fun _ hms =>
    Ensures.pure ⟨hidx, hs, hv, hpk, hqs, hms⟩

/-- A commitment whose bytes read back as itself is encodable, and every encodable one does:
the reader accepts its writer's output exactly on the encodable commitments. -/
theorem reads_back_iff_encodable (lib : BLSLibrary) (c : CFinalCommitment) :
    ReadsBack Serialize (Unserialize lib {}) c ↔ Encodable lib c := by
  constructor
  · intro h
    exact Unserialize_ensures lib _ _ c (h [])
  · exact Unserialize_reads_back

/-- A library in which every buffer is canonical in the legacy scheme and none in the basic one. -/
def legacyOnlyLibrary : BLSLibrary := ⟨fun legacy _ => legacy, fun legacy _ => legacy⟩

/-- A rotated legacy commitment: its index is written, its bitsets of 3 and 9 bits fill part
of their last byte, its key and quorum signature are set and its members' signature is null. -/
theorem rotated_legacy_commitment_reads_back :
    ReadsBack Serialize (Unserialize legacyOnlyLibrary {})
      { nVersion := LEGACY_BLS_INDEXED_QUORUM_VERSION, llmqType := 103, quorumHash := 0x1234,
        quorumIndex := 5, signers := [true, false, true],
        validMembers := [true, true, true, true, true, true, true, true, false],
        quorumPublicKey := ⟨7⟩, quorumVvecHash := 0xab, quorumSig := ⟨9⟩ } :=
  (reads_back_iff_encodable _ _).mpr (by decide +kernel)

theorem Unserialize_too_many_signers (lib : BLSLibrary) (obj : CFinalCommitment)
    {c : CFinalCommitment} (h : MAX_SIZE < c.signers.length) (h64 : c.signers.length < 256 ^ 8)
    (rest : List UInt8) :
    (Unserialize lib obj).run (Serialize c ++ rest) = .error "ReadCompactSize(): size too large" := by
  have hindex : ∀ rest', ∃ qi, (if IsIndexedVersion c.nVersion then UnserializeInt16
      else pure obj.quorumIndex).run
      ((if IsIndexedVersion c.nVersion then SerializeInt16 c.quorumIndex else []) ++ rest') =
      .ok (qi, rest') := by
    intro rest'
    cases IsIndexedVersion c.nVersion
    · exact ⟨obj.quorumIndex, rfl⟩
    · exact ⟨c.quorumIndex, UnserializeInt16_reads_back _ rest'⟩
  simp only [Serialize, Unserialize, List.append_assoc]
  obtain ⟨qi, hqi⟩ := hindex (WriteDynBitSet c.signers ++ _)
  rw [(UnserializeUInt16_reads_back _).bind, ser_writedata8, List.singleton_append,
    run_bind_of_ok (ser_readdata8_cons _ _), (UnserializeBlob_reads_back (by decide) _).bind,
    run_bind_of_ok hqi, run_bind_of_error (ReadDynBitSet_too_large h h64 _)]

/-- A legacy commitment with null keys and signatures and one signer bit more than `MAX_SIZE`:
the reader refuses the size of its signers. -/
theorem oversized_signers_not_read_back :
    (Unserialize legacyOnlyLibrary {}).run
        (Serialize { signers := List.replicate (MAX_SIZE + 1) false }) =
      .error "ReadCompactSize(): size too large" := by
  have hlen : MAX_SIZE < (List.replicate (MAX_SIZE + 1) false).length := by
    rw [List.length_replicate]
    exact Nat.lt_succ_self _
  have h64 : (List.replicate (MAX_SIZE + 1) false).length < 256 ^ 8 := by
    rw [List.length_replicate]
    unfold MAX_SIZE
    decide
  have h : (Unserialize legacyOnlyLibrary {}).run
      (Serialize { signers := List.replicate (MAX_SIZE + 1) false } ++ []) =
      .error "ReadCompactSize(): size too large" :=
    Unserialize_too_many_signers legacyOnlyLibrary {} hlen h64 []
  rw [List.append_nil] at h
  exact h

end CFinalCommitment

end DashCore
