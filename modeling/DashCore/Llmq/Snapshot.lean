import DashCore.Evo.SimplifiedMNs
import DashCore.Serialize.BitSet

/-! The quorum snapshots of rotating LLMQs and the rotation info a node answers `GETQRINFO`
with (llmq/snapshot.h). A snapshot is read into the object it is unserialized into: the skip
list read is appended to the one the object holds. The rotation info writes its H-4C snapshot and
diff when `extraShare` is set and they are present; its reader reads them only into values the
object already holds, and a default-constructed object holds none. -/
namespace DashCore

open ByteReader

structure CQuorumSnapshot where
  activeQuorumMembers : List Bool := []
  mnSkipListMode : Int32 := 0
  mnSkipList : List Int32 := []
deriving DecidableEq, Repr

namespace CQuorumSnapshot

def Serialize (obj : CQuorumSnapshot) : List UInt8 :=
  SerializeInt32 obj.mnSkipListMode ++ WriteCompactSize obj.activeQuorumMembers.length ++
    WriteFixedBitSet obj.activeQuorumMembers obj.activeQuorumMembers.length ++
    WriteCompactSize obj.mnSkipList.length ++ writeList SerializeInt32 obj.mnSkipList

/-- `Unserialize` into `obj`: the bitset is resized to the count read, and each skip read is
pushed back onto the skip list `obj` holds. -/
def Unserialize (obj : CQuorumSnapshot) : Reader CQuorumSnapshot := do
  let mnSkipListMode ← UnserializeInt32
  let cnt ← ReadCompactSize true
  let activeQuorumMembers ← ReadFixedBitSet cnt
  let cnt ← ReadCompactSize true
  let skips ← readList UnserializeInt32 cnt
  pure { activeQuorumMembers, mnSkipListMode, mnSkipList := obj.mnSkipList ++ skips }

theorem Unserialize_reads_as (obj q : CQuorumSnapshot)
    (hm : q.activeQuorumMembers.length ≤ MAX_SIZE) (hs : q.mnSkipList.length ≤ MAX_SIZE) :
    ReadsAs Serialize (Unserialize obj) q { q with mnSkipList := obj.mnSkipList ++ q.mnSkipList } := by
  intro rest
  have hskips : ReadsBack (writeList SerializeInt32) (readList UnserializeInt32 q.mnSkipList.length)
      q.mnSkipList := readList_writeList fun v _ => UnserializeInt32_reads_back v
  simp only [Serialize, Unserialize, List.append_assoc]
  rw [(UnserializeInt32_reads_back _).bind, (ReadCompactSize_reads_back true hm).bind,
    run_bind_of_ok (ReadFixedBitSet_WriteFixedBitSet _ _), (ReadCompactSize_reads_back true hs).bind,
    hskips.bind]
  rfl

theorem Unserialize_reads_back (q : CQuorumSnapshot) (hm : q.activeQuorumMembers.length ≤ MAX_SIZE)
    (hs : q.mnSkipList.length ≤ MAX_SIZE) : ReadsBack Serialize (Unserialize {}) q :=
  Unserialize_reads_as {} q hm hs

end CQuorumSnapshot

structure CQuorumRotationInfo (Tree Tx Qc : Type) where
  quorumSnapshotAtHMinusC : CQuorumSnapshot
  quorumSnapshotAtHMinus2C : CQuorumSnapshot
  quorumSnapshotAtHMinus3C : CQuorumSnapshot
  mnListDiffTip : CSimplifiedMNListDiff Tree Tx Qc
  mnListDiffH : CSimplifiedMNListDiff Tree Tx Qc
  mnListDiffAtHMinusC : CSimplifiedMNListDiff Tree Tx Qc
  mnListDiffAtHMinus2C : CSimplifiedMNListDiff Tree Tx Qc
  mnListDiffAtHMinus3C : CSimplifiedMNListDiff Tree Tx Qc
  extraShare : Bool := false
  quorumSnapshotAtHMinus4C : Option CQuorumSnapshot := none
  mnListDiffAtHMinus4C : Option (CSimplifiedMNListDiff Tree Tx Qc) := none
  lastCommitmentPerIndex : List Qc := []
  quorumSnapshotList : List CQuorumSnapshot := []
  mnListDiffList : List (CSimplifiedMNListDiff Tree Tx Qc) := []

instance {Tree Tx Qc : Type} [Inhabited Tree] [Inhabited Tx] :
    Inhabited (CQuorumRotationInfo Tree Tx Qc) :=
  ⟨{ quorumSnapshotAtHMinusC := {}, quorumSnapshotAtHMinus2C := {}, quorumSnapshotAtHMinus3C := {},
     mnListDiffTip := default, mnListDiffH := default, mnListDiffAtHMinusC := default,
     mnListDiffAtHMinus2C := default, mnListDiffAtHMinus3C := default }⟩

namespace CQuorumRotationInfo

variable {Tree Tx Qc : Type} (S : Serializers Tree Tx Qc) (st : StreamFlags)

/-- `Serialize`: the members of `SerializationOpBase`, the H-4C snapshot and diff when
`extraShare` is set and they are present, and the three counted lists. -/
def Serialize (obj : CQuorumRotationInfo Tree Tx Qc) : List UInt8 :=
  obj.quorumSnapshotAtHMinusC.Serialize ++ obj.quorumSnapshotAtHMinus2C.Serialize ++
    obj.quorumSnapshotAtHMinus3C.Serialize ++
    CSimplifiedMNListDiff.Serialize S st obj.mnListDiffTip ++
    CSimplifiedMNListDiff.Serialize S st obj.mnListDiffH ++
    CSimplifiedMNListDiff.Serialize S st obj.mnListDiffAtHMinusC ++
    CSimplifiedMNListDiff.Serialize S st obj.mnListDiffAtHMinus2C ++
    CSimplifiedMNListDiff.Serialize S st obj.mnListDiffAtHMinus3C ++
    SerializeBool obj.extraShare ++
    (if obj.extraShare then (obj.quorumSnapshotAtHMinus4C.map CQuorumSnapshot.Serialize).getD []
     else []) ++
    (if obj.extraShare then
      (obj.mnListDiffAtHMinus4C.map (CSimplifiedMNListDiff.Serialize S st)).getD []
     else []) ++
    WriteCompactSize obj.lastCommitmentPerIndex.length ++
    writeList S.finalCommitment.write obj.lastCommitmentPerIndex ++
    WriteCompactSize obj.quorumSnapshotList.length ++
    writeList CQuorumSnapshot.Serialize obj.quorumSnapshotList ++
    WriteCompactSize obj.mnListDiffList.length ++
    writeList (CSimplifiedMNListDiff.Serialize S st) obj.mnListDiffList

/-- An optional member read as `Unserialize` reads it: into the value `obj` holds, when the
`extraShare` just read is set and there is one. -/
def UnserializeOptional {α : Type} (read : α → Reader α) (extraShare : Bool) :
    Option α → Reader (Option α)
  | some a => if extraShare then some <$> read a else pure (some a)
  | none => pure none

variable [Inhabited Tree] [Inhabited Tx]

/-- `Unserialize` into `obj`. Each commitment, snapshot and diff of the counted lists is read
into a default-constructed one and pushed back onto the list `obj` holds. -/
def Unserialize (obj : CQuorumRotationInfo Tree Tx Qc) :
    Reader (CQuorumRotationInfo Tree Tx Qc) := do
  let quorumSnapshotAtHMinusC ← obj.quorumSnapshotAtHMinusC.Unserialize
  let quorumSnapshotAtHMinus2C ← obj.quorumSnapshotAtHMinus2C.Unserialize
  let quorumSnapshotAtHMinus3C ← obj.quorumSnapshotAtHMinus3C.Unserialize
  let mnListDiffTip ← CSimplifiedMNListDiff.Unserialize S st obj.mnListDiffTip
  let mnListDiffH ← CSimplifiedMNListDiff.Unserialize S st obj.mnListDiffH
  let mnListDiffAtHMinusC ← CSimplifiedMNListDiff.Unserialize S st obj.mnListDiffAtHMinusC
  let mnListDiffAtHMinus2C ← CSimplifiedMNListDiff.Unserialize S st obj.mnListDiffAtHMinus2C
  let mnListDiffAtHMinus3C ← CSimplifiedMNListDiff.Unserialize S st obj.mnListDiffAtHMinus3C
  let extraShare ← UnserializeBool
  let quorumSnapshotAtHMinus4C ←
    UnserializeOptional CQuorumSnapshot.Unserialize extraShare obj.quorumSnapshotAtHMinus4C
  let mnListDiffAtHMinus4C ←
    UnserializeOptional (CSimplifiedMNListDiff.Unserialize S st) extraShare obj.mnListDiffAtHMinus4C
  let cnt ← ReadCompactSize true
  let qcs ← readList S.finalCommitment.read cnt
  let cnt ← ReadCompactSize true
  let snaps ← readList (CQuorumSnapshot.Unserialize {}) cnt
  let cnt ← ReadCompactSize true
  let diffs ← readList (CSimplifiedMNListDiff.Unserialize S st default) cnt
  pure { quorumSnapshotAtHMinusC, quorumSnapshotAtHMinus2C, quorumSnapshotAtHMinus3C,
         mnListDiffTip, mnListDiffH, mnListDiffAtHMinusC, mnListDiffAtHMinus2C,
         mnListDiffAtHMinus3C, extraShare, quorumSnapshotAtHMinus4C, mnListDiffAtHMinus4C,
         lastCommitmentPerIndex := obj.lastCommitmentPerIndex ++ qcs,
         quorumSnapshotList := obj.quorumSnapshotList ++ snaps,
         mnListDiffList := obj.mnListDiffList ++ diffs }

theorem Unserialize_HMinus4C_none (obj : CQuorumRotationInfo Tree Tx Qc)
    (hq : obj.quorumSnapshotAtHMinus4C = none) (hd : obj.mnListDiffAtHMinus4C = none) :
    Ensures (Unserialize S st obj)
      (fun res => res.quorumSnapshotAtHMinus4C = none ∧ res.mnListDiffAtHMinus4C = none) := by
  refine Ensures.bind_any fun _ => Ensures.bind_any fun _ => Ensures.bind_any fun _ =>
    Ensures.bind_any fun _ => Ensures.bind_any fun _ => Ensures.bind_any fun _ =>
    Ensures.bind_any fun _ => Ensures.bind_any fun _ => Ensures.bind_any fun extraShare => ?_
  rw [hq, hd]
  refine Ensures.bind (Ensures.pure (P := (· = none)) rfl) fun q4 hq4 =>
    Ensures.bind (Ensures.pure (P := (· = none)) rfl) fun d4 hd4 => ?_
  exact Ensures.bind_any fun _ => Ensures.bind_any fun _ => Ensures.bind_any fun _ =>
    Ensures.bind_any fun _ => Ensures.bind_any fun _ => Ensures.bind_any fun _ =>
    Ensures.pure ⟨hq4, hd4⟩

/-- A rotation info holding an H-4C snapshot, as every answer `BuildQuorumRotationInfo` gives to
a request with `extraShare` does, is never read back into a default-constructed object: whatever
the reader returns, from the bytes written and whatever follows them, has neither H-4C member. -/
theorem Unserialize_default_drops_HMinus4C (r : CQuorumRotationInfo Tree Tx Qc)
    (hq : r.quorumSnapshotAtHMinus4C.isSome = true) (rest : List UInt8) :
    ∀ res rest', (Unserialize S st default).run (Serialize S st r ++ rest) = .ok (res, rest') →
      res.quorumSnapshotAtHMinus4C = none ∧ res.mnListDiffAtHMinus4C = none ∧ res ≠ r := by
  intro res rest' h
  obtain ⟨hq4, hd4⟩ := Unserialize_HMinus4C_none S st default rfl rfl _ _ _ h
  refine ⟨hq4, hd4, ?_⟩
  rintro rfl
  rw [hq4] at hq
  cases hq

end CQuorumRotationInfo

/-- A rotation info with empty snapshots and diffs, answering a request with `extraShare`. -/
def emptyExtraShareInfo : CQuorumRotationInfo Unit Unit Unit :=
  { (default : CQuorumRotationInfo Unit Unit Unit) with
    extraShare := true
    quorumSnapshotAtHMinus4C := some {}
    mnListDiffAtHMinus4C := some default }

set_option maxRecDepth 20000 in
/-- Its reader succeeds: it reads the first three bytes of the H-4C snapshot as the three counts,
and leaves the rest of the snapshot, the H-4C diff and the three real counts unread. -/
theorem Unserialize_default_drops_HMinus4C_of_empty_info :
    (CQuorumRotationInfo.Unserialize unitSerializers ⟨true, 70227⟩ default).run
        (CQuorumRotationInfo.Serialize unitSerializers ⟨true, 70227⟩ emptyExtraShareInfo ++ []) =
      .ok ({ emptyExtraShareInfo with quorumSnapshotAtHMinus4C := none, mnListDiffAtHMinus4C := none },
        (CQuorumSnapshot.Serialize {}).drop 3 ++
          CSimplifiedMNListDiff.Serialize unitSerializers ⟨true, 70227⟩ default ++ [0, 0, 0]) ∧
    { emptyExtraShareInfo with quorumSnapshotAtHMinus4C := none, mnListDiffAtHMinus4C := none } ≠
      emptyExtraShareInfo := by
  have hrun : (CQuorumRotationInfo.Unserialize unitSerializers ⟨true, 70227⟩ default).run
        (CQuorumRotationInfo.Serialize unitSerializers ⟨true, 70227⟩ emptyExtraShareInfo ++ []) =
      .ok ({ emptyExtraShareInfo with quorumSnapshotAtHMinus4C := none, mnListDiffAtHMinus4C := none },
        (CQuorumSnapshot.Serialize {}).drop 3 ++
          CSimplifiedMNListDiff.Serialize unitSerializers ⟨true, 70227⟩ default ++ [0, 0, 0]) := rfl
  exact ⟨hrun, (CQuorumRotationInfo.Unserialize_default_drops_HMinus4C unitSerializers
    ⟨true, 70227⟩ emptyExtraShareInfo rfl [] _ _ hrun).2.2⟩

end DashCore
