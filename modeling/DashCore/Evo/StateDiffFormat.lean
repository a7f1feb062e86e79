import DashCore.Evo.StateDiff
import DashCore.Evo.SimplifiedMNs
import DashCore.Bls.LazyWrapper

/-! The serialized form of a masternode state diff (`CDeterministicMNStateDiff`'s
`SERIALIZE_METHODS`, evo/dmnstate.h): `VARINT(fields)`, then each flagged field in the order of
`DMN_STATE_DIFF_ALL_FIELDS`, each with the serializer of its type, the `int` fields as `int32_t`.
The operator key is the one field written through a wrapper of its own,
`CBLSLazyPublicKeyVersionWrapper(pubKeyOperator, true)`: the model takes its writer and reader
as parameters (`wk`, `rk`). Whenever they read back the key of the diff, the diff reads back
with the fields it flags, and applying it gives the target state. -/
namespace DashCore

open ByteReader

def InInt32 (v : Int) : Prop := -2 ^ 31 ≤ v ∧ v < 2 ^ 31

namespace StateField

variable (wk : CBLSLazyPublicKey → List UInt8) (rk : Reader CBLSLazyPublicKey)

def Serialize : (f : StateField) → f.Ty → List UInt8
  | nRegisteredHeight, v => SerializeInt v
  | nLastPaidHeight, v => SerializeInt v
  | nPoSePenalty, v => SerializeInt v
  | nPoSeRevivedHeight, v => SerializeInt v
  | nPoSeBanHeight, v => SerializeInt v
  | nRevocationReason, v => SerializeUInt16 v
  | confirmedHash, v => SerializeBlob 32 v
  | confirmedHashWithProRegTxHash, v => SerializeBlob 32 v
  | keyIDOwner, v => SerializeBlob 20 v
  | pubKeyOperator, v => wk v
  | keyIDVoting, v => SerializeBlob 20 v
  | addr, v => v.Serialize
  | scriptPayout, v => WriteVector ser_writedata8 v
  | scriptOperatorPayout, v => WriteVector ser_writedata8 v
  | nConsecutivePayments, v => SerializeInt v
  | platformNodeID, v => SerializeBlob 20 v
  | platformP2PPort, v => SerializeUInt16 v
  | platformHTTPPort, v => SerializeUInt16 v

def Unserialize : (f : StateField) → Reader f.Ty
  | nRegisteredHeight => UnserializeInt
  | nLastPaidHeight => UnserializeInt
  | nPoSePenalty => UnserializeInt
  | nPoSeRevivedHeight => UnserializeInt
  | nPoSeBanHeight => UnserializeInt
  | nRevocationReason => UnserializeUInt16
  | confirmedHash => UnserializeBlob 256 32
  | confirmedHashWithProRegTxHash => UnserializeBlob 256 32
  | keyIDOwner => UnserializeBlob 160 20
  | pubKeyOperator => rk
  | keyIDVoting => UnserializeBlob 160 20
  | addr => CService.Unserialize
  | scriptPayout => ReadVector ser_readdata8
  | scriptOperatorPayout => ReadVector ser_readdata8
  | nConsecutivePayments => UnserializeInt
  | platformNodeID => UnserializeBlob 160 20
  | platformP2PPort => UnserializeUInt16
  | platformHTTPPort => UnserializeUInt16

/-- A value the field's serializer reads back: an `int` that `int32_t` holds, a script the
size check of `ReadCompactSize` lets through, and an operator key that `rk` reads back from
`wk`. -/
def Fits : (f : StateField) → f.Ty → Prop
  | nRegisteredHeight, v => InInt32 v
  | nLastPaidHeight, v => InInt32 v
  | nPoSePenalty, v => InInt32 v
  | nPoSeRevivedHeight, v => InInt32 v
  | nPoSeBanHeight, v => InInt32 v
  | pubKeyOperator, v => ReadsBack wk rk v
  | scriptPayout, v => v.length ≤ MAX_SIZE
  | scriptOperatorPayout, v => v.length ≤ MAX_SIZE
  | nConsecutivePayments, v => InInt32 v
  | _, _ => True

theorem ser_readdata8_reads_back (v : UInt8) : ReadsBack ser_writedata8 ser_readdata8 v :=
  fun rest => ser_readdata8_cons v rest

theorem Unserialize_reads_back (f : StateField) (v : f.Ty) (h : f.Fits wk rk v) :
    ReadsBack (f.Serialize wk) (f.Unserialize rk) v := by
  cases f with
  | nRegisteredHeight | nLastPaidHeight | nPoSePenalty | nPoSeRevivedHeight | nPoSeBanHeight
  | nConsecutivePayments => exact UnserializeInt_reads_back h.1 h.2
  | nRevocationReason | platformP2PPort | platformHTTPPort => exact UnserializeUInt16_reads_back v
  | confirmedHash | confirmedHashWithProRegTxHash => exact UnserializeBlob_reads_back (by decide) v
  | keyIDOwner | keyIDVoting | platformNodeID => exact UnserializeBlob_reads_back (by decide) v
  | pubKeyOperator => exact h
  | addr => exact CService.Unserialize_reads_back v
  | scriptPayout | scriptOperatorPayout =>
    exact ReadVector_reads_back h fun b _ => ser_readdata8_reads_back b

end StateField

namespace CDeterministicMNStateDiff

open StateField

variable (wk : CBLSLazyPublicKey → List UInt8) (rk : Reader CBLSLazyPublicKey)

def SerializeLine (d : CDeterministicMNStateDiff) (f : StateField) : List UInt8 :=
  if d.fields &&& f.bit != 0 then f.Serialize wk (f.get d.state) else []

def Serialize (d : CDeterministicMNStateDiff) : List UInt8 :=
  WriteVarInt d.fields ++ allFields.flatMap (SerializeLine wk d)

/-- One `DMN_STATE_DIFF_LINE` of `SERIALIZE_METHODS` reading: a flagged field is read into the
diff's state. -/
def UnserializeLine (d : CDeterministicMNStateDiff) (f : StateField) :
    Reader CDeterministicMNStateDiff :=
  if d.fields &&& f.bit != 0 then do
    let v ← f.Unserialize rk
    pure { d with state := f.set v d.state }
  else pure d

def Unserialize : Reader CDeterministicMNStateDiff := do
  let fields ← ReadVarInt
  allFields.foldlM (UnserializeLine rk) { fields }

def Fits (d : CDeterministicMNStateDiff) : Prop := ∀ f, d.Flagged f → f.Fits wk rk (f.get d.state)

theorem foldlM_UnserializeLine {d : CDeterministicMNStateDiff} (hfit : d.Fits wk rk)
    (fs : List StateField) (t : CDeterministicMNState) (rest : List UInt8) :
    (fs.foldlM (UnserializeLine rk) ⟨d.fields, t⟩).run (fs.flatMap (SerializeLine wk d) ++ rest) =
      .ok (⟨d.fields, fs.foldl (applyLine d) t⟩, rest) := by
  induction fs generalizing t with
  | nil => rfl
  | cons f fs ih =>
    rw [List.foldlM_cons, List.flatMap_cons, List.append_assoc, List.foldl_cons]
    by_cases hflag : d.Flagged f
    · have hbit : (d.fields &&& f.bit != 0) = true := by simpa [Flagged] using hflag
      have hline : UnserializeLine rk ⟨d.fields, t⟩ f =
          (f.Unserialize rk >>= fun v => pure ⟨d.fields, f.set v t⟩) := by
        rw [UnserializeLine, if_pos hbit]
      rw [hline, SerializeLine, if_pos hbit, bind_assoc,
        (Unserialize_reads_back wk rk f _ (hfit f hflag)).bind, pure_bind, ih]
      rw [applyLine, if_pos hbit]
    · have hbit : (d.fields &&& f.bit != 0) = false := by simpa [Flagged] using hflag
      rw [UnserializeLine, SerializeLine, if_neg (by simp [hbit]), if_neg (by simp [hbit]),
        List.nil_append, pure_bind, ih, applyLine, if_neg (by simp [hbit])]

theorem Unserialize_Serialize {d : CDeterministicMNStateDiff} (hfit : d.Fits wk rk) (rest : List UInt8) :
    (Unserialize rk).run (Serialize wk d ++ rest) = .ok (⟨d.fields, d.ApplyToState {}⟩, rest) := by
  rw [Serialize, List.append_assoc, Unserialize, (ReadVarInt_reads_back d.fields).bind]
  exact foldlM_UnserializeLine wk rk hfit allFields {} rest

/-- The diff of `a` and `b`, written and read back, applied to `a` gives `b`, when the fields
where the two states differ fit their serializers. -/
theorem ofStates_round_trip (a b : CDeterministicMNState)
    (hfit : ∀ f : StateField, f.get a ≠ f.get b → f.Fits wk rk (f.get b)) (rest : List UInt8) :
    ∃ d, (Unserialize rk).run (Serialize wk (ofStates a b) ++ rest) = .ok (d, rest) ∧
      d.fields = (ofStates a b).fields ∧ d.ApplyToState a = b := by
  have hd : (ofStates a b).Fits wk rk := fun f hf => by
    have hab := (ofStates_flagged a b f).mp hf
    rw [get_ofStates_state hab]
    exact hfit f hab
  have hcongr : (⟨(ofStates a b).fields, (ofStates a b).ApplyToState {}⟩ :
      CDeterministicMNStateDiff).ApplyToState a = (ofStates a b).ApplyToState a := by
    apply ApplyToState_congr
    · rfl
    · intro g hg
      rw [get_ApplyToState, if_pos hg]
  exact ⟨_, Unserialize_Serialize wk rk hd rest, rfl, hcongr.trans (ApplyToState_ofStates a b)⟩

/-- `CBLSLazyPublicKeyVersionWrapper(pubKeyOperator, true)` writing: the lazy wrapper's
`Serialize` in the legacy scheme. -/
def WriteLegacyKey (P : Primitives) (k : CBLSLazyPublicKey) : List UInt8 :=
  SerializeBlobBE 48 (k.Serialize P true).1

/-- `CBLSLazyPublicKeyVersionWrapper(pubKeyOperator, true)` reading: the bytes become a buffer
in the legacy scheme, not decoded. -/
def ReadLegacyKey : Reader CBLSLazyPublicKey := do
  let vecBytes ← UnserializeBlobBE 384 48
  pure (.buffer vecBytes true)

theorem ReadLegacyKey_WriteLegacyKey (P : Primitives) (k : CBLSLazyPublicKey) :
    ReadsAs (WriteLegacyKey P) ReadLegacyKey k (.buffer (k.Serialize P true).1 true) :=
  fun rest => by
    rw [WriteLegacyKey, ReadLegacyKey, (UnserializeBlobBE_reads_back (by decide) _).bind]
    rfl

theorem ReadLegacyKey_reads_back (P : Primitives) (b : BitVec 384) :
    ReadsBack (WriteLegacyKey P) ReadLegacyKey (.buffer b true) :=
  ReadLegacyKey_WriteLegacyKey P (.buffer b true)

theorem WriteLegacyKey_basic_buffer (P : Primitives) (b : BitVec 384) :
    ReadsAs (WriteLegacyKey P) ReadLegacyKey (.buffer b false) (.buffer 0 true) ∧
      (CBLSLazyPublicKey.Get P (.buffer 0 true)).1 = none := by
  refine ⟨ReadLegacyKey_WriteLegacyKey P (.buffer b false), ?_⟩
  rw [CBLSLazyPublicKey.Get_buffer_of_canonical (CBLSLazyPublicKey.canonical_buffer_zero true)]
  simp

/-- The diff of the default state and the state of masternode `2`, with a penalty, read back
through the lazy key's legacy writer and reader. -/
theorem ofStates_round_trip_of_keyed_state :
    let b : CDeterministicMNState :=
      { (CDeterministicMNList.keyedMN 2).pdmnState with nPoSePenalty := 7 }
    ∃ d, (Unserialize ReadLegacyKey).run (Serialize (WriteLegacyKey bytesPrimitives) (ofStates {} b) ++ []) =
        .ok (d, []) ∧
      d.fields = (ofStates {} b).fields ∧ d.ApplyToState {} = b := by
  intro b
  refine ofStates_round_trip (WriteLegacyKey bytesPrimitives) ReadLegacyKey {} b (fun f _ => ?_) []
  cases f
  case pubKeyOperator => exact ReadLegacyKey_reads_back bytesPrimitives _
  all_goals simp [b, StateField.Fits, StateField.get, InInt32, CDeterministicMNList.keyedMN, MAX_SIZE]

end CDeterministicMNStateDiff

section LazyKey

open CBLSLazyWrapper

variable {T : Type} {L : BLSImpl T}

end LazyKey

end DashCore
