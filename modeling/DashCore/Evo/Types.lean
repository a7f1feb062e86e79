import Mathlib.Data.List.AList
import Mathlib.Algebra.Group.Nat.Defs
import Mathlib.Algebra.Group.Int.Defs

/-! The data of the deterministic masternode list (evo/dmnstate.h, evo/deterministicmns.h,
evo/dmn_types.h): the masternode record, its state, and the values the list keeps unique.
Hashes and keys are fixed-width bit vectors; heights and penalties are the source's `int`. -/
namespace DashCore

abbrev uint256 := BitVec 256
abbrev uint160 := BitVec 160
abbrev CKeyID := uint160
abbrev CScript := List UInt8

/-- A transaction output; the default is the null outpoint with `n = NULL_INDEX`. -/
structure COutPoint where
  hash : uint256 := 0
  n : UInt32 := 0xFFFFFFFF
deriving DecidableEq, Repr

instance : Inhabited COutPoint := ⟨{}⟩

structure CService where
  ip : BitVec 128 := 0
  port : UInt16 := 0
deriving DecidableEq, Repr

instance : Inhabited CService := ⟨{}⟩

/-- A `CBLSPublicKey` that a message carries: the wrapper decodes it when it reads it, so the
model holds it as its bytes in the scheme of that message, the all-zero bytes for the invalid
key. -/
structure CBLSPublicKey where
  vecBytes : BitVec 384 := 0
deriving DecidableEq, Repr

/-- `CBLSLazyPublicKey` (`CBLSLazyWrapper<CBLSPublicKey>`, bls/bls.h) in the states its members
`vecBytes`, `bufValid`, `bufLegacyScheme`, `obj` and `objInitialized` reach. A key of the
library is named by a 384-bit value, and `none` is the invalid key. Every wrapper the list reads
into is freshly constructed, so a buffer that was never decoded sits beside the invalid key. -/
inductive CBLSLazyPublicKey where
  /-- `bufValid` and not `objInitialized`: bytes read in a scheme (`true` the legacy one) and not
  decoded. The default constructor's is all zeros in the scheme in force. -/
  | buffer (vecBytes : BitVec 384) (bufLegacyScheme : Bool)
  /-- `bufValid` and `objInitialized`: `Get` decoded the buffer, or `Serialize` wrote the key;
  the buffer is the key's bytes in the scheme. -/
  | decoded (obj : Option (BitVec 384)) (bufLegacyScheme : Bool)
  /-- `objInitialized` and not `bufValid`: `Set(_obj)`. -/
  | set (obj : Option (BitVec 384))
  /-- Neither: `Get` found the buffer malleable. -/
  | refused
deriving DecidableEq, Repr

instance : Inhabited CBLSLazyPublicKey := ⟨.buffer 0 true⟩

inductive MnType where
  | Regular
  | HighPerformance
deriving DecidableEq, Repr

def voting_weight : MnType → Int
  | .Regular => 1
  | .HighPerformance => 4

/-- The operations the list needs from the hash and the BLS library, and the scheme in force. -/
structure Primitives where
  /-- The double SHA-256 of a serialized value, `::SerializeHash`. -/
  SerializeHash : List UInt8 → uint256
  /-- `ImplType::FromBytes(bytes, specificLegacyScheme)`: the key 48 bytes encode in the scheme,
  `none` where it throws. -/
  PubKeyFromBytes : BitVec 384 → Bool → Option (BitVec 384)
  /-- `impl.Serialize(specificLegacyScheme)`: the key's bytes in the scheme. -/
  PubKeyToBytes : BitVec 384 → Bool → BitVec 384
  /-- `bls::bls_legacy_scheme`, which no call of the list changes. -/
  bls_legacy_scheme : Bool

namespace CBLSPublicKey

variable (P : Primitives)

/-- `SetByteVector(vecBytes, specificLegacyScheme)`: the all-zero buffer resets the key. -/
def SetByteVector (vecBytes : BitVec 384) (specificLegacyScheme : Bool) : Option (BitVec 384) :=
  if vecBytes = 0 then none else P.PubKeyFromBytes vecBytes specificLegacyScheme

def ToByteVector : Option (BitVec 384) → Bool → BitVec 384
  | none, _ => 0
  | some impl, specificLegacyScheme => P.PubKeyToBytes impl specificLegacyScheme

/-- `CheckMalleable(vecBytes, specificLegacyScheme)`: the key writes back to the same bytes. -/
def CheckMalleable (obj : Option (BitVec 384)) (vecBytes : BitVec 384) (specificLegacyScheme : Bool) :
    Bool :=
  ToByteVector P obj specificLegacyScheme == vecBytes

def IsValid (legacy : Bool) (k : CBLSPublicKey) : Bool := (SetByteVector P k.vecBytes legacy).isSome

end CBLSPublicKey

namespace CBLSLazyPublicKey

open CBLSPublicKey

variable (P : Primitives)

def bufValid : CBLSLazyPublicKey → Bool
  | buffer .. | decoded .. => true
  | set _ | refused => false

def objInitialized : CBLSLazyPublicKey → Bool
  | decoded .. | set _ => true
  | buffer .. | refused => false

def bufLegacyScheme : CBLSLazyPublicKey → Bool
  | buffer _ s | decoded _ s => s
  | set _ | refused => true

def vecBytes : CBLSLazyPublicKey → BitVec 384
  | buffer b _ => b
  | decoded obj s => ToByteVector P obj s
  | set _ | refused => 0

def obj : CBLSLazyPublicKey → Option (BitVec 384)
  | decoded obj _ | set obj => obj
  | buffer .. | refused => none

/-- `Get()`: the key, decoding the buffer first if it was not, in its scheme and else in the
other; a buffer that fails the malleability check leaves neither buffer nor key. -/
def Get (k : CBLSLazyPublicKey) : Option (BitVec 384) × CBLSLazyPublicKey :=
  if !k.bufValid && !k.objInitialized then (none, k)
  else if !k.objInitialized then
    let first := SetByteVector P (k.vecBytes P) k.bufLegacyScheme
    let other := SetByteVector P (k.vecBytes P) (!k.bufLegacyScheme)
    let obj := if first.isNone then other else first
    let scheme := if first.isNone && other.isSome then !k.bufLegacyScheme else k.bufLegacyScheme
    if !CheckMalleable P obj (k.vecBytes P) scheme then (none, refused)
    else (obj, decoded obj scheme)
  else (k.obj, k)

def Serialize (k : CBLSLazyPublicKey) (specificLegacyScheme : Bool) :
    BitVec 384 × CBLSLazyPublicKey :=
  -- with neither a buffer nor a key, the buffer is zeroed and taken as valid
  let k := if !k.objInitialized && !k.bufValid then buffer 0 specificLegacyScheme else k
  -- a buffer missing or in the other scheme is written from the key
  let k := if !k.bufValid || k.bufLegacyScheme != specificLegacyScheme then
      (if k.objInitialized then decoded k.obj specificLegacyScheme
       else buffer (ToByteVector P k.obj specificLegacyScheme) specificLegacyScheme)
    else k
  (k.vecBytes P, k)

/-- `operator==(r)`: equal buffers in one scheme, equal decoded keys, or else equal results of
`Get` on both sides; with both wrappers after it. -/
def Equals (k r : CBLSLazyPublicKey) : Bool × CBLSLazyPublicKey × CBLSLazyPublicKey :=
  if k.bufValid && r.bufValid && k.bufLegacyScheme == r.bufLegacyScheme then
    (k.vecBytes P == r.vecBytes P, k, r)
  else if k.objInitialized && r.objInitialized then (k.obj == r.obj, k, r)
  else ((Get P k).1 == (Get P r).1, (Get P k).2, (Get P r).2)

def IsValid (k : CBLSLazyPublicKey) : Bool := (Get P k).1.isSome

/-- The `static const T nullValue` the unique-property functions compare with: a
default-constructed key, under the scheme in force. -/
def nullValue : CBLSLazyPublicKey := buffer 0 P.bls_legacy_scheme

/-- The key is held as `Get` finds it: a buffer that is zero or a key's own bytes in its scheme,
or a decoded key whose bytes read back as it. Keys read from a message or `Set` are. -/
def Canonical : CBLSLazyPublicKey → Bool
  | buffer b s => CheckMalleable P (SetByteVector P b s) b s
  | decoded obj s => SetByteVector P (ToByteVector P obj s) s == obj
  | set _ | refused => true

end CBLSLazyPublicKey

def REASON_NOT_SPECIFIED : UInt16 := 0

structure CDeterministicMNState where
  nPoSeBanHeight : Int := -1
  nRegisteredHeight : Int := -1
  nLastPaidHeight : Int := 0
  nConsecutivePayments : Int := 0
  nPoSePenalty : Int := 0
  nPoSeRevivedHeight : Int := -1
  nRevocationReason : UInt16 := REASON_NOT_SPECIFIED
  confirmedHash : uint256 := 0
  confirmedHashWithProRegTxHash : uint256 := 0
  keyIDOwner : CKeyID := 0
  pubKeyOperator : CBLSLazyPublicKey := default
  keyIDVoting : CKeyID := 0
  addr : CService := {}
  scriptPayout : CScript := []
  scriptOperatorPayout : CScript := []
  platformNodeID : uint160 := 0
  platformP2PPort : UInt16 := 0
  platformHTTPPort : UInt16 := 0
deriving DecidableEq, Repr

instance : Inhabited CDeterministicMNState := ⟨{}⟩

namespace CDeterministicMNState

def IsBanned (s : CDeterministicMNState) : Bool := s.nPoSeBanHeight != -1

def GetBannedHeight (s : CDeterministicMNState) : Int := s.nPoSeBanHeight

def BanIfNotBanned (s : CDeterministicMNState) (height : Int) : CDeterministicMNState :=
  if !s.IsBanned then { s with nPoSeBanHeight := height } else s

def Revive (s : CDeterministicMNState) (nRevivedHeight : Int) : CDeterministicMNState :=
  { s with nPoSePenalty := 0, nPoSeBanHeight := -1, nPoSeRevivedHeight := nRevivedHeight }

def ResetOperatorFields (s : CDeterministicMNState) : CDeterministicMNState :=
  { s with pubKeyOperator := .set none, addr := {}, scriptOperatorPayout := [],
           nRevocationReason := REASON_NOT_SPECIFIED, platformNodeID := 0 }

end CDeterministicMNState

structure CDeterministicMN where
  internalId : UInt64
  proTxHash : uint256
  collateralOutpoint : COutPoint
  nOperatorReward : UInt16 := 0
  nType : MnType := .Regular
  pdmnState : CDeterministicMNState
deriving DecidableEq, Repr

/-- The values kept unique across the list, in the form they are hashed in. A `CKeyID`
and a platform node id serialize alike, both as 20 bytes. -/
inductive UniqueProperty where
  | outPoint (p : COutPoint)
  | service (a : CService)
  | uint160 (v : uint160)
  | blsPublicKey (k : CBLSLazyPublicKey)
deriving DecidableEq, Repr

inductive PropertyKind where
  | collateralOutpoint
  | addr
  | keyIDOwner
  | pubKeyOperator
  | platformNodeID
deriving DecidableEq, Repr

namespace UniqueProperty

variable (P : Primitives)

open CBLSLazyPublicKey in
def IsNull : UniqueProperty → Bool
  | outPoint p => p == default
  | service a => a == default
  | uint160 v => v == 0
  | blsPublicKey k => (k.Equals P (nullValue P)).1

def Equals : UniqueProperty → UniqueProperty → Bool
  | outPoint p, outPoint p' => p == p'
  | service a, service a' => a == a'
  | uint160 v, uint160 v' => v == v'
  | blsPublicKey k, blsPublicKey k' => (k.Equals P k').1
  | _, _ => false

open CBLSLazyPublicKey in
/-- The bytes `::SerializeHash` hashes: little-endian integers, a big-endian port, and a key as
`Serialize` writes it in the scheme in force once the comparison with `nullValue` has run, which
decodes a key held in the other scheme. -/
def Serialize : UniqueProperty → List UInt8
  | outPoint p => leBytes p.hash 32 ++ leBytes p.n.toBitVec 4
  | service a => beBytes a.ip 16 ++ beBytes a.port.toBitVec 2
  | uint160 v => leBytes v 20
  | blsPublicKey k => beBytes ((k.Equals P (nullValue P)).2.1.Serialize P P.bls_legacy_scheme).1 48
where
  leBytes {w : Nat} (v : BitVec w) (n : Nat) : List UInt8 :=
    (List.range n).map fun i => UInt8.ofNat (v.toNat / 256 ^ i)
  beBytes {w : Nat} (v : BitVec w) (n : Nat) : List UInt8 :=
    (List.range n).reverse.map fun i => UInt8.ofNat (v.toNat / 256 ^ i)

def Hash (v : UniqueProperty) : uint256 := P.SerializeHash (v.Serialize P)

def Canonical : UniqueProperty → Bool
  | blsPublicKey k => k.Canonical P
  | _ => true

end UniqueProperty

/-! How the list sees a key it holds canonically: as the key `Get` returns. -/

namespace CBLSLazyPublicKey

open CBLSPublicKey

variable {P : Primitives}

@[simp] theorem SetByteVector_zero (s : Bool) : SetByteVector P 0#384 s = none := if_pos rfl

@[simp] theorem ToByteVector_none (s : Bool) : ToByteVector P none s = 0 := rfl

theorem canonical_buffer_zero (s : Bool) : Canonical P (buffer 0 s) = true := by
  simp [Canonical, CheckMalleable]

theorem ToByteVector_SetByteVector_eq_zero {b : BitVec 384} {s : Bool}
    (h : ToByteVector P (SetByteVector P b s) s = b) : SetByteVector P b s = none ↔ b = 0 := by
  constructor
  · intro hn
    rw [hn] at h
    exact h.symm
  · rintro rfl
    rfl

theorem Get_buffer_of_canonical {b : BitVec 384} {s : Bool} (hc : Canonical P (buffer b s) = true) :
    Get P (buffer b s) = (SetByteVector P b s, decoded (SetByteVector P b s) s) := by
  have hmall : ToByteVector P (SetByteVector P b s) s = b := by
    simpa [Canonical, CheckMalleable] using hc
  cases hset : SetByteVector P b s with
  | none =>
    -- only the zero buffer decodes to nothing, and it decodes to nothing in either scheme
    have hb : b = 0 := (ToByteVector_SetByteVector_eq_zero hmall).mp hset
    subst hb
    simp [Get, bufValid, objInitialized, vecBytes, bufLegacyScheme, CheckMalleable]
  | some o =>
    rw [hset] at hmall
    simp [Get, bufValid, objInitialized, vecBytes, bufLegacyScheme, hset, CheckMalleable, hmall]

theorem Get_decoded (o : Option (BitVec 384)) (s : Bool) :
    Get P (decoded o s) = (o, decoded o s) := rfl

theorem Get_set (o : Option (BitVec 384)) : Get P (set o) = (o, set o) := rfl

theorem Get_refused : Get P refused = (none, refused) := rfl

theorem Get_nullValue : (Get P (nullValue P)).1 = none := by
  rw [nullValue, Get_buffer_of_canonical (canonical_buffer_zero _)]
  simp

theorem Get_fst_of_canonical {k : CBLSLazyPublicKey} (hc : Canonical P k = true) :
    (Get P k).1 = if k.bufValid then SetByteVector P (k.vecBytes P) k.bufLegacyScheme else k.obj := by
  cases k with
  | buffer b s => simp [Get_buffer_of_canonical hc, bufValid, vecBytes, bufLegacyScheme]
  | decoded o s =>
    have h : SetByteVector P (ToByteVector P o s) s = o := by simpa [Canonical] using hc
    simp [Get_decoded, bufValid, vecBytes, bufLegacyScheme, h]
  | set o => rfl
  | refused => rfl

theorem vecBytes_eq_zero_iff {k : CBLSLazyPublicKey} (hc : Canonical P k = true) (hv : k.bufValid = true) :
    k.vecBytes P = 0 ↔ SetByteVector P (k.vecBytes P) k.bufLegacyScheme = none := by
  cases k with
  | buffer b s =>
    have hm : ToByteVector P (SetByteVector P b s) s = b := by simpa [Canonical, CheckMalleable] using hc
    exact (ToByteVector_SetByteVector_eq_zero hm).symm
  | decoded o s =>
    have h : SetByteVector P (ToByteVector P o s) s = o := by simpa [Canonical] using hc
    simp only [vecBytes, bufLegacyScheme, h]
    constructor
    · intro h0
      rw [h0] at h
      simpa using h.symm
    · rintro rfl
      rfl
  | set o | refused => cases hv

theorem ToByteVector_SetByteVector {k : CBLSLazyPublicKey} (hc : Canonical P k = true)
    (hv : k.bufValid = true) :
    ToByteVector P (SetByteVector P (k.vecBytes P) k.bufLegacyScheme) k.bufLegacyScheme = k.vecBytes P := by
  cases k with
  | buffer b s =>
    have hm : ToByteVector P (SetByteVector P b s) s = b := by simpa [Canonical, CheckMalleable] using hc
    exact hm
  | decoded o s =>
    have h : SetByteVector P (ToByteVector P o s) s = o := by simpa [Canonical] using hc
    simp only [vecBytes, bufLegacyScheme, h]
  | set o | refused => cases hv

theorem Serialize_Get {k : CBLSLazyPublicKey} (hc : Canonical P k = true) (s : Bool) :
    ((Get P k).2.Serialize P s).1 = ToByteVector P (Get P k).1 s := by
  cases k with
  | buffer b s' =>
    rw [Get_buffer_of_canonical hc]
    by_cases hs : s' = s <;> simp [Serialize, objInitialized, bufValid, bufLegacyScheme, vecBytes, obj, hs]
  | decoded o s' =>
    by_cases hs : s' = s <;>
      simp [Get_decoded, Serialize, objInitialized, bufValid, bufLegacyScheme, vecBytes, obj, hs]
  | set o => simp [Get_set, Serialize, objInitialized, bufValid, vecBytes, obj]
  | refused => simp [Get_refused, Serialize, objInitialized, bufValid, bufLegacyScheme, vecBytes]

theorem Get_eq_of_Equals {k k' : CBLSLazyPublicKey} (hc : Canonical P k = true)
    (hc' : Canonical P k' = true) (h : (k.Equals P k').1 = true) : (Get P k).1 = (Get P k').1 := by
  rw [Get_fst_of_canonical hc, Get_fst_of_canonical hc']
  unfold Equals at h
  split at h
  · rename_i hbuf
    simp only [Bool.and_eq_true, beq_iff_eq] at hbuf h
    simp [hbuf.1.1, hbuf.1.2, hbuf.2, h]
  · split at h
    · rename_i hnot hobj
      simp only [Bool.and_eq_true] at hobj
      cases k <;> cases k' <;>
        simp_all [objInitialized, bufValid, obj, Canonical, vecBytes, bufLegacyScheme]
    · simp only [beq_iff_eq] at h
      rwa [Get_fst_of_canonical hc, Get_fst_of_canonical hc'] at h

end CBLSLazyPublicKey

namespace UniqueProperty

open CBLSLazyPublicKey CBLSPublicKey

variable {P : Primitives}

theorem IsNull_blsPublicKey {k : CBLSLazyPublicKey} (hc : k.Canonical P = true) :
    (blsPublicKey k).IsNull P = (Get P k).1.isNone := by
  simp only [IsNull, CBLSLazyPublicKey.Equals]
  split
  · -- a buffer in the scheme in force is compared byte for byte with the zero buffer
    rename_i hbuf
    simp only [Bool.and_eq_true, beq_iff_eq] at hbuf
    have hnull : (nullValue P).vecBytes P = 0 := rfl
    rw [Get_fst_of_canonical hc, if_pos hbuf.1.1, hnull]
    have hz := vecBytes_eq_zero_iff hc hbuf.1.1
    cases h : SetByteVector P (k.vecBytes P) k.bufLegacyScheme <;> simp_all
  · split
    · rename_i hobj
      simp [nullValue, objInitialized] at hobj
    · simp [Get_nullValue]

theorem Serialize_blsPublicKey {k : CBLSLazyPublicKey} (hc : k.Canonical P = true) :
    (blsPublicKey k).Serialize P =
      Serialize.beBytes (ToByteVector P (Get P k).1 P.bls_legacy_scheme) 48 := by
  simp only [Serialize, CBLSLazyPublicKey.Equals]
  congr 1
  split
  · rename_i hbuf
    simp only [Bool.and_eq_true, beq_iff_eq] at hbuf
    have hs : k.bufLegacyScheme = P.bls_legacy_scheme := hbuf.2
    rw [Get_fst_of_canonical hc, if_pos hbuf.1.1, ← hs, ToByteVector_SetByteVector hc hbuf.1.1]
    cases k <;> simp_all [CBLSLazyPublicKey.Serialize, objInitialized, bufValid, bufLegacyScheme]
  · split
    · rename_i hobj
      simp [nullValue, objInitialized] at hobj
    · exact Serialize_Get hc _

theorem IsNull_Hash_eq_of_Equals {v v' : UniqueProperty} (hc : v.Canonical P = true)
    (hc' : v'.Canonical P = true) (h : v.Equals P v' = true) :
    v.IsNull P = v'.IsNull P ∧ v.Hash P = v'.Hash P := by
  cases v <;> cases v' <;> simp only [Equals, Bool.false_eq_true, beq_iff_eq] at h
  case outPoint.outPoint | service.service | uint160.uint160 =>
    subst h
    exact ⟨rfl, rfl⟩
  case blsPublicKey.blsPublicKey k k' =>
    have hg := Get_eq_of_Equals hc hc' h
    simp only [Hash, IsNull_blsPublicKey hc, IsNull_blsPublicKey hc', Serialize_blsPublicKey hc,
      Serialize_blsPublicKey hc', hg, and_self]

end UniqueProperty

end DashCore
