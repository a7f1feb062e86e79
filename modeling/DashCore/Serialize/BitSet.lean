import DashCore.Serialize.Ints
import Mathlib.Data.Nat.Bitwise

/-! The bitsets of serialize.h and the signature-share inventory that carries one
(llmq/signing_shares.h). A fixed bitset is its bytes, and `ReadFixedBitSet` reads back what
`WriteFixedBitSet` wrote, its check of the unused bits included; a VarInts bitset is the list of
offsets from each set bit to the next, ended by a zero offset. The reader of the VarInts form
adds each offset to the last index as an `int32_t`, and a write to the vector at an index
outside it is out of bounds: the model records the index of every write. -/
namespace DashCore

open ByteReader

/-- The conversion of an integer to `int32_t`: its value modulo 2^32 in two's complement. -/
def int32 (x : Int) : Int := (x + 2 ^ 31) % 2 ^ 32 - 2 ^ 31

structure VarIntsBitSet where
  vec : List Bool
  last : Int
  /-- The index of each `vec[idx] = true`, in order. -/
  writes : List Int
deriving DecidableEq, Repr

/-- `vec[idx] = true`: an index below zero lies before the vector and sets none of its bits. -/
def setBit (vec : List Bool) (idx : Int) : List Bool :=
  if 0 ≤ idx then vec.set idx.toNat true else vec

/-- One nonzero offset of `ReadFixedVarIntsBitSet`: the write it makes, or what it throws. -/
def ReadFixedVarIntsBitSetStep (size : Nat) (st : VarIntsBitSet) (offset : UInt32) :
    Except String VarIntsBitSet :=
  -- `int32_t idx = last + offset;` adds in `uint32_t` and converts back
  let idx := int32 (st.last + offset.toNat)
  if idx ≥ int32 size then .error "out of bounds index"
  else if st.last ≠ -1 ∧ idx ≤ st.last then .error "offset overflow"
  else .ok ⟨setBit st.vec idx, idx, st.writes ++ [idx]⟩

/-- The loop of `ReadFixedVarIntsBitSet(s, vec, size)`: read offsets until the zero one. -/
def ReadFixedVarIntsBitSetLoop (size : Nat) (st : VarIntsBitSet) (s : List UInt8) :
    Except String (VarIntsBitSet × List UInt8) :=
  match _hread : ReadVarInt.run s with
  | .error e => .error e
  | .ok (offset, s') =>
    if offset = 0 then .ok (st, s')
    else
      match ReadFixedVarIntsBitSetStep size st offset with
      | .error e => .error e
      | .ok st' => ReadFixedVarIntsBitSetLoop size st' s'
termination_by s.length
decreasing_by exact ReadVarInt_consumes _hread

def ReadFixedVarIntsBitSet (size : Nat) : Reader VarIntsBitSet := fun s =>
  ReadFixedVarIntsBitSetLoop size ⟨List.replicate size false, -1, []⟩ s

/-- The loop of `WriteFixedVarIntsBitSet` over the positions `is`, `last` the set bit written
before: each set bit is written as its offset from that one. -/
def WriteFixedVarIntsBitSetLoop (vec : List Bool) (last : Int) : List Nat → List UInt8
  | [] => []
  | i :: is =>
    if vec.getD i false then
      -- `(uint32_t)(i - last)`
      WriteVarInt (UInt32.ofNat (i - last).toNat) ++ WriteFixedVarIntsBitSetLoop vec i is
    else WriteFixedVarIntsBitSetLoop vec last is

/-- `WriteFixedVarIntsBitSet(s, vec, size)`, which does not read `size`: the loop
`for (int32_t i = 0; i < (int32_t)vec.size(); i++)`, then the zero stopper. -/
def WriteFixedVarIntsBitSet (vec : List Bool) (_size : Nat) : List UInt8 :=
  WriteFixedVarIntsBitSetLoop vec (-1) (List.range (int32 vec.length).toNat) ++ WriteVarInt 0

/-- `ReadFixedBitSet(s, vec, size)`: bit `p` is bit `p % 8` of byte `p / 8`, and the bits of
the last byte beyond `size` must be clear. -/
def ReadFixedBitSet (size : Nat) : Reader (List Bool) := do
  let vBytes ← readBytes CDataStream_eod ((size + 7) / 8)
  let vec := (List.range size).map fun p => (vBytes.getD (p / 8) 0).toNat.testBit (p % 8)
  if vBytes.length * 8 ≠ size then
    let rem := vBytes.length * 8 - size
    -- `~(uint8_t)(0xff >> rem)`: the top `rem` bits of the last byte
    if (vBytes.getLast?.getD 0).toNat / 2 ^ (8 - rem) ≠ 0 then
      throw "Out-of-range bits set"
  pure vec

/-- `WriteFixedBitSet(s, vec, size)`: `(size + 7) / 8` zero bytes, into which each bit `p` that
`vec` has below `size` is or-ed as bit `p % 8` of byte `p / 8`. -/
def WriteFixedBitSet (vec : List Bool) (size : Nat) : List UInt8 :=
  (List.range (min size vec.length)).foldl
    (fun vBytes p => vBytes.modify (p / 8) (· ||| (if vec.getD p false then 1 else 0) <<< (p % 8).toUInt8))
    (List.replicate ((size + 7) / 8) 0)

theorem testBit_or_bit (x : UInt8) (b : Bool) (s k : Nat) (hs : s < 8) :
    (x ||| (if b then 1 else 0) <<< s.toUInt8).toNat.testBit k =
      (x.toNat.testBit k || (b && decide (s = k))) := by
  have hsn : s.toUInt8.toNat = s := by simp; omega
  cases b
  · simp
  · have h1 : ((1 : UInt8) <<< s.toUInt8).toNat = 2 ^ s := by
      rw [UInt8.toNat_shiftLeft, hsn, Nat.mod_eq_of_lt hs]
      simp [Nat.shiftLeft_eq]
      exact Nat.pow_lt_pow_right (by decide) hs
    simp [UInt8.toNat_or, h1, Nat.testBit_two_pow]

/-- The bytes of `WriteFixedBitSet` once the loop has or-ed in the bits below `m`: bit `k` of
byte `j` is the bit `8 * j + k` of `vec` if that is below `m`, and clear otherwise. -/
structure BitsBelow (vec : List Bool) (len m : Nat) (vBytes : List UInt8) : Prop where
  length : vBytes.length = len
  testBit : ∀ j (hj : j < vBytes.length) k, k < 8 →
    vBytes[j].toNat.testBit k = (decide (8 * j + k < m) && vec.getD (8 * j + k) false)

theorem BitsBelow.init (vec : List Bool) (len : Nat) :
    BitsBelow vec len 0 (List.replicate len 0) where
  length := List.length_replicate
  testBit j hj k _ := by simp

theorem BitsBelow.step {vec : List Bool} {len m : Nat} {vBytes : List UInt8}
    (h : BitsBelow vec len m vBytes) :
    BitsBelow vec len (m + 1)
      (vBytes.modify (m / 8) (· ||| (if vec.getD m false then 1 else 0) <<< (m % 8).toUInt8)) where
  length := by rw [List.length_modify, h.length]
  testBit j hj k hk := by
    rw [List.length_modify] at hj
    rw [List.getElem_modify]
    split
    · rename_i hjm
      rw [testBit_or_bit _ _ _ _ (Nat.mod_lt m (by decide)), h.testBit j hj k hk]
      by_cases hkm : m % 8 = k
      · have hjk : 8 * j + k = m := by omega
        simp [hkm, hjk]
      · have hne : 8 * j + k ≠ m := by omega
        have hlt : 8 * j + k < m + 1 ↔ 8 * j + k < m := by omega
        simp [hkm, hlt]
    · rename_i hjm
      have hlt : 8 * j + k < m + 1 ↔ 8 * j + k < m := by omega
      rw [h.testBit j (h.length ▸ hj) k hk]
      simp [hlt]

theorem BitsBelow.foldl (vec : List Bool) (len m : Nat) :
    BitsBelow vec len m ((List.range m).foldl
      (fun vBytes p => vBytes.modify (p / 8) (· ||| (if vec.getD p false then 1 else 0) <<< (p % 8).toUInt8))
      (List.replicate len 0)) := by
  induction m with
  | zero => exact BitsBelow.init vec len
  | succ m ih =>
    rw [List.range_succ, List.foldl_append, List.foldl_cons, List.foldl_nil]
    exact ih.step

theorem WriteFixedBitSet_bits (vec : List Bool) :
    BitsBelow vec ((vec.length + 7) / 8) vec.length (WriteFixedBitSet vec vec.length) := by
  unfold WriteFixedBitSet
  rw [Nat.min_self]
  exact BitsBelow.foldl vec _ _

theorem ReadFixedBitSet_run {size : Nat} {bytes : List UInt8} (hlen : bytes.length = (size + 7) / 8)
    (rest : List UInt8) :
    (ReadFixedBitSet size).run (bytes ++ rest) =
      if bytes.length * 8 ≠ size ∧
          (bytes.getLast?.getD 0).toNat / 2 ^ (8 - (bytes.length * 8 - size)) ≠ 0 then
        .error "Out-of-range bits set"
      else .ok ((List.range size).map fun p => (bytes.getD (p / 8) 0).toNat.testBit (p % 8), rest) := by
  have hr := readBytes_append CDataStream_eod bytes rest
  rw [hlen] at hr
  unfold ReadFixedBitSet
  rw [run_bind_of_ok hr]
  dsimp only
  split_ifs with h1 h2 h3 h3 h3
  · rfl
  · exact absurd ⟨h1, h2⟩ h3
  · exact absurd h3.2 h2
  · rfl
  · exact absurd h3.1 h1
  · rfl

theorem toNat_testBit_high (x : UInt8) {j : Nat} (hj : 8 ≤ j) : x.toNat.testBit j = false :=
  Nat.testBit_lt_two_pow (lt_of_lt_of_le (UInt8.toNat_lt x) (Nat.pow_le_pow_right (by decide) hj))

theorem toNat_lt_two_pow_iff (x : UInt8) (k : Nat) :
    x.toNat < 2 ^ k ↔ ∀ j, k ≤ j → j < 8 → x.toNat.testBit j = false := by
  constructor
  · intro h j hj _
    exact Nat.testBit_lt_two_pow (lt_of_lt_of_le h (Nat.pow_le_pow_right (by decide) hj))
  · intro h
    refine Nat.lt_pow_two_of_testBit _ fun j hj => ?_
    by_cases hj8 : j < 8
    · exact h j hj hj8
    · exact toNat_testBit_high x (by omega)

theorem lastByte_check_iff {size : Nat} {bytes : List UInt8} (hlen : bytes.length = (size + 7) / 8) :
    ¬(bytes.length * 8 ≠ size ∧
        (bytes.getLast?.getD 0).toNat / 2 ^ (8 - (bytes.length * 8 - size)) ≠ 0) ↔
      ∀ p, size ≤ p → p < 8 * bytes.length → (bytes.getD (p / 8) 0).toNat.testBit (p % 8) = false := by
  by_cases hfull : bytes.length * 8 = size
  · simp only [hfull, ne_eq, not_true_eq_false, false_and, not_false_eq_true, true_iff]
    intro p h1 h2
    omega
  · have hlast : bytes.getLast?.getD 0 = bytes.getD (bytes.length - 1) 0 := by
      rw [List.getLast?_eq_getElem?, List.getD_eq_getElem?_getD]
    rw [not_and, imp_iff_right hfull, not_not, hlast, Nat.div_eq_zero_iff_lt (Nat.two_pow_pos _),
      toNat_lt_two_pow_iff]
    constructor
    · intro h p h1 h2
      have hp : p / 8 = bytes.length - 1 := by omega
      rw [hp]
      exact h (p % 8) (by omega) (Nat.mod_lt p (by decide))
    · intro h j h1 h2
      have := h (8 * (bytes.length - 1) + j) (by omega) (by omega)
      rwa [show (8 * (bytes.length - 1) + j) / 8 = bytes.length - 1 by omega,
        show (8 * (bytes.length - 1) + j) % 8 = j by omega] at this

theorem length_WriteFixedBitSet (vec : List Bool) (size : Nat) :
    (WriteFixedBitSet vec size).length = (size + 7) / 8 := by
  unfold WriteFixedBitSet
  exact (BitsBelow.foldl vec _ _).length

theorem ReadFixedBitSet_WriteFixedBitSet (vec : List Bool) (rest : List UInt8) :
    (ReadFixedBitSet vec.length).run (WriteFixedBitSet vec vec.length ++ rest) = .ok (vec, rest) := by
  have hW := WriteFixedBitSet_bits vec
  -- each bit `p` read is bit `p % 8` of byte `p / 8`, where the loop put `vec[p]`
  have hvec : (List.range vec.length).map
      (fun p => ((WriteFixedBitSet vec vec.length).getD (p / 8) 0).toNat.testBit (p % 8)) = vec := by
    apply List.ext_getElem (by simp)
    intro p hp hp'
    have hj : p / 8 < (WriteFixedBitSet vec vec.length).length := by rw [hW.length]; omega
    rw [List.getElem_map, List.getElem_range, List.getD_eq_getElem _ _ hj,
      hW.testBit _ hj _ (Nat.mod_lt p (by decide)), Nat.div_add_mod]
    simp [hp']
  have hclear : ∀ p, vec.length ≤ p → p < 8 * (WriteFixedBitSet vec vec.length).length →
      ((WriteFixedBitSet vec vec.length).getD (p / 8) 0).toNat.testBit (p % 8) = false := by
    intro p h1 h2
    have hj : p / 8 < (WriteFixedBitSet vec vec.length).length := by omega
    rw [List.getD_eq_getElem _ _ hj, hW.testBit _ hj _ (Nat.mod_lt p (by decide)), Nat.div_add_mod]
    simp [h1]
  rw [ReadFixedBitSet_run hW.length, if_neg ((lastByte_check_iff hW.length).mpr hclear), hvec]

theorem Ensures.ReadFixedBitSet (size : Nat) : Ensures (ReadFixedBitSet size) (·.length = size) := by
  unfold DashCore.ReadFixedBitSet
  refine Ensures.bind_any fun vBytes => ?_
  intro s s' vec h
  simp only [] at h
  split at h
  · split at h
    · cases h
    · cases h
      simp
  · cases h
    simp

theorem WriteFixedBitSet_of_read {size : Nat} {bytes : List UInt8} (hlen : bytes.length = (size + 7) / 8)
    (hclear : ∀ p, size ≤ p → p < 8 * bytes.length → (bytes.getD (p / 8) 0).toNat.testBit (p % 8) = false) :
    WriteFixedBitSet ((List.range size).map fun p => (bytes.getD (p / 8) 0).toNat.testBit (p % 8)) size =
      bytes := by
  set vec := (List.range size).map fun p => (bytes.getD (p / 8) 0).toNat.testBit (p % 8) with hvec
  have hW : BitsBelow vec ((size + 7) / 8) size (WriteFixedBitSet vec size) := by
    have hmin : min size vec.length = size := by simp [hvec]
    unfold WriteFixedBitSet
    rw [hmin]
    exact BitsBelow.foldl vec _ _
  apply List.ext_getElem (by rw [hW.length, hlen])
  intro j hj hj'
  apply UInt8.toNat_inj.mp
  apply Nat.eq_of_testBit_eq
  intro k
  by_cases hk : k < 8
  · rw [hW.testBit j hj k hk]
    by_cases hp : 8 * j + k < size
    · have hread : vec.getD (8 * j + k) false = bytes[j].toNat.testBit k := by
        rw [hvec, List.getD_eq_getElem?_getD, List.getElem?_map, List.getElem?_range hp,
          Option.map_some, Option.getD_some, show (8 * j + k) / 8 = j by omega,
          show (8 * j + k) % 8 = k by omega, List.getD_eq_getElem _ _ hj']
      rw [hread, decide_eq_true hp, Bool.true_and]
    · have hhigh := hclear (8 * j + k) (by omega) (by omega)
      rw [show (8 * j + k) / 8 = j by omega, show (8 * j + k) % 8 = k by omega,
        List.getD_eq_getElem _ _ hj'] at hhigh
      simp [hp, hhigh]
  · rw [toNat_testBit_high _ (by omega), toNat_testBit_high _ (by omega)]

theorem ReadFixedBitSet_ok_iff {size : Nat} {bytes : List UInt8} (hlen : bytes.length = (size + 7) / 8)
    (rest : List UInt8) :
    (∃ r, (ReadFixedBitSet size).run (bytes ++ rest) = .ok r) ↔
      ∀ p, size ≤ p → p < 8 * bytes.length → (bytes.getD (p / 8) 0).toNat.testBit (p % 8) = false := by
  rw [ReadFixedBitSet_run hlen, ← lastByte_check_iff hlen]
  split <;> rename_i hcheck
  · exact ⟨fun ⟨_, h⟩ => (nomatch h), fun h => absurd hcheck h⟩
  · exact ⟨fun _ => hcheck, fun _ => ⟨_, rfl⟩⟩

theorem WriteFixedBitSet_of_ReadFixedBitSet {size : Nat} {bytes : List UInt8}
    (hlen : bytes.length = (size + 7) / 8) {rest rest' : List UInt8} {vec : List Bool}
    (h : (ReadFixedBitSet size).run (bytes ++ rest) = .ok (vec, rest')) :
    rest' = rest ∧ WriteFixedBitSet vec size = bytes := by
  rw [ReadFixedBitSet_run hlen] at h
  split at h
  · cases h
  · rename_i hcheck
    cases h
    exact ⟨rfl, WriteFixedBitSet_of_read hlen ((lastByte_check_iff hlen).mp hcheck)⟩

/-- `DynamicBitSetFormatter::Ser` (`DYNBITSET`): the size, then the fixed bitset of that size. -/
def WriteDynBitSet (vec : List Bool) : List UInt8 :=
  WriteCompactSize vec.length ++ WriteFixedBitSet vec vec.length

/-- `DynamicBitSetFormatter::Unser`: `ReadFixedBitSet(s, vec, ReadCompactSize(s))`, the size read
with its range check. -/
def ReadDynBitSet : Reader (List Bool) := do
  let size ← ReadCompactSize true
  ReadFixedBitSet size

theorem ReadDynBitSet_reads_back {vec : List Bool} (h : vec.length ≤ MAX_SIZE) :
    ReadsBack WriteDynBitSet ReadDynBitSet vec := by
  intro rest
  rw [WriteDynBitSet, List.append_assoc, ReadDynBitSet,
    (ReadCompactSize_reads_back true h).bind, ReadFixedBitSet_WriteFixedBitSet]

theorem ReadDynBitSet_too_large {vec : List Bool} (h : MAX_SIZE < vec.length)
    (h64 : vec.length < 256 ^ 8) (rest : List UInt8) :
    ReadDynBitSet.run (WriteDynBitSet vec ++ rest) = .error "ReadCompactSize(): size too large" := by
  rw [WriteDynBitSet, List.append_assoc, ReadDynBitSet,
    run_bind_of_error (ReadCompactSize_too_large h h64 _)]

theorem Ensures.ReadDynBitSet : Ensures ReadDynBitSet (·.length ≤ MAX_SIZE) :=
  Ensures.bind Ensures.ReadCompactSize fun size hsize =>
    fun s s' vec h => (Ensures.ReadFixedBitSet size s s' vec h).symm ▸ hsize

/-- `ReadAutoBitSet(s, item)`: a flag byte, then the fixed or the VarInts form; with the
indices the VarInts form wrote (the fixed form writes every index below `size`). -/
def ReadAutoBitSet (size : Nat) : Reader (List Bool × List Int) := do
  let isVarInts ← ser_readdata8
  if isVarInts ≠ 0 ∧ isVarInts ≠ 1 then
    throw "invalid value for isVarInts byte"
  if isVarInts = 0 then
    let vec ← ReadFixedBitSet size
    pure (vec, (List.range size).map Int.ofNat)
  else
    let st ← ReadFixedVarIntsBitSet size
    pure (st.vec, st.writes)

def GetSizeOfFixedBitSet (size : Nat) : Nat := (size + 7) / 8 % 2 ^ 32

/-- `WriteAutoBitSet(s, item)`: a flag byte, then the fixed form where it is strictly shorter
than the VarInts form, and the VarInts form otherwise; `none` where an `assert` fails. The
`GetSerializeSize` of a form is the number of bytes it writes. -/
def WriteAutoBitSet (item : List Bool × Nat) : Option (List UInt8) :=
  let vec := item.1
  let size := item.2
  if vec.length ≠ size then none
  else
    let size1 := (WriteFixedBitSet vec size).length
    -- `CFixedVarIntsBitSet::Serialize` passes `vec.size()`
    let size2 := (WriteFixedVarIntsBitSet vec vec.length).length
    if size1 ≠ GetSizeOfFixedBitSet size then none
    else if size1 < size2 then some (ser_writedata8 0 ++ WriteFixedBitSet vec vec.length)
    else some (ser_writedata8 1 ++ WriteFixedVarIntsBitSet vec vec.length)

theorem WriteAutoBitSet_eq {vec : List Bool} (hlen : (vec.length + 7) / 8 < 2 ^ 32) :
    WriteAutoBitSet (vec, vec.length) =
      if (WriteFixedBitSet vec vec.length).length < (WriteFixedVarIntsBitSet vec vec.length).length
      then some (ser_writedata8 0 ++ WriteFixedBitSet vec vec.length)
      else some (ser_writedata8 1 ++ WriteFixedVarIntsBitSet vec vec.length) := by
  have hsize : (WriteFixedBitSet vec vec.length).length = GetSizeOfFixedBitSet vec.length := by
    rw [length_WriteFixedBitSet, GetSizeOfFixedBitSet, Nat.mod_eq_of_lt hlen]
  simp only [WriteAutoBitSet, ne_eq, not_true_eq_false, if_false, hsize]

theorem ReadAutoBitSet_fixed (size : Nat) (s : List UInt8) :
    (ReadAutoBitSet size).run (ser_writedata8 0 ++ s) =
      (ReadFixedBitSet size >>= fun vec => pure (vec, (List.range size).map Int.ofNat)).run s := by
  rw [ReadAutoBitSet, ser_writedata8, List.singleton_append, run_bind_of_ok (ser_readdata8_cons _ _)]
  dsimp only
  rw [if_neg (by decide), if_pos rfl]

theorem ReadAutoBitSet_varints (size : Nat) (s : List UInt8) :
    (ReadAutoBitSet size).run (ser_writedata8 1 ++ s) =
      (ReadFixedVarIntsBitSet size >>= fun st => pure (st.vec, st.writes)).run s := by
  rw [ReadAutoBitSet, ser_writedata8, List.singleton_append, run_bind_of_ok (ser_readdata8_cons _ _)]
  dsimp only
  rw [if_neg (by decide), if_neg (by decide)]

structure CSigSharesInv where
  sessionId : UInt32
  inv : List Bool
deriving DecidableEq, Repr

/-- `CSigSharesInv`'s `SERIALIZE_METHODS` when reading: `VARINT(sessionId)`,
`COMPACTSIZE(invSize)`, then `AUTOBITSET` of that size; with the indices the bitset wrote. -/
def CSigSharesInv.Unserialize : Reader (CSigSharesInv × List Int) := do
  let sessionId ← ReadVarInt
  let invSize ← ReadCompactSize true
  let (inv, writes) ← ReadAutoBitSet invSize
  pure (⟨sessionId, inv⟩, writes)

theorem ReadFixedVarIntsBitSetStep_eq_ok {size : Nat} {st st' : VarIntsBitSet} {offset : UInt32}
    (h : ReadFixedVarIntsBitSetStep size st offset = .ok st') :
    ∃ idx, idx < int32 size ∧ (st.last ≠ -1 → st.last < idx) ∧
      st' = ⟨setBit st.vec idx, idx, st.writes ++ [idx]⟩ := by
  unfold ReadFixedVarIntsBitSetStep at h
  dsimp only at h
  split at h
  · cases h
  · rename_i hbound
    split at h
    · cases h
    · rename_i hover
      cases h
      refine ⟨_, by omega, fun hne => ?_, rfl⟩
      have hgt := not_and.mp hover hne
      omega

namespace VarIntsBitSet

/-- What the loop of `ReadFixedVarIntsBitSet` keeps: the vector has `size` bits, set exactly at
the nonnegative indices written; each index written is below `size`; and an index written after
a nonnegative one is greater than it, which `last` carries from one write to the next. -/
structure Inv (size : Nat) (st : VarIntsBitSet) : Prop where
  length : st.vec.length = size
  bits : ∀ i : Nat, st.vec.getD i false = true ↔ (i : Int) ∈ st.writes
  lt_size : ∀ w ∈ st.writes, w < size
  increasing : st.writes.Pairwise (fun a b => 0 ≤ a → a < b)
  le_last : ∀ w ∈ st.writes, 0 ≤ w → w ≤ st.last

theorem inv_init (size : Nat) : Inv size ⟨List.replicate size false, -1, []⟩ where
  length := List.length_replicate
  bits i := by
    by_cases hi : i < size <;> simp [List.getD_eq_getElem?_getD, hi]
  lt_size := by simp
  increasing := List.Pairwise.nil
  le_last := by simp

theorem length_setBit (vec : List Bool) (idx : Int) : (setBit vec idx).length = vec.length := by
  unfold setBit
  split <;> simp

theorem getD_setBit {vec : List Bool} {idx : Int} (hidx : idx < vec.length) (i : Nat) :
    (setBit vec idx).getD i false = true ↔ vec.getD i false = true ∨ (i : Int) = idx := by
  unfold setBit
  split
  · rw [List.getD_eq_getElem?_getD, List.getD_eq_getElem?_getD, List.getElem?_set]
    by_cases hi : idx.toNat = i
    · have hlt : i < vec.length := by omega
      simp [hi, hlt]
      omega
    · simp only [hi, if_false]
      constructor
      · exact Or.inl
      · rintro (h | h)
        · exact h
        · omega
  · simp only [iff_self_or]
    omega

theorem Inv.write {size : Nat} {st : VarIntsBitSet} (hst : Inv size st) {idx : Int}
    (hlt : idx < size) (hlast : st.last ≠ -1 → st.last < idx) :
    Inv size ⟨setBit st.vec idx, idx, st.writes ++ [idx]⟩ where
  length := by
    show (setBit st.vec idx).length = size
    rw [length_setBit, hst.length]
  bits i := by
    rw [getD_setBit (by rw [hst.length]; exact hlt), hst.bits i]
    simp
  lt_size w hw := by
    rcases List.mem_append.mp hw with hw | hw
    · exact hst.lt_size w hw
    · simp only [List.mem_singleton] at hw
      rw [hw]
      exact hlt
  increasing := by
    refine List.pairwise_append.mpr ⟨hst.increasing, List.pairwise_singleton _ _, ?_⟩
    intro w hw b hb h0
    simp only [List.mem_singleton] at hb
    subst hb
    have hle := hst.le_last w hw h0
    have hgt := hlast (by omega)
    omega
  le_last w hw h0 := by
    rcases List.mem_append.mp hw with hw | hw
    · have hle := hst.le_last w hw h0
      have hgt := hlast (by omega)
      show w ≤ idx
      omega
    · simp only [List.mem_singleton] at hw
      show w ≤ idx
      omega

def setAll (st : VarIntsBitSet) (is : List Nat) : VarIntsBitSet :=
  is.foldl (fun st (i : Nat) => ⟨setBit st.vec i, i, st.writes ++ [(i : Int)]⟩) st

theorem writes_setAll (st : VarIntsBitSet) (is : List Nat) :
    (st.setAll is).writes = st.writes ++ is.map (fun i : Nat => (i : Int)) := by
  induction is generalizing st with
  | nil => simp [setAll]
  | cons i is ih =>
    simp only [setAll, List.foldl_cons] at ih ⊢
    rw [ih]
    simp

end VarIntsBitSet

theorem int32_of_lt {x : Int} (h0 : -2 ^ 31 ≤ x) (h1 : x < 2 ^ 31) : int32 x = x := by
  unfold int32
  omega

theorem ReadFixedVarIntsBitSetLoop_inv {size : Nat} (hsize : size < 2 ^ 31)
    {st st' : VarIntsBitSet} {s s' : List UInt8} (hst : st.Inv size)
    (h : ReadFixedVarIntsBitSetLoop size st s = .ok (st', s')) : st'.Inv size := by
  induction st, s using ReadFixedVarIntsBitSetLoop.induct size with
  | case1 st s e hr =>
    rw [ReadFixedVarIntsBitSetLoop, hr] at h
    cases h
  | case2 st s s'' hr =>
    rw [ReadFixedVarIntsBitSetLoop, hr] at h
    simp only [↓reduceIte, Except.ok.injEq, Prod.mk.injEq] at h
    rw [← h.1]
    exact hst
  | case3 st s offset s'' hr hzero e hstep =>
    rw [ReadFixedVarIntsBitSetLoop, hr] at h
    simp only [if_neg hzero, hstep] at h
    cases h
  | case4 st s offset s'' hr hzero st'' hstep ih =>
    rw [ReadFixedVarIntsBitSetLoop, hr] at h
    simp only [if_neg hzero, hstep] at h
    obtain ⟨idx, hlt, hlast, rfl⟩ := ReadFixedVarIntsBitSetStep_eq_ok hstep
    have hsz : int32 size = size := int32_of_lt (by omega) (by omega)
    exact ih (hst.write (hsz ▸ hlt) hlast) h

theorem ReadFixedVarIntsBitSet_inv {size : Nat} (hsize : size ≤ MAX_SIZE)
    {s s' : List UInt8} {st : VarIntsBitSet}
    (h : (ReadFixedVarIntsBitSet size).run s = .ok (st, s')) : st.Inv size :=
  ReadFixedVarIntsBitSetLoop_inv (by unfold MAX_SIZE at hsize; omega)
    (VarIntsBitSet.inv_init size) h

/-- A signature-share inventory of 8 bits in the VarInts form whose first offset is
`0xFFFFFFFF` (the VarInt bytes `8E FE FE FE 7F`): `-1 + 0xFFFFFFFF` is `-2` as an `int32_t`,
below `size`, and the overflow check is skipped while `last` is `-1`; the read succeeds after
writing `vec[-2]`, outside the vector. -/
theorem CSigSharesInv_Unserialize_writes_index_minus_two :
    CSigSharesInv.Unserialize.run [0x00, 0x08, 0x01, 0x8E, 0xFE, 0xFE, 0xFE, 0x7F, 0x00] =
      .ok ((⟨0, List.replicate 8 false⟩, [-2]), []) := by
  decide +kernel

theorem ReadFixedVarIntsBitSetLoop_of_read {size : Nat} {st : VarIntsBitSet} {s s' : List UInt8}
    {offset : UInt32} (hr : ReadVarInt.run s = .ok (offset, s')) :
    ReadFixedVarIntsBitSetLoop size st s =
      if offset = 0 then .ok (st, s')
      else match ReadFixedVarIntsBitSetStep size st offset with
        | .error e => .error e
        | .ok st' => ReadFixedVarIntsBitSetLoop size st' s' := by
  rw [ReadFixedVarIntsBitSetLoop]
  split
  · rename_i e h
    rw [hr] at h
    cases h
  · rename_i offset' s'' h
    rw [hr] at h
    cases h
    rfl

theorem ReadFixedVarIntsBitSetStep_offset {size : Nat} (hsize : size < 2 ^ 31)
    {st : VarIntsBitSet} {i : Nat} (hlast : st.last < i) (hlast' : -1 ≤ st.last) (hi : i < size) :
    ReadFixedVarIntsBitSetStep size st (UInt32.ofNat (i - st.last).toNat) =
      .ok ⟨setBit st.vec i, i, st.writes ++ [(i : Int)]⟩ := by
  have hoff : ((UInt32.ofNat (i - st.last).toNat).toNat : Int) = i - st.last := by
    rw [UInt32.toNat_ofNat', Nat.mod_eq_of_lt (by omega)]
    omega
  have hidx : int32 (st.last + (UInt32.ofNat (i - st.last).toNat).toNat) = i := by
    rw [hoff, show st.last + (i - st.last) = (i : Int) by omega]
    exact int32_of_lt (by omega) (by omega)
  have hsz : int32 size = size := int32_of_lt (by omega) (by omega)
  unfold ReadFixedVarIntsBitSetStep
  simp only [hidx, hsz]
  rw [if_neg (by omega), if_neg (by omega)]

theorem ReadFixedVarIntsBitSetLoop_Write {size : Nat} (hsize : size < 2 ^ 31) (vec : List Bool)
    (is : List Nat) (st : VarIntsBitSet) (hsorted : is.Pairwise (· < ·))
    (hbound : ∀ i ∈ is, st.last < i ∧ i < size) (hlast : -1 ≤ st.last) (rest : List UInt8) :
    ReadFixedVarIntsBitSetLoop size st
        (WriteFixedVarIntsBitSetLoop vec st.last is ++ (WriteVarInt 0 ++ rest)) =
      .ok (st.setAll (is.filter (vec.getD · false)), rest) := by
  induction is generalizing st with
  | nil =>
    rw [WriteFixedVarIntsBitSetLoop, List.nil_append,
      ReadFixedVarIntsBitSetLoop_of_read (ReadVarInt_reads_back 0 rest), if_pos rfl]
    rfl
  | cons i is ih =>
    obtain ⟨hi, hsorted⟩ := List.pairwise_cons.mp hsorted
    obtain ⟨hlasti, hisize⟩ := hbound i List.mem_cons_self
    by_cases hbit : vec.getD i false
    · have hoff : UInt32.ofNat (i - st.last).toNat ≠ 0 := by
        intro h0
        have := congrArg UInt32.toNat h0
        rw [UInt32.toNat_ofNat', Nat.mod_eq_of_lt (by omega)] at this
        simp at this
        omega
      rw [WriteFixedVarIntsBitSetLoop, if_pos hbit, List.append_assoc,
        ReadFixedVarIntsBitSetLoop_of_read (ReadVarInt_reads_back _ _), if_neg hoff,
        ReadFixedVarIntsBitSetStep_offset hsize hlasti hlast hisize]
      simp only [List.filter_cons, hbit, if_true]
      exact ih ⟨setBit st.vec i, i, st.writes ++ [(i : Int)]⟩ hsorted
        (fun j hj => ⟨by simpa using hi j hj, (hbound j (List.mem_cons_of_mem i hj)).2⟩) (by simp only []; omega)
    · rw [WriteFixedVarIntsBitSetLoop, if_neg hbit]
      simp only [List.filter_cons, hbit, Bool.false_eq_true, if_false]
      exact ih st hsorted (fun j hj => hbound j (List.mem_cons_of_mem i hj)) hlast

theorem ReadFixedVarIntsBitSet_WriteFixedVarIntsBitSet {vec : List Bool} (hlen : vec.length < 2 ^ 31)
    (rest : List UInt8) :
    ∃ st : VarIntsBitSet, (ReadFixedVarIntsBitSet vec.length).run
      (WriteFixedVarIntsBitSet vec vec.length ++ rest) = .ok (st, rest) ∧ st.vec = vec := by
  have hrange : (int32 vec.length).toNat = vec.length := by
    rw [int32_of_lt (by omega) (by omega)]
    rfl
  have hloop := ReadFixedVarIntsBitSetLoop_Write hlen vec (List.range vec.length)
    ⟨List.replicate vec.length false, -1, []⟩ List.pairwise_lt_range
    (fun i hi => ⟨by simp only []; omega, List.mem_range.mp hi⟩) (Int.le_refl _) rest
  refine ⟨(⟨List.replicate vec.length false, -1, []⟩ : VarIntsBitSet).setAll
    ((List.range vec.length).filter (vec.getD · false)), ?_, ?_⟩
  · unfold WriteFixedVarIntsBitSet
    rw [hrange, List.append_assoc]
    exact hloop
  · -- the read sets exactly the bits it wrote, and it wrote the set bits of `vec`
    have hinv := ReadFixedVarIntsBitSetLoop_inv hlen (VarIntsBitSet.inv_init _) hloop
    apply List.ext_getElem hinv.length
    intro i hi hi'
    have hbit := hinv.bits i
    rw [VarIntsBitSet.writes_setAll, List.getD_eq_getElem _ _ hi] at hbit
    rw [Bool.eq_iff_iff, hbit]
    simp only [List.nil_append, List.mem_map, Int.natCast_inj, exists_eq_right, List.mem_filter,
      List.mem_range, hi', true_and, List.getD_eq_getElem _ _ hi']

theorem ReadAutoBitSet_WriteAutoBitSet {vec : List Bool} (hlen : vec.length < 2 ^ 31) :
    ∃ bytes, WriteAutoBitSet (vec, vec.length) = some bytes ∧
      ∀ rest, ∃ writes, (ReadAutoBitSet vec.length).run (bytes ++ rest) = .ok ((vec, writes), rest) := by
  rw [WriteAutoBitSet_eq (by omega)]
  split
  · refine ⟨_, rfl, fun rest => ⟨(List.range vec.length).map Int.ofNat, ?_⟩⟩
    rw [List.append_assoc, ReadAutoBitSet_fixed,
      run_bind_of_ok (ReadFixedBitSet_WriteFixedBitSet vec rest)]
    rfl
  · refine ⟨_, rfl, fun rest => ?_⟩
    obtain ⟨st, hst, hvec⟩ := ReadFixedVarIntsBitSet_WriteFixedVarIntsBitSet hlen rest
    refine ⟨st.writes, ?_⟩
    rw [List.append_assoc, ReadAutoBitSet_varints, run_bind_of_ok hst, hvec]
    rfl

theorem WriteFixedVarIntsBitSet_of_int32_nonpos {vec : List Bool} (h : int32 vec.length ≤ 0)
    (size : Nat) : WriteFixedVarIntsBitSet vec size = WriteVarInt 0 := by
  rw [WriteFixedVarIntsBitSet, Int.toNat_of_nonpos h, List.range_zero, WriteFixedVarIntsBitSetLoop,
    List.nil_append]

theorem ReadFixedVarIntsBitSet_stopper (size : Nat) (rest : List UInt8) :
    (ReadFixedVarIntsBitSet size).run (WriteVarInt 0 ++ rest) =
      .ok (⟨List.replicate size false, -1, []⟩, rest) := by
  show ReadFixedVarIntsBitSetLoop size _ _ = _
  rw [ReadFixedVarIntsBitSetLoop_of_read (ReadVarInt_reads_back 0 rest), if_pos rfl]

theorem WriteAutoBitSet_of_int32_nonpos (vec : List Bool) (hpos : 0 < vec.length)
    (hlen : (vec.length + 7) / 8 < 2 ^ 32) (h : int32 vec.length ≤ 0) :
    WriteAutoBitSet (vec, vec.length) = some (ser_writedata8 1 ++ WriteVarInt 0) := by
  have hvar : (WriteFixedVarIntsBitSet vec vec.length).length = 1 := by
    rw [WriteFixedVarIntsBitSet_of_int32_nonpos h, WriteVarInt_zero, List.length_singleton]
  rw [WriteAutoBitSet_eq hlen, if_neg (by rw [length_WriteFixedBitSet, hvar]; omega),
    WriteFixedVarIntsBitSet_of_int32_nonpos h]

theorem large_bitsets_not_read_back :
    WriteAutoBitSet (List.replicate (2 ^ 31) true, 2 ^ 31) = some [1, 0] ∧
      (ReadAutoBitSet (2 ^ 31)).run [1, 0] = .ok ((List.replicate (2 ^ 31) false, []), []) ∧
      ReadDynBitSet.run (WriteDynBitSet (List.replicate (MAX_SIZE + 1) false)) =
        .error "ReadCompactSize(): size too large" := by
  refine ⟨?_, ?_, ?_⟩
  · have h := WriteAutoBitSet_of_int32_nonpos (List.replicate (2 ^ 31) true)
      (by rw [List.length_replicate]; decide) (by rw [List.length_replicate]; decide)
      (by rw [List.length_replicate]; decide)
    rw [List.length_replicate, WriteVarInt_zero] at h
    exact h
  · have h := ReadFixedVarIntsBitSet_stopper (2 ^ 31) []
    rw [show [(1 : UInt8), 0] = ser_writedata8 1 ++ (WriteVarInt 0 ++ []) by rw [WriteVarInt_zero]; rfl,
      ReadAutoBitSet_varints, run_bind_of_ok h]
    rfl
  · have hlen : MAX_SIZE < (List.replicate (MAX_SIZE + 1) false).length := by
      rw [List.length_replicate]
      exact Nat.lt_succ_self _
    have h64 : (List.replicate (MAX_SIZE + 1) false).length < 256 ^ 8 := by
      rw [List.length_replicate]
      unfold MAX_SIZE
      decide
    have h : ReadDynBitSet.run (WriteDynBitSet (List.replicate (MAX_SIZE + 1) false) ++ []) =
        .error "ReadCompactSize(): size too large" :=
      ReadDynBitSet_too_large hlen h64 []
    rw [List.append_nil] at h
    exact h


theorem bitset_encoders_round_trip :
    (∀ vec : List Bool, vec.length < 2 ^ 31 → ∃ bytes, WriteAutoBitSet (vec, vec.length) = some bytes ∧
      ∀ rest, ∃ writes, (ReadAutoBitSet vec.length).run (bytes ++ rest) = .ok ((vec, writes), rest)) ∧
    (∀ vec : List Bool, vec.length ≤ MAX_SIZE → ReadsBack WriteDynBitSet ReadDynBitSet vec) ∧
    (∀ (size : Nat) (bytes rest : List UInt8), bytes.length = (size + 7) / 8 →
      ((∃ r, (ReadFixedBitSet size).run (bytes ++ rest) = .ok r) ↔
        ∀ p, size ≤ p → p < 8 * bytes.length → (bytes.getD (p / 8) 0).toNat.testBit (p % 8) = false) ∧
      ∀ vec rest', (ReadFixedBitSet size).run (bytes ++ rest) = .ok (vec, rest') →
        rest' = rest ∧ WriteFixedBitSet vec size = bytes) :=
  ⟨fun _ hlen => ReadAutoBitSet_WriteAutoBitSet hlen,
    fun _ hlen => ReadDynBitSet_reads_back hlen,
    fun _ _ rest hlen => ⟨ReadFixedBitSet_ok_iff hlen rest,
      fun _ _ h => WriteFixedBitSet_of_ReadFixedBitSet hlen h⟩⟩

theorem small_bitsets_round_trip :
    (∃ bytes, WriteAutoBitSet ([true, false, true], 3) = some bytes ∧
      ∀ rest, ∃ writes, (ReadAutoBitSet 3).run (bytes ++ rest) = .ok (([true, false, true], writes), rest)) ∧
    ReadsBack WriteDynBitSet ReadDynBitSet [false, true] ∧
    ((∃ r, (ReadFixedBitSet 3).run ([0x05] ++ []) = .ok r) ↔
      ∀ p, 3 ≤ p → p < 8 * [(0x05 : UInt8)].length →
        ([(0x05 : UInt8)].getD (p / 8) 0).toNat.testBit (p % 8) = false) :=
  ⟨bitset_encoders_round_trip.1 _ (by decide), bitset_encoders_round_trip.2.1 _ (by decide),
    (bitset_encoders_round_trip.2.2 3 [0x05] [] rfl).1⟩

end DashCore
