import DashCore.Serialize.ByteReader

/-! The integer encodings of serialize.h as a `CDataStream` reads and writes them:
little-endian fixed-width integers, the CompactSize count and the MSB base-128 VarInt; and the
formats built on them, vectors, booleans and the fixed-size blobs of hashes and keys, each
writer with the fact that its reader reads the value back. -/
namespace DashCore

open ByteReader

/-- The message `CDataStream::read` throws when fewer bytes remain than it is asked for. -/
def CDataStream_eod : String := "CDataStream::read(): end of data"

def MAX_SIZE : Nat := 0x02000000

def leValue (bs : List UInt8) : Nat :=
  bs.foldr (fun b acc => b.toNat + 256 * acc) 0

def ser_readdata8 : Reader UInt8 := readByte CDataStream_eod

/-- `ser_readdata16`, `ser_readdata32`, `ser_readdata64`: `n` bytes read at once, little-endian. -/
def ser_readdataLE (n : Nat) : Reader Nat := do
  let bs ← readBytes CDataStream_eod n
  pure (leValue bs)

/-- `ReadCompactSize(is, range_check)`: one byte, or a marker and 2, 4 or 8 bytes holding a
value that the shorter forms could not hold. -/
def ReadCompactSize (range_check : Bool) : Reader Nat := do
  let chSize ← ser_readdata8
  let nSizeRet ←
    if chSize < 253 then pure chSize.toNat
    else if chSize = 253 then do
      let n ← ser_readdataLE 2
      if n < 253 then throw "non-canonical ReadCompactSize()" else pure n
    else if chSize = 254 then do
      let n ← ser_readdataLE 4
      if n < 0x10000 then throw "non-canonical ReadCompactSize()" else pure n
    else do
      let n ← ser_readdataLE 8
      if n < 0x100000000 then throw "non-canonical ReadCompactSize()" else pure n
  if range_check && decide (nSizeRet > MAX_SIZE) then
    throw "ReadCompactSize(): size too large"
  pure nSizeRet

/-- The loop of `ReadVarInt<Stream, VarIntMode::DEFAULT, uint32_t>` from the value `n` read so
far: each byte brings seven bits, and each byte with the continuation bit one more. -/
def ReadVarIntLoop (n : UInt32) : List UInt8 → Except String (UInt32 × List UInt8)
  | [] => .error CDataStream_eod
  | chData :: rest =>
    if n > (0xFFFFFFFF : UInt32) >>> 7 then .error "ReadVarInt(): size too large"
    else
      let n := (n <<< 7) ||| (chData.toUInt32 &&& 0x7F)
      if chData &&& 0x80 != 0 then
        if n = 0xFFFFFFFF then .error "ReadVarInt(): size too large"
        else ReadVarIntLoop (n + 1) rest
      else .ok (n, rest)

def ReadVarInt : Reader UInt32 := fun s => ReadVarIntLoop 0 s

theorem ReadVarIntLoop_consumes {n : UInt32} {s s' : List UInt8} {a : UInt32}
    (h : ReadVarIntLoop n s = .ok (a, s')) : s'.length < s.length := by
  induction s generalizing n with
  | nil => cases h
  | cons chData rest ih =>
    simp only [ReadVarIntLoop] at h
    split at h
    · cases h
    · split at h
      · split at h
        · cases h
        · exact Nat.lt_succ_of_lt (ih h)
      · cases h
        simp

theorem ReadVarInt_consumes : Consumes ReadVarInt :=
  fun h => ReadVarIntLoop_consumes h

/-- The bytes of `WriteVarInt<Stream, VarIntMode::DEFAULT, uint32_t>` in the order its loop
fills `tmp`: seven bits a byte, least significant first, each byte but the first with the
continuation bit, and one taken off before each shift (the "minus-one trick"). -/
def WriteVarIntTmp (n len : Nat) : List UInt8 :=
  let b := UInt8.ofNat (n % 128 ||| (if len ≠ 0 then 0x80 else 0))
  if n ≤ 0x7F then [b] else b :: WriteVarIntTmp (n / 128 - 1) (len + 1)
termination_by n
decreasing_by omega

/-- `WriteVarInt<Stream, VarIntMode::DEFAULT, uint32_t>(os, n)`: `tmp` from its last byte down. -/
def WriteVarInt (n : UInt32) : List UInt8 := (WriteVarIntTmp n.toNat 0).reverse

theorem WriteVarInt_zero : WriteVarInt 0 = [0] := by
  rw [WriteVarInt, WriteVarIntTmp, if_pos (by decide)]
  rfl

theorem varint_byte_cont : ∀ r : Fin 128,
    ((UInt8.ofNat (r.val ||| 0x80)).toUInt32 &&& 0x7F).toNat = r.val ∧
      (UInt8.ofNat (r.val ||| 0x80) &&& 0x80 != 0) = true := by decide

theorem varint_byte_last : ∀ r : Fin 128,
    ((UInt8.ofNat r.val).toUInt32 &&& 0x7F).toNat = r.val ∧
      (UInt8.ofNat r.val &&& 0x80 != 0) = false := by decide

theorem toNat_shiftLeft_or {n : UInt32} {m : UInt32} (hn : n.toNat ≤ 0x1FFFFFF) (hm : m.toNat < 128) :
    ((n <<< 7) ||| m).toNat = n.toNat * 128 + m.toNat := by
  rw [UInt32.toNat_or, UInt32.toNat_shiftLeft]
  have h7 : (7 : UInt32).toNat % 32 = 7 := rfl
  rw [h7, Nat.mod_eq_of_lt (by rw [Nat.shiftLeft_eq]; omega), ← Nat.shiftLeft_add_eq_or_of_lt hm,
    Nat.shiftLeft_eq]

theorem not_gt_shiftRight {n : UInt32} (hn : n.toNat ≤ 0x1FFFFFF) :
    ¬ n > (0xFFFFFFFF : UInt32) >>> 7 := by
  rw [gt_iff_lt, UInt32.lt_iff_toNat_lt]
  have hs : ((0xFFFFFFFF : UInt32) >>> 7).toNat = 0x1FFFFFF := rfl
  omega

theorem ReadVarIntLoop_cont {n : UInt32} (hn : n.toNat ≤ 0x1FFFFFF) (r : Fin 128)
    (hmax : n.toNat * 128 + r.val < 0xFFFFFFFF) (rest : List UInt8) :
    ReadVarIntLoop n (UInt8.ofNat (r.val ||| 0x80) :: rest) =
      ReadVarIntLoop (UInt32.ofNat (n.toNat * 128 + r.val + 1)) rest := by
  obtain ⟨hbits, hcont⟩ := varint_byte_cont r
  have hx := toNat_shiftLeft_or (m := (UInt8.ofNat (r.val ||| 0x80)).toUInt32 &&& 0x7F) hn
    (by rw [hbits]; exact r.isLt)
  rw [hbits] at hx
  have hne : ((n <<< 7) ||| ((UInt8.ofNat (r.val ||| 0x80)).toUInt32 &&& 0x7F)) ≠ 0xFFFFFFFF := by
    intro h
    rw [h] at hx
    exact absurd hx (by simp only [UInt32.reduceToNat]; omega)
  rw [ReadVarIntLoop, if_neg (not_gt_shiftRight hn)]
  simp only [hcont, if_true, if_neg hne]
  congr 1
  apply UInt32.toNat_inj.mp
  rw [UInt32.toNat_add, hx, UInt32.toNat_ofNat']
  simp

theorem ReadVarIntLoop_last {n : UInt32} (hn : n.toNat ≤ 0x1FFFFFF) (r : Fin 128)
    (rest : List UInt8) :
    ReadVarIntLoop n (UInt8.ofNat r.val :: rest) = .ok (UInt32.ofNat (n.toNat * 128 + r.val), rest) := by
  obtain ⟨hbits, hcont⟩ := varint_byte_last r
  have hx := toNat_shiftLeft_or (m := (UInt8.ofNat r.val).toUInt32 &&& 0x7F) hn
    (by rw [hbits]; exact r.isLt)
  rw [hbits] at hx
  rw [ReadVarIntLoop, if_neg (not_gt_shiftRight hn)]
  simp only [hcont, Bool.false_eq_true, if_false]
  congr 2
  apply UInt32.toNat_inj.mp
  rw [hx, UInt32.toNat_ofNat']
  have : n.toNat * 128 + r.val < 2 ^ 32 := by omega
  exact (Nat.mod_eq_of_lt this).symm

theorem ReadVarIntLoop_WriteVarIntTmp (m len : Nat) (hlen : len ≠ 0) (hm : m < 0xFFFFFFFF)
    (s : List UInt8) :
    ReadVarIntLoop 0 ((WriteVarIntTmp m len).reverse ++ s) = ReadVarIntLoop (UInt32.ofNat (m + 1)) s := by
  induction m, len using WriteVarIntTmp.induct generalizing s with
  | case1 m len hsmall =>
    rw [WriteVarIntTmp, if_pos hsmall]
    simp only [if_pos hlen, List.reverse_singleton, List.singleton_append]
    have hr := ReadVarIntLoop_cont (n := 0) (by decide) ⟨m % 128, Nat.mod_lt _ (by decide)⟩
      (by simp; omega) s
    rw [hr]
    congr 2
    simp only [UInt32.toNat_zero]
    omega
  | case2 m len hbig ih =>
    rw [WriteVarIntTmp, if_neg hbig]
    simp only [if_pos hlen, List.reverse_cons, List.append_assoc, List.singleton_append]
    rw [ih (by omega) (by omega)]
    -- the bytes before the last one leave `m / 128`, and the last one brings `m % 128` and one
    have hdiv : m / 128 - 1 + 1 = m / 128 := by omega
    have hn : (UInt32.ofNat (m / 128 - 1 + 1)).toNat = m / 128 := by
      rw [UInt32.toNat_ofNat', hdiv]
      exact Nat.mod_eq_of_lt (by omega)
    have hr := ReadVarIntLoop_cont (n := UInt32.ofNat (m / 128 - 1 + 1)) (by rw [hn]; omega)
      ⟨m % 128, Nat.mod_lt _ (by decide)⟩ (by rw [hn]; simp only; omega) s
    rw [hr, hn]
    congr 2
    simp only
    omega

theorem ReadVarInt_reads_back (v : UInt32) : ReadsBack WriteVarInt ReadVarInt v := by
  intro rest
  have hv := v.toNat_lt
  have hlow : (v.toNat % 128 ||| (if (0 : Nat) ≠ 0 then 0x80 else 0)) = v.toNat % 128 := by simp
  show ReadVarIntLoop 0 (WriteVarInt v ++ rest) = .ok (v, rest)
  rw [WriteVarInt, WriteVarIntTmp]
  by_cases hsmall : v.toNat ≤ 0x7F
  · simp only [if_pos hsmall, hlow, List.reverse_singleton, List.singleton_append]
    rw [ReadVarIntLoop_last (by decide) ⟨v.toNat % 128, Nat.mod_lt _ (by decide)⟩ rest]
    congr 2
    apply UInt32.toNat_inj.mp
    simp
    omega
  · simp only [if_neg hsmall, hlow, List.reverse_cons, List.append_assoc, List.singleton_append]
    rw [ReadVarIntLoop_WriteVarIntTmp _ 1 (by decide) (by omega)]
    have hdiv : v.toNat / 128 - 1 + 1 = v.toNat / 128 := by omega
    have hn : (UInt32.ofNat (v.toNat / 128)).toNat = v.toNat / 128 := by
      rw [UInt32.toNat_ofNat']
      exact Nat.mod_eq_of_lt (by omega)
    rw [hdiv, ReadVarIntLoop_last (by rw [hn]; omega) ⟨v.toNat % 128, Nat.mod_lt _ (by decide)⟩ rest,
      hn]
    congr 2
    apply UInt32.toNat_inj.mp
    simp
    omega

@[simp] theorem ser_readdata8_cons (b : UInt8) (rest : List UInt8) :
    ser_readdata8.run (b :: rest) = .ok (b, rest) := rfl

def ser_writedata8 (v : UInt8) : List UInt8 := [v]

/-- `ser_writedata16`, `ser_writedata32`, `ser_writedata64`: the low `n` bytes of `v`,
little-endian. -/
def ser_writedataLE : Nat → Nat → List UInt8
  | 0, _ => []
  | n + 1, v => UInt8.ofNat v :: ser_writedataLE n (v / 256)

/-- `WriteCompactSize(os, nSize)`: the shortest of the four forms that holds the value. -/
def WriteCompactSize (nSize : Nat) : List UInt8 :=
  if nSize < 253 then ser_writedata8 (UInt8.ofNat nSize)
  else if nSize ≤ 0xFFFF then ser_writedata8 253 ++ ser_writedataLE 2 nSize
  else if nSize ≤ 0xFFFFFFFF then ser_writedata8 254 ++ ser_writedataLE 4 nSize
  else ser_writedata8 255 ++ ser_writedataLE 8 nSize

@[simp] theorem length_ser_writedataLE (n v : Nat) : (ser_writedataLE n v).length = n := by
  induction n generalizing v with
  | zero => rfl
  | succ n ih => simp [ser_writedataLE, ih]

theorem leValue_ser_writedataLE (n v : Nat) : leValue (ser_writedataLE n v) = v % 256 ^ n := by
  induction n generalizing v with
  | zero => simp [ser_writedataLE, leValue, Nat.mod_one]
  | succ n ih =>
    have ih' : leValue (ser_writedataLE n (v / 256)) = v / 256 % 256 ^ n := ih (v / 256)
    simp only [leValue, ser_writedataLE, List.foldr_cons] at ih' ⊢
    rw [ih', Nat.pow_succ', Nat.mod_mul]
    simp

theorem ser_readdataLE_ser_writedataLE (n v : Nat) (rest : List UInt8) :
    (ser_readdataLE n).run (ser_writedataLE n v ++ rest) = .ok (v % 256 ^ n, rest) := by
  have h := readBytes_append CDataStream_eod (ser_writedataLE n v) rest
  rw [length_ser_writedataLE] at h
  simp only [ser_readdataLE]
  rw [run_bind_of_ok h, leValue_ser_writedataLE]
  rfl

theorem ser_readdataLE_reads_back {n v : Nat} (hv : v < 256 ^ n) :
    ReadsBack (ser_writedataLE n) (ser_readdataLE n) v := fun rest => by
  rw [ser_readdataLE_ser_writedataLE, Nat.mod_eq_of_lt hv]

theorem ReadCompactSize_marker (range_check : Bool) (m : UInt8) (n lo : Nat) {nSize : Nat}
    (hm : ¬m < 253) (hform : (if m = 253 then 2 else if m = 254 then 4 else 8) = n)
    (hlo : (if m = 253 then 253 else if m = 254 then 0x10000 else 0x100000000) = lo)
    (hv : lo ≤ nSize) (hn : nSize < 256 ^ n) (rest : List UInt8) :
    (ReadCompactSize range_check).run (m :: (ser_writedataLE n nSize ++ rest)) =
      if range_check && decide (nSize > MAX_SIZE) then .error "ReadCompactSize(): size too large"
      else .ok (nSize, rest) := by
  have hr := ser_readdataLE_reads_back hn rest
  simp only [ReadCompactSize]
  rw [run_bind_of_ok (ser_readdata8_cons m _), if_neg hm]
  split_ifs at hform hlo ⊢ with h253 h254 <;> subst hform hlo
  all_goals
    rw [run_bind_of_ok hr, if_neg (by omega)]
    simp only [pure_bind]
    split_ifs
    all_goals rfl

theorem ReadCompactSize_reads_back (range_check : Bool) {nSize : Nat} (h : nSize ≤ MAX_SIZE) :
    ReadsBack WriteCompactSize (ReadCompactSize range_check) nSize := by
  intro rest
  have hc : ¬(range_check && decide (nSize > MAX_SIZE)) = true := by simp; omega
  unfold WriteCompactSize
  split_ifs with h1 h2 h3
  · have hb : (UInt8.ofNat nSize).toNat = nSize := by simp; omega
    have hlt : UInt8.ofNat nSize < 253 := by simp [UInt8.lt_iff_toNat_lt, hb, h1]
    simp only [ReadCompactSize, ser_writedata8, List.singleton_append]
    rw [run_bind_of_ok (ser_readdata8_cons _ _), if_pos hlt]
    simp only [pure_bind, hb, if_neg hc]
    rfl
  · rw [ser_writedata8, List.singleton_append, List.cons_append,
      ReadCompactSize_marker range_check 253 2 253 (by decide) rfl rfl (by omega) (by omega) rest,
      if_neg hc]
  · rw [ser_writedata8, List.singleton_append, List.cons_append,
      ReadCompactSize_marker range_check 254 4 0x10000 (by decide) rfl rfl (by omega) (by omega)
        rest, if_neg hc]
  · unfold MAX_SIZE at h
    omega

theorem ReadCompactSize_too_large {nSize : Nat} (h : MAX_SIZE < nSize) (h64 : nSize < 256 ^ 8)
    (rest : List UInt8) :
    (ReadCompactSize true).run (WriteCompactSize nSize ++ rest) =
      .error "ReadCompactSize(): size too large" := by
  have hc : (true && decide (nSize > MAX_SIZE)) = true := by simp [h]
  unfold MAX_SIZE at h
  unfold WriteCompactSize
  rw [if_neg (by omega), if_neg (by omega)]
  split_ifs with h4
  · rw [ser_writedata8, List.singleton_append, List.cons_append,
      ReadCompactSize_marker true 254 4 0x10000 (by decide) rfl rfl (by omega) (by omega) rest,
      if_pos hc]
  · rw [ser_writedata8, List.singleton_append, List.cons_append,
      ReadCompactSize_marker true 255 8 0x100000000 (by decide) rfl rfl (by omega) h64 rest,
      if_pos hc]

theorem Ensures.ReadCompactSize : Ensures (ReadCompactSize true) (· ≤ MAX_SIZE) := by
  have hcheck : ∀ n : Nat, Ensures (if (true && decide (n > MAX_SIZE)) = true then
      (throw "ReadCompactSize(): size too large" >>= fun (_ : PUnit) => pure n) else pure n)
      (· ≤ MAX_SIZE) := by
    intro n s s' a h
    split_ifs at h with hc
    · cases h
    · cases h
      simp only [Bool.true_and, decide_eq_true_eq] at hc
      omega
  unfold DashCore.ReadCompactSize
  refine Ensures.bind_any fun chSize => ?_
  simp only []
  split_ifs
  · exact Ensures.bind_any fun n => hcheck n
  all_goals
    refine Ensures.bind_any fun n => ?_
    split_ifs
    all_goals exact Ensures.bind_any fun m => hcheck m

section Formats

variable {α : Type}

def WriteVector (w : α → List UInt8) (v : List α) : List UInt8 :=
  WriteCompactSize v.length ++ writeList w v

/-- `VectorFormatter::Unser`: the count with its range check, then that many elements, each
read into a default-constructed one. -/
def ReadVector (r : Reader α) : Reader (List α) := do
  let size ← ReadCompactSize true
  readList r size

theorem ReadVector_reads_as {β : Type} {w : α → List UInt8} {r : Reader β} {g : α → β}
    {v : List α} (hlen : v.length ≤ MAX_SIZE) (h : ∀ a ∈ v, ReadsAs w r a (g a)) :
    ReadsAs (WriteVector w) (ReadVector r) v (v.map g) := fun rest => by
  rw [WriteVector, List.append_assoc, ReadVector,
    (ReadCompactSize_reads_back true hlen).bind]
  exact readList_writeList_map h rest

theorem ReadVector_reads_back {w : α → List UInt8} {r : Reader α} {v : List α}
    (hlen : v.length ≤ MAX_SIZE) (h : ∀ a ∈ v, ReadsBack w r a) :
    ReadsBack (WriteVector w) (ReadVector r) v := by
  have hmap := ReadVector_reads_as (g := id) hlen h
  rwa [List.map_id] at hmap

@[simp] theorem WriteVector_nil (w : α → List UInt8) : WriteVector w [] = [0] := rfl

theorem ReadVector_singleton {w : α → List UInt8} {r : Reader α} {a b : α}
    {rest rest' : List UInt8} (h : r.run (w a ++ rest) = .ok (b, rest')) :
    (ReadVector r).run (WriteVector w [a] ++ rest) = .ok ([b], rest') := by
  have hn : ([a] : List α).length ≤ MAX_SIZE := by simp [MAX_SIZE]
  rw [WriteVector, List.append_assoc, ReadVector, (ReadCompactSize_reads_back true hn).bind,
    List.length_singleton, writeList_cons, writeList_nil, List.append_nil,
    readList_succ_of_ok h]
  rfl

theorem ReadVector_zero (r : Reader α) (rest : List UInt8) :
    (ReadVector r).run (0 :: rest) = .ok ([], rest) := by
  have h : (ReadCompactSize true).run (0 :: rest) = .ok (0, rest) :=
    @ReadCompactSize_reads_back true 0 (by simp [MAX_SIZE]) rest
  rw [ReadVector, run_bind_of_ok h]
  rfl

/-- `Serialize(s, bool)`: one byte; `Unserialize` reads any nonzero byte as `true`. -/
def SerializeBool (a : Bool) : List UInt8 := ser_writedata8 (if a then 1 else 0)

def UnserializeBool : Reader Bool := do
  let f ← ser_readdata8
  pure (f != 0)

theorem UnserializeBool_reads_back (a : Bool) : ReadsBack SerializeBool UnserializeBool a := by
  intro rest
  cases a <;> rfl

def SerializeUInt16 (v : UInt16) : List UInt8 := ser_writedataLE 2 v.toNat

def UnserializeUInt16 : Reader UInt16 := (UInt16.ofNat ·) <$> ser_readdataLE 2

theorem UnserializeUInt16_reads_back (v : UInt16) :
    ReadsBack SerializeUInt16 UnserializeUInt16 v := fun rest => by
  have hv : v.toNat < 256 ^ 2 := by simpa using v.toNat_lt
  rw [SerializeUInt16, UnserializeUInt16, (ser_readdataLE_reads_back hv).map]
  simp

def SerializeInt16 (v : Int16) : List UInt8 := ser_writedataLE 2 v.toUInt16.toNat

def UnserializeInt16 : Reader Int16 := (fun n => (UInt16.ofNat n).toInt16) <$> ser_readdataLE 2

theorem UnserializeInt16_reads_back (v : Int16) :
    ReadsBack SerializeInt16 UnserializeInt16 v := fun rest => by
  have hv : v.toUInt16.toNat < 256 ^ 2 := by simpa using v.toUInt16.toNat_lt
  rw [SerializeInt16, UnserializeInt16, (ser_readdataLE_reads_back hv).map]
  simp

def SerializeInt32 (v : Int32) : List UInt8 := ser_writedataLE 4 v.toUInt32.toNat

def UnserializeInt32 : Reader Int32 := (fun n => (UInt32.ofNat n).toInt32) <$> ser_readdataLE 4

theorem UnserializeInt32_reads_back (v : Int32) :
    ReadsBack SerializeInt32 UnserializeInt32 v := fun rest => by
  have hv : v.toUInt32.toNat < 256 ^ 4 := by simpa using v.toUInt32.toNat_lt
  rw [SerializeInt32, UnserializeInt32, (ser_readdataLE_reads_back hv).map]
  simp

def SerializeInt (v : Int) : List UInt8 := SerializeInt32 (Int32.ofInt v)

def UnserializeInt : Reader Int := Int32.toInt <$> UnserializeInt32

theorem UnserializeInt_reads_back {v : Int} (h0 : -2 ^ 31 ≤ v) (h1 : v < 2 ^ 31) :
    ReadsBack SerializeInt UnserializeInt v := fun rest => by
  rw [SerializeInt, UnserializeInt, (UnserializeInt32_reads_back _).map,
    Int32.toInt_ofInt_of_le h0 h1]

theorem toNat_lt_of_le_bytes {w n : Nat} (h : w ≤ 8 * n) (v : BitVec w) : v.toNat < 256 ^ n :=
  calc v.toNat < 2 ^ w := v.isLt
    _ ≤ 2 ^ (8 * n) := Nat.pow_le_pow_right (by decide) h
    _ = 256 ^ n := by rw [Nat.pow_mul]

/-- `base_blob::Serialize`: the `n` bytes of a hash or key id, least significant first. -/
def SerializeBlob {w : Nat} (n : Nat) (v : BitVec w) : List UInt8 := ser_writedataLE n v.toNat

def UnserializeBlob (w n : Nat) : Reader (BitVec w) := (BitVec.ofNat w ·) <$> ser_readdataLE n

theorem UnserializeBlob_reads_back {w n : Nat} (h : w ≤ 8 * n) (v : BitVec w) :
    ReadsBack (SerializeBlob n) (UnserializeBlob w n) v := fun rest => by
  have hv := toNat_lt_of_le_bytes h v
  rw [SerializeBlob, UnserializeBlob, (ser_readdataLE_reads_back hv).map]
  simp

def SerializeBlobBE {w : Nat} (n : Nat) (v : BitVec w) : List UInt8 :=
  (ser_writedataLE n v.toNat).reverse

def UnserializeBlobBE (w n : Nat) : Reader (BitVec w) := do
  let bs ← readBytes CDataStream_eod n
  pure (BitVec.ofNat w (leValue bs.reverse))

theorem UnserializeBlobBE_reads_back {w n : Nat} (h : w ≤ 8 * n) (v : BitVec w) :
    ReadsBack (SerializeBlobBE n) (UnserializeBlobBE w n) v := fun rest => by
  have hv := toNat_lt_of_le_bytes h v
  have hr := readBytes_append CDataStream_eod (SerializeBlobBE n v) rest
  rw [SerializeBlobBE, List.length_reverse, length_ser_writedataLE] at hr
  rw [SerializeBlobBE, UnserializeBlobBE, run_bind_of_ok hr, List.reverse_reverse,
    leValue_ser_writedataLE, Nat.mod_eq_of_lt hv]
  simp
  rfl

end Formats

end DashCore
