import DashCore.Evo.Types

/-! The lazily decoded BLS object of bls/bls.h, `CBLSLazyWrapper<BLSObject>`. It keeps the
serialized bytes and the decoded object side by side, with the flags `bufValid`,
`bufLegacyScheme` and `objInitialized` saying which of them is current, and decodes only in
`Get`. The BLS library is a parameter: the size of a serialization and the conversions between
bytes and objects in either scheme (`true` is the legacy one). `CBLSWrapper` is the object
itself, `none` when it is not valid.

As long as the global scheme does not change and every buffer read is the encoding of an
object in it, the lazy wrapper answers every operation as a wrapper holding the decoded object
would (`run_refines`). It does not once the scheme changes: `Serialize` in the other scheme of a
buffer never decoded re-encodes the object the wrapper held before, and the copy constructor
starts from an empty buffer, which `Serialize` then writes. -/
namespace DashCore

structure BLSImpl (T : Type) where
  SerSize : Nat
  /-- `ImplType::FromBytes(bytes, specificLegacyScheme)`, `none` where it throws. -/
  FromBytes : List UInt8 → Bool → Option T
  /-- `impl.Serialize(specificLegacyScheme)`. -/
  Serialize : T → Bool → List UInt8

/-- The library's conversions are inverse in each scheme, and no object is written as zeros. -/
structure BLSImpl.Lawful {T : Type} (L : BLSImpl T) : Prop where
  length_Serialize : ∀ t b, (L.Serialize t b).length = L.SerSize
  Serialize_ne_zero : ∀ t b, L.Serialize t b ≠ List.replicate L.SerSize 0
  FromBytes_Serialize : ∀ t b, L.FromBytes (L.Serialize t b) b = some t

namespace CBLSWrapper

variable {T : Type} (L : BLSImpl T)

/-- `SetByteVector(vecBytes, specificLegacyScheme)`: a buffer of the wrong size, the all-zero
buffer and one the library refuses all reset the object. -/
def SetByteVector (vecBytes : List UInt8) (specificLegacyScheme : Bool) : Option T :=
  if vecBytes.length ≠ L.SerSize then none
  else if vecBytes.all (· == 0) then none
  else L.FromBytes vecBytes specificLegacyScheme

/-- `ToByteVector(specificLegacyScheme)`: an object that is not valid is `SerSize` zeros. -/
def ToByteVector : Option T → Bool → List UInt8
  | none, _ => List.replicate L.SerSize 0
  | some impl, specificLegacyScheme => L.Serialize impl specificLegacyScheme

/-- `CheckMalleable(vecBytes, specificLegacyScheme)`: the first `SerSize` bytes, as `memcmp`
compares them, are those of the object written back. -/
def CheckMalleable (obj : Option T) (vecBytes : List UInt8) (specificLegacyScheme : Bool) : Bool :=
  vecBytes.take L.SerSize == (ToByteVector L obj specificLegacyScheme).take L.SerSize

end CBLSWrapper

structure CBLSLazyWrapper (T : Type) where
  vecBytes : List UInt8
  bufValid : Bool
  bufLegacyScheme : Bool
  obj : Option T
  objInitialized : Bool
  /-- The cached hash; `0` is `hash.IsNull()`. -/
  hash : uint256

namespace CBLSLazyWrapper

open CBLSWrapper

variable {T : Type} (L : BLSImpl T)

/-- The default constructor, under the global scheme `bls_legacy_scheme`: the all-zero buffer,
which counts as valid. -/
def init (bls_legacy_scheme : Bool) : CBLSLazyWrapper T :=
  ⟨List.replicate L.SerSize 0, true, bls_legacy_scheme, none, false, 0⟩

/-- `operator=(r)`: when `r`'s buffer is not valid, this one is zeroed in place and keeps its
length. -/
def assign (w r : CBLSLazyWrapper T) : CBLSLazyWrapper T where
  vecBytes := if r.bufValid then r.vecBytes else List.replicate w.vecBytes.length 0
  bufValid := r.bufValid
  bufLegacyScheme := r.bufLegacyScheme
  obj := if r.objInitialized then r.obj else none
  objInitialized := r.objInitialized
  hash := r.hash

/-- The copy constructor `*this = r`, on members that the default member initialisers set:
`vecBytes` is the empty vector there, not `SerSize` zeros. -/
def copy (r : CBLSLazyWrapper T) : CBLSLazyWrapper T :=
  assign ⟨[], false, true, none, false, 0⟩ r

/-- The block of `Serialize` and `GetHash` that writes the object into the buffer when the
buffer is not valid or is in the other scheme. -/
def refresh (w : CBLSLazyWrapper T) (specificLegacyScheme : Bool) : CBLSLazyWrapper T :=
  if !w.bufValid || w.bufLegacyScheme != specificLegacyScheme then
    { w with vecBytes := ToByteVector L w.obj specificLegacyScheme, bufValid := true,
             bufLegacyScheme := specificLegacyScheme, hash := 0 }
  else w

def Serialize (w : CBLSLazyWrapper T) (specificLegacyScheme : Bool) :
    List UInt8 × CBLSLazyWrapper T :=
  -- with neither a buffer nor an object, the buffer is zeroed and taken as valid
  let w := if !w.objInitialized && !w.bufValid then
      { w with vecBytes := List.replicate w.vecBytes.length 0,
               bufLegacyScheme := specificLegacyScheme, bufValid := true }
    else w
  let w := refresh L w specificLegacyScheme
  (w.vecBytes, w)

/-- `Unserialize(s, specificLegacyScheme)`, with the `SerSize` bytes that `s.read` copies into
the buffer. A buffer shorter than that is written past its end (`UnserializeInBounds`). -/
def Unserialize (w : CBLSLazyWrapper T) (bytes : List UInt8) (specificLegacyScheme : Bool) :
    CBLSLazyWrapper T :=
  { w with vecBytes := bytes ++ w.vecBytes.drop bytes.length, bufValid := true,
           bufLegacyScheme := specificLegacyScheme, objInitialized := false, hash := 0 }

def UnserializeInBounds (w : CBLSLazyWrapper T) : Prop := L.SerSize ≤ w.vecBytes.length

instance (w : CBLSLazyWrapper T) : Decidable (UnserializeInBounds L w) :=
  inferInstanceAs (Decidable (_ ≤ _))

def Set (w : CBLSLazyWrapper T) (_obj : Option T) : CBLSLazyWrapper T :=
  { w with bufValid := false, objInitialized := true, obj := _obj, hash := 0 }

/-- `Get()`: the object, decoding the buffer first if it was not, in its scheme and else in the
other; a buffer that fails the malleability check leaves neither buffer nor object. -/
def Get (w : CBLSLazyWrapper T) : Option T × CBLSLazyWrapper T :=
  if !w.bufValid && !w.objInitialized then (none, w)
  else if !w.objInitialized then
    let first := SetByteVector L w.vecBytes w.bufLegacyScheme
    let other := SetByteVector L w.vecBytes (!w.bufLegacyScheme)
    let obj := if first.isNone then other else first
    let scheme := if first.isNone && other.isSome then !w.bufLegacyScheme else w.bufLegacyScheme
    if !CheckMalleable L obj w.vecBytes scheme then
      (none, { w with bufLegacyScheme := scheme, bufValid := false, objInitialized := false,
                      obj := none })
    else (obj, { w with bufLegacyScheme := scheme, obj := obj, objInitialized := true })
  else (w.obj, w)

/-- `operator==(r)`: equal buffers in one scheme, equal decoded objects, or else equal results
of `Get` on both sides. -/
def Equals [DecidableEq T] (w r : CBLSLazyWrapper T) : Bool × CBLSLazyWrapper T × CBLSLazyWrapper T :=
  if w.bufValid && r.bufValid && w.bufLegacyScheme == r.bufLegacyScheme then
    (w.vecBytes == r.vecBytes, w, r)
  else if w.objInitialized && r.objInitialized then (decide (w.obj = r.obj), w, r)
  else (decide ((Get L w).1 = (Get L r).1), (Get L w).2, (Get L r).2)

def GetHash (H : List UInt8 → uint256) (w : CBLSLazyWrapper T) (specificLegacyScheme : Bool) :
    uint256 × CBLSLazyWrapper T :=
  let w := refresh L w specificLegacyScheme
  if w.hash == 0 then (H w.vecBytes, { w with hash := H w.vecBytes }) else (w.hash, w)

end CBLSLazyWrapper

/-- The wrapper the lazy one stands for: it holds the decoded object and decodes a buffer when
it is read, in the scheme given and else in the other, as `Get` does. -/
def Decode {T : Type} (L : BLSImpl T) (vecBytes : List UInt8) (scheme : Bool) : Option T :=
  match CBLSWrapper.SetByteVector L vecBytes scheme with
  | some t => if CBLSWrapper.CheckMalleable L (some t) vecBytes scheme then some t else none
  | none =>
    match CBLSWrapper.SetByteVector L vecBytes (!scheme) with
    | some t => if CBLSWrapper.CheckMalleable L (some t) vecBytes (!scheme) then some t else none
    | none => none

inductive BLSOp (T : Type) where
  | set (obj : Option T)
  | unserialize (bytes : List UInt8)
  | serialize
  | get
  | getHash

inductive BLSObs (T : Type) where
  | done
  | bytes (vecBytes : List UInt8)
  | obj (obj : Option T)
  | hash (hash : uint256)
deriving DecidableEq

namespace CBLSWrapper

variable {T : Type} {L : BLSImpl T}

theorem all_eq_zero_iff {l : List UInt8} {n : Nat} (hl : l.length = n) :
    l.all (· == 0) = true ↔ l = List.replicate n 0 := by
  rw [List.all_eq_true, List.eq_replicate_iff]
  simp [hl]

theorem SetByteVector_zero (n : Nat) (hn : n = L.SerSize) (scheme : Bool) :
    SetByteVector L (List.replicate n 0) scheme = none := by
  unfold SetByteVector
  rw [if_neg (by simp [hn]), if_pos ((all_eq_zero_iff List.length_replicate).mpr rfl)]

theorem length_ToByteVector (hL : L.Lawful) (o : Option T) (b : Bool) :
    (ToByteVector L o b).length = L.SerSize := by
  cases o with
  | none => exact List.length_replicate
  | some t => exact hL.length_Serialize t b

theorem SetByteVector_ToByteVector (hL : L.Lawful) (o : Option T) (b : Bool) :
    SetByteVector L (ToByteVector L o b) b = o := by
  cases o with
  | none => exact SetByteVector_zero _ rfl b
  | some t =>
    have hz : ¬(L.Serialize t b).all (· == 0) = true := fun h =>
      hL.Serialize_ne_zero t b ((all_eq_zero_iff (hL.length_Serialize t b)).mp h)
    unfold SetByteVector ToByteVector
    rw [if_neg (by simp [hL.length_Serialize t b]), if_neg hz, hL.FromBytes_Serialize]

@[simp] theorem CheckMalleable_ToByteVector (o : Option T) (b : Bool) :
    CheckMalleable L o (ToByteVector L o b) b = true := by
  simp [CheckMalleable]

theorem ToByteVector_inj (hL : L.Lawful) {o o' : Option T} {b : Bool}
    (h : ToByteVector L o b = ToByteVector L o' b) : o = o' := by
  rw [← SetByteVector_ToByteVector hL o b, h, SetByteVector_ToByteVector hL o' b]

end CBLSWrapper

theorem Decode_ToByteVector {T : Type} {L : BLSImpl T} (hL : L.Lawful) (o : Option T) (b : Bool) :
    Decode L (CBLSWrapper.ToByteVector L o b) b = o := by
  unfold Decode
  rw [CBLSWrapper.SetByteVector_ToByteVector hL]
  cases o with
  | some t => simp
  | none => rw [CBLSWrapper.ToByteVector, CBLSWrapper.SetByteVector_zero _ rfl]

namespace CBLSLazyWrapper

variable {T : Type} (L : BLSImpl T) (b : Bool) (H : List UInt8 → uint256)

def step (w : CBLSLazyWrapper T) : BLSOp T → BLSObs T × CBLSLazyWrapper T
  | .set obj => (.done, Set w obj)
  | .unserialize bytes => (.done, Unserialize w bytes b)
  | .serialize => (.bytes (Serialize L w b).1, (Serialize L w b).2)
  | .get => (.obj (Get L w).1, (Get L w).2)
  | .getHash => (.hash (GetHash L H w b).1, (GetHash L H w b).2)

def run : CBLSLazyWrapper T → List (BLSOp T) → List (BLSObs T)
  | _, [] => []
  | w, op :: ops => (step L b H w op).1 :: run (step L b H w op).2 ops

end CBLSLazyWrapper

namespace Decode

variable {T : Type} (L : BLSImpl T) (b : Bool) (H : List UInt8 → uint256)

def step (o : Option T) : BLSOp T → BLSObs T × Option T
  | .set obj => (.done, obj)
  | .unserialize bytes => (.done, Decode L bytes b)
  | .serialize => (.bytes (CBLSWrapper.ToByteVector L o b), o)
  | .get => (.obj o, o)
  | .getHash => (.hash (H (CBLSWrapper.ToByteVector L o b)), o)

def run : Option T → List (BLSOp T) → List (BLSObs T)
  | _, [] => []
  | o, op :: ops => (step L b H o op).1 :: run (step L b H o op).2 ops

end Decode

/-- An operation the refinement is stated for: a buffer read is the encoding of an object in the
global scheme. -/
def BLSOp.Encoded {T : Type} (L : BLSImpl T) (b : Bool) : BLSOp T → Prop
  | .unserialize bytes => ∃ o, bytes = CBLSWrapper.ToByteVector L o b
  | _ => True

namespace CBLSLazyWrapper

open CBLSWrapper

section Refinement

variable {T : Type} {L : BLSImpl T} {b : Bool} {H : List UInt8 → uint256}

/-- The lazy wrapper `w` stands for the object `o` under the global scheme `b`: the buffer, when
valid, is `o` written in `b`; the object, when decoded, is `o`; one of them is current; and a
cached hash is the hash of the buffer. -/
structure Refines (L : BLSImpl T) (b : Bool) (H : List UInt8 → uint256)
    (w : CBLSLazyWrapper T) (o : Option T) : Prop where
  length : w.vecBytes.length = L.SerSize
  scheme : w.bufLegacyScheme = b
  obj : w.objInitialized = true → w.obj = o
  buf : w.bufValid = true → w.vecBytes = ToByteVector L o b
  current : w.bufValid = true ∨ w.objInitialized = true
  hash : w.hash ≠ 0 → w.bufValid = true ∧ w.hash = H w.vecBytes

theorem refines_init : Refines L b H (init L b) none where
  length := List.length_replicate
  scheme := rfl
  obj h := nomatch h
  buf _ := rfl
  current := .inl rfl
  hash h := absurd rfl h

theorem Refines.refresh (hL : L.Lawful) {w : CBLSLazyWrapper T} {o : Option T}
    (h : Refines L b H w o) :
    Refines L b H (refresh L w b) o ∧ (refresh L w b).bufValid = true := by
  unfold CBLSLazyWrapper.refresh
  by_cases hbuf : w.bufValid = true
  · rw [if_neg (by simp [hbuf, h.scheme])]
    exact ⟨h, hbuf⟩
  · have hobj : w.objInitialized = true := h.current.resolve_left hbuf
    rw [if_pos (by simp [hbuf])]
    exact ⟨⟨length_ToByteVector hL _ _, rfl, h.obj, fun _ => by rw [h.obj hobj], .inl rfl,
      fun h0 => absurd rfl h0⟩, rfl⟩

theorem Refines.set {w : CBLSLazyWrapper T} {o : Option T} (h : Refines L b H w o) (x : Option T) :
    Refines L b H (Set w x) x where
  length := h.length
  scheme := h.scheme
  obj _ := rfl
  buf h := nomatch h
  current := .inr rfl
  hash h0 := absurd rfl h0

theorem Refines.unserialize (hL : L.Lawful) {w : CBLSLazyWrapper T} {o : Option T}
    (h : Refines L b H w o) (o' : Option T) :
    Refines L b H (Unserialize w (ToByteVector L o' b) b) o' := by
  have hdrop : w.vecBytes.drop (ToByteVector L o' b).length = [] := by
    rw [length_ToByteVector hL, ← h.length, List.drop_length]
  have hvec : (Unserialize w (ToByteVector L o' b) b).vecBytes = ToByteVector L o' b := by
    rw [Unserialize, hdrop, List.append_nil]
  exact {
    length := by rw [hvec, length_ToByteVector hL]
    scheme := rfl
    obj := fun h => nomatch h
    buf := fun _ => hvec
    current := .inl rfl
    hash := fun h0 => absurd rfl h0 }

theorem Refines.serialize (hL : L.Lawful) {w : CBLSLazyWrapper T} {o : Option T}
    (h : Refines L b H w o) :
    (Serialize L w b).1 = ToByteVector L o b ∧ Refines L b H (Serialize L w b).2 o := by
  have hskip : (!w.objInitialized && !w.bufValid) = false := by
    rcases h.current with hc | hc <;> simp [hc]
  obtain ⟨hr, hvalid⟩ := h.refresh hL
  simp only [Serialize, hskip, Bool.false_eq_true, if_false]
  exact ⟨hr.buf hvalid, hr⟩

theorem Refines.get (hL : L.Lawful) {w : CBLSLazyWrapper T} {o : Option T}
    (h : Refines L b H w o) : (Get L w).1 = o ∧ Refines L b H (Get L w).2 o := by
  by_cases hobj : w.objInitialized = true
  · simp only [Get, hobj, Bool.not_true, Bool.and_false, Bool.false_eq_true, if_false]
    exact ⟨h.obj hobj, h⟩
  · -- the buffer is current: it is `o` written in `b`, and decodes to `o` in `b`
    have hbuf : w.bufValid = true := h.current.resolve_right hobj
    have hbytes := h.buf hbuf
    have hfirst : SetByteVector L w.vecBytes w.bufLegacyScheme = o := by
      rw [hbytes, h.scheme, SetByteVector_ToByteVector hL]
    have hmall : CheckMalleable L o w.vecBytes w.bufLegacyScheme = true := by
      rw [hbytes, h.scheme, CheckMalleable_ToByteVector]
    have hstate : ∀ obj, obj = o → Refines L b H ⟨w.vecBytes, true, w.bufLegacyScheme, obj, true, w.hash⟩ o :=
      fun obj hobj' => ⟨h.length, h.scheme, fun _ => hobj', fun _ => hbytes, .inr rfl,
        fun h0 => ⟨rfl, (h.hash h0).2⟩⟩
    cases o with
    | some t =>
      simp only [Get, hbuf, hobj, hfirst, hmall, Option.isNone_some, Bool.false_and,
        Bool.not_true, Bool.not_false, Bool.and_true, Bool.false_eq_true, if_false, if_true,
        true_and]
      exact hstate _ rfl
    | none =>
      have hother : SetByteVector L w.vecBytes (!w.bufLegacyScheme) = none := by
        rw [hbytes, ToByteVector, SetByteVector_zero _ rfl]
      simp only [Get, hbuf, hobj, hfirst, hother, hmall, Option.isNone_none, Option.isSome_none,
        Bool.and_false, Bool.not_true, Bool.not_false, Bool.and_true, Bool.false_eq_true,
        if_false, if_true, true_and]
      exact hstate _ rfl

theorem Refines.getHash (hL : L.Lawful) {w : CBLSLazyWrapper T} {o : Option T}
    (h : Refines L b H w o) :
    (GetHash L H w b).1 = H (ToByteVector L o b) ∧ Refines L b H (GetHash L H w b).2 o := by
  obtain ⟨hr, hvalid⟩ := h.refresh hL
  have hbytes := hr.buf hvalid
  simp only [GetHash]
  split
  · refine ⟨by rw [hbytes], ⟨hr.length, hr.scheme, hr.obj, hr.buf, hr.current, fun _ => ⟨hvalid, rfl⟩⟩⟩
  · rename_i h0
    exact ⟨by rw [(hr.hash (by simpa using h0)).2, hbytes], hr⟩

theorem Refines.step (hL : L.Lawful) {w : CBLSLazyWrapper T} {o : Option T}
    (h : Refines L b H w o) (op : BLSOp T) (hop : op.Encoded L b) :
    (step L b H w op).1 = (Decode.step L b H o op).1 ∧
      Refines L b H (step L b H w op).2 (Decode.step L b H o op).2 := by
  cases op with
  | set x => exact ⟨rfl, h.set x⟩
  | unserialize bytes =>
    obtain ⟨o', rfl⟩ := hop
    refine ⟨rfl, ?_⟩
    rw [CBLSLazyWrapper.step, Decode.step, Decode_ToByteVector hL]
    exact h.unserialize hL o'
  | serialize =>
    obtain ⟨hout, hr⟩ := h.serialize hL
    exact ⟨by rw [CBLSLazyWrapper.step, Decode.step, hout], hr⟩
  | get =>
    obtain ⟨hout, hr⟩ := h.get hL
    exact ⟨by rw [CBLSLazyWrapper.step, Decode.step, hout], hr⟩
  | getHash =>
    obtain ⟨hout, hr⟩ := h.getHash hL
    exact ⟨by rw [CBLSLazyWrapper.step, Decode.step, hout], hr⟩

theorem Refines.equals [DecidableEq T] (hL : L.Lawful) {w r : CBLSLazyWrapper T} {o o' : Option T}
    (hw : Refines L b H w o) (hr : Refines L b H r o') : (Equals L w r).1 = decide (o = o') := by
  unfold Equals
  split_ifs with hbuf hobj
  · -- both buffers valid in `b`: equal encodings are encodings of equal objects
    simp only [Bool.and_eq_true] at hbuf
    rw [hw.buf hbuf.1.1, hr.buf hbuf.1.2, Bool.eq_iff_iff, beq_iff_eq, decide_eq_true_iff]
    exact ⟨ToByteVector_inj hL, fun h => h ▸ rfl⟩
  · simp only [Bool.and_eq_true] at hobj
    rw [hw.obj hobj.1, hr.obj hobj.2]
  · rw [(hw.get hL).1, (hr.get hL).1]

theorem Refines.assign {w r : CBLSLazyWrapper T} {o : Option T} (hr : Refines L b H r o)
    (hw : r.bufValid = false → w.vecBytes.length = L.SerSize) : Refines L b H (assign w r) o where
  length := by
    unfold CBLSLazyWrapper.assign
    split
    · exact hr.length
    · rename_i hvalid
      rw [List.length_replicate, hw (by simpa using hvalid)]
  scheme := hr.scheme
  obj h := by
    have h' : r.objInitialized = true := h
    show (if r.objInitialized then r.obj else none) = o
    rw [if_pos h']
    exact hr.obj h'
  buf h := by
    have h' : r.bufValid = true := h
    show (if r.bufValid then r.vecBytes else _) = _
    rw [if_pos h']
    exact hr.buf h'
  current := hr.current
  hash h0 := by
    have ⟨hvalid, hh⟩ := hr.hash h0
    show r.bufValid = true ∧ r.hash = H (if r.bufValid then r.vecBytes else _)
    rw [if_pos hvalid]
    exact ⟨hvalid, hh⟩

theorem Refines.copy {r : CBLSLazyWrapper T} {o : Option T} (hr : Refines L b H r o)
    (hvalid : r.bufValid = true) : Refines L b H (copy r) o :=
  hr.assign fun h => absurd hvalid (by simp [h])

theorem Refines.run (hL : L.Lawful) {w : CBLSLazyWrapper T} {o : Option T}
    (h : Refines L b H w o) (ops : List (BLSOp T)) (hops : ∀ op ∈ ops, op.Encoded L b) :
    run L b H w ops = Decode.run L b H o ops := by
  induction ops generalizing w o with
  | nil => rfl
  | cons op ops ih =>
    obtain ⟨hout, hr⟩ := h.step hL op (hops op List.mem_cons_self)
    rw [CBLSLazyWrapper.run, Decode.run, hout,
      ih hr fun op' hop' => hops op' (List.mem_cons_of_mem op hop')]

end Refinement

/-- Under a global scheme that does not change, a new lazy wrapper answers every sequence of
operations as the wrapper holding the decoded object, when every buffer it reads is the encoding
of an object in that scheme. -/
theorem run_refines {T : Type} {L : BLSImpl T} (hL : L.Lawful) (b : Bool) (H : List UInt8 → uint256)
    (ops : List (BLSOp T)) (hops : ∀ op ∈ ops, op.Encoded L b) :
    run L b H (init L b) ops = Decode.run L b H none ops :=
  refines_init.run hL ops hops

section Divergence

variable {T : Type} (L : BLSImpl T)

theorem Serialize_Unserialize_other_scheme (w : CBLSLazyWrapper T) (bytes : List UInt8) (b : Bool) :
    (Serialize L (Unserialize w bytes (!b)) b).1 = ToByteVector L w.obj b := by
  cases b <;> rfl

theorem Serialize_copy_of_not_current {r : CBLSLazyWrapper T} (hbuf : r.bufValid = false)
    (hobj : r.objInitialized = false) (b : Bool) : (Serialize L (copy r) b).1 = [] := by
  simp [Serialize, copy, assign, refresh, hbuf, hobj]

theorem not_UnserializeInBounds_copy {r : CBLSLazyWrapper T} (hbuf : r.bufValid = false)
    (hpos : 0 < L.SerSize) : ¬UnserializeInBounds L (copy r) := by
  simp [UnserializeInBounds, copy, assign, hbuf]
  omega

theorem Get_Unserialize_refused {bytes : List UInt8} (hlen : bytes.length = L.SerSize)
    (hnz : bytes ≠ List.replicate L.SerSize 0) (hbad : ∀ s, L.FromBytes bytes s = none) (b : Bool) :
    (Get L (Unserialize (init L b) bytes b)).2.bufValid = false ∧
      (Get L (Unserialize (init L b) bytes b)).2.objInitialized = false := by
  obtain ⟨w, hw⟩ : ∃ w, w = Unserialize (init L b) bytes b := ⟨_, rfl⟩
  have hvec : w.vecBytes = bytes := by simp [hw, Unserialize, init, hlen]
  have hvalid : w.bufValid = true := by rw [hw]; rfl
  have hobj : w.objInitialized = false := by rw [hw]; rfl
  have hscheme : w.bufLegacyScheme = b := by rw [hw]; rfl
  have hset : ∀ s, SetByteVector L bytes s = none := by
    intro s
    unfold SetByteVector
    split_ifs <;> simp [hbad]
  have hmall : CheckMalleable L none bytes b = false := by
    have htake : bytes.take L.SerSize = bytes := by rw [← hlen, List.take_length]
    simp [CheckMalleable, ToByteVector, htake, hnz]
  rw [← hw]
  simp [Get, hvec, hvalid, hobj, hscheme, hset, hmall]

end Divergence

theorem lazy_wrapper_diverges_from_decoded {T : Type} {L : BLSImpl T} (hL : L.Lawful) (s t : T)
    (b : Bool) (bytes : List UInt8) (hlen : bytes.length = L.SerSize)
    (hnz : bytes ≠ List.replicate L.SerSize 0) (hbad : ∀ legacy, L.FromBytes bytes legacy = none) :
    Decode L (L.Serialize t (!b)) (!b) = some t ∧
      (Serialize L (Unserialize (Set (init L (!b)) (some s)) (L.Serialize t (!b)) (!b)) b).1 =
        L.Serialize s b ∧
      (Serialize L (Unserialize (init L (!b)) (L.Serialize t (!b)) (!b)) b).1 =
        List.replicate L.SerSize 0 ∧
      L.Serialize t b ≠ List.replicate L.SerSize 0 ∧
      (Serialize L (copy (Get L (Unserialize (init L b) bytes b)).2) b).1 = [] ∧
      ¬UnserializeInBounds L (copy (Set (init L b) (some t))) := by
  have hpos : 0 < L.SerSize := by
    apply Nat.pos_of_ne_zero
    intro h0
    apply hnz
    rw [h0, List.eq_nil_of_length_eq_zero (hlen.trans h0)]
    rfl
  obtain ⟨hget1, hget2⟩ := Get_Unserialize_refused L hlen hnz hbad b
  exact ⟨Decode_ToByteVector hL (some t) (!b), Serialize_Unserialize_other_scheme L _ _ b,
    Serialize_Unserialize_other_scheme L _ _ b, hL.Serialize_ne_zero t b,
    Serialize_copy_of_not_current L hget1 hget2 b, not_UnserializeInBounds_copy L rfl hpos⟩

/-- A library of two-byte objects, a scheme tag and the value, to run the wrapper on. -/
def tagLibrary : BLSImpl UInt8 where
  SerSize := 2
  FromBytes bytes legacy := match bytes with
    | [tag, x] => if tag = (if legacy then 1 else 2) then some x else none
    | _ => none
  Serialize x legacy := [if legacy then 1 else 2, x]

theorem tagLibrary_lawful : tagLibrary.Lawful where
  length_Serialize _ _ := rfl
  Serialize_ne_zero x b := by cases b <;> simp [tagLibrary]
  FromBytes_Serialize x b := by cases b <;> simp [tagLibrary]

/-- A legacy wrapper over the tag library that reads the key `7`, returns it and writes it back
answers as the decoded key does. -/
theorem run_refines_tagLibrary :
    run tagLibrary true (fun _ => 0) (init tagLibrary true) [.unserialize [1, 7], .get, .serialize] =
      Decode.run tagLibrary true (fun _ => 0) none [.unserialize [1, 7], .get, .serialize] :=
  run_refines tagLibrary_lawful true (fun _ => 0) _ (by
    intro op hop
    simp only [List.mem_cons, List.mem_nil_iff, or_false] at hop
    rcases hop with rfl | rfl | rfl
    · exact ⟨some 7, rfl⟩
    · trivial
    · trivial)

/-- The key `7` read in the legacy scheme and written in the basic one after `Set(5)`: the bytes
of `5`; without the `Set`, zeros. -/
theorem tagLibrary_wrapper_diverges :
    Decode tagLibrary [1, 7] true = some 7 ∧
      (Serialize tagLibrary (Unserialize (Set (init tagLibrary true) (some 5)) [1, 7] true) false).1 =
        [2, 5] ∧
      (Serialize tagLibrary (Unserialize (init tagLibrary true) [1, 7] true) false).1 = [0, 0] ∧
      [(2 : UInt8), 7] ≠ [0, 0] ∧
      (Serialize tagLibrary (copy (Get tagLibrary (Unserialize (init tagLibrary false) [3, 0] false)).2)
        false).1 = [] ∧
      ¬UnserializeInBounds tagLibrary (copy (Set (init tagLibrary false) (some 7))) :=
  lazy_wrapper_diverges_from_decoded tagLibrary_lawful 5 7 false [3, 0] rfl (by decide)
    (fun legacy => by cases legacy <;> rfl)

end CBLSLazyWrapper

end DashCore
