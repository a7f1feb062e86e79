import Mathlib.Data.List.Basic
import Mathlib.Algebra.Group.Nat.Defs
import Mathlib.Algebra.Group.Int.Defs

/-! Dash's difficulty retarget (pow.cpp `DarkGravityWave`) over `arith_uint256`, whose products
and sums are taken modulo 2^256, with the compact encoding of targets (arith_uint256.cpp
`SetCompact`, `GetCompact`). The chain is the list of block indexes from `pindexLast` back along
`pprev`. -/
namespace DashCore

abbrev arith_uint256 := BitVec 256

namespace arith_uint256

def SetCompact (nCompact : UInt32) : arith_uint256 :=
  let nSize := (nCompact >>> 24).toNat
  let nWord := (nCompact &&& 0x007fffff).toNat
  if nSize ≤ 3 then BitVec.ofNat 256 (nWord >>> (8 * (3 - nSize)))
  else BitVec.ofNat 256 nWord <<< (8 * (nSize - 3))

def bits (a : arith_uint256) : Nat := if a = 0 then 0 else a.toNat.log2 + 1

/-- `GetCompact()`: the three most significant bytes and the size; a mantissa whose sign bit
would be set is shifted down a byte. -/
def GetCompact (a : arith_uint256) : UInt32 :=
  let nSize := (bits a + 7) / 8
  -- `GetLow64()` shifted, then stored in a `uint32_t`
  let nCompact :=
    if nSize ≤ 3 then (a.toNat % 2 ^ 64 <<< (8 * (3 - nSize))) % 2 ^ 32
    else (a.toNat >>> (8 * (nSize - 3))) % 2 ^ 64 % 2 ^ 32
  let (nCompact, nSize) :=
    if nCompact &&& 0x00800000 ≠ 0 then (nCompact >>> 8, nSize + 1) else (nCompact, nSize)
  UInt32.ofNat (nCompact ||| nSize <<< 24)

end arith_uint256

open arith_uint256

structure PowParams where
  powLimit : arith_uint256
  nPowTargetSpacing : Int

def mainParams : PowParams := ⟨BitVec.ofNat 256 (2 ^ 236 - 1), 150⟩

def devNetParams : PowParams := ⟨BitVec.ofNat 256 (2 ^ 255 - 1), 150⟩

structure PowBlockIndex where
  nHeight : Int
  nTime : UInt32
  nBits : UInt32
deriving DecidableEq, Repr

/-- The loop of `DarkGravityWave` from block `nCountBlocks` on: the first target read is the
average, and each later one is folded in as `(avg * nCountBlocks + target) / (nCountBlocks + 1)`,
in 256-bit arithmetic. -/
def PastTargetAvg (nCountBlocks : Nat) (bnPastTargetAvg : arith_uint256) :
    List UInt32 → arith_uint256
  | [] => bnPastTargetAvg
  | nBits :: rest =>
    let bnTarget := SetCompact nBits
    let bnPastTargetAvg :=
      if nCountBlocks = 1 then bnTarget
      else (bnPastTargetAvg * BitVec.ofNat 256 nCountBlocks + bnTarget) /
        BitVec.ofNat 256 (nCountBlocks + 1)
    PastTargetAvg (nCountBlocks + 1) bnPastTargetAvg rest

/-- `DarkGravityWave(pindexLast, params)` for the chain `pindexLast :: pprevs`; `none` where the
`assert(pindex->pprev)` of the loop fails. The timespan is clamped to a third and three times
the target timespan before it multiplies the average as a `uint32_t`. -/
def DarkGravityWave (params : PowParams) (pindexLast : PowBlockIndex)
    (pprevs : List PowBlockIndex) : Option UInt32 :=
  let bnPowLimit := params.powLimit
  let nPastBlocks : Nat := 24
  if pindexLast.nHeight < nPastBlocks then some (GetCompact bnPowLimit)
  else
    let past := (pindexLast :: pprevs).take nPastBlocks
    if past.length < nPastBlocks then none
    else
      let bnPastTargetAvg := PastTargetAvg 1 0 (past.map (·.nBits))
      let pindex := past.getLastD pindexLast
      let nActualTimespan : Int := pindexLast.nTime.toNat - pindex.nTime.toNat
      let nTargetTimespan : Int := nPastBlocks * params.nPowTargetSpacing
      let nActualTimespan := max nActualTimespan (nTargetTimespan / 3)
      let nActualTimespan := min nActualTimespan (nTargetTimespan * 3)
      let bnNew := bnPastTargetAvg * BitVec.ofNat 256 (nActualTimespan % 2 ^ 32).toNat
      let bnNew := bnNew / BitVec.ofNat 256 nTargetTimespan.toNat
      let bnNew := if bnNew > bnPowLimit then bnPowLimit else bnNew
      some (GetCompact bnNew)

/-- On a devnet, after 24 blocks at the minimum difficulty, `nBits = 0x207fffff`, the last
3450 s after the first: the target the retarget returns is more than a thousand times below that
of every block it averaged, though the blocks came on schedule. Already the "average" of two
such targets is not that target: `avg * 2 + target` is past 2^256 and wraps. -/
theorem DarkGravityWave_devnet_min_difficulty (pindexLast : PowBlockIndex)
    (pprevs : List PowBlockIndex) (hh : 24 ≤ pindexLast.nHeight) (hlen : 23 ≤ pprevs.length)
    (hbits : ∀ b ∈ (pindexLast :: pprevs).take 24, b.nBits = 0x207fffff)
    (htime : pindexLast.nTime.toNat =
      (((pindexLast :: pprevs).take 24).getLastD pindexLast).nTime.toNat + 3450) :
    DarkGravityWave devNetParams pindexLast pprevs = some 0x1f123361 ∧
      (SetCompact 0x1f123361).toNat * 1000 < (SetCompact 0x207fffff).toNat ∧
      PastTargetAvg 1 0 [0x207fffff, 0x207fffff] ≠ SetCompact 0x207fffff := by
  have hpast : ((pindexLast :: pprevs).take 24).length = 24 := by simp; omega
  have hmap : ((pindexLast :: pprevs).take 24).map (·.nBits) = List.replicate 24 0x207fffff := by
    refine List.eq_replicate_iff.mpr ⟨by rw [List.length_map, hpast], fun n hn => ?_⟩
    obtain ⟨b, hb, rfl⟩ := List.mem_map.mp hn
    exact hbits b hb
  have hspan : (pindexLast.nTime.toNat : Int) -
      (((pindexLast :: pprevs).take 24).getLastD pindexLast).nTime.toNat = 3450 := by omega
  refine ⟨?_, by decide +kernel, by decide +kernel⟩
  unfold DarkGravityWave
  simp only [hmap, hspan, hpast]
  rw [if_neg (by omega)]
  decide +kernel

/-- The 23 blocks before a devnet block at height 24: the minimum difficulty, 150 s apart. -/
def minDifficultyPrevs : List PowBlockIndex :=
  (List.range 23).map fun i => ⟨(23 - i : Nat), UInt32.ofNat (3300 - 150 * i), 0x207fffff⟩

theorem DarkGravityWave_devnet_min_difficulty_at_height_24 :
    DarkGravityWave devNetParams ⟨24, 3450, 0x207fffff⟩ minDifficultyPrevs = some 0x1f123361 ∧
      (SetCompact 0x1f123361).toNat * 1000 < (SetCompact 0x207fffff).toNat ∧
      PastTargetAvg 1 0 [0x207fffff, 0x207fffff] ≠ SetCompact 0x207fffff :=
  DarkGravityWave_devnet_min_difficulty _ _ (by decide) (by decide) (by decide +kernel)
    (by decide +kernel)

end DashCore
