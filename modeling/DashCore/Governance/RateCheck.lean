import DashCore.Lib.Selection
import Mathlib

/-! The rate check of governance objects (governance/governance.h, `CRateCheckBuffer`): a ring
of `RATE_BUFFER_SIZE` timestamps with a start and an end index, where a full and an empty
buffer both have `nDataStart == nDataEnd` and only `fBufferEmpty` tells them apart. Its
abstract model is the sliding window of the last `RATE_BUFFER_SIZE` timestamps added; the
buffer represents the window when the window's timestamps sit in the slots from `nDataStart`
on, and every observation of the buffer is that of its window. -/
namespace DashCore

def RATE_BUFFER_SIZE : Nat := 5

/-- `CRateCheckBuffer`, as its constructor and `AddTimestamp` leave it: the vector has its
`RATE_BUFFER_SIZE` slots and both indices lie in it. -/
structure CRateCheckBuffer where
  vecTimestamps : Vector Int64 RATE_BUFFER_SIZE := Vector.replicate RATE_BUFFER_SIZE 0
  nDataStart : Fin RATE_BUFFER_SIZE := ⟨0, by decide⟩
  nDataEnd : Fin RATE_BUFFER_SIZE := ⟨0, by decide⟩
  fBufferEmpty : Bool := true

namespace CRateCheckBuffer

def ringIndex (i : Fin RATE_BUFFER_SIZE) (j : Nat) : Fin RATE_BUFFER_SIZE :=
  ⟨(i.val + j) % RATE_BUFFER_SIZE, Nat.mod_lt _ (by decide)⟩

def AddTimestamp (b : CRateCheckBuffer) (nTimestamp : Int64) : CRateCheckBuffer :=
  -- a full buffer drops its oldest timestamp
  let nDataStart :=
    if b.nDataEnd = b.nDataStart ∧ b.fBufferEmpty = false then ringIndex b.nDataStart 1
    else b.nDataStart
  { vecTimestamps := b.vecTimestamps.set b.nDataEnd nTimestamp b.nDataEnd.isLt
    nDataStart := nDataStart
    nDataEnd := ringIndex b.nDataEnd 1
    fBufferEmpty := false }

/-- The `do { ... } while (nIndex != nDataEnd)` loop of `GetMinTimestamp` and
`GetMaxTimestamp` from slot `nIndex`, taking each slot into `acc` with `step`. Each turn moves
one slot on, so the loop reaches `nDataEnd` within `RATE_BUFFER_SIZE` turns, the fuel it is
given. -/
def scan (b : CRateCheckBuffer) (step : Int64 → Int64 → Int64) (acc : Int64)
    (nIndex : Fin RATE_BUFFER_SIZE) : Nat → Int64
  | 0 => acc
  | fuel + 1 =>
    let acc := step acc b.vecTimestamps[nIndex]
    let nIndex := ringIndex nIndex 1
    if nIndex ≠ b.nDataEnd then b.scan step acc nIndex fuel else acc

def minStep (nMin t : Int64) : Int64 := if t < nMin then t else nMin

def maxStep (nMax t : Int64) : Int64 := if t > nMax then t else nMax

def GetMinTimestamp (b : CRateCheckBuffer) : Int64 :=
  if b.fBufferEmpty then Int64.maxValue
  else b.scan minStep Int64.maxValue b.nDataStart RATE_BUFFER_SIZE

def GetMaxTimestamp (b : CRateCheckBuffer) : Int64 :=
  if b.fBufferEmpty then 0
  else b.scan maxStep 0 b.nDataStart RATE_BUFFER_SIZE

def GetCount (b : CRateCheckBuffer) : Nat :=
  if b.fBufferEmpty then 0
  else if b.nDataEnd > b.nDataStart then b.nDataEnd.val - b.nDataStart.val
  else RATE_BUFFER_SIZE - b.nDataStart.val + b.nDataEnd.val

/-- `GetRate()`: objects per second over the buffer once it is full; equal extreme
timestamps give the "infinite" rate `1.0e10`. -/
def GetRate (b : CRateCheckBuffer) : Float :=
  let nCount := b.GetCount
  if nCount < RATE_BUFFER_SIZE then 0.0
  else
    let nMin := b.GetMinTimestamp
    let nMax := b.GetMaxTimestamp
    if nMin = nMax then 1.0e10
    else Float.ofNat nCount / Float.ofInt (nMax - nMin).toInt

end CRateCheckBuffer

/-! The abstract model: the window of the last timestamps. -/

namespace SlidingWindow

def lastWindow (ts : List Int64) : List Int64 := ts.drop (ts.length - RATE_BUFFER_SIZE)

def add (w : List Int64) (t : Int64) : List Int64 := (w ++ [t]).drop (w.length + 1 - RATE_BUFFER_SIZE)

/-- The rate the buffer reports for the window `w`, from its size and extreme timestamps. -/
def rate (w : List Int64) (lo hi : Int64) : Float :=
  if w.length < RATE_BUFFER_SIZE then 0.0
  else if lo = hi then 1.0e10
  else Float.ofNat w.length / Float.ofInt (hi - lo).toInt

theorem length_lastWindow (ts : List Int64) :
    (lastWindow ts).length = min ts.length RATE_BUFFER_SIZE := by
  simp only [lastWindow, List.length_drop]
  omega

theorem lastWindow_append (ts : List Int64) (t : Int64) :
    lastWindow (ts ++ [t]) = add (lastWindow ts) t := by
  have hlen := length_lastWindow ts
  simp only [lastWindow, add] at hlen ⊢
  rw [← List.drop_append_of_le_length (by omega), List.drop_drop, List.length_append,
    List.length_singleton]
  congr 1
  omega

theorem foldl_add (ts : List Int64) : ts.foldl add [] = lastWindow ts := by
  induction ts using List.reverseRecOn with
  | nil => rfl
  | append_singleton ts t ih => rw [List.foldl_append, ih, List.foldl_cons, List.foldl_nil, lastWindow_append]

end SlidingWindow

namespace CRateCheckBuffer

open SlidingWindow

@[simp] theorem val_ringIndex (i : Fin RATE_BUFFER_SIZE) (j : Nat) :
    (ringIndex i j).val = (i.val + j) % RATE_BUFFER_SIZE := rfl

theorem ringIndex_zero (i : Fin RATE_BUFFER_SIZE) : ringIndex i 0 = i :=
  Fin.ext (Nat.mod_eq_of_lt i.isLt)

theorem ringIndex_ringIndex (i : Fin RATE_BUFFER_SIZE) (j k : Nat) :
    ringIndex (ringIndex i j) k = ringIndex i (j + k) := by
  apply Fin.ext
  rw [val_ringIndex, val_ringIndex, val_ringIndex, Nat.mod_add_mod, Nat.add_assoc]

@[simp] theorem AddTimestamp_vecTimestamps (b : CRateCheckBuffer) (t : Int64) :
    (b.AddTimestamp t).vecTimestamps = b.vecTimestamps.set b.nDataEnd t b.nDataEnd.isLt := rfl

theorem AddTimestamp_nDataStart (b : CRateCheckBuffer) (t : Int64) :
    (b.AddTimestamp t).nDataStart =
      if b.nDataEnd = b.nDataStart ∧ b.fBufferEmpty = false then ringIndex b.nDataStart 1
      else b.nDataStart := rfl

@[simp] theorem AddTimestamp_nDataEnd (b : CRateCheckBuffer) (t : Int64) :
    (b.AddTimestamp t).nDataEnd = ringIndex b.nDataEnd 1 := rfl

@[simp] theorem AddTimestamp_fBufferEmpty (b : CRateCheckBuffer) (t : Int64) :
    (b.AddTimestamp t).fBufferEmpty = false := rfl

theorem ringIndex_ne {i : Fin RATE_BUFFER_SIZE} {j k : Nat} (hjk : j < k)
    (hk : k < j + RATE_BUFFER_SIZE) : ringIndex i j ≠ ringIndex i k := by
  intro h
  have hv := congrArg Fin.val h
  simp only [val_ringIndex, RATE_BUFFER_SIZE] at hv hk
  omega

/-- The buffer holds the window `w`: its timestamps in the slots from `nDataStart` on, and
`nDataEnd` the slot after them. -/
structure Represents (b : CRateCheckBuffer) (w : List Int64) : Prop where
  length_le : w.length ≤ RATE_BUFFER_SIZE
  empty_iff : b.fBufferEmpty = true ↔ w = []
  dataEnd : b.nDataEnd = ringIndex b.nDataStart w.length
  slot : ∀ j (hj : j < w.length), b.vecTimestamps[ringIndex b.nDataStart j] = w[j]

theorem represents_init : Represents {} [] where
  length_le := by decide
  empty_iff := by simp
  dataEnd := by decide
  slot j hj := absurd hj (Nat.not_lt_zero j)

theorem Represents.push {b : CRateCheckBuffer} {w : List Int64} (h : Represents b w)
    (hlt : w.length < RATE_BUFFER_SIZE) (t : Int64) : Represents (b.AddTimestamp t) (w ++ [t]) := by
  -- the end meets the start only when the window is empty, and then the buffer is empty
  have hstart : ¬(b.nDataEnd = b.nDataStart ∧ b.fBufferEmpty = false) := by
    rintro ⟨hend, hne⟩
    by_cases hw : w = []
    · exact absurd (h.empty_iff.mpr hw) (by simp [hne])
    · have hpos : 0 < w.length := List.length_pos_iff.mpr hw
      rw [h.dataEnd] at hend
      exact ringIndex_ne hpos (by omega) ((ringIndex_zero _).trans hend.symm)
  have hkeep : (b.AddTimestamp t).nDataStart = b.nDataStart := by
    rw [AddTimestamp_nDataStart, if_neg hstart]
  refine ⟨by simp; omega, by simp, ?_, ?_⟩
  · rw [AddTimestamp_nDataEnd, hkeep, h.dataEnd, ringIndex_ringIndex, List.length_append,
      List.length_singleton]
  · intro j hj
    rw [AddTimestamp_vecTimestamps]
    simp only [hkeep, Fin.getElem_fin]
    rw [Vector.getElem_set, h.dataEnd]
    by_cases hjw : j < w.length
    · have hne : (ringIndex b.nDataStart w.length).val ≠ (ringIndex b.nDataStart j).val :=
        fun heq => ringIndex_ne hjw (by omega) (Fin.ext heq).symm
      rw [if_neg hne, ← Fin.getElem_fin, h.slot j hjw, List.getElem_append_left hjw]
    · have hj' : j = w.length := by simp at hj; omega
      subst hj'
      simp

theorem Represents.slide {b : CRateCheckBuffer} {w : List Int64} (h : Represents b w)
    (hfull : w.length = RATE_BUFFER_SIZE) (t : Int64) :
    Represents (b.AddTimestamp t) (w ++ [t]).tail := by
  have hne : w ≠ [] := by
    intro hw
    simp [hw, RATE_BUFFER_SIZE] at hfull
  -- a full window ends where it starts, and the buffer is not empty
  have hend : b.nDataEnd = b.nDataStart := by
    rw [h.dataEnd, hfull]
    apply Fin.ext
    rw [val_ringIndex, Nat.add_mod_right]
    exact Nat.mod_eq_of_lt b.nDataStart.isLt
  have hstart : b.nDataEnd = b.nDataStart ∧ b.fBufferEmpty = false :=
    ⟨hend, by simpa using (not_congr h.empty_iff).mpr hne⟩
  have hmove : (b.AddTimestamp t).nDataStart = ringIndex b.nDataStart 1 := by
    rw [AddTimestamp_nDataStart, if_pos hstart]
  have hlen : (w ++ [t]).tail.length = RATE_BUFFER_SIZE := by simp [hfull]
  have hnonempty : (w ++ [t]).tail ≠ [] := by
    intro h0
    rw [h0] at hlen
    exact absurd hlen (by decide)
  refine ⟨hlen.le, by simpa using hnonempty, ?_, ?_⟩
  · rw [AddTimestamp_nDataEnd, hmove, hend, ringIndex_ringIndex, hlen]
    apply Fin.ext
    rw [val_ringIndex, val_ringIndex]
    unfold RATE_BUFFER_SIZE
    omega
  · intro j hj
    rw [hlen] at hj
    rw [AddTimestamp_vecTimestamps]
    simp only [hmove, ringIndex_ringIndex, Fin.getElem_fin]
    rw [Vector.getElem_set, List.getElem_tail, hend]
    by_cases hj4 : j + 1 < w.length
    · have hne' : b.nDataStart.val ≠ (ringIndex b.nDataStart (1 + j)).val := by
        intro heq
        exact ringIndex_ne (by omega) (by omega) ((ringIndex_zero b.nDataStart).trans (Fin.ext heq))
      rw [if_neg hne', ← Fin.getElem_fin]
      simp only [Nat.add_comm 1 j]
      rw [h.slot (j + 1) hj4, List.getElem_append_left hj4]
    · have hj' : j + 1 = w.length := by omega
      have heq : b.nDataStart.val = (ringIndex b.nDataStart (1 + j)).val := by
        rw [val_ringIndex, Nat.add_comm 1 j, hj', hfull, Nat.add_mod_right]
        exact (Nat.mod_eq_of_lt b.nDataStart.isLt).symm
      rw [if_pos heq]
      simp [hj']

theorem Represents.step {b : CRateCheckBuffer} {w : List Int64} (h : Represents b w) (t : Int64) :
    Represents (b.AddTimestamp t) (SlidingWindow.add w t) := by
  by_cases hlt : w.length < RATE_BUFFER_SIZE
  · have hdrop : SlidingWindow.add w t = w ++ [t] := by
      rw [SlidingWindow.add, Nat.sub_eq_zero_of_le (by omega), List.drop_zero]
    rw [hdrop]
    exact h.push hlt t
  · have hfull : w.length = RATE_BUFFER_SIZE := by have := h.length_le; omega
    have hdrop : SlidingWindow.add w t = (w ++ [t]).tail := by
      rw [SlidingWindow.add, hfull, Nat.add_sub_cancel_left, List.drop_one]
    rw [hdrop]
    exact h.slide hfull t

theorem Represents.foldl {b : CRateCheckBuffer} {w : List Int64} (h : Represents b w)
    (ts : List Int64) : Represents (ts.foldl AddTimestamp b) (ts.foldl SlidingWindow.add w) := by
  induction ts generalizing b w with
  | nil => exact h
  | cons t ts ih => exact ih (h.step t)

theorem Represents.GetCount_eq {b : CRateCheckBuffer} {w : List Int64} (h : Represents b w) :
    b.GetCount = w.length := by
  have hend := congrArg Fin.val h.dataEnd
  have hs := b.nDataStart.isLt
  have hle := h.length_le
  simp only [val_ringIndex, RATE_BUFFER_SIZE] at hend hs hle
  unfold GetCount
  split
  · rename_i hempty
    simp [h.empty_iff.mp hempty]
  · rename_i hempty
    have hpos : 0 < w.length := List.length_pos_iff.mpr (fun hw => hempty (h.empty_iff.mpr hw))
    simp only [RATE_BUFFER_SIZE]
    split <;> omega

theorem Represents.scan_eq {b : CRateCheckBuffer} {w : List Int64} (h : Represents b w)
    (step : Int64 → Int64 → Int64) (fuel : Nat) :
    ∀ (j : Nat) (acc : Int64), j < w.length → w.length ≤ j + fuel →
      b.scan step acc (ringIndex b.nDataStart j) fuel = (w.drop j).foldl step acc := by
  induction fuel with
  | zero => intro j acc hj hfuel; omega
  | succ fuel ih =>
    intro j acc hj hfuel
    rw [scan, h.slot j hj, ringIndex_ringIndex, List.drop_eq_getElem_cons hj, List.foldl_cons]
    by_cases hlast : j + 1 < w.length
    · rw [if_pos (fun heq => ringIndex_ne hlast (by have := h.length_le; omega)
        (heq.trans h.dataEnd))]
      exact ih (j + 1) _ hlast (by omega)
    · have hj' : j + 1 = w.length := by omega
      rw [if_neg (by rw [not_not, h.dataEnd, hj']), hj', List.drop_length, List.foldl_nil]

theorem Represents.scan_window {b : CRateCheckBuffer} {w : List Int64} (h : Represents b w)
    (hw : w ≠ []) (step : Int64 → Int64 → Int64) (init : Int64) :
    b.scan step init b.nDataStart RATE_BUFFER_SIZE = w.foldl step init := by
  have hpos : 0 < w.length := List.length_pos_iff.mpr hw
  have hscan := h.scan_eq step RATE_BUFFER_SIZE 0 init hpos (by have := h.length_le; omega)
  rwa [ringIndex_zero, List.drop_zero] at hscan

theorem strictWeakOrder_int64_lt : Selection.StrictWeakOrder fun a b : Int64 => decide (a < b) where
  asymm a b hab := by
    simp only [decide_eq_true_eq, decide_eq_false_iff_not, Int64.lt_iff_toInt_lt] at hab ⊢
    omega
  split a b c hac := by
    simp only [decide_eq_true_eq, Int64.lt_iff_toInt_lt] at hac ⊢
    omega

theorem foldl_minStep_least {w : List Int64} (hw : w ≠ []) :
    w.foldl minStep Int64.maxValue ∈ w ∧ ∀ t ∈ w, w.foldl minStep Int64.maxValue ≤ t := by
  have hfold : w.foldl (Selection.minStep fun a b : Int64 => decide (a < b)) (some Int64.maxValue) =
      some (w.foldl minStep Int64.maxValue) := by
    rw [Selection.foldl_minStep_some]
    congr 2
    funext m t
    simp [minStep]
  obtain ⟨hmem, -, hall⟩ := Selection.foldl_minStep_spec strictWeakOrder_int64_lt w _ _ hfold
  have hle : ∀ t ∈ w, w.foldl minStep Int64.maxValue ≤ t := fun t ht => by
    have hnot := hall t ht
    simp only [decide_eq_false_iff_not] at hnot
    exact Int64.not_lt.mp hnot
  refine ⟨?_, hle⟩
  rcases hmem with hinit | hmem
  · -- the start value `INT64_MAX` is kept only when a timestamp equals it
    obtain ⟨t, ht⟩ := List.exists_mem_of_ne_nil w hw
    have hmax := Int64.toInt_le t
    have hlt := Int64.le_iff_toInt_le.mp (hle t ht)
    rw [← Option.some.inj hinit] at hlt ⊢
    have heq : t = Int64.maxValue := Int64.toInt_inj.mp (by omega)
    exact heq ▸ ht
  · exact hmem

theorem foldl_maxStep_greatest (w : List Int64) :
    (w.foldl maxStep 0 = 0 ∨ w.foldl maxStep 0 ∈ w) ∧ 0 ≤ w.foldl maxStep 0 ∧
      ∀ t ∈ w, t ≤ w.foldl maxStep 0 := by
  have hfold : w.foldl (Selection.minStep fun a b : Int64 => decide (b < a)) (some 0) =
      some (w.foldl maxStep 0) := by
    rw [Selection.foldl_minStep_some]
    congr 2
    funext m t
    simp [maxStep]
  obtain ⟨hmem, hinit, hall⟩ :=
    Selection.foldl_minStep_spec strictWeakOrder_int64_lt.flip w _ _ hfold
  have hzero := hinit 0 rfl
  simp only [decide_eq_false_iff_not] at hzero
  refine ⟨?_, Int64.not_lt.mp hzero, fun t ht => ?_⟩
  · rcases hmem with hinit | hmem
    · exact .inl (Option.some.inj hinit).symm
    · exact .inr hmem
  · have hnot := hall t ht
    simp only [decide_eq_false_iff_not] at hnot
    exact Int64.not_lt.mp hnot

theorem Represents.fBufferEmpty_eq {b : CRateCheckBuffer} {w : List Int64} (h : Represents b w)
    (hw : w ≠ []) : b.fBufferEmpty = false := by
  simpa using (not_congr h.empty_iff).mpr hw

theorem Represents.GetMinTimestamp_eq {b : CRateCheckBuffer} {w : List Int64} (h : Represents b w)
    (hw : w ≠ []) : b.GetMinTimestamp = w.foldl minStep Int64.maxValue := by
  rw [GetMinTimestamp, h.fBufferEmpty_eq hw, h.scan_window hw]
  rfl

theorem Represents.GetMaxTimestamp_eq {b : CRateCheckBuffer} {w : List Int64} (h : Represents b w)
    (hw : w ≠ []) : b.GetMaxTimestamp = w.foldl maxStep 0 := by
  rw [GetMaxTimestamp, h.fBufferEmpty_eq hw, h.scan_window hw]
  rfl

theorem Represents.GetRate_eq {b : CRateCheckBuffer} {w : List Int64} (h : Represents b w) :
    b.GetRate = SlidingWindow.rate w b.GetMinTimestamp b.GetMaxTimestamp := by
  simp only [GetRate, SlidingWindow.rate, h.GetCount_eq]

end CRateCheckBuffer

/-- After any timestamps added to a new buffer, the buffer counts the last `RATE_BUFFER_SIZE`
of them, its least and greatest timestamps (the greatest clamped below at `0`) are those of
that window, and its rate is the window's. -/
theorem rate_buffer_refines_window (ts : List Int64) :
    (ts.foldl CRateCheckBuffer.AddTimestamp {}).GetCount = min ts.length RATE_BUFFER_SIZE ∧
      (ts ≠ [] →
        ((ts.foldl CRateCheckBuffer.AddTimestamp {}).GetMinTimestamp ∈ SlidingWindow.lastWindow ts ∧
          ∀ t ∈ SlidingWindow.lastWindow ts,
            (ts.foldl CRateCheckBuffer.AddTimestamp {}).GetMinTimestamp ≤ t) ∧
        ((ts.foldl CRateCheckBuffer.AddTimestamp {}).GetMaxTimestamp = 0 ∨
          (ts.foldl CRateCheckBuffer.AddTimestamp {}).GetMaxTimestamp ∈ SlidingWindow.lastWindow ts) ∧
        0 ≤ (ts.foldl CRateCheckBuffer.AddTimestamp {}).GetMaxTimestamp ∧
        ∀ t ∈ SlidingWindow.lastWindow ts,
          t ≤ (ts.foldl CRateCheckBuffer.AddTimestamp {}).GetMaxTimestamp) ∧
      (ts.foldl CRateCheckBuffer.AddTimestamp {}).GetRate =
        SlidingWindow.rate (SlidingWindow.lastWindow ts)
          (ts.foldl CRateCheckBuffer.AddTimestamp {}).GetMinTimestamp
          (ts.foldl CRateCheckBuffer.AddTimestamp {}).GetMaxTimestamp := by
  set b := ts.foldl CRateCheckBuffer.AddTimestamp {}
  set w := SlidingWindow.lastWindow ts with hw_def
  have h : CRateCheckBuffer.Represents b w := by
    have hrun := CRateCheckBuffer.represents_init.foldl ts
    rwa [SlidingWindow.foldl_add] at hrun
  refine ⟨by rw [h.GetCount_eq, SlidingWindow.length_lastWindow], fun hts => ?_, h.GetRate_eq⟩
  have hw : w ≠ [] := by
    have hlen := SlidingWindow.length_lastWindow ts
    have hpos : 0 < ts.length := List.length_pos_iff.mpr hts
    intro h0
    rw [← hw_def, h0] at hlen
    simp only [List.length_nil, RATE_BUFFER_SIZE] at hlen
    omega
  rw [h.GetMinTimestamp_eq hw, h.GetMaxTimestamp_eq hw]
  exact ⟨CRateCheckBuffer.foldl_minStep_least hw, CRateCheckBuffer.foldl_maxStep_greatest w⟩

/-- Seven timestamps: the buffer's extremes bound the last five. -/
theorem seven_timestamps_bounded_by_extremes :
    ∀ t ∈ SlidingWindow.lastWindow [7, 3, 9, 3, 12, 4, 8],
      (([7, 3, 9, 3, 12, 4, 8] : List Int64).foldl CRateCheckBuffer.AddTimestamp {}).GetMinTimestamp ≤ t ∧
        t ≤ (([7, 3, 9, 3, 12, 4, 8] : List Int64).foldl CRateCheckBuffer.AddTimestamp {}).GetMaxTimestamp := by
  intro t ht
  obtain ⟨-, hext, -⟩ := rate_buffer_refines_window ([7, 3, 9, 3, 12, 4, 8] : List Int64)
  obtain ⟨⟨-, hmin⟩, -, -, hmax⟩ := hext (by decide)
  exact ⟨hmin t ht, hmax t ht⟩

end DashCore
