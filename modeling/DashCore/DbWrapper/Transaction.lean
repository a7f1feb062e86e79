import DashCore.Lib.OrderedMap

/-! `CDBTransaction` of dbwrapper.h: writes and deletes held in memory over a parent store, read
before the parent, and merged with the parent's cursor by `CDBTransactionIterator`. A key is the
bytes of its `CDataStream`, ordered by `DataStreamCmp::less`. A value keeps its type `V`: one
transaction holds values of one type, so the `dynamic_cast` of `Read` never fails.

Over a parent that behaves as a map `M`, a transaction built by any calls behaves as `M` with
its deletes removed and its writes put over it (`View`), its cursors included, and `Commit`
leaves that map in the object it commits into. -/
namespace DashCore

open OrderedMap Selection

abbrev DBKey := List UInt8

def DataStreamCmp.less (a b : DBKey) : Bool := decide (a < b)

theorem DataStreamCmp.less_strictTotalOrder : StrictTotalOrder DataStreamCmp.less where
  asymm a b h := by
    simpa [DataStreamCmp.less] using List.lt_asymm (of_decide_eq_true h)
  trans a b c hab hbc := by
    simp only [DataStreamCmp.less, decide_eq_true_eq] at hab hbc ⊢
    exact List.lt_trans hab hbc
  total a b hne := by
    simp only [DataStreamCmp.less, decide_eq_true_eq]
    by_contra hnot
    rw [not_or, List.not_lt, List.not_lt] at hnot
    exact hne (List.le_antisymm hnot.2 hnot.1)

structure ValueHolder (V : Type) where
  memoryUsage : Nat
  value : V

/-- `CDBTransaction`: the `WritesMap` and the `DeletesSet` (a map to `Unit`), sorted by
`DataStreamCmp::less`, and the memory counted for them. -/
structure CDBTransaction (V : Type) where
  writes : List (DBKey × ValueHolder V) := []
  deletes : List (DBKey × Unit) := []
  memoryUsage : Int := 0

namespace CDBTransaction

variable {V : Type}

section Calls

variable (GetSerializeSize : V → Nat)

def Write (T : CDBTransaction V) (ssKey : DBKey) (v : V) : CDBTransaction V :=
  let valueMemoryUsage := GetSerializeSize v
  -- `deletes.erase(ssKey)` gives the key's size back when it removed the key
  let memoryUsage :=
    if (find? DataStreamCmp.less T.deletes ssKey).isSome then T.memoryUsage - ssKey.length
    else T.memoryUsage
  -- the holder a key already had is given back before the new one replaces it
  let memoryUsage :=
    match find? DataStreamCmp.less T.writes ssKey with
    | some old => memoryUsage - (ssKey.length + old.memoryUsage)
    | none => memoryUsage
  { writes := insert DataStreamCmp.less T.writes ssKey ⟨valueMemoryUsage, v⟩
    deletes := erase DataStreamCmp.less T.deletes ssKey
    memoryUsage := memoryUsage + (ssKey.length + valueMemoryUsage) }

/-- `Erase(ssKey)`: the key's write goes, and the key is counted once among the deletes. -/
def Erase (T : CDBTransaction V) (ssKey : DBKey) : CDBTransaction V :=
  let (writes, memoryUsage) :=
    match find? DataStreamCmp.less T.writes ssKey with
    | some old =>
      (erase DataStreamCmp.less T.writes ssKey, T.memoryUsage - (ssKey.length + old.memoryUsage))
    | none => (T.writes, T.memoryUsage)
  { writes
    deletes := insert DataStreamCmp.less T.deletes ssKey ()
    memoryUsage :=
      if (find? DataStreamCmp.less T.deletes ssKey).isSome then memoryUsage
      else memoryUsage + ssKey.length }

end Calls

def Clear (_ : CDBTransaction V) : CDBTransaction V := { writes := [], deletes := [], memoryUsage := 0 }

def IsClean (T : CDBTransaction V) : Bool := T.writes.isEmpty && T.deletes.isEmpty

/-- `GetMemoryUsage()`: a negative count, which the accounting should never reach, reads as 0. -/
def GetMemoryUsage (T : CDBTransaction V) : Nat := if T.memoryUsage < 0 then 0 else T.memoryUsage.toNat

section Parent

variable {It : Type} (P : OrderedStore It DBKey V)

/-- `Read(ssKey, value)`: a deleted key is absent, a written one has its value, and any other is
read from the parent. -/
def Read (T : CDBTransaction V) (ssKey : DBKey) : Option V :=
  if (find? DataStreamCmp.less T.deletes ssKey).isSome then none
  else
    match find? DataStreamCmp.less T.writes ssKey with
    | some h => some h.value
    | none => P.Read ssKey

def Exists (T : CDBTransaction V) (ssKey : DBKey) : Bool :=
  if (find? DataStreamCmp.less T.deletes ssKey).isSome then false
  else if (find? DataStreamCmp.less T.writes ssKey).isSome then true
  else P.Exists ssKey

end Parent

structure CommitTarget (σ V : Type) where
  Write : σ → DBKey → V → σ
  Erase : σ → DBKey → σ

/-- `Commit()`: the deletes, then the writes, into the commit target, and the transaction is
cleared. -/
def Commit {σ : Type} (ct : CommitTarget σ V) (T : CDBTransaction V) (commitTarget : σ) :
    σ × CDBTransaction V :=
  let commitTarget := T.deletes.foldl (fun s k => ct.Erase s k.1) commitTarget
  let commitTarget := T.writes.foldl (fun s p => ct.Write s p.1 p.2.value) commitTarget
  (commitTarget, Clear T)

inductive Op (V : Type) where
  | write (ssKey : DBKey) (v : V)
  | erase (ssKey : DBKey)
  | clear

def step (GetSerializeSize : V → Nat) (T : CDBTransaction V) : Op V → CDBTransaction V
  | .write ssKey v => Write GetSerializeSize T ssKey v
  | .erase ssKey => Erase T ssKey
  | .clear => Clear T

def run (GetSerializeSize : V → Nat) (T : CDBTransaction V) (ops : List (Op V)) :
    CDBTransaction V :=
  ops.foldl (step GetSerializeSize) T

/-! ### What a transaction shows -/

/-- The map a transaction shows over a parent map `M`: `M` without the deletes, with the writes
put over it. -/
def View (T : CDBTransaction V) (M : DBKey → Option V) (k : DBKey) : Option V :=
  match find? DataStreamCmp.less T.writes k with
  | some h => some h.value
  | none => if (find? DataStreamCmp.less T.deletes k).isSome then none else M k

structure WF (T : CDBTransaction V) : Prop where
  writes_sorted : Sorted DataStreamCmp.less T.writes
  deletes_sorted : Sorted DataStreamCmp.less T.deletes
  disjoint : ∀ k, (find? DataStreamCmp.less T.writes k).isSome →
    find? DataStreamCmp.less T.deletes k = none

theorem wf_Clear (T : CDBTransaction V) : WF (Clear T) :=
  ⟨List.Pairwise.nil, List.Pairwise.nil, fun _ h => by cases h⟩

theorem wf_empty : WF ({} : CDBTransaction V) :=
  ⟨List.Pairwise.nil, List.Pairwise.nil, fun _ h => by cases h⟩

section Calls

variable (GetSerializeSize : V → Nat) {T : CDBTransaction V}

@[simp] theorem writes_Write (ssKey : DBKey) (v : V) :
    (Write GetSerializeSize T ssKey v).writes =
      insert DataStreamCmp.less T.writes ssKey ⟨GetSerializeSize v, v⟩ := rfl

@[simp] theorem deletes_Write (ssKey : DBKey) (v : V) :
    (Write GetSerializeSize T ssKey v).deletes = erase DataStreamCmp.less T.deletes ssKey := rfl

@[simp] theorem deletes_Erase (ssKey : DBKey) :
    (Erase T ssKey).deletes = insert DataStreamCmp.less T.deletes ssKey () := rfl

theorem mem_writes_Erase (hT : WF T) (ssKey : DBKey) (e : DBKey × ValueHolder V) :
    e ∈ (Erase T ssKey).writes ↔ e ∈ T.writes ∧ e.1 ≠ ssKey := by
  have ho := DataStreamCmp.less_strictTotalOrder
  unfold Erase
  cases hw : find? DataStreamCmp.less T.writes ssKey with
  | some old => exact mem_erase ho ssKey e
  | none =>
    refine ⟨fun h => ⟨h, fun he => ?_⟩, fun h => h.1⟩
    exact (find?_eq_none_iff ho hT.writes_sorted ssKey).mp hw e.2 (he ▸ h)

theorem sorted_writes_Erase (hT : WF T) (ssKey : DBKey) :
    Sorted DataStreamCmp.less (Erase T ssKey).writes := by
  unfold Erase
  cases find? DataStreamCmp.less T.writes ssKey with
  | some old => exact sorted_erase hT.writes_sorted ssKey
  | none => exact hT.writes_sorted

theorem WF.Write (hT : WF T) (ssKey : DBKey) (v : V) : WF (Write GetSerializeSize T ssKey v) := by
  have ho := DataStreamCmp.less_strictTotalOrder
  refine ⟨?_, ?_, fun k hk => ?_⟩
  · rw [writes_Write]
    exact sorted_insert ho hT.writes_sorted _ _
  · rw [deletes_Write]
    exact sorted_erase hT.deletes_sorted _
  · rw [deletes_Write]
    by_cases hkk : k = ssKey
    · rw [hkk]
      exact find?_erase_self ho hT.deletes_sorted ssKey
    · rw [writes_Write, find?_insert_of_ne ho hT.writes_sorted hkk] at hk
      rw [find?_erase_of_ne ho hT.deletes_sorted hkk]
      exact hT.disjoint k hk

theorem WF.Erase (hT : WF T) (ssKey : DBKey) : WF (Erase T ssKey) := by
  have ho := DataStreamCmp.less_strictTotalOrder
  refine ⟨sorted_writes_Erase hT ssKey, ?_, fun k hk => ?_⟩
  · rw [deletes_Erase]
    exact sorted_insert ho hT.deletes_sorted _ _
  · rw [deletes_Erase]
    obtain ⟨h, hh⟩ := Option.isSome_iff_exists.mp hk
    have hmem := (mem_writes_Erase hT ssKey (k, h)).mp
      ((find?_eq_some_iff ho (sorted_writes_Erase hT ssKey) k h).mp hh)
    rw [find?_insert_of_ne ho hT.deletes_sorted hmem.2]
    exact hT.disjoint k (Option.isSome_iff_exists.mpr ⟨h, (find?_eq_some_iff ho hT.writes_sorted k h).mpr hmem.1⟩)

theorem WF.step (hT : WF T) (op : Op V) : WF (step GetSerializeSize T op) := by
  cases op with
  | write ssKey v => exact hT.Write GetSerializeSize ssKey v
  | erase ssKey => exact hT.Erase ssKey
  | clear => exact wf_Clear T

theorem WF.run (hT : WF T) (ops : List (Op V)) : WF (run GetSerializeSize T ops) := by
  induction ops generalizing T with
  | nil => exact hT
  | cons op ops ih => exact ih (hT.step GetSerializeSize op)

theorem find?_writes_Erase_of_ne (hT : WF T) {ssKey k : DBKey} (hne : k ≠ ssKey) :
    find? DataStreamCmp.less (Erase T ssKey).writes k = find? DataStreamCmp.less T.writes k := by
  have ho := DataStreamCmp.less_strictTotalOrder
  apply Option.ext
  intro h
  rw [find?_eq_some_iff ho (sorted_writes_Erase hT ssKey), find?_eq_some_iff ho hT.writes_sorted,
    mem_writes_Erase hT]
  exact ⟨fun hm => hm.1, fun hm => ⟨hm, hne⟩⟩

theorem find?_writes_Erase_self (hT : WF T) (ssKey : DBKey) :
    find? DataStreamCmp.less (Erase T ssKey).writes ssKey = none := by
  have ho := DataStreamCmp.less_strictTotalOrder
  rw [find?_eq_none_iff ho (sorted_writes_Erase hT ssKey)]
  intro h hm
  exact ((mem_writes_Erase hT ssKey _).mp hm).2 rfl

/-! ### The map a transaction shows -/

section View

variable (M : DBKey → Option V)

theorem View_Write (hT : WF T) (ssKey : DBKey) (v : V) (k : DBKey) :
    View (Write GetSerializeSize T ssKey v) M k = if k = ssKey then some v else View T M k := by
  have ho := DataStreamCmp.less_strictTotalOrder
  unfold View
  by_cases hk : k = ssKey
  · rw [if_pos hk, hk, writes_Write, find?_insert_self ho hT.writes_sorted]
  · rw [if_neg hk, writes_Write, deletes_Write, find?_insert_of_ne ho hT.writes_sorted hk,
      find?_erase_of_ne ho hT.deletes_sorted hk]

theorem View_Erase (hT : WF T) (ssKey : DBKey) (k : DBKey) :
    View (Erase T ssKey) M k = if k = ssKey then none else View T M k := by
  have ho := DataStreamCmp.less_strictTotalOrder
  unfold View
  by_cases hk : k = ssKey
  · rw [if_pos hk, hk, find?_writes_Erase_self hT, deletes_Erase,
      find?_insert_self ho hT.deletes_sorted]
    rfl
  · rw [if_neg hk, find?_writes_Erase_of_ne hT hk, deletes_Erase,
      find?_insert_of_ne ho hT.deletes_sorted hk]

end View

end Calls

/-- What the calls mean for the map a transaction shows over `M`: a write sets a key, an erase
removes it, and `Clear` drops every change. -/
def Op.apply (M : DBKey → Option V) (m : DBKey → Option V) : Op V → DBKey → Option V
  | .write ssKey v => fun k => if k = ssKey then some v else m k
  | .erase ssKey => fun k => if k = ssKey then none else m k
  | .clear => M

/-- A transaction refines the map its calls make of the parent map. Induction on the calls,
one `View_` lemma for each. -/
theorem View_run (GetSerializeSize : V → Nat) {T : CDBTransaction V} (hT : WF T)
    (M : DBKey → Option V) (ops : List (Op V)) :
    View (run GetSerializeSize T ops) M = ops.foldl (Op.apply M) (View T M) := by
  induction ops generalizing T with
  | nil => rfl
  | cons op ops ih =>
    rw [run, List.foldl_cons, ← run, ih (hT.step GetSerializeSize op), List.foldl_cons]
    congr 1
    funext k
    cases op with
    | write ssKey v => exact View_Write GetSerializeSize M hT ssKey v k
    | erase ssKey => exact View_Erase M hT ssKey k
    | clear => rfl

/-- Over a parent holding `[1]`, `[2]` and `[3]`: `[2]` overwritten, `[3]` erased, `[4]` written
and erased, `[1]` left alone. -/
theorem View_run_over_parent :
    View (run (fun _ => 0) {} [.write [2] 25, .erase [3], .write [4] 40, .erase [4]])
        (fun k => [([1], 10), ([2], 20), ([3], 30)].lookup k) =
      [Op.write [2] 25, Op.erase [3], Op.write [4] 40, Op.erase [4]].foldl
        (Op.apply fun k => [([1], 10), ([2], 20), ([3], 30)].lookup k)
        (View {} fun k => [([1], 10), ([2], 20), ([3], 30)].lookup k) :=
  View_run (fun _ => 0) wf_empty _ [.write [2] 25, .erase [3], .write [4] 40, .erase [4]]

section Parent

variable {It : Type} {P : OrderedStore It DBKey V} {T : CDBTransaction V} {M : DBKey → Option V}

theorem Read_eq_View (hT : WF T) (hP : ∀ k, P.Read k = M k) (k : DBKey) :
    Read P T k = View T M k := by
  unfold Read View
  cases hd : find? DataStreamCmp.less T.deletes k with
  | some u =>
    cases hw : find? DataStreamCmp.less T.writes k with
    | some h =>
      have := hT.disjoint k (by rw [hw]; rfl)
      rw [hd] at this
      cases this
    | none => rfl
  | none =>
    cases find? DataStreamCmp.less T.writes k with
    | some h => rfl
    | none => exact hP k

theorem Exists_eq_View (hT : WF T) (hP : ∀ k, P.Exists k = (M k).isSome) (k : DBKey) :
    Exists P T k = (View T M k).isSome := by
  unfold Exists View
  cases hd : find? DataStreamCmp.less T.deletes k with
  | some u =>
    cases hw : find? DataStreamCmp.less T.writes k with
    | some h =>
      have := hT.disjoint k (by rw [hw]; rfl)
      rw [hd] at this
      cases this
    | none => rfl
  | none =>
    cases find? DataStreamCmp.less T.writes k with
    | some h => rfl
    | none => exact hP k

end Parent

/-- The transaction deletes or writes the key: the parent's entry for it is not shown. -/
def Hidden (T : CDBTransaction V) (k : DBKey) : Bool :=
  (find? DataStreamCmp.less T.deletes k).isSome || (find? DataStreamCmp.less T.writes k).isSome

end CDBTransaction

/-! ### `CDBTransactionIterator` -/

/-- The fields of `CDBTransactionIterator`: the writes from `transactionIt` on, the parent's
cursor, the key that cursor was last read at, and whether the parent's entry is the current
one. -/
structure CDBTransactionIterator (It V : Type) where
  transactionIt : List (DBKey × ValueHolder V)
  parentIt : It
  parentKey : DBKey
  curIsParent : Bool

namespace CDBTransactionIterator

open CDBTransaction

variable {It V : Type} (P : OrderedStore It DBKey V) (T : CDBTransaction V)

/-- `SkipDeletedAndOverwritten()`: the parent's cursor moves past the keys the transaction
deletes or writes. -/
def SkipDeletedAndOverwritten (it : CDBTransactionIterator It V) : CDBTransactionIterator It V :=
  if P.cursor.Valid it.parentIt = true then
    let parentKey := P.cursor.GetKey it.parentIt
    if !(find? DataStreamCmp.less T.deletes parentKey).isSome &&
        !(find? DataStreamCmp.less T.writes parentKey).isSome then
      { it with parentKey }
    else SkipDeletedAndOverwritten { it with parentIt := P.cursor.Next it.parentIt, parentKey }
  else it
termination_by P.cursor.rank it.parentIt
decreasing_by exact P.cursor.next_lt _ ‹_›

/-- `DecideCur()`: the smaller key of the two is the current one; with both ends reached,
nothing changes. -/
def DecideCur (it : CDBTransactionIterator It V) : CDBTransactionIterator It V :=
  match it.transactionIt, P.cursor.Valid it.parentIt with
  | _ :: _, false => { it with curIsParent := false }
  | [], true => { it with curIsParent := true }
  | e :: _, true =>
    if DataStreamCmp.less e.1 it.parentKey then { it with curIsParent := false }
    else { it with curIsParent := true }
  | [], false => it

def Valid (it : CDBTransactionIterator It V) : Bool :=
  !it.transactionIt.isEmpty || P.cursor.Valid it.parentIt

/-- `Next()`; its two `assert`s hold on every iterator `DecideCur` left (`Consistent`). -/
def Next (it : CDBTransactionIterator It V) : CDBTransactionIterator It V :=
  if it.transactionIt.isEmpty && !P.cursor.Valid it.parentIt then it
  else if it.curIsParent then
    DecideCur P (SkipDeletedAndOverwritten P T { it with parentIt := P.cursor.Next it.parentIt })
  else DecideCur P { it with transactionIt := it.transactionIt.tail }

def GetKey (it : CDBTransactionIterator It V) : DBKey :=
  if Valid P it then
    if it.curIsParent then it.parentKey
    else
      match it.transactionIt with
      | e :: _ => e.1
      | [] => []
  else []

def GetValue (it : CDBTransactionIterator It V) : Option V :=
  if Valid P it then Read P T (GetKey P it) else none

def Seek (ssKey : DBKey) : CDBTransactionIterator It V :=
  DecideCur P (SkipDeletedAndOverwritten P T
    ⟨lowerBound DataStreamCmp.less T.writes ssKey, P.Seek ssKey, [], false⟩)

def SeekToFirst : CDBTransactionIterator It V :=
  DecideCur P (SkipDeletedAndOverwritten P T ⟨T.writes, P.SeekToFirst, [], false⟩)

/-- What `DecideCur` leaves: the current side has an entry whenever either side has one. -/
def Consistent (it : CDBTransactionIterator It V) : Prop :=
  (it.curIsParent = true → it.transactionIt ≠ [] → P.cursor.Valid it.parentIt = true) ∧
    (it.curIsParent = false → P.cursor.Valid it.parentIt = true → it.transactionIt ≠ [])

def rank (it : CDBTransactionIterator It V) : Nat :=
  it.transactionIt.length + P.cursor.rank it.parentIt

section Steps

variable {P T}

@[simp] theorem transactionIt_DecideCur (it : CDBTransactionIterator It V) :
    (DecideCur P it).transactionIt = it.transactionIt := by
  unfold DecideCur
  split <;> (try split) <;> rfl

@[simp] theorem parentIt_DecideCur (it : CDBTransactionIterator It V) :
    (DecideCur P it).parentIt = it.parentIt := by
  unfold DecideCur
  split <;> (try split) <;> rfl

@[simp] theorem parentKey_DecideCur (it : CDBTransactionIterator It V) :
    (DecideCur P it).parentKey = it.parentKey := by
  unfold DecideCur
  split <;> (try split) <;> rfl

theorem consistent_DecideCur (it : CDBTransactionIterator It V) : Consistent P (DecideCur P it) := by
  unfold DecideCur Consistent
  rcases ht : it.transactionIt with _ | ⟨e, t⟩ <;> cases hv : P.cursor.Valid it.parentIt
  · simp [ht, hv]
  · simp [hv]
  · simp
  · dsimp only
    split <;> simp [hv]

/-! Each lemma on `SkipDeletedAndOverwritten` follows its loop: one case for the key it stops
at, one for a key it passes, one for the end of the parent. -/

@[simp] theorem transactionIt_Skip (it : CDBTransactionIterator It V) :
    (SkipDeletedAndOverwritten P T it).transactionIt = it.transactionIt := by
  fun_induction SkipDeletedAndOverwritten P T it <;> simp_all

@[simp] theorem curIsParent_Skip (it : CDBTransactionIterator It V) :
    (SkipDeletedAndOverwritten P T it).curIsParent = it.curIsParent := by
  fun_induction SkipDeletedAndOverwritten P T it <;> simp_all

theorem rank_Skip_le (it : CDBTransactionIterator It V) :
    P.cursor.rank (SkipDeletedAndOverwritten P T it).parentIt ≤ P.cursor.rank it.parentIt := by
  fun_induction SkipDeletedAndOverwritten P T it with
  | case1 => exact le_rfl
  | case2 it hv _ _ ih => exact Nat.le_of_lt (Nat.lt_of_le_of_lt ih (P.cursor.next_lt _ hv))
  | case3 => exact le_rfl

theorem keys_Skip (it : CDBTransactionIterator It V) :
    ∃ pre, (∀ k ∈ pre, Hidden T k = true) ∧
      P.cursor.keys it.parentIt = pre ++ P.cursor.keys (SkipDeletedAndOverwritten P T it).parentIt := by
  fun_induction SkipDeletedAndOverwritten P T it with
  | case1 => exact ⟨[], fun _ h => absurd h List.not_mem_nil, rfl⟩
  | case2 it hv parentKey hshown ih =>
    obtain ⟨pre, hpre, heq⟩ := ih
    refine ⟨parentKey :: pre, fun k hk => ?_, ?_⟩
    · rcases List.mem_cons.mp hk with rfl | hk
      · unfold Hidden
        revert hshown
        cases (find? DataStreamCmp.less T.deletes parentKey).isSome <;>
          cases (find? DataStreamCmp.less T.writes parentKey).isSome <;> decide
      · exact hpre k hk
    · rw [P.cursor.keys_of_valid hv, heq]
      rfl
  | case3 => exact ⟨[], fun _ h => absurd h List.not_mem_nil, rfl⟩

theorem skipped_Skip (it : CDBTransactionIterator It V)
    (hv : P.cursor.Valid (SkipDeletedAndOverwritten P T it).parentIt = true) :
    (SkipDeletedAndOverwritten P T it).parentKey =
        P.cursor.GetKey (SkipDeletedAndOverwritten P T it).parentIt ∧
      Hidden T (SkipDeletedAndOverwritten P T it).parentKey = false := by
  fun_induction SkipDeletedAndOverwritten P T it with
  | case1 it _ parentKey hshown =>
    refine ⟨rfl, ?_⟩
    simpa [Hidden] using hshown
  | case2 it _ _ _ ih => exact ih hv
  | case3 it hnv => exact absurd hv hnv

@[simp] theorem Valid_DecideCur (it : CDBTransactionIterator It V) :
    Valid P (DecideCur P it) = Valid P it := by
  simp [Valid]

theorem rank_DecideCur (it : CDBTransactionIterator It V) : rank P (DecideCur P it) = rank P it := by
  simp [rank]

theorem consistent_Next {it : CDBTransactionIterator It V} (hc : Consistent P it) :
    Consistent P (Next P T it) := by
  unfold Next
  split
  · exact hc
  · split
    · exact consistent_DecideCur _
    · exact consistent_DecideCur _

theorem rank_Next_lt {it : CDBTransactionIterator It V} (hc : Consistent P it)
    (hv : Valid P it = true) : rank P (Next P T it) < rank P it := by
  have hnot : ¬(it.transactionIt.isEmpty && !P.cursor.Valid it.parentIt) = true := by
    unfold Valid at hv
    revert hv
    cases it.transactionIt.isEmpty <;> cases P.cursor.Valid it.parentIt <;> decide
  unfold Next
  rw [if_neg hnot]
  split
  · rename_i hcur
    have hpv : P.cursor.Valid it.parentIt = true := by
      by_cases ht : it.transactionIt = []
      · simpa [Valid, ht] using hv
      · exact hc.1 hcur ht
    have hskip := rank_Skip_le (P := P) (T := T) { it with parentIt := P.cursor.Next it.parentIt }
    have hnext := P.cursor.next_lt _ hpv
    rw [rank_DecideCur]
    unfold rank
    rw [transactionIt_Skip]
    exact Nat.add_lt_add_left (Nat.lt_of_le_of_lt hskip hnext) _
  · rename_i hcur
    have ht : it.transactionIt ≠ [] := by
      cases hpv : P.cursor.Valid it.parentIt
      · intro ht
        simp [Valid, ht, hpv] at hv
      · exact hc.2 (by simpa using hcur) hpv
    rw [rank_DecideCur]
    unfold rank
    dsimp only
    rw [List.length_tail]
    have hpos : 0 < it.transactionIt.length := List.length_pos_iff.mpr ht
    omega

end Steps

/-- The iterator as a cursor: `Consistent` is what makes each `Next` a step towards the end. -/
def cursor : Cursor {it : CDBTransactionIterator It V // Consistent P it} DBKey where
  Valid it := Valid P it.1
  GetKey it := GetKey P it.1
  Next it := ⟨Next P T it.1, consistent_Next it.2⟩
  rank it := rank P it.1
  next_lt it h := rank_Next_lt it.2 h

/-! ### The keys an iterator visits -/

/-- The keys an iterator has still to visit: those of its side of the writes, and the parent's
keys that the transaction does not hide. -/
def Pending (it : CDBTransactionIterator It V) (k : DBKey) : Prop :=
  k ∈ it.transactionIt.map (·.1) ∨ (k ∈ P.cursor.keys it.parentIt ∧ Hidden T k = false)

structure Ready (it : CDBTransactionIterator It V) : Prop where
  sub : it.transactionIt.Sublist T.writes
  parent_sorted : (P.cursor.keys it.parentIt).Pairwise fun a b => DataStreamCmp.less a b = true
  skipped : P.cursor.Valid it.parentIt = true →
    it.parentKey = P.cursor.GetKey it.parentIt ∧ Hidden T it.parentKey = false

/-- One `Next` from the iterator `DecideCur` makes of `it`: it visits the least pending key,
and leaves the iterator `DecideCur` makes of `it'`, with that key no longer pending. -/
structure Visits (it it' : CDBTransactionIterator It V) : Prop where
  next : Next P T (DecideCur P it) = DecideCur P it'
  ready : Ready P T it'
  rank_lt : rank P it' < rank P it
  least : Pending P T it (GetKey P (DecideCur P it))
  min : ∀ k, Pending P T it k → k ≠ GetKey P (DecideCur P it) →
    DataStreamCmp.less (GetKey P (DecideCur P it)) k = true
  pending : ∀ k, Pending P T it' k ↔ Pending P T it k ∧ k ≠ GetKey P (DecideCur P it)

section Visits

variable {P T}

theorem pending_Skip (it : CDBTransactionIterator It V) (k : DBKey) :
    Pending P T (SkipDeletedAndOverwritten P T it) k ↔ Pending P T it k := by
  obtain ⟨pre, hpre, heq⟩ := keys_Skip (P := P) (T := T) it
  unfold Pending
  rw [transactionIt_Skip, heq, List.mem_append]
  constructor
  · rintro (h | ⟨h, hk⟩)
    · exact .inl h
    · exact .inr ⟨.inr h, hk⟩
  · rintro (h | ⟨h | h, hk⟩)
    · exact .inl h
    · rw [hpre k h] at hk
      cases hk
    · exact .inr ⟨h, hk⟩

theorem ready_Skip (it : CDBTransactionIterator It V) (hsub : it.transactionIt.Sublist T.writes)
    (hsorted : (P.cursor.keys it.parentIt).Pairwise fun a b => DataStreamCmp.less a b = true) :
    Ready P T (SkipDeletedAndOverwritten P T it) := by
  obtain ⟨pre, -, heq⟩ := keys_Skip (P := P) (T := T) it
  refine ⟨?_, ?_, skipped_Skip it⟩
  · rw [transactionIt_Skip]
    exact hsub
  · rw [heq] at hsorted
    exact hsorted.sublist (List.sublist_append_right pre _)

theorem Ready.sorted (hT : WF T) {it : CDBTransactionIterator It V} (hr : Ready P T it) :
    it.transactionIt.Pairwise fun a b => DataStreamCmp.less a.1 b.1 = true :=
  hT.writes_sorted.sublist hr.sub

theorem Ready.hidden (hT : WF T) {it : CDBTransactionIterator It V} (hr : Ready P T it)
    {e : DBKey × ValueHolder V} (he : e ∈ it.transactionIt) : Hidden T e.1 = true := by
  have hw : find? DataStreamCmp.less T.writes e.1 = some e.2 :=
    (find?_eq_some_iff DataStreamCmp.less_strictTotalOrder hT.writes_sorted e.1 e.2).mpr
      (hr.sub.subset he)
  simp [Hidden, hw]

theorem Ready.keys_parent {it : CDBTransactionIterator It V} (hr : Ready P T it)
    (hpv : P.cursor.Valid it.parentIt = true) :
    P.cursor.keys it.parentIt = it.parentKey :: P.cursor.keys (P.cursor.Next it.parentIt) := by
  rw [P.cursor.keys_of_valid hpv, (hr.skipped hpv).1]

theorem not_pending_of_not_valid {it : CDBTransactionIterator It V} (hv : Valid P it = false)
    (k : DBKey) : ¬ Pending P T it k := by
  unfold Valid at hv
  rw [Bool.or_eq_false_iff, Bool.not_eq_false', List.isEmpty_iff] at hv
  unfold Pending
  rw [hv.1, P.cursor.keys_of_not_valid hv.2]
  simp

theorem DecideCur_of_valid {it : CDBTransactionIterator It V} (hv : Valid P it = true) :
    (∃ e t, it.transactionIt = e :: t ∧
        (P.cursor.Valid it.parentIt = false ∨ DataStreamCmp.less e.1 it.parentKey = true) ∧
        DecideCur P it = { it with curIsParent := false }) ∨
      (P.cursor.Valid it.parentIt = true ∧
        (∀ e t, it.transactionIt = e :: t → DataStreamCmp.less e.1 it.parentKey = false) ∧
        DecideCur P it = { it with curIsParent := true }) := by
  unfold DecideCur
  rcases ht : it.transactionIt with _ | ⟨e, t⟩ <;> cases hpv : P.cursor.Valid it.parentIt
  · simp [Valid, ht, hpv] at hv
  · exact .inr ⟨rfl, (fun _ _ h => by cases h), rfl⟩
  · exact .inl ⟨e, t, rfl, .inl rfl, rfl⟩
  · dsimp only
    by_cases hlt : DataStreamCmp.less e.1 it.parentKey = true
    · rw [if_pos hlt]
      exact .inl ⟨e, t, rfl, .inr hlt, rfl⟩
    · rw [if_neg hlt]
      refine .inr ⟨rfl, fun e' t' h => ?_, rfl⟩
      cases h
      simpa using hlt

theorem visits_write (hT : WF T) {it : CDBTransactionIterator It V} (hr : Ready P T it)
    {e : DBKey × ValueHolder V} {t : List (DBKey × ValueHolder V)} (ht : it.transactionIt = e :: t)
    (hlt : P.cursor.Valid it.parentIt = false ∨ DataStreamCmp.less e.1 it.parentKey = true)
    (hd : DecideCur P it = { it with curIsParent := false }) :
    Visits P T it { it with curIsParent := false, transactionIt := t } := by
  have ho := DataStreamCmp.less_strictTotalOrder
  have hsorted := hr.sorted hT
  rw [ht, List.pairwise_cons] at hsorted
  have hkey : GetKey P (DecideCur P it) = e.1 := by
    rw [hd]
    simp [GetKey, Valid, ht]
  -- a key of the parent lies above the parent's current key, so above `e.1` too
  have hparent : ∀ k ∈ P.cursor.keys it.parentIt, DataStreamCmp.less e.1 k = true := by
    intro k hk
    have hpv : P.cursor.Valid it.parentIt = true := by
      cases hpv : P.cursor.Valid it.parentIt
      · rw [P.cursor.keys_of_not_valid hpv] at hk
        cases hk
      · rfl
    have hlt' : DataStreamCmp.less e.1 it.parentKey = true :=
      hlt.resolve_left (by rw [hpv]; decide)
    have hkeys := hr.parent_sorted
    rw [hr.keys_parent hpv] at hk hkeys
    rcases List.mem_cons.mp hk with rfl | hk
    · exact hlt'
    · exact ho.trans _ _ _ hlt' (List.rel_of_pairwise_cons hkeys hk)
  have he_hidden : Hidden T e.1 = true := hr.hidden hT (by rw [ht]; exact List.mem_cons_self)
  refine ⟨?_, ?_, ?_, ?_, ?_, ?_⟩
  · rw [hd]
    simp [Next, ht]
  · refine ⟨?_, hr.parent_sorted, hr.skipped⟩
    have hsub := hr.sub
    rw [ht] at hsub
    exact (List.sublist_cons_self e t).trans hsub
  · simp [rank, ht]
  · rw [hkey]
    refine .inl ?_
    rw [ht, List.map_cons]
    exact List.mem_cons_self
  · rw [hkey]
    rintro k (hk | ⟨hk, -⟩) hne
    · rw [ht, List.map_cons, List.mem_cons] at hk
      rcases hk with rfl | hk
      · exact absurd rfl hne
      · obtain ⟨x, hx, rfl⟩ := List.mem_map.mp hk
        exact hsorted.1 x hx
    · exact hparent k hk
  · rw [hkey]
    intro k
    unfold Pending
    dsimp only
    rw [ht, List.map_cons, List.mem_cons]
    constructor
    · rintro (hk | ⟨hk, hh⟩)
      · obtain ⟨x, hx, rfl⟩ := List.mem_map.mp hk
        exact ⟨.inl (.inr (List.mem_map_of_mem hx)), (ne_of_lt' ho (hsorted.1 x hx)).symm⟩
      · refine ⟨.inr ⟨hk, hh⟩, fun heq => ?_⟩
        rw [heq, he_hidden] at hh
        cases hh
    · rintro ⟨hk | ⟨hk, hh⟩, hne⟩
      · rcases hk with rfl | hk
        · exact absurd rfl hne
        · exact .inl hk
      · exact .inr ⟨hk, hh⟩

theorem visits_parent (hT : WF T) {it : CDBTransactionIterator It V} (hr : Ready P T it)
    (hpv : P.cursor.Valid it.parentIt = true)
    (hle : ∀ e t, it.transactionIt = e :: t → DataStreamCmp.less e.1 it.parentKey = false)
    (hd : DecideCur P it = { it with curIsParent := true }) :
    Visits P T it (SkipDeletedAndOverwritten P T
      { it with curIsParent := true, parentIt := P.cursor.Next it.parentIt }) := by
  have ho := DataStreamCmp.less_strictTotalOrder
  have hkeys := hr.keys_parent hpv
  have hpsorted := hr.parent_sorted
  rw [hkeys, List.pairwise_cons] at hpsorted
  have hp_shown : Hidden T it.parentKey = false := (hr.skipped hpv).2
  have hkey : GetKey P (DecideCur P it) = it.parentKey := by
    rw [hd]
    simp [GetKey, Valid, hpv]
  have hwrites : ∀ x ∈ it.transactionIt, DataStreamCmp.less it.parentKey x.1 = true := by
    intro x hx
    obtain ⟨e, t, ht⟩ := List.exists_cons_of_ne_nil (List.ne_nil_of_mem hx)
    have he_hidden := hr.hidden hT (show e ∈ it.transactionIt by rw [ht]; exact List.mem_cons_self)
    have hne : e.1 ≠ it.parentKey := fun h => by
      rw [h, hp_shown] at he_hidden
      cases he_hidden
    have hpe : DataStreamCmp.less it.parentKey e.1 = true :=
      (ho.total _ _ hne).resolve_left (by rw [hle e t ht]; decide)
    have hsorted := hr.sorted hT
    rw [ht] at hsorted hx
    rcases List.mem_cons.mp hx with rfl | hx
    · exact hpe
    · exact ho.trans _ _ _ hpe (List.rel_of_pairwise_cons hsorted hx)
  refine ⟨?_, ?_, ?_, ?_, ?_, ?_⟩
  · rw [hd]
    simp [Next, hpv]
  · exact ready_Skip _ hr.sub hpsorted.2
  · have hskip := rank_Skip_le (P := P) (T := T)
      { it with curIsParent := true, parentIt := P.cursor.Next it.parentIt }
    have hnext := P.cursor.next_lt _ hpv
    unfold rank
    rw [transactionIt_Skip]
    exact Nat.add_lt_add_left (Nat.lt_of_le_of_lt hskip hnext) _
  · rw [hkey]
    exact .inr ⟨by rw [hkeys]; exact List.mem_cons_self, hp_shown⟩
  · rw [hkey]
    rintro k (hk | ⟨hk, -⟩) hne
    · obtain ⟨x, hx, rfl⟩ := List.mem_map.mp hk
      exact hwrites x hx
    · rw [hkeys] at hk
      rcases List.mem_cons.mp hk with rfl | hk
      · exact absurd rfl hne
      · exact hpsorted.1 k hk
  · rw [hkey]
    intro k
    rw [pending_Skip]
    unfold Pending
    dsimp only
    rw [hkeys, List.mem_cons]
    constructor
    · rintro (hk | ⟨hk, hh⟩)
      · obtain ⟨x, hx, rfl⟩ := List.mem_map.mp hk
        exact ⟨.inl (List.mem_map_of_mem hx), (ne_of_lt' ho (hwrites x hx)).symm⟩
      · exact ⟨.inr ⟨.inr hk, hh⟩, (ne_of_lt' ho (hpsorted.1 k hk)).symm⟩
    · rintro ⟨hk | ⟨hk | hk, hh⟩, hne⟩
      · exact .inl hk
      · exact absurd hk hne
      · exact .inr ⟨hk, hh⟩

theorem exists_visits (hT : WF T) {it : CDBTransactionIterator It V} (hr : Ready P T it)
    (hv : Valid P it = true) : ∃ it', Visits P T it it' := by
  rcases DecideCur_of_valid hv with ⟨e, t, ht, hlt, hd⟩ | ⟨hpv, hle, hd⟩
  · exact ⟨_, visits_write hT hr ht hlt hd⟩
  · exact ⟨_, visits_parent hT hr hpv hle hd⟩

theorem keys_cursor (hT : WF T) (n : Nat) :
    ∀ it, rank P it < n → Ready P T it →
      ListsKeys DataStreamCmp.less (Pending P T it)
        ((cursor P T).keys ⟨DecideCur P it, consistent_DecideCur it⟩) := by
  induction n with
  | zero => exact fun _ h => absurd h (Nat.not_lt_zero _)
  | succ n ih =>
    intro it hn hr
    cases hv : Valid P it
    · rw [Cursor.keys_of_not_valid _ (show Valid P (DecideCur P it) = false by
        rw [Valid_DecideCur, hv])]
      exact ListsKeys.nil (not_pending_of_not_valid hv)
    · obtain ⟨it', hvis⟩ := exists_visits hT hr hv
      rw [Cursor.keys_of_valid _ (show Valid P (DecideCur P it) = true by rw [Valid_DecideCur, hv])]
      have hnext : (cursor P T).Next ⟨DecideCur P it, consistent_DecideCur it⟩ =
          ⟨DecideCur P it', consistent_DecideCur it'⟩ := Subtype.ext hvis.next
      rw [hnext]
      exact ListsKeys.cons (ih it' (by have := hvis.rank_lt; omega) hvis.ready) hvis.least
        hvis.pending hvis.min

end Visits

end CDBTransactionIterator

namespace CDBTransaction

open CDBTransactionIterator

variable {V : Type}

theorem isSome_View_iff (T : CDBTransaction V) (M : DBKey → Option V) (k : DBKey) :
    (View T M k).isSome ↔
      (find? DataStreamCmp.less T.writes k).isSome ∨ (Hidden T k = false ∧ (M k).isSome) := by
  unfold View Hidden
  cases find? DataStreamCmp.less T.writes k with
  | some h => simp
  | none => cases find? DataStreamCmp.less T.deletes k <;> simp

theorem View_of_IsClean {T : CDBTransaction V} (h : IsClean T = true) (M : DBKey → Option V) :
    View T M = M := by
  rw [IsClean, Bool.and_eq_true, List.isEmpty_iff, List.isEmpty_iff] at h
  funext k
  rw [View, h.1, h.2]
  rfl

theorem IsClean_Clear (T : CDBTransaction V) : IsClean (Clear T) = true := rfl

section Store

variable {It : Type} (P : OrderedStore It DBKey V) (T : CDBTransaction V)

def toStore : OrderedStore {it : CDBTransactionIterator It V // Consistent P it} DBKey V where
  Read := Read P T
  Exists := Exists P T
  cursor := cursor P T
  Seek k := ⟨Seek P T k, consistent_DecideCur _⟩
  SeekToFirst := ⟨SeekToFirst P T, consistent_DecideCur _⟩

variable {P T} {M : DBKey → Option V}

theorem toStore_behavesAs (hT : WF T) (hP : P.BehavesAs DataStreamCmp.less M) :
    (toStore P T).BehavesAs DataStreamCmp.less (View T M) where
  read := Read_eq_View hT hP.read
  exists_eq := Exists_eq_View hT hP.exists_eq
  seek k₀ := by
    have ho := DataStreamCmp.less_strictTotalOrder
    have hr := ready_Skip (P := P) (T := T)
      ⟨lowerBound DataStreamCmp.less T.writes k₀, P.Seek k₀, [], false⟩
      (lowerBound_sublist _ _) (hP.seek k₀).sorted
    refine (keys_cursor hT _ _ (Nat.lt_succ_self _) hr).congr fun k => ?_
    rw [pending_Skip, isSome_View_iff]
    unfold Pending
    dsimp only
    rw [mem_keys_lowerBound ho hT.writes_sorted, (hP.seek k₀).mem_iff]
    constructor
    · rintro (⟨hw, hlt⟩ | ⟨⟨hlt, hm⟩, hh⟩)
      · exact ⟨hlt, .inl hw⟩
      · exact ⟨hlt, .inr ⟨hh, hm⟩⟩
    · rintro ⟨hlt, hw | ⟨hh, hm⟩⟩
      · exact .inl ⟨hw, hlt⟩
      · exact .inr ⟨⟨hlt, hm⟩, hh⟩
  seekToFirst := by
    have ho := DataStreamCmp.less_strictTotalOrder
    have hr := ready_Skip (P := P) (T := T) ⟨T.writes, P.SeekToFirst, [], false⟩
      (List.Sublist.refl _) hP.seekToFirst.sorted
    refine (keys_cursor hT _ _ (Nat.lt_succ_self _) hr).congr fun k => ?_
    rw [pending_Skip, isSome_View_iff]
    unfold Pending
    dsimp only
    rw [mem_keys_iff ho hT.writes_sorted, hP.seekToFirst.mem_iff]
    constructor
    · rintro (hw | ⟨hm, hh⟩)
      · exact .inl hw
      · exact .inr ⟨hh, hm⟩
    · rintro (hw | ⟨hh, hm⟩)
      · exact .inl hw
      · exact .inr ⟨hm, hh⟩

theorem GetValue_eq_View (hT : WF T) (hP : ∀ k, P.Read k = M k) {it : CDBTransactionIterator It V}
    (hv : CDBTransactionIterator.Valid P it = true) :
    GetValue P T it = View T M (GetKey P it) := by
  rw [GetValue, if_pos hv, Read_eq_View hT hP]

end Store

section Commit

variable {σ : Type}

/-- The commit target keeps an invariant `I`, and its `Write` and `Erase` change its map `view`
at the one key. -/
structure CommitTarget.Lawful (ct : CommitTarget σ V) (view : σ → DBKey → Option V)
    (I : σ → Prop) : Prop where
  write : ∀ s k v, I s → I (ct.Write s k v) ∧
    ∀ k', view (ct.Write s k v) k' = if k' = k then some v else view s k'
  erase : ∀ s k, I s → I (ct.Erase s k) ∧
    ∀ k', view (ct.Erase s k) k' = if k' = k then none else view s k'

theorem Commit_view {T : CDBTransaction V} (hT : WF T) {ct : CommitTarget σ V}
    {view : σ → DBKey → Option V} {I : σ → Prop} (hct : ct.Lawful view I) {s : σ} (hI : I s) :
    I (Commit ct T s).1 ∧ ∀ k, view (Commit ct T s).1 k = View T (view s) k := by
  have ho := DataStreamCmp.less_strictTotalOrder
  obtain ⟨hI₁, hv₁⟩ := foldl_erase_view ho view I ct.Erase hct.erase hT.deletes_sorted hI
  obtain ⟨hI₂, hv₂⟩ :=
    foldl_write_view ho view I ct.Write (·.value) hct.write hT.writes_sorted hI₁
  refine ⟨hI₂, fun k => (hv₂ k).trans ?_⟩
  rw [hv₁]
  unfold View
  cases find? DataStreamCmp.less T.writes k <;> rfl

theorem IsClean_Write (GetSerializeSize : V → Nat) (T : CDBTransaction V) (ssKey : DBKey) (v : V) :
    IsClean (Write GetSerializeSize T ssKey v) = false := by
  rw [IsClean, writes_Write, Bool.and_eq_false_iff]
  exact .inl (List.isEmpty_eq_false_iff.mpr (insert_ne_nil _ _ _))

theorem IsClean_Erase (T : CDBTransaction V) (ssKey : DBKey) : IsClean (Erase T ssKey) = false := by
  rw [IsClean, deletes_Erase, Bool.and_eq_false_iff]
  exact .inr (List.isEmpty_eq_false_iff.mpr (insert_ne_nil _ _ _))

def asCommitTarget (GetSerializeSize : V → Nat) : CommitTarget (CDBTransaction V) V :=
  ⟨Write GetSerializeSize, Erase⟩

theorem lawful_asCommitTarget (GetSerializeSize : V → Nat) (M : DBKey → Option V) :
    (asCommitTarget GetSerializeSize).Lawful (fun T => View T M) WF where
  write _ k v hT := ⟨hT.Write GetSerializeSize k v, View_Write GetSerializeSize M hT k v⟩
  erase _ k hT := ⟨hT.Erase k, View_Erase M hT k⟩

end Commit

end CDBTransaction

end DashCore
