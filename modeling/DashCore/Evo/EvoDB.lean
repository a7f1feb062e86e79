import DashCore.DbWrapper.Transaction

/-! `CEvoDB` of evo/evodb.cpp: the evo database as two transactions over the LevelDB database.
The current transaction takes the changes of the block being processed; `CommitCurTransaction`
moves them into the root transaction, which holds what is not yet on disk, and
`CommitRootTransaction` writes that through `rootBatch` into the database.

What the stack is for is three maps (`Spec`): the map on disk, the map committed by the blocks
processed so far, and the map reads see. A `CEvoDB` built by any calls refines it, and its reads
and the iterators of its current transaction behave as the map reads see. -/
namespace DashCore

open OrderedMap Selection

inductive DBBatchOp (V : Type) where
  | Write (k : DBKey) (v : V)
  | Erase (k : DBKey)

structure CDBBatch (V : Type) where
  ops : List (DBBatchOp V) := []

namespace CDBBatch

variable {V : Type}

def Write (b : CDBBatch V) (k : DBKey) (v : V) : CDBBatch V := ⟨b.ops ++ [.Write k v]⟩

def Erase (b : CDBBatch V) (k : DBKey) : CDBBatch V := ⟨b.ops ++ [.Erase k]⟩

def Clear (_ : CDBBatch V) : CDBBatch V := ⟨[]⟩

end CDBBatch

/-- `CDBWrapper`: the database's entries, sorted bytewise as LevelDB's default comparator sorts
them. -/
structure CDBWrapper (V : Type) where
  entries : List (DBKey × V)

namespace CDBWrapper

variable {V : Type}

def applyOp (m : List (DBKey × V)) : DBBatchOp V → List (DBKey × V)
  | .Write k v => insert DataStreamCmp.less m k v
  | .Erase k => erase DataStreamCmp.less m k

/-- `WriteBatch(batch)`: the batch's operations, in order. A failed write throws in
`HandleError`, so the result is `true`. -/
def WriteBatch (db : CDBWrapper V) (batch : CDBBatch V) : CDBWrapper V × Bool :=
  (⟨batch.ops.foldl applyOp db.entries⟩, true)

def toStore (db : CDBWrapper V) : OrderedStore (List (DBKey × V)) DBKey V :=
  listStore DataStreamCmp.less db.entries

theorem sorted_foldl_applyOp {m : List (DBKey × V)} (hs : Sorted DataStreamCmp.less m)
    (ops : List (DBBatchOp V)) : Sorted DataStreamCmp.less (ops.foldl applyOp m) := by
  induction ops generalizing m with
  | nil => exact hs
  | cons op ops ih =>
    rw [List.foldl_cons]
    apply ih
    cases op with
    | Write k v => exact sorted_insert DataStreamCmp.less_strictTotalOrder hs k v
    | Erase k => exact sorted_erase hs k

end CDBWrapper

/-- `CEvoDB`: the database, the batch the root transaction commits into, and the two
transactions. -/
structure CEvoDB (V : Type) where
  db : CDBWrapper V
  rootBatch : CDBBatch V := {}
  rootDBTransaction : CDBTransaction V := {}
  curDBTransaction : CDBTransaction V := {}

namespace CEvoDB

open CDBTransaction

variable {V : Type} (GetSerializeSize : V → Nat)

def rootStore (e : CEvoDB V) :=
  CDBTransaction.toStore e.db.toStore e.rootDBTransaction

def curStore (e : CEvoDB V) :=
  CDBTransaction.toStore (rootStore e) e.curDBTransaction

def Read (e : CEvoDB V) (k : DBKey) : Option V :=
  CDBTransaction.Read (rootStore e) e.curDBTransaction k

def Exists (e : CEvoDB V) (k : DBKey) : Bool :=
  CDBTransaction.Exists (rootStore e) e.curDBTransaction k

def Write (e : CEvoDB V) (k : DBKey) (v : V) : CEvoDB V :=
  { e with curDBTransaction := CDBTransaction.Write GetSerializeSize e.curDBTransaction k v }

def Erase (e : CEvoDB V) (k : DBKey) : CEvoDB V :=
  { e with curDBTransaction := CDBTransaction.Erase e.curDBTransaction k }

def batchTarget : CommitTarget (CDBBatch V) V := ⟨CDBBatch.Write, CDBBatch.Erase⟩

def CommitCurTransaction (e : CEvoDB V) : CEvoDB V :=
  let (root, cur) :=
    Commit (asCommitTarget GetSerializeSize) e.curDBTransaction e.rootDBTransaction
  { e with rootDBTransaction := root, curDBTransaction := cur }

def RollbackCurTransaction (e : CEvoDB V) : CEvoDB V :=
  { e with curDBTransaction := Clear e.curDBTransaction }

/-- `CommitRootTransaction()`: `none` where `assert(curDBTransaction.IsClean())` fails. -/
def CommitRootTransaction (e : CEvoDB V) : Option (CEvoDB V × Bool) :=
  if IsClean e.curDBTransaction then
    let (rootBatch, root) := Commit batchTarget e.rootDBTransaction e.rootBatch
    let (db, ret) := e.db.WriteBatch rootBatch
    some ({ e with db, rootBatch := rootBatch.Clear, rootDBTransaction := root }, ret)
  else none

def GetMemoryUsage (e : CEvoDB V) : Nat := e.rootDBTransaction.GetMemoryUsage

/-- The calls of the users of the database: `Write` and `Erase`, and the scoped committer's
`Commit` and `Rollback`, and `CommitRootTransaction` once a block's changes are flushed. -/
inductive Op (V : Type) where
  | write (k : DBKey) (v : V)
  | erase (k : DBKey)
  | commitCur
  | rollbackCur
  | commitRoot

def step (e : CEvoDB V) : Op V → Option (CEvoDB V)
  | .write k v => some (Write GetSerializeSize e k v)
  | .erase k => some (Erase e k)
  | .commitCur => some (CommitCurTransaction GetSerializeSize e)
  | .rollbackCur => some (RollbackCurTransaction e)
  | .commitRoot => (CommitRootTransaction e).map (·.1)

def run (e : CEvoDB V) (ops : List (Op V)) : Option (CEvoDB V) :=
  ops.foldlM (step GetSerializeSize) e

end CEvoDB

/-! ### What the stack is for -/

/-- The map on disk, the map committed so far, the map reads see, and whether changes since the
last commit or rollback are pending. -/
structure EvoDBSpec (V : Type) where
  disk : DBKey → Option V
  committed : DBKey → Option V
  current : DBKey → Option V
  clean : Bool

namespace EvoDBSpec

variable {V : Type}

def step (s : EvoDBSpec V) : CEvoDB.Op V → Option (EvoDBSpec V)
  | .write k v =>
    some { s with current := fun k' => if k' = k then some v else s.current k', clean := false }
  | .erase k =>
    some { s with current := fun k' => if k' = k then none else s.current k', clean := false }
  | .commitCur => some { s with committed := s.current, clean := true }
  | .rollbackCur => some { s with current := s.committed, clean := true }
  | .commitRoot => if s.clean then some { s with disk := s.committed } else none

def run (s : EvoDBSpec V) (ops : List (CEvoDB.Op V)) : Option (EvoDBSpec V) :=
  ops.foldlM step s

end EvoDBSpec

namespace CEvoDB

open CDBTransaction

variable {V : Type} (GetSerializeSize : V → Nat)

structure Abstracts (e : CEvoDB V) (s : EvoDBSpec V) : Prop where
  db_sorted : Sorted DataStreamCmp.less e.db.entries
  disk : find? DataStreamCmp.less e.db.entries = s.disk
  rootBatch : e.rootBatch.ops = []
  root_wf : WF e.rootDBTransaction
  committed : View e.rootDBTransaction s.disk = s.committed
  cur_wf : WF e.curDBTransaction
  current : View e.curDBTransaction s.committed = s.current
  clean : IsClean e.curDBTransaction = s.clean

theorem abstracts_init {db : CDBWrapper V} (hs : Sorted DataStreamCmp.less db.entries) :
    Abstracts ({ db } : CEvoDB V)
      ⟨find? DataStreamCmp.less db.entries, find? DataStreamCmp.less db.entries,
        find? DataStreamCmp.less db.entries, true⟩ :=
  ⟨hs, rfl, rfl, wf_empty, rfl, wf_empty, rfl, rfl⟩

variable {GetSerializeSize}

theorem Abstracts.curStore_behavesAs {e : CEvoDB V} {s : EvoDBSpec V} (h : Abstracts e s) :
    (curStore e).BehavesAs DataStreamCmp.less s.current := by
  have hdb : e.db.toStore.BehavesAs DataStreamCmp.less s.disk :=
    h.disk ▸ listStore_behavesAs DataStreamCmp.less_strictTotalOrder h.db_sorted
  have hroot := toStore_behavesAs h.root_wf hdb
  rw [h.committed] at hroot
  have hcur := toStore_behavesAs h.cur_wf hroot
  rw [h.current] at hcur
  exact hcur

theorem lawful_batchTarget {m : List (DBKey × V)} (hs : Sorted DataStreamCmp.less m) :
    (batchTarget : CommitTarget (CDBBatch V) V).Lawful
      (fun b => find? DataStreamCmp.less (b.ops.foldl CDBWrapper.applyOp m)) (fun _ => True) where
  write b k v _ := by
    have ho := DataStreamCmp.less_strictTotalOrder
    have hsb := CDBWrapper.sorted_foldl_applyOp hs b.ops
    refine ⟨trivial, fun k' => ?_⟩
    show find? DataStreamCmp.less ((b.ops ++ [DBBatchOp.Write k v]).foldl CDBWrapper.applyOp m) k' = _
    rw [List.foldl_append, List.foldl_cons, List.foldl_nil, CDBWrapper.applyOp]
    by_cases hk : k' = k
    · rw [if_pos hk, hk, find?_insert_self ho hsb]
    · rw [if_neg hk, find?_insert_of_ne ho hsb hk]
  erase b k _ := by
    have ho := DataStreamCmp.less_strictTotalOrder
    have hsb := CDBWrapper.sorted_foldl_applyOp hs b.ops
    refine ⟨trivial, fun k' => ?_⟩
    show find? DataStreamCmp.less ((b.ops ++ [DBBatchOp.Erase k]).foldl CDBWrapper.applyOp m) k' = _
    rw [List.foldl_append, List.foldl_cons, List.foldl_nil, CDBWrapper.applyOp]
    by_cases hk : k' = k
    · rw [if_pos hk, hk, find?_erase_self ho hsb]
    · rw [if_neg hk, find?_erase_of_ne ho hsb hk]

section Steps

variable {e : CEvoDB V} {s : EvoDBSpec V}

theorem Abstracts.Write (h : Abstracts e s) (k : DBKey) (v : V) :
    Abstracts (Write GetSerializeSize e k v)
      { s with current := fun k' => if k' = k then some v else s.current k', clean := false } where
  db_sorted := h.db_sorted
  disk := h.disk
  rootBatch := h.rootBatch
  root_wf := h.root_wf
  committed := h.committed
  cur_wf := h.cur_wf.Write GetSerializeSize k v
  current := by
    funext k'
    show View (CDBTransaction.Write GetSerializeSize e.curDBTransaction k v) s.committed k' =
      if k' = k then some v else s.current k'
    rw [View_Write GetSerializeSize _ h.cur_wf, h.current]
  clean := IsClean_Write GetSerializeSize _ k v

theorem Abstracts.Erase (h : Abstracts e s) (k : DBKey) :
    Abstracts (Erase e k)
      { s with current := fun k' => if k' = k then none else s.current k', clean := false } where
  db_sorted := h.db_sorted
  disk := h.disk
  rootBatch := h.rootBatch
  root_wf := h.root_wf
  committed := h.committed
  cur_wf := h.cur_wf.Erase k
  current := by
    funext k'
    show View (CDBTransaction.Erase e.curDBTransaction k) s.committed k' =
      if k' = k then none else s.current k'
    rw [View_Erase _ h.cur_wf, h.current]
  clean := IsClean_Erase _ k

theorem Abstracts.CommitCurTransaction (h : Abstracts e s) :
    Abstracts (CommitCurTransaction GetSerializeSize e)
      { s with committed := s.current, clean := true } := by
  obtain ⟨hwf, hview⟩ :=
    Commit_view h.cur_wf (lawful_asCommitTarget GetSerializeSize s.disk) h.root_wf
  refine ⟨h.db_sorted, h.disk, h.rootBatch, hwf, ?_, wf_Clear e.curDBTransaction, rfl, rfl⟩
  funext k
  show View (Commit (asCommitTarget GetSerializeSize) e.curDBTransaction e.rootDBTransaction).1
    s.disk k = s.current k
  rw [hview, h.committed, h.current]

theorem Abstracts.RollbackCurTransaction (h : Abstracts e s) :
    Abstracts (RollbackCurTransaction e) { s with current := s.committed, clean := true } :=
  ⟨h.db_sorted, h.disk, h.rootBatch, h.root_wf, h.committed, wf_Clear e.curDBTransaction, rfl, rfl⟩

theorem Abstracts.CommitRootTransaction (h : Abstracts e s) (hclean : s.clean = true) :
    ∃ e' ret, CommitRootTransaction e = some (e', ret) ∧
      Abstracts e' { s with disk := s.committed } := by
  have hcl : IsClean e.curDBTransaction = true := h.clean.trans hclean
  obtain ⟨-, hview⟩ := Commit_view (I := fun _ => True) h.root_wf (lawful_batchTarget h.db_sorted)
    (s := e.rootBatch) trivial
  refine ⟨_, _, by rw [CEvoDB.CommitRootTransaction, if_pos hcl], ?_⟩
  refine ⟨CDBWrapper.sorted_foldl_applyOp h.db_sorted _, ?_, rfl, wf_Clear e.rootDBTransaction, rfl, h.cur_wf,
    h.current, h.clean⟩
  funext k
  show find? DataStreamCmp.less
    ((Commit batchTarget e.rootDBTransaction e.rootBatch).1.ops.foldl CDBWrapper.applyOp
      e.db.entries) k = s.committed k
  rw [hview k, h.rootBatch, List.foldl_nil, h.disk, h.committed]

end Steps

theorem Abstracts.step {e : CEvoDB V} {s : EvoDBSpec V} (h : Abstracts e s) (op : Op V) :
    Option.Rel Abstracts (step GetSerializeSize e op) (s.step op) := by
  cases op with
  | write k v => exact .some (h.Write k v)
  | erase k => exact .some (h.Erase k)
  | commitCur => exact .some h.CommitCurTransaction
  | rollbackCur => exact .some h.RollbackCurTransaction
  | commitRoot =>
    show Option.Rel Abstracts ((CEvoDB.CommitRootTransaction e).map (·.1))
      (if s.clean = true then some { s with disk := s.committed } else none)
    by_cases hclean : s.clean = true
    · obtain ⟨e', ret, he, h'⟩ := h.CommitRootTransaction hclean
      rw [he, if_pos hclean]
      exact .some h'
    · have hcl : IsClean e.curDBTransaction = false := h.clean.trans (by simpa using hclean)
      rw [CEvoDB.CommitRootTransaction, if_neg (by rw [hcl]; decide), if_neg hclean]
      exact .none

theorem Abstracts.run {e : CEvoDB V} {s : EvoDBSpec V} (h : Abstracts e s) (ops : List (Op V)) :
    Option.Rel Abstracts (run GetSerializeSize e ops) (s.run ops) := by
  induction ops generalizing e s with
  | nil => exact .some h
  | cons op ops ih =>
    have hstep : Option.Rel Abstracts (CEvoDB.step GetSerializeSize e op) (s.step op) :=
      h.step op
    show Option.Rel Abstracts
      ((CEvoDB.step GetSerializeSize e op).bind fun e' => CEvoDB.run GetSerializeSize e' ops)
      ((s.step op).bind fun s' => s'.run ops)
    revert hstep
    generalize CEvoDB.step GetSerializeSize e op = o₁
    generalize s.step op = o₂
    intro hstep
    cases hstep with
    | some h' => exact ih h'
    | none => exact .none

theorem Abstracts.run_behavesAs {e : CEvoDB V} {s : EvoDBSpec V} (h : Abstracts e s)
    (ops : List (Op V)) :
    Option.Rel (fun e s => Abstracts e s ∧ (curStore e).BehavesAs DataStreamCmp.less s.current)
      (CEvoDB.run GetSerializeSize e ops) (s.run ops) := by
  have hrel : Option.Rel Abstracts (CEvoDB.run GetSerializeSize e ops) (s.run ops) := h.run ops
  revert hrel
  generalize CEvoDB.run GetSerializeSize e ops = o₁
  generalize s.run ops = o₂
  intro hrel
  cases hrel with
  | some h' => exact .some ⟨h', h'.curStore_behavesAs⟩
  | none => exact .none

end CEvoDB

section Claim

open CDBTransaction CDBTransactionIterator

variable {V : Type}

/-- Over a parent that behaves as an ordered map `M`, a transaction built by any calls reads,
checks and iterates as `M` without its deletes and with its writes over it; its commit leaves
that map in a lawful target and leaves it clean; and over a sorted database every run of
`CEvoDB`'s calls refines the three maps, its current transaction behaving as the map reads see. -/
theorem transaction_behaves_as_overlay {It : Type} (GetSerializeSize : V → Nat)
    {P : OrderedStore It DBKey V} {M : DBKey → Option V} (hP : P.BehavesAs DataStreamCmp.less M)
    (ops : List (CDBTransaction.Op V)) :
    (toStore P (run GetSerializeSize {} ops)).BehavesAs DataStreamCmp.less
        (View (run GetSerializeSize {} ops) M) ∧
      (∀ it : CDBTransactionIterator It V, CDBTransactionIterator.Valid P it = true →
        GetValue P (run GetSerializeSize {} ops) it =
          View (run GetSerializeSize {} ops) M (GetKey P it)) ∧
      (∀ {σ : Type} (ct : CommitTarget σ V) (view : σ → DBKey → Option V) (I : σ → Prop),
        ct.Lawful view I → ∀ s, I s → view s = M →
          view (Commit ct (run GetSerializeSize {} ops) s).1 = View (run GetSerializeSize {} ops) M ∧
            IsClean (Commit ct (run GetSerializeSize {} ops) s).2 = true) ∧
      (∀ db : CDBWrapper V, Sorted DataStreamCmp.less db.entries → ∀ evoOps : List (CEvoDB.Op V),
        Option.Rel (fun e s => CEvoDB.Abstracts e s ∧
            (CEvoDB.curStore e).BehavesAs DataStreamCmp.less s.current)
          (CEvoDB.run GetSerializeSize { db } evoOps)
          (EvoDBSpec.run ⟨find? DataStreamCmp.less db.entries, find? DataStreamCmp.less db.entries,
            find? DataStreamCmp.less db.entries, true⟩ evoOps)) := by
  have hT : WF (run GetSerializeSize {} ops) := wf_empty.run GetSerializeSize ops
  refine ⟨toStore_behavesAs hT hP, fun it hv => GetValue_eq_View hT hP.read hv, ?_, ?_⟩
  · intro σ ct view I hct s hI hs
    refine ⟨funext fun k => ?_, IsClean_Clear (run GetSerializeSize {} ops)⟩
    rw [(Commit_view hT hct hI).2 k, hs]
  · intro db hdb evoOps
    exact (CEvoDB.abstracts_init hdb).run_behavesAs evoOps

/-- A database holding the keys `[1]`, `[2]` and `[3]`, under a transaction that overwrites
`[2]`, erases `[3]`, writes `[4]`, erases it again and writes `[3]` back. -/
theorem overlay_over_erased_and_overwritten_keys :
    let db : CDBWrapper Nat := ⟨[([1], 10), ([2], 20), ([3], 30)]⟩
    let ops : List (CDBTransaction.Op Nat) :=
      [.write [2] 25, .erase [3], .write [4] 40, .erase [4], .write [3] 35]
    (toStore (CDBWrapper.toStore db) (run (fun _ : Nat => 1) {} ops)).BehavesAs DataStreamCmp.less
        (View (run (fun _ : Nat => 1) {} ops) (find? DataStreamCmp.less db.entries)) ∧
      (∀ it : CDBTransactionIterator (List (DBKey × Nat)) Nat,
        CDBTransactionIterator.Valid (CDBWrapper.toStore db) it = true →
        GetValue (CDBWrapper.toStore db) (run (fun _ : Nat => 1) {} ops) it =
          View (run (fun _ : Nat => 1) {} ops) (find? DataStreamCmp.less db.entries)
            (GetKey (CDBWrapper.toStore db) it)) ∧
      (∀ {σ : Type} (ct : CommitTarget σ Nat) (view : σ → DBKey → Option Nat) (I : σ → Prop),
        ct.Lawful view I → ∀ s, I s → view s = find? DataStreamCmp.less db.entries →
          view (Commit ct (run (fun _ : Nat => 1) {} ops) s).1 =
              View (run (fun _ : Nat => 1) {} ops) (find? DataStreamCmp.less db.entries) ∧
            IsClean (Commit ct (run (fun _ : Nat => 1) {} ops) s).2 = true) ∧
      (∀ db : CDBWrapper Nat, Sorted DataStreamCmp.less db.entries →
        ∀ evoOps : List (CEvoDB.Op Nat),
        Option.Rel (fun e s => CEvoDB.Abstracts e s ∧
            (CEvoDB.curStore e).BehavesAs DataStreamCmp.less s.current)
          (CEvoDB.run (fun _ : Nat => 1) { db } evoOps)
          (EvoDBSpec.run ⟨find? DataStreamCmp.less db.entries, find? DataStreamCmp.less db.entries,
            find? DataStreamCmp.less db.entries, true⟩ evoOps)) := by
  intro db ops
  exact transaction_behaves_as_overlay (fun _ : Nat => 1)
    (listStore_behavesAs DataStreamCmp.less_strictTotalOrder (by unfold Sorted; decide)) ops

end Claim

end DashCore
