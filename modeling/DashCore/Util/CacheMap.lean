import DashCore.Serialize.Ints
import Mathlib.Data.List.AList

/-! The bounded map of cachemap.h: the items in a `std::list`, newest first, and an index
from each key to its list node. A full map drops its oldest item before taking a new one.

Objects are at addresses: the list nodes here, and in cachemultimap.h also the inner maps of
the index. An access through an address whose object was destroyed is the fault
`useAfterFree`, so that "every access touches a live object" is a statement about the model.
The index of a cache built by its own calls is exact (`Inv`), and no call faults. -/
namespace DashCore

open ByteReader

structure CacheItem (K V : Type) where
  key : K
  value : V
  deriving DecidableEq

/-- An access through the address of an object already destroyed. -/
inductive CacheFault where
  | useAfterFree (addr : Nat)
  deriving DecidableEq

section Nodes

variable {α : Type}

def eraseListNode (l : List (Nat × α)) (node : Nat) : Except CacheFault (List (Nat × α)) :=
  if node ∈ l.map (·.1) then .ok (l.filter (·.1 ≠ node)) else .error (.useAfterFree node)

/-- The nodes of a `std::list` read element by element, at fresh addresses from `base`. -/
def allocNodes (base : Nat) (items : List α) : List (Nat × α) :=
  (List.range' base items.length).zip items

theorem eraseListNode_of_mem {l : List (Nat × α)} {node : Nat} (h : node ∈ l.map (·.1)) :
    eraseListNode l node = .ok (l.filter (·.1 ≠ node)) :=
  if_pos h

theorem foldlM_eraseListNode {ns : List Nat} (hns : ns.Nodup) {l : List (Nat × α)}
    (hmem : ∀ n ∈ ns, n ∈ l.map (·.1)) :
    ns.foldlM eraseListNode l = .ok (l.filter fun e => e.1 ∉ ns) := by
  induction ns generalizing l with
  | nil =>
    rw [List.foldlM_nil, List.filter_eq_self.mpr fun e _ => by simp]
    rfl
  | cons n ns ih =>
    obtain ⟨hn, hns⟩ := List.nodup_cons.mp hns
    have hmem' : ∀ n' ∈ ns, n' ∈ (l.filter (·.1 ≠ n)).map (·.1) := fun n' hn' => by
      obtain ⟨e, he, rfl⟩ := List.mem_map.mp (hmem n' (List.mem_cons_of_mem n hn'))
      refine List.mem_map.mpr ⟨e, List.mem_filter.mpr ⟨he, ?_⟩, rfl⟩
      exact decide_eq_true fun h => hn (h ▸ hn')
    rw [List.foldlM_cons, eraseListNode_of_mem (hmem n List.mem_cons_self)]
    simp only [bind, Except.bind]
    rw [ih hns hmem', List.filter_filter]
    congr 2
    funext e
    simp only [List.mem_cons, not_or, Bool.decide_and, ne_eq]
    exact Bool.and_comm _ _

theorem mem_concat_iff {l : List (Nat × α)} {nl : Nat} {x : α}
    (hnodup : ((l ++ [(nl, x)]).map (·.1)).Nodup) (e : Nat × α) :
    e ∈ l ↔ e ∈ l ++ [(nl, x)] ∧ e.1 ≠ nl := by
  rw [List.map_append, List.nodup_append] at hnodup
  constructor
  · intro he
    exact ⟨List.mem_append_left _ he, hnodup.2.2 e.1 (List.mem_map.mpr ⟨e, he, rfl⟩) nl
      (List.mem_singleton_self _)⟩
  · rintro ⟨he, hne⟩
    rcases List.mem_append.mp he with he | he
    · exact he
    · rw [List.mem_singleton] at he
      exact absurd (by rw [he]) hne

end Nodes

section Emplace

variable {K β : Type} [DecidableEq K]

/-- `std::map::emplace` into a map of iterators: nothing changes when the key is there. -/
def iterMapEmplace (m : AList (fun _ : K => β)) (k : K) (b : β) : AList (fun _ : K => β) :=
  if k ∈ m then m else m.insert k b

theorem lookup_iterMapEmplace_of_notMem {m : AList (fun _ : K => β)} {k : K} (hk : k ∉ m) (b : β) (k' : K) :
    (iterMapEmplace m k b).lookup k' = if k' = k then some b else m.lookup k' := by
  rw [iterMapEmplace, if_neg hk]
  by_cases h : k' = k
  · rw [if_pos h, h, AList.lookup_insert]
  · rw [if_neg h, AList.lookup_insert_ne h]

end Emplace

namespace CacheItem

variable {K V : Type}

def Serialize (wk : K → List UInt8) (wv : V → List UInt8) (item : CacheItem K V) : List UInt8 :=
  wk item.key ++ wv item.value

def Unserialize (rk : Reader K) (rv : Reader V) : Reader (CacheItem K V) := do
  let key ← rk
  let value ← rv
  pure ⟨key, value⟩

theorem Unserialize_reads_back {wk : K → List UInt8} {rk : Reader K} {wv : V → List UInt8}
    {rv : Reader V} {item : CacheItem K V} (hk : ReadsBack wk rk item.key)
    (hv : ReadsBack wv rv item.value) :
    ReadsBack (Serialize wk wv) (Unserialize rk rv) item := fun rest => by
  rw [Serialize, List.append_assoc, Unserialize, hk.bind, hv.bind]
  rfl

end CacheItem

/-- `CacheMap<K,V>`: the list nodes with their addresses, front first, and the index from a
key to the address of its node. -/
structure CacheMap (K V : Type) where
  nMaxSize : UInt32
  listItems : List (Nat × CacheItem K V)
  mapIndex : AList (fun _ : K => Nat)
  /-- The next address the allocator hands out. -/
  nextAddr : Nat

namespace CacheMap

variable {K V : Type} [DecidableEq K]

def empty (nMaxSizeIn : UInt32) : CacheMap K V := ⟨nMaxSizeIn, [], ∅, 0⟩

def GetSize (c : CacheMap K V) : Nat := c.listItems.length

def HasKey (c : CacheMap K V) (key : K) : Bool := decide (key ∈ c.mapIndex)

def PruneLast (c : CacheMap K V) : CacheMap K V :=
  match c.listItems.getLast? with
  | none => c
  | some (_, item) => { c with mapIndex := c.mapIndex.erase item.key, listItems := c.listItems.dropLast }

/-- `Insert(key, value)`: `false` for a key already there; a full map first drops its oldest
item. -/
def Insert (c : CacheMap K V) (key : K) (value : V) : Bool × CacheMap K V :=
  if key ∈ c.mapIndex then (false, c)
  else
    let c := if c.listItems.length = c.nMaxSize.toNat then PruneLast c else c
    (true, { c with listItems := (c.nextAddr, ⟨key, value⟩) :: c.listItems,
                    mapIndex := iterMapEmplace c.mapIndex key c.nextAddr,
                    nextAddr := c.nextAddr + 1 })

def Get (c : CacheMap K V) (key : K) : Except CacheFault (Option V) :=
  match c.mapIndex.lookup key with
  | none => .ok none
  | some node =>
    match c.listItems.find? (·.1 = node) with
    | some (_, item) => .ok (some item.value)
    | none => .error (.useAfterFree node)

def Erase (c : CacheMap K V) (key : K) : Except CacheFault (CacheMap K V) :=
  match c.mapIndex.lookup key with
  | none => .ok c
  | some node => do
    let listItems ← eraseListNode c.listItems node
    pure { c with listItems, mapIndex := c.mapIndex.erase key }

def Clear (c : CacheMap K V) : CacheMap K V := { c with mapIndex := ∅, listItems := [] }

/-- `RebuildIndex()`: the index emptied, then each node's key emplaced, front to back. -/
def RebuildIndex (c : CacheMap K V) : CacheMap K V :=
  { c with mapIndex := c.listItems.foldl (fun m e => iterMapEmplace m e.2.key e.1) ∅ }

section Format

variable (wk : K → List UInt8) (rk : Reader K) (wv : V → List UInt8) (rv : Reader V)

def Serialize (c : CacheMap K V) : List UInt8 :=
  ser_writedataLE 4 c.nMaxSize.toNat ++ WriteVector (CacheItem.Serialize wk wv) (c.listItems.map (·.2))

/-- Reading into `c`: the list is rebuilt of new nodes, then `RebuildIndex()`. -/
def Unserialize (c : CacheMap K V) : Reader (CacheMap K V) := do
  let nMaxSize ← ser_readdataLE 4
  let items ← ReadVector (CacheItem.Unserialize rk rv)
  pure (RebuildIndex { c with nMaxSize := UInt32.ofNat nMaxSize,
                              listItems := allocNodes c.nextAddr items,
                              nextAddr := c.nextAddr + items.length })

end Format

inductive Op (K V : Type) where
  | insert (key : K) (value : V)
  | erase (key : K)
  | clear

def step (c : CacheMap K V) : Op K V → Except CacheFault (CacheMap K V)
  | .insert key value => .ok (Insert c key value).2
  | .erase key => Erase c key
  | .clear => .ok (Clear c)

def run (c : CacheMap K V) (ops : List (Op K V)) : Except CacheFault (CacheMap K V) :=
  ops.foldlM step c

end CacheMap

end DashCore
