import Mathlib.Data.Finset.Lattice.Fold
import Mathlib.Data.List.Nodup

set_option autoImplicit false

/-!
# Blocks of memory and who owns them

Memory is the set of the addresses in use. A structure is taken with the addresses of what its
pointers own, so that two structures can be seen to share nothing.
-/

namespace ServiceConsumers.OwnedBlocks

/-- A value in memory of its own. -/
structure Owned (α : Type) where
  address : ℕ
  value : α

/-- `malloc`, which answers with memory that is not in use. -/
structure Allocator where
  malloc : Finset ℕ → ℕ
  fresh : ∀ live, malloc live ∉ live

/-- All the blocks are in use, and none is there twice. -/
structure Holds (live : Finset ℕ) (blocks : List ℕ) : Prop where
  once : blocks.Nodup
  live : ∀ b ∈ blocks, b ∈ live

/-- Blocks are taken that were not in use, and nothing is given back. -/
structure Takes (live : Finset ℕ) (blocks : List ℕ) (live' : Finset ℕ) : Prop where
  kept : live ⊆ live'
  holds : Holds live' blocks
  fresh : ∀ b ∈ blocks, b ∉ live

section

variable {α : Type}

/-- The block of a member, unless it is `NULL`. -/
def blockOf : Option (Owned α) → List ℕ
  | none => []
  | some member => [member.address]

def valueOf (member : Option (Owned α)) : Option α := member.map Owned.value

/-- A member that is not `NULL` is written anew. -/
def duplicate (heap : Allocator) (live : Finset ℕ) : Option (Owned α) → Option (Owned α) × Finset ℕ
  | none => (none, live)
  | some member =>
      (some { address := heap.malloc live, value := member.value }, insert (heap.malloc live) live)

end

variable {live live' live'' : Finset ℕ} {bs cs : List ℕ}

theorem Takes.nil : Takes live [] live where
  kept := Finset.Subset.refl live
  holds := ⟨List.nodup_nil, nofun⟩
  fresh := nofun

/-- What is taken is apart from all that was held. -/
theorem Takes.holds_append (h : Takes live bs live') (hcs : Holds live cs) :
    Holds live' (bs ++ cs) := by
  constructor
  · apply List.Nodup.append h.holds.once hcs.once
    intro b hb hmem
    exact h.fresh b hb (hcs.live b hmem)
  · intro b hb
    rcases List.mem_append.1 hb with hb | hb
    · exact h.holds.live b hb
    · exact h.kept (hcs.live b hb)

theorem Holds.perm (h : Holds live bs) (hperm : bs.Perm cs) : Holds live cs where
  once := hperm.nodup_iff.1 h.once
  live := fun b hb => h.live b (hperm.mem_iff.2 hb)

/-- One step after the other takes the blocks of both. -/
theorem Takes.append (h : Takes live bs live') (h' : Takes live' cs live'') :
    Takes live (bs ++ cs) live'' := by
  constructor
  · exact h.kept.trans h'.kept
  · exact (h'.holds_append h.holds).perm List.perm_append_comm
  · intro b hb hlive
    rcases List.mem_append.1 hb with hb | hb
    · exact h.fresh b hb hlive
    · exact h'.fresh b hb (h.kept hlive)

theorem takes_malloc (heap : Allocator) (live : Finset ℕ) :
    Takes live [heap.malloc live] (insert (heap.malloc live) live) := by
  constructor
  · exact Finset.subset_insert _ live
  · constructor
    · exact List.nodup_singleton _
    · intro b hb
      rw [List.mem_singleton.1 hb]
      exact Finset.mem_insert_self _ live
  · intro b hb
    rw [List.mem_singleton.1 hb]
    exact heap.fresh live

theorem takes_duplicate {α : Type} (heap : Allocator) (live : Finset ℕ) (member : Option (Owned α)) :
    Takes live (blockOf (duplicate heap live member).1) (duplicate heap live member).2 := by
  cases member with
  | none => exact Takes.nil
  | some member => exact takes_malloc heap live

theorem valueOf_duplicate {α : Type} (heap : Allocator) (live : Finset ℕ)
    (member : Option (Owned α)) : valueOf (duplicate heap live member).1 = valueOf member := by
  cases member <;> rfl

/-- What is given back by one owner leaves the blocks of the others. -/
theorem Holds.free (h : Holds live (bs ++ cs)) {freed : List ℕ} (hfreed : ∀ b ∈ freed, b ∈ bs) :
    Holds (live \ freed.toFinset) cs := by
  obtain ⟨-, honce, hdisjoint⟩ := List.nodup_append'.1 h.once
  constructor
  · exact honce
  · intro b hb
    rw [Finset.mem_sdiff, List.mem_toFinset]
    exact ⟨h.live b (List.mem_append_right bs hb), fun hmem => hdisjoint (hfreed b hmem) hb⟩

end ServiceConsumers.OwnedBlocks
