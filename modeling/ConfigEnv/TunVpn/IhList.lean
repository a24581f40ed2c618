/-
Module: ConfigEnv.TunVpn.IhList
Layer: TunVpn
Purpose: ih_list.h on a memory that knows which blocks are allocated. Every read and write of a
  `struct ih_list_head` goes through `next`, `prev`, `setNext` and `setPrev`, which fail on an
  address that is no block: a freed entry, one of the two poison values, anything else. An entry is
  told by the address of its list head, so `ih_list_entry` is the identity. The traversals count
  down from the number of blocks, since one that visits more nodes than there are blocks would go
  round for ever.
Trusted boundary: none
Main exports: Heap, ihInitListHead, ihListAdd, ihListDel, forEachUntil, forEachSafe
Open obligations: none
-/
import ConfigEnv.Lib.Circular

namespace ConfigEnv.TunVpn

open Circular (Ptr Links)

/-- `IH_LIST_POISON1`. -/
def ihListPoison1 : Ptr := 0x00100100

/-- `IH_LIST_POISON2`. -/
def ihListPoison2 : Ptr := 0x00200200

/-- The list heads in memory, and the blocks that are allocated. -/
structure Heap where
  links : Links
  blocks : List Ptr

namespace Heap

variable (h : Heap)

/-- `p->next`. -/
def next (p : Ptr) : Option Ptr := if p ∈ h.blocks then some (h.links.next p) else none

/-- `p->prev`. -/
def prev (p : Ptr) : Option Ptr := if p ∈ h.blocks then some (h.links.prev p) else none

/-- `p->next = q`. -/
def setNext (p q : Ptr) : Option Heap :=
  if p ∈ h.blocks then
    some { h with links := { h.links with next := Function.update h.links.next p q } }
  else none

/-- `p->prev = q`. -/
def setPrev (p q : Ptr) : Option Heap :=
  if p ∈ h.blocks then
    some { h with links := { h.links with prev := Function.update h.links.prev p q } }
  else none

/-- What `malloc` returning `p` does; the contents of the block are what they are. -/
def malloc (p : Ptr) : Heap := { h with blocks := p :: h.blocks }

/-- `free(p)`. -/
def free (p : Ptr) : Option Heap :=
  if p ∈ h.blocks then some { h with blocks := h.blocks.filter (· ≠ p) } else none

end Heap

/-! ### The list operations -/

/-- `IH_INIT_LIST_HEAD`. -/
def ihInitListHead (h : Heap) (list : Ptr) : Option Heap := do
  let h ← h.setNext list list
  h.setPrev list list

/-- `__ih_list_add`. -/
def ihListAddBetween (h : Heap) (new prev next : Ptr) : Option Heap := do
  let h ← h.setPrev next new
  let h ← h.setNext new next
  let h ← h.setPrev new prev
  h.setNext prev new

/-- `ih_list_add`. -/
def ihListAdd (h : Heap) (new head : Ptr) : Option Heap := do
  let next ← h.next head
  ihListAddBetween h new head next

/-- `__ih_list_del`. -/
def ihListDelBetween (h : Heap) (prev next : Ptr) : Option Heap := do
  let h ← h.setPrev next prev
  h.setNext prev next

/-- `ih_list_del`, which poisons the links of the entry. -/
def ihListDel (h : Heap) (entry : Ptr) : Option Heap := do
  let prev ← h.prev entry
  let next ← h.next entry
  let h ← ihListDelBetween h prev next
  let h ← h.setNext entry ihListPoison1
  h.setPrev entry ihListPoison2

/-! ### The traversals -/

/-- `ih_list_for_each_entry` from `pos` on, left at the first entry that passes `test`; the cursor
where it stops, which is the head when the list runs out. -/
def forEachUntil (h : Heap) (head : Ptr) (test : Ptr → Option Bool) : Nat → Ptr → Option Ptr
  | 0, _ => none
  | fuel + 1, pos =>
      if pos = head then some pos
      else do
        let found ← test pos
        if found then some pos
        else do
          let pos ← h.next pos
          forEachUntil h head test fuel pos

/-- `ih_list_for_each_entry_safe` with the cursors `pos` and `n`; the body may free `pos`. -/
def forEachSafe {σ : Type} (heap : σ → Heap) (head : Ptr) (body : σ → Ptr → Option σ) :
    Nat → σ → Ptr → Ptr → Option σ
  | 0, _, _, _ => none
  | fuel + 1, s, pos, n =>
      if pos = head then some s
      else do
        let s ← body s pos
        let n' ← (heap s).next n
        forEachSafe heap head body fuel s n n'

end ConfigEnv.TunVpn
