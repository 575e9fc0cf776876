import Mathlib.Data.Nat.Log
import Inferno.Common
import Inferno.Lib.Prog

/-!
# The ring buffer

`RingBufferShared` is the memory a writer (`RBInput`) and its readers
(`RBOutput`) share: two positions, a hole counter and the items. Every load
and store of it is one atomic action (`RingOp`), and the methods are programs
of those actions, so the same text is run alone (one call after the other)
and interleaved (a reader beside the writer).

`item_ready` and `hole_fix_wait` belong to the writer alone and are plain
values. Item stores carry a `stamp`, the timestamp the audio is for; nothing
in the memory depends on it.
-/

namespace Inferno

variable {α : Type}

/-! ## Shared memory and its atomic actions -/

/-- The fields of `RingBufferShared` that never change. `itemsSize` is what
`RingBufferShared::new` computes; it asserts that it is a power of two, and a
slice of samples has at most `isize::MAX` bytes. -/
structure RingShared where
  bufferLen : Nat
  stride : Nat
  unconditionalRead : Bool
  hasPosDest : Bool
  itemsSize : Nat
  itemsSize_eq : itemsSize = (bufferLen + stride - 1) / stride
  stride_pos : 0 < stride
  isPowerOfTwo : itemsSize.isPowerOfTwo
  itemsSize_le : itemsSize ≤ 2 ^ 61

/-- The fields that change. `valid` is the flag of `ExternalBuffer`, true for
an owned buffer; `reported` is the cell of `readable_pos_dest`. -/
structure RingMem (α : Type) where
  readablePos : Usize
  writingPos : Usize
  holesCount : Usize
  buffer : Nat → α
  valid : Bool
  reported : Usize

inductive RingOp (α : Type) where
  | loadReadable
  | storeReadable (v : Usize)
  | loadWriting
  | storeWriting (v : Usize)
  | loadHoles
  | addHole
  | lockBuffer
  | loadItem (i : Nat)
  | storeItem (i : Nat) (x : α) (stamp : Option Usize)
  | report (v : Usize)

abbrev RingOp.Res : RingOp α → Type
  | .loadReadable => Usize
  | .loadWriting => Usize
  | .loadHoles => Usize
  | .lockBuffer => Bool
  | .loadItem _ => α
  | _ => Unit

abbrev RingIface (α : Type) : Iface := ⟨RingOp α, RingOp.Res⟩

abbrev RingProg (α β : Type) := Prog (RingIface α) β

/-- What an action does to the memory. -/
def ringMem : Handler (RingIface α) (RingMem α)
  | .loadReadable, m => (m.readablePos, m)
  | .storeReadable v, m => ((), { m with readablePos := v })
  | .loadWriting, m => (m.writingPos, m)
  | .storeWriting v, m => ((), { m with writingPos := v })
  | .loadHoles, m => (m.holesCount, m)
  | .addHole, m => ((), { m with holesCount := m.holesCount + 1 })
  | .lockBuffer, m => (m.valid, m)
  | .loadItem i, m => (m.buffer i, m)
  | .storeItem i x _, m => ((), { m with buffer := Function.update m.buffer i x })
  | .report v, m => ((), { m with reported := v })

namespace RingAct

def loadReadable : RingProg α Usize := .act .loadReadable .ret
def storeReadable (v : Usize) : RingProg α Unit := .act (.storeReadable v) .ret
def loadWriting : RingProg α Usize := .act .loadWriting .ret
def storeWriting (v : Usize) : RingProg α Unit := .act (.storeWriting v) .ret
def loadHoles : RingProg α Usize := .act .loadHoles .ret
def addHole : RingProg α Unit := .act .addHole .ret
def lockBuffer : RingProg α Bool := .act .lockBuffer .ret
def report (v : Usize) : RingProg α Unit := .act (.report v) .ret

/-- `buffer[i * stride].load`, with its bounds check. -/
def loadItem (sh : RingShared) (i : Nat) : RingProg α α :=
  if i * sh.stride < sh.bufferLen then .act (.loadItem (i * sh.stride)) .ret else .fail

/-- `buffer[i * stride].store`, with its bounds check. -/
def storeItem (sh : RingShared) (i : Nat) (x : α) (stamp : Option Usize) : RingProg α Unit :=
  if i * sh.stride < sh.bufferLen then .act (.storeItem (i * sh.stride) x stamp) .ret else .fail

end RingAct

/-! ## Walking the ring -/

/-- The slots `for_in_ring` calls back with, in order. -/
def forInRing (length : Nat) (start fin : Usize) : List Nat :=
  if start = fin then []
  else
    let lengthMask := length - 1
    let wStart := start.toNat &&& lengthMask
    let wEnd := fin.toNat &&& lengthMask
    if wStart < wEnd then
      List.range' wStart (wEnd - wStart)
    else
      List.range' wStart (length - wStart) ++ List.range wEnd

/-! ## The writer -/

/-- `RBInput` without its `Arc`: `itemReady` has `items_size` bits. -/
structure RBInput where
  itemReady : Nat → Bool
  holeFixWait : Usize

def RBInput.setReady (inp : RBInput) (i : Nat) (b : Bool) : RBInput :=
  { inp with itemReady := Function.update inp.itemReady i b }

namespace RBInput

open RingAct

/-- "Do we have a new hole? Mark it appropriately." -/
def markHole (sh : RingShared) (inp : RBInput) (startTimestamp : Usize) :
    RingProg α (RBInput × Bool) := do
  let w ← loadWriting
  if wrapsub startTimestamp w > 0 then do
    let w ← loadWriting
    pure ((forInRing sh.itemsSize w startTimestamp).foldl (fun r i => r.setReady i false) inp, true)
  else
    pure (inp, false)

/-- "Update writing_pos ... but make sure we don't go back in time". -/
def publishWriting (endTs : Usize) : RingProg α Unit := do
  let w ← loadWriting
  if wrapsub endTs w > 0 then storeWriting endTs else pure ()

/-- "Write the items": one slot of the walk and the next item of `input`. -/
def writeItem (sh : RingShared) (acc : RBInput × List α × Usize) (i : Nat) :
    RingProg α (RBInput × List α × Usize) :=
  match acc with
  | (inp, x :: rest, ts) => do
      storeItem sh i x (some ts)
      pure (inp.setReady i true, rest, ts + 1)
  | (_, [], _) => .fail

def writeItems (sh : RingShared) (inp : RBInput) (startTimestamp endTs : Usize) (input : List α) :
    RingProg α RBInput := do
  if ← lockBuffer then do
    let acc ← (forInRing sh.itemsSize startTimestamp endTs).foldlM (writeItem sh)
      (inp, input, startTimestamp)
    pure acc.1
  else
    pure inp

/-- "Put default values in any holes": one slot of the walk. -/
def closeHole [Inhabited α] (sh : RingShared) (inp : RBInput) (hole : Bool) (i : Nat) :
    RingProg α Bool :=
  if inp.itemReady i then pure hole
  else do
    storeItem sh i default none
    pure true

/-- The walk over `readable_pos..close_until_pos`; true if there was a hole. -/
def defaultHoles [Inhabited α] (sh : RingShared) (inp : RBInput) (closeUntilPos : Usize) :
    RingProg α Bool := do
  if ← lockBuffer then do
    let r ← loadReadable
    (forInRing sh.itemsSize r closeUntilPos).foldlM (closeHole sh inp) false
  else
    pure false

def countHole (hole : Bool) : RingProg α Unit :=
  if hole then addHole else pure ()

/-- The first half of `close_items_until_internal`. -/
def closeHoles [Inhabited α] (sh : RingShared) (inp : RBInput) (closeUntilPos : Usize) :
    RingProg α Unit := do
  let r ← loadReadable
  if wrapsub closeUntilPos r > 0 then do
    let hole ← defaultHoles sh inp closeUntilPos
    countHole hole
    storeReadable closeUntilPos
  else
    pure ()

/-- The scan of the second half: how far `ready` stays true. -/
def countReady (inp : RBInput) (acc : Bool × Usize) (i : Nat) : Bool × Usize :=
  if !acc.1 then acc
  else if inp.itemReady i then (true, acc.2 + 1)
  else (false, acc.2)

/-- The second half: "Check for fixed holes and update readable_pos accordingly". -/
def checkHoles (sh : RingShared) (inp : RBInput) (checkUntilPos : Usize) : RingProg α Unit := do
  let r ← loadReadable
  if wrapsub checkUntilPos r > 0 then do
    let newReadablePos ← loadReadable
    let r ← loadReadable
    storeReadable ((forInRing sh.itemsSize r checkUntilPos).foldl (countReady inp)
      (true, newReadablePos)).2
  else pure ()

def closeItemsUntilInternal [Inhabited α] (sh : RingShared) (inp : RBInput)
    (closeUntilPos checkUntilPos : Usize) : RingProg α Unit := do
  closeHoles sh inp closeUntilPos
  checkHoles sh inp checkUntilPos

def commitReadablePos (sh : RingShared) : RingProg α Unit := do
  if sh.hasPosDest then do
    let r ← loadReadable
    report r
  else pure ()

/-- "Inform the RBOutput that new data is readable, but do it only if there
are no holes"; "If there was a hole, close too old items". -/
def publishReadable [Inhabited α] (sh : RingShared) (inp : RBInput) (hole : Bool) :
    RingProg α Unit := do
  if !hole then do
    let w ← loadWriting
    storeReadable w
  else do
    let w ← loadWriting
    let w' ← loadWriting
    closeItemsUntilInternal sh inp (w - inp.holeFixWait) w'

/-- `write_from_at`; the `ExactSizeIterator` is the list of the items it
yields. Returns the writer's new private state and the readable position. -/
def writeFromAt [Inhabited α] (sh : RingShared) (inp : RBInput) (startTimestamp : Usize)
    (input : List α) : RingProg α (RBInput × Usize) := do
  Prog.assert (input.length < sh.itemsSize)
  let (inp, newHole) ← markHole sh inp startTimestamp
  let r ← loadReadable
  let w ← loadWriting
  let hole := newHole || r != w
  let endTs := startTimestamp + BitVec.ofNat 64 input.length
  publishWriting endTs
  let inp ← writeItems sh inp startTimestamp endTs input
  publishReadable sh inp hole
  commitReadablePos sh
  let r ← loadReadable
  pure (inp, r)

/-- "closing not-yet-touched items was requested": one slot of the walk. -/
def fillSlot [Inhabited α] (sh : RingShared) (_ : Unit) (i : Nat) : RingProg α Unit :=
  storeItem sh i default none

def fillSlots [Inhabited α] (sh : RingShared) (untilPos needUntilPos : Usize) :
    RingProg α Unit := do
  if ← lockBuffer then
    (forInRing sh.itemsSize untilPos needUntilPos).foldlM (fillSlot sh) ()
  else
    pure ()

def fillUntil [Inhabited α] (sh : RingShared) (untilPos needUntilPos : Usize) :
    RingProg α Unit := do
  if needUntilPos != untilPos then do
    storeWriting needUntilPos
    fillSlots sh untilPos needUntilPos
    storeReadable needUntilPos
  else
    pure ()

def closeItemsUntil [Inhabited α] (sh : RingShared) (inp : RBInput) (untilPos : Usize) :
    RingProg α Unit := do
  let writingPos ← loadWriting
  let needUntilPos := untilPos
  let untilPos := if wrapsub untilPos writingPos > 0 then writingPos else untilPos
  closeItemsUntilInternal sh inp untilPos untilPos
  fillUntil sh untilPos needUntilPos
  commitReadablePos sh

end RBInput

/-! ## The reader -/

/-- Result of `read_at`: the range of useful indices of the output slice. -/
structure ReadResult where
  usefulStartIndex : Nat
  usefulEndIndex : Nat
deriving Repr, DecidableEq

/-- Index `i` of the output is reported as useful. -/
def ReadResult.Useful (r : ReadResult) (i : Nat) : Prop :=
  r.usefulStartIndex ≤ i ∧ i < r.usefulEndIndex

namespace RBOutput

open RingAct

def readableUntil : RingProg α Usize := loadReadable

/-- How many items `read_at` copies; `none` is its early return. -/
def outputLen (sh : RingShared) (startTimestamp : Usize) (originalOutputLen : Nat) :
    RingProg α (Option Nat) := do
  if sh.unconditionalRead then pure (some originalOutputLen)
  else do
    let r ← loadReadable
    let readable := wrapsub r startTimestamp
    if readable < 0 ∨ readable > sh.itemsSize then pure none
    else pure (some (min originalOutputLen readable.toNat))

/-- One slot of the copy, with the bounds check of `output[out_index]`. -/
def readItem (sh : RingShared) (acc : List α × Nat) (i : Nat) : RingProg α (List α × Nat) := do
  let x ← loadItem sh i
  Prog.assert (acc.2 < acc.1.length)
  pure (acc.1.set acc.2 x, acc.2 + 1)

/-- The check after the copy: "data has been overwritten in the meantime". -/
def usefulRange (sh : RingShared) (startTimestamp : Usize) (outputLen : Nat) :
    RingProg α ReadResult := do
  if !sh.unconditionalRead then do
    let w ← loadWriting
    let diff := wrapsub w startTimestamp
    if diff > sh.itemsSize then
      pure ⟨min (diff.toNat - sh.itemsSize) outputLen, outputLen⟩
    else pure ⟨0, outputLen⟩
  else pure ⟨0, outputLen⟩

/-- The copy and the check after it. -/
def copyOut (sh : RingShared) (startTimestamp : Usize) (output : List α) (outputLen : Nat) :
    RingProg α (List α × ReadResult) := do
  if ← lockBuffer then do
    let acc ← (forInRing sh.itemsSize startTimestamp
      (startTimestamp + BitVec.ofNat 64 outputLen)).foldlM (readItem sh) (output, 0)
    let r ← usefulRange sh startTimestamp outputLen
    pure (acc.1, r)
  else pure (output, ⟨0, 0⟩)

/-- `read_at`: the output slice after the call, and the useful range. -/
def readAt (sh : RingShared) (startTimestamp : Usize) (output : List α) :
    RingProg α (List α × ReadResult) := do
  match ← outputLen sh startTimestamp output.length with
  | none => pure (output, ⟨0, 0⟩)
  | some n => copyOut sh startTimestamp output n

def holesCount : RingProg α Usize := loadHoles

end RBOutput

/-! ## Construction -/

/-- `usize::next_power_of_two`. -/
def nextPowerOfTwo (n : Nat) : Nat := if n ≤ 1 then 1 else 2 ^ (Nat.log2 (n - 1) + 1)

theorem isPowerOfTwo_nextPowerOfTwo (n : Nat) : (nextPowerOfTwo n).isPowerOfTwo := by
  unfold nextPowerOfTwo
  split
  · exact ⟨0, rfl⟩
  · exact ⟨_, rfl⟩

theorem nextPowerOfTwo_le {n k : Nat} (h : n ≤ 2 ^ k) : nextPowerOfTwo n ≤ 2 ^ k := by
  unfold nextPowerOfTwo
  split
  · exact Nat.one_le_two_pow
  · next hn =>
      have hlog : Nat.log2 (n - 1) < k := (Nat.log2_lt (by omega)).mpr (by omega)
      exact Nat.pow_le_pow_right (by decide) hlog

/-- The shared part `new_owned` builds. -/
def ownedShared (length : Nat) (hlen : length ≤ 2 ^ 61) : RingShared where
  bufferLen := nextPowerOfTwo length
  stride := 1
  unconditionalRead := false
  hasPosDest := false
  itemsSize := nextPowerOfTwo length
  itemsSize_eq := by simp
  stride_pos := Nat.one_pos
  isPowerOfTwo := isPowerOfTwo_nextPowerOfTwo length
  itemsSize_le := nextPowerOfTwo_le hlen

/-- The memory of a fresh owned ring. -/
def ownedMem [Inhabited α] (startTime : Usize) : RingMem α where
  readablePos := startTime
  writingPos := startTime
  holesCount := 0
  buffer := fun _ => default
  valid := true
  reported := 0

/-- The writer of a fresh ring. -/
def freshInput (holeFixWait : Usize) : RBInput where
  itemReady := fun _ => false
  holeFixWait := holeFixWait

end Inferno
