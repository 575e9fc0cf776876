import Inferno.Lib.BinarySerde
import Inferno.FlowsRequest

/-!
# Lists of items in a packet

`proto_arc.rs`: a page of a listing is written by `serialize_items`, which
reserves space for the items behind two bytes of header and goes back to fill
it, while what the items point at grows behind; `deserialize_items` reads the
items of a page or of a request. As long as the closure writes behind the
reserved space only (`WritesBehind`), the items that are read are the ones that
were counted (`deserialize_page`).
-/

namespace Inferno

open ByteBuffer BinarySerde

def PACKET_SIZE_SOFT_LIMIT : Nat := 800

/-- `FnMut(InItem, &mut ByteBuffer) -> Option<OutItem>`. What the closure keeps
between its calls is a `σ`; the outer `none` is a panic. -/
abbrev Transform (σ In Out : Type) := σ → In → ByteBuffer → Option (σ × ByteBuffer × Option Out)

/-- Where `serialize_items` is when its loop ends. -/
structure ItemsPage (Out : Type) where
  haveMore : Bool
  bytes : ByteBuffer
  /-- The items that were counted; of these the code keeps the number,
  `actual_items`. -/
  counted : List Out

section

variable {σ In Out : Type} [BinarySerde Out]

/-- The loop of `serialize_items`. -/
def serializeLoop (spaceItems : Nat) (transform : Transform σ In Out) :
    List In → σ → ByteBuffer → Nat → List Out → Option (ItemsPage Out)
  | [], _, bytes, _, counted => some ⟨false, bytes, counted⟩
  | inItem :: source, s, bytes, itemPos, counted =>
      if counted.length ≥ spaceItems then some ⟨true, bytes, counted⟩
      else match transform s inItem bytes with
        | none => none
        | some (s', bytes, none) =>
            serializeLoop spaceItems transform source s' bytes itemPos counted
        | some (s', bytes, some outItem) =>
            let prevPos := bytes.wpos
            let bytes := (bytes.setWpos itemPos).writeBytes (binarySerialize outItem)
            let bytes := bytes.setWpos prevPos
            -- the item is in its place, but is not counted
            if prevPos ≥ PACKET_SIZE_SOFT_LIMIT then some ⟨true, bytes, counted⟩
            else serializeLoop spaceItems transform source s' bytes
              (itemPos + SERIALIZED_SIZE Out) (counted ++ [outItem])

/-- The ten bytes for the packet's header and the two of the listing. -/
def listingHead (spaceItems : Byte) : ByteBuffer :=
  ((new.writeBytes (List.replicate HEADER_LENGTH 0)).writeU8 spaceItems).writeU8 0

/-- The space of the items, still empty, behind the head. -/
def reservedSpace (Out : Type) [BinarySerde Out] (spaceItems : Byte) : ByteBuffer :=
  (listingHead spaceItems).writeBytes
    (List.replicate (spaceItems.toNat * SERIALIZED_SIZE Out) 0)

/-- `serialize_items`; `s` is what the closure starts with. -/
def serializeItems (spaceItems : Byte) (source : List In) (transform : Transform σ In Out)
    (s : σ) : Option (ItemsPage Out) := do
  if spaceItems = 0 then
    return ⟨false, listingHead spaceItems, []⟩
  let page ← serializeLoop spaceItems.toNat transform source s (reservedSpace Out spaceItems)
    (2 + HEADER_LENGTH) []
  let actualItems := page.counted.length
  let bytes := (page.bytes.setWpos (1 + HEADER_LENGTH)).writeU8
    (if actualItems < 256 then BitVec.ofNat 8 actualItems else 255)
  return { page with bytes := bytes }

/-- What is behind the header: the content of the answer. -/
def ItemsPage.content (page : ItemsPage Out) : List Byte := page.bytes.data.drop HEADER_LENGTH

/-- `extract_start_index`. -/
def extractStartIndex (requestPayload : List Byte) : Option Nat :=
  if requestPayload.length < 4 ∨ (requestPayload.getD 2 0 ||| requestPayload.getD 3 0) = 0 then none
  else some ((u16At requestPayload 2).toNat - 1)

/-- `paginate_make_response`. -/
def paginateMakeResponse (requestPayload : List Byte) (spaceItems : Byte) (source : List In)
    (transform : Transform σ In Out) (s : σ) : Option (BitVec 16 × List Byte) :=
  match extractStartIndex requestPayload with
  | none => some (0xFFFF, [])
  | some startIndex => do
      let page ← serializeItems spaceItems (source.drop startIndex) transform s
      let code := if page.haveMore then 0x8112 else 1
      return (code, page.content)

/-- The items from the start of the bytes on, as long as there is a whole one. -/
def itemsInPacket (Out : Type) [BinarySerde Out] (itemsBytes : List Byte) : List Out :=
  (List.range (itemsBytes.length / SERIALIZED_SIZE Out)).filterMap fun k =>
    binaryDeserialize ((itemsBytes.drop (k * SERIALIZED_SIZE Out)).take (SERIALIZED_SIZE Out))

/-- `deserialize_items`; the slices can be out of range. -/
def deserializeItems (Out : Type) [BinarySerde Out] (payload : List Byte) : Option (List Out) :=
  let numItems := (payload.getD 1 0).toNat
  let numItems := min numItems (payload.length / SERIALIZED_SIZE Out)
  if payload.length < 2 then none
  else if (payload.drop 2).length < numItems * SERIALIZED_SIZE Out then none
  else some (itemsInPacket Out ((payload.drop 2).take (numItems * SERIALIZED_SIZE Out)))

theorem extractStartIndex_be16 {start : BitVec 16} (h : start ≠ 0) :
    extractStartIndex ([0, 0] ++ be16 start) = some (start.toNat - 1) := by
  have hword : u16At ([0, 0] ++ be16 start) 2 = start := word16_be16 start []
  rw [extractStartIndex, if_neg, hword]
  rintro (hlen | hzero)
  · exact absurd hlen (Nat.lt_irrefl 4)
  · obtain ⟨h0, h1⟩ := BitVec.or_eq_zero_iff.mp hzero
    rw [u16At, h0, h1] at hword
    exact h hword.symm

/-! ## Reading items that were written -/

theorem itemsInPacket_flatMap (items : List Out) :
    itemsInPacket Out (items.flatMap binarySerialize) = items := by
  have hpos := size_pos (α := Out)
  induction items with
  | nil =>
      rw [itemsInPacket, List.flatMap_nil, List.length_nil, Nat.zero_div, List.range_zero,
        List.filterMap_nil]
  | cons x items ih =>
      have hlen : ((x :: items).flatMap binarySerialize).length / SERIALIZED_SIZE Out =
          (items.flatMap binarySerialize).length / SERIALIZED_SIZE Out + 1 := by
        rw [length_flatMap_serialize, length_flatMap_serialize, Nat.mul_div_cancel _ hpos,
          Nat.mul_div_cancel _ hpos, List.length_cons]
      rw [itemsInPacket, hlen, List.range_succ_eq_map, List.filterMap_cons, List.filterMap_map]
      rw [Nat.zero_mul, List.drop_zero, take_flatMap_cons, deserialize_serialize]
      refine congrArg (x :: ·) (Eq.trans ?_ ih)
      exact congrArg (List.filterMap · _) (funext fun k =>
        congrArg (binaryDeserialize <| List.take _ ·) (drop_flatMap_cons x items k))

/-- A page whose first bytes are a head and items is read as these items. -/
theorem deserializeItems_page {payload : List Byte} {spaceItems : Byte} {items : List Out}
    (hcount : items.length < 256)
    (h : spaceItems :: BitVec.ofNat 8 items.length :: items.flatMap binarySerialize <+: payload) :
    deserializeItems Out payload = some items := by
  have hpos := size_pos (α := Out)
  obtain ⟨rest, rfl⟩ := h
  have hnum : (BitVec.ofNat 8 items.length).toNat = items.length := by
    rw [BitVec.toNat_ofNat, Nat.mod_eq_of_lt (by exact hcount)]
  have hlen := length_flatMap_serialize items
  have hmin : min items.length ((spaceItems :: BitVec.ofNat 8 items.length ::
      items.flatMap binarySerialize ++ rest).length / SERIALIZED_SIZE Out) = items.length := by
    refine Nat.min_eq_left ((Nat.le_div_iff_mul_le hpos).mpr ?_)
    simp only [List.cons_append, List.length_cons, List.length_append, hlen]
    omega
  unfold deserializeItems
  simp only [List.cons_append, List.getD_cons_succ, List.getD_cons_zero, List.drop_succ_cons,
    List.drop_zero] at hmin ⊢
  rw [hnum, hmin, if_neg, if_neg, ← hlen, List.take_left, itemsInPacket_flatMap]
  · rw [List.length_append, hlen]
    omega
  · rw [List.length_cons, List.length_cons]
    omega

/-! ## What the loop keeps -/

/-- The position and what is from `reserved` on are the same. -/
structure SameBehind (reserved : Nat) (b b' : ByteBuffer) : Prop where
  wpos : b'.wpos = b.wpos
  length : b'.data.length = b.data.length
  drop : b'.data.drop reserved = b.data.drop reserved

/-- The closure writes behind the first `reserved` bytes only: these it leaves as
they are, and the position behind them. It may rely on an `I` of its own that
does not depend on these bytes. -/
structure WritesBehind (reserved : Nat) (transform : Transform σ In Out)
    (I : σ → ByteBuffer → Prop) : Prop where
  step : ∀ {s x b s' b' out}, I s b → reserved ≤ b.wpos → transform s x b = some (s', b', out) →
    reserved ≤ b'.wpos ∧ b'.data.take reserved = b.data.take reserved ∧ I s' b'
  put : ∀ {s b b'}, I s b → SameBehind reserved b b' → I s b'

/-- The buffer between two turns of the loop: the items counted so far stand in
the reserved space, one behind the other. -/
structure Filling (spaceItems : Byte) (counted : List Out) (b : ByteBuffer) : Prop where
  behind : 2 + HEADER_LENGTH + spaceItems.toNat * SERIALIZED_SIZE Out ≤ b.wpos
  space : counted.length ≤ spaceItems.toNat
  head : b.data.take (2 + HEADER_LENGTH + counted.length * SERIALIZED_SIZE Out) =
    List.replicate HEADER_LENGTH 0 ++ spaceItems :: 0 :: counted.flatMap binarySerialize

theorem listingHead_eq (spaceItems : Byte) :
    listingHead spaceItems = ofBytes (List.replicate HEADER_LENGTH 0 ++ [spaceItems, 0]) := by
  rw [listingHead, new_eq, ofBytes_writeBytes, ofBytes_writeU8, ofBytes_writeU8,
    List.nil_append, List.append_assoc]
  rfl

theorem reservedSpace_eq (spaceItems : Byte) :
    reservedSpace Out spaceItems = ofBytes (List.replicate HEADER_LENGTH 0 ++ [spaceItems, 0] ++
      List.replicate (spaceItems.toNat * SERIALIZED_SIZE Out) 0) := by
  rw [reservedSpace, listingHead_eq, ofBytes_writeBytes]

theorem length_listingHead (spaceItems : Byte) :
    (List.replicate HEADER_LENGTH (0 : Byte) ++ [spaceItems, 0]).length = 2 + HEADER_LENGTH := rfl

namespace Filling

variable {spaceItems : Byte} {counted : List Out} {b b' : ByteBuffer}

theorem start (spaceItems : Byte) :
    Filling spaceItems ([] : List Out) (reservedSpace Out spaceItems) where
  behind := by
    rw [reservedSpace_eq, ofBytes_wpos, List.length_append, length_listingHead,
      List.length_replicate]
  space := Nat.zero_le _
  head := by
    rw [reservedSpace_eq, ofBytes_data, List.length_nil, Nat.zero_mul, Nat.add_zero]
    exact List.take_left' (length_listingHead spaceItems)

theorem of_take (h : Filling spaceItems counted b)
    (hbehind : 2 + HEADER_LENGTH + spaceItems.toNat * SERIALIZED_SIZE Out ≤ b'.wpos)
    (htake : b'.data.take (2 + HEADER_LENGTH + spaceItems.toNat * SERIALIZED_SIZE Out) =
      b.data.take (2 + HEADER_LENGTH + spaceItems.toNat * SERIALIZED_SIZE Out)) :
    Filling spaceItems counted b' where
  behind := hbehind
  space := h.space
  head := by
    have hle : 2 + HEADER_LENGTH + counted.length * SERIALIZED_SIZE Out ≤
        2 + HEADER_LENGTH + spaceItems.toNat * SERIALIZED_SIZE Out :=
      Nat.add_le_add_left (Nat.mul_le_mul_right _ h.space) _
    have htake' := congrArg (List.take (2 + HEADER_LENGTH + counted.length * SERIALIZED_SIZE Out))
      htake
    rw [List.take_take, List.take_take, Nat.min_eq_left hle] at htake'
    rw [htake', h.head]

theorem room (hspace : counted.length < spaceItems.toNat) (item : Out) :
    2 + HEADER_LENGTH + counted.length * SERIALIZED_SIZE Out + (binarySerialize item).length ≤
      2 + HEADER_LENGTH + spaceItems.toNat * SERIALIZED_SIZE Out := by
  rw [length_serialize, Nat.add_assoc, ← Nat.succ_mul]
  exact Nat.add_le_add_left (Nat.mul_le_mul_right _ hspace) _

theorem length_put (h : Filling spaceItems counted b)
    (hspace : counted.length < spaceItems.toNat) (item : Out) :
    ((b.setWpos (2 + HEADER_LENGTH + counted.length * SERIALIZED_SIZE Out)).writeBytes
      (binarySerialize item)).data.length = b.data.length := by
  have hwpos := b.wpos_le
  have hbehind := h.behind
  have hroom := room hspace item
  refine length_writeBytes ?_
  rw [setWpos_wpos (by omega), setWpos_data]
  omega

/-- The next item is written in its place. -/
theorem put (h : Filling spaceItems counted b) (hspace : counted.length < spaceItems.toNat)
    (item : Out) :
    Filling spaceItems (counted ++ [item])
      (((b.setWpos (2 + HEADER_LENGTH + counted.length * SERIALIZED_SIZE Out)).writeBytes
        (binarySerialize item)).setWpos b.wpos) := by
  have hwpos := b.wpos_le
  have hbehind := h.behind
  have hroom := room hspace item
  have hlen := h.length_put hspace item
  have hfits : 2 + HEADER_LENGTH + counted.length * SERIALIZED_SIZE Out +
      (binarySerialize item).length ≤ b.data.length := by omega
  refine ⟨?_, ?_, ?_⟩
  · rw [setWpos_wpos (by rw [hlen]; exact hwpos)]
    exact hbehind
  · rw [List.length_append, List.length_singleton]
    exact hspace
  · have hcount : 2 + HEADER_LENGTH + (counted ++ [item]).length * SERIALIZED_SIZE Out =
        2 + HEADER_LENGTH + counted.length * SERIALIZED_SIZE Out +
          (binarySerialize item).length := by
      rw [List.length_append, List.length_singleton, Nat.succ_mul, length_serialize]
      omega
    have hsingle : [item].flatMap binarySerialize = binarySerialize item := List.append_nil _
    have hall : ((b.setWpos (2 + HEADER_LENGTH + counted.length * SERIALIZED_SIZE Out)).writeBytes
        (binarySerialize item)).data.take (2 + HEADER_LENGTH + counted.length *
          SERIALIZED_SIZE Out + (binarySerialize item).length) =
      List.replicate HEADER_LENGTH 0 ++ spaceItems :: 0 :: counted.flatMap binarySerialize ++
        binarySerialize item :=
      (setWpos_writeBytes_take hfits).trans (congrArg (· ++ _) h.head)
    rw [setWpos_data, hcount, hall, List.flatMap_append, hsingle]
    simp only [List.append_assoc, List.cons_append]

/-- An item that is written but not counted leaves the ones before it. -/
theorem put_uncounted (h : Filling spaceItems counted b)
    (hspace : counted.length < spaceItems.toNat) (item : Out) :
    Filling spaceItems counted
      (((b.setWpos (2 + HEADER_LENGTH + counted.length * SERIALIZED_SIZE Out)).writeBytes
        (binarySerialize item)).setWpos b.wpos) := by
  have hput := h.put hspace item
  refine ⟨hput.behind, h.space, ?_⟩
  have hhead := congrArg (List.take (2 + HEADER_LENGTH + counted.length * SERIALIZED_SIZE Out))
    hput.head
  have hle : 2 + HEADER_LENGTH + counted.length * SERIALIZED_SIZE Out ≤
      2 + HEADER_LENGTH + (counted ++ [item]).length * SERIALIZED_SIZE Out := by
    rw [List.length_append]
    exact Nat.add_le_add_left (Nat.mul_le_mul_right _ (Nat.le_add_right _ _)) _
  rw [List.take_take, Nat.min_eq_left hle] at hhead
  rw [hhead, List.flatMap_append, ← List.cons_append, ← List.cons_append, ← List.append_assoc]
  refine List.take_left' ?_
  rw [List.length_append, List.length_cons, List.length_cons, length_flatMap_serialize,
    List.length_replicate]
  omega

/-- What is behind the reserved space is not touched by an item. -/
theorem same (h : Filling spaceItems counted b) (hspace : counted.length < spaceItems.toNat)
    (item : Out) :
    SameBehind (2 + HEADER_LENGTH + spaceItems.toNat * SERIALIZED_SIZE Out) b
      (((b.setWpos (2 + HEADER_LENGTH + counted.length * SERIALIZED_SIZE Out)).writeBytes
        (binarySerialize item)).setWpos b.wpos) := by
  have hwpos := b.wpos_le
  have hbehind := h.behind
  have hroom := room hspace item
  have hlen := h.length_put hspace item
  refine ⟨setWpos_wpos ?_, hlen, setWpos_writeBytes_drop hroom (by omega)⟩
  rw [hlen]
  exact hwpos

end Filling

/-- What the closure and the buffer keep between them, `I`, goes through the loop
beside the items. -/
theorem serializeLoop_filling {spaceItems : Byte} {transform : Transform σ In Out}
    {I : σ → ByteBuffer → Prop}
    (htransform : WritesBehind
      (2 + HEADER_LENGTH + spaceItems.toNat * SERIALIZED_SIZE Out) transform I)
    {source : List In} {s : σ} {b : ByteBuffer} {counted : List Out} {page : ItemsPage Out}
    (h : Filling spaceItems counted b) (hI : I s b)
    (hrun : serializeLoop spaceItems.toNat transform source s b
      (2 + HEADER_LENGTH + counted.length * SERIALIZED_SIZE Out) counted = some page) :
    Filling spaceItems page.counted page.bytes := by
  induction source generalizing s b counted with
  | nil =>
      cases hrun
      exact h
  | cons x source ih =>
      rw [serializeLoop] at hrun
      split at hrun
      · cases hrun
        exact h
      next hspace =>
      have hspace := Nat.not_le.mp hspace
      split at hrun
      · cases hrun
      next s' b' hout =>
        obtain ⟨hbehind, htake, hI'⟩ := htransform.step hI h.behind hout
        exact ih (h.of_take hbehind htake) hI' hrun
      next s' b' item hout =>
        obtain ⟨hbehind, htake, hI'⟩ := htransform.step hI h.behind hout
        have h' := h.of_take hbehind htake
        dsimp only at hrun
        split at hrun
        · cases hrun
          exact h'.put_uncounted hspace item
        · refine ih (s := s') (h'.put hspace item) (htransform.put hI' (h'.same hspace item)) ?_
          rw [List.length_append, List.length_singleton, Nat.succ_mul, ← Nat.add_assoc]
          exact hrun

/-- The head of a finished page, from the header's end on. -/
theorem serializeItems_head {spaceItems : Byte} {transform : Transform σ In Out}
    {I : σ → ByteBuffer → Prop}
    (htransform : WritesBehind
      (2 + HEADER_LENGTH + spaceItems.toNat * SERIALIZED_SIZE Out) transform I)
    {source : List In} {s : σ} {page : ItemsPage Out} (hI : I s (reservedSpace Out spaceItems))
    (hrun : serializeItems spaceItems source transform s = some page) :
    page.counted.length < 256 ∧
      spaceItems :: BitVec.ofNat 8 page.counted.length :: page.counted.flatMap binarySerialize <+:
        page.content := by
  unfold serializeItems at hrun
  split at hrun
  · cases hrun
    refine ⟨Nat.zero_lt_succ _, ?_⟩
    rw [ItemsPage.content, listingHead_eq, ofBytes_data, List.drop_left' List.length_replicate]
    exact List.prefix_refl _
  obtain ⟨page', hloop, hpage⟩ := Option.bind_eq_some_iff.mp hrun
  cases hpage
  have hstart := @Filling.start Out _ spaceItems
  have hfill := serializeLoop_filling htransform hstart hI
    (by rw [List.length_nil, Nat.zero_mul]; exact hloop)
  have hcount : page'.counted.length < 256 := Nat.lt_of_le_of_lt hfill.space spaceItems.isLt
  refine ⟨hcount, ?_⟩
  have hroom : 2 + HEADER_LENGTH ≤ page'.bytes.data.length := by
    have hbehind := hfill.behind
    have hwpos := page'.bytes.wpos_le
    omega
  show _ <+: (((page'.bytes.setWpos (1 + HEADER_LENGTH)).writeU8
    (if page'.counted.length < 256 then BitVec.ofNat 8 page'.counted.length else 255)).data).drop
      HEADER_LENGTH
  rw [if_pos hcount]
  have htake := @setWpos_writeBytes_take page'.bytes (1 + HEADER_LENGTH)
    [BitVec.ofNat 8 page'.counted.length] hroom
  have hdrop := @setWpos_writeBytes_drop page'.bytes (1 + HEADER_LENGTH) (2 + HEADER_LENGTH)
    [BitVec.ofNat 8 page'.counted.length] (Nat.le_refl _) hroom
  have hspace : page'.bytes.data.take (1 + HEADER_LENGTH) =
      List.replicate HEADER_LENGTH 0 ++ [spaceItems] := by
    have hhead := congrArg (List.take (1 + HEADER_LENGTH)) hfill.head
    rw [List.take_take, Nat.min_eq_left (by omega)] at hhead
    rw [hhead]
    rfl
  have hitems : page'.counted.flatMap binarySerialize <+:
      page'.bytes.data.drop (2 + HEADER_LENGTH) := by
    have hhead := congrArg (List.drop (2 + HEADER_LENGTH)) hfill.head
    rw [List.drop_take] at hhead
    exact (hhead.symm ▸ List.take_prefix _ _ :
      List.drop (2 + HEADER_LENGTH) (List.replicate HEADER_LENGTH 0 ++
        spaceItems :: 0 :: page'.counted.flatMap binarySerialize) <+: _)
  rw [writeU8, ← List.take_append_drop (2 + HEADER_LENGTH)
    ((page'.bytes.setWpos (1 + HEADER_LENGTH)).writeBytes _).data]
  rw [show 2 + HEADER_LENGTH = 1 + HEADER_LENGTH + [BitVec.ofNat 8 page'.counted.length].length
    from rfl] at hdrop ⊢
  rw [htake, hdrop, hspace, List.append_assoc, List.append_assoc,
    List.drop_left' List.length_replicate]
  exact (List.prefix_append_right_inj [spaceItems, BitVec.ofNat 8 page'.counted.length]).mpr hitems

/-- **The items of a page are the ones that were counted.** -/
theorem deserialize_page {spaceItems : Byte} {transform : Transform σ In Out}
    {I : σ → ByteBuffer → Prop}
    (htransform : WritesBehind
      (2 + HEADER_LENGTH + spaceItems.toNat * SERIALIZED_SIZE Out) transform I)
    {source : List In} {s : σ} {page : ItemsPage Out} (hI : I s (reservedSpace Out spaceItems))
    (hrun : serializeItems spaceItems source transform s = some page) :
    deserializeItems Out page.content = some page.counted := by
  obtain ⟨hcount, hhead⟩ := serializeItems_head htransform hI hrun
  exact deserializeItems_page hcount hhead

/-! ## Closures that append -/

/-- Given a buffer at its end the closure leaves one at its end. `Inv` is what it
keeps about the bytes, `yields` says for which items it has one to write, and
`Reads` is what then can be read behind the reserved space. -/
structure Appends (reserved : Nat) (transform : Transform σ In Out) (yields : In → Bool)
    (Inv : σ → List Byte → Prop) (Reads : In → Out → List Byte → Prop) : Prop where
  step : ∀ {s x data s' b' out}, reserved ≤ data.length → Inv s data →
    transform s x (ofBytes data) = some (s', b', out) →
    ∃ data', b' = ofBytes data' ∧ data <+: data' ∧ Inv s' data' ∧ out.isSome = yields x ∧
      ∀ item, out = some item → Reads x item data'
  inv_grows : ∀ {s data data'}, Inv s data → Grows reserved data data' → Inv s data'
  reads_grows : ∀ {x item data data'}, Reads x item data → Grows reserved data data' →
    Reads x item data'

/-- The buffer is at its end, behind the reserved space. -/
def AtEnd (reserved : Nat) (Inv : σ → List Byte → Prop) (s : σ) (b : ByteBuffer) : Prop :=
  b = ofBytes b.data ∧ reserved ≤ b.data.length ∧ Inv s b.data

theorem SameBehind.grows {reserved : Nat} {b b' : ByteBuffer} (h : SameBehind reserved b b') :
    Grows reserved b.data b'.data := by
  rw [Grows, h.drop]

theorem SameBehind.atEnd {reserved : Nat} {b b' : ByteBuffer} (h : SameBehind reserved b b')
    (hb : b = ofBytes b.data) : b' = ofBytes b'.data := by
  refine ByteBuffer.ext rfl ?_
  rw [h.wpos, ofBytes_wpos, h.length, hb, ofBytes_wpos, ofBytes_data]

namespace Appends

variable {reserved : Nat} {transform : Transform σ In Out} {yields : In → Bool}
  {Inv : σ → List Byte → Prop} {Reads : In → Out → List Byte → Prop}

omit [BinarySerde Out] in
theorem writesBehind (h : Appends reserved transform yields Inv Reads) :
    WritesBehind reserved transform (AtEnd reserved Inv) where
  step := by
    intro s x b s' b' out ⟨hb, hlen, hinv⟩ _ hout
    rw [hb] at hout
    obtain ⟨data', rfl, hprefix, hinv', _, _⟩ := h.step hlen hinv hout
    have hlen' := hlen.trans hprefix.length_le
    obtain ⟨more, rfl⟩ := hprefix
    exact ⟨hlen', List.take_append_of_le_length hlen, rfl, hlen', hinv'⟩
  put := by
    intro s b b' ⟨hb, hlen, hinv⟩ hsame
    exact ⟨hsame.atEnd hb, hsame.length ▸ hlen, h.inv_grows hinv hsame.grows⟩

omit [BinarySerde Out] in
/-- What does not depend on the bytes need not be read from them. -/
theorem weaken {P : In → Out → Prop} (h : Appends reserved transform yields Inv Reads)
    (hP : ∀ {x item data}, Reads x item data → P x item) :
    Appends reserved transform yields Inv (fun x item _ => P x item) where
  step := by
    intro s x data s' b' out hlen hinv hout
    obtain ⟨data', hb', hprefix, hinv', hyields, hreads⟩ := h.step hlen hinv hout
    exact ⟨data', hb', hprefix, hinv', hyields, fun item hitem => hP (hreads item hitem)⟩
  inv_grows := h.inv_grows
  reads_grows := fun hx _ => hx

/-- What was read for an item stays readable, and there is an item for each
element that yields one, in order. -/
theorem serializeLoop_reads {spaceItems : Byte}
    (h : Appends (2 + HEADER_LENGTH + spaceItems.toNat * SERIALIZED_SIZE Out) transform yields
      Inv Reads)
    {source done : List In} {s : σ} {b : ByteBuffer} {counted : List Out} {page : ItemsPage Out}
    (hfill : Filling spaceItems counted b)
    (hI : AtEnd (2 + HEADER_LENGTH + spaceItems.toNat * SERIALIZED_SIZE Out) Inv s b)
    (hreads : List.Forall₂ (Reads · · b.data) done counted)
    (hrun : serializeLoop spaceItems.toNat transform source s b
      (2 + HEADER_LENGTH + counted.length * SERIALIZED_SIZE Out) counted = some page) :
    ∃ rest, rest <+: source.filter yields ∧
      List.Forall₂ (Reads · · page.bytes.data) (done ++ rest) page.counted := by
  induction source generalizing done s b counted with
  | nil =>
      cases hrun
      exact ⟨[], List.nil_prefix, by rwa [List.append_nil]⟩
  | cons x source ih =>
      rw [serializeLoop] at hrun
      split at hrun
      · cases hrun
        exact ⟨[], List.nil_prefix, by rwa [List.append_nil]⟩
      next hspace =>
      have hspace := Nat.not_le.mp hspace
      split at hrun
      · cases hrun
      next s' b' hout =>
        obtain ⟨hbehind, htake, hI'⟩ := h.writesBehind.step hI hfill.behind hout
        rw [hI.1] at hout
        obtain ⟨data', rfl, hprefix, _, hyields, _⟩ := h.step hI.2.1 hI.2.2 hout
        have hgrows := Grows.of_prefix
          (2 + HEADER_LENGTH + spaceItems.toNat * SERIALIZED_SIZE Out) hprefix
        have hreads' := hreads.imp fun _ _ hr => h.reads_grows hr hgrows
        rw [List.filter_cons_of_neg (by rw [← hyields]; exact Bool.false_ne_true)]
        exact ih (hfill.of_take hbehind htake) hI' hreads' hrun
      next s' b' item hout =>
        obtain ⟨hbehind, htake, hI'⟩ := h.writesBehind.step hI hfill.behind hout
        have hfill' := hfill.of_take hbehind htake
        have hsame := hfill'.same hspace item
        rw [hI.1] at hout
        obtain ⟨data', rfl, hprefix, _, hyields, hitem⟩ := h.step hI.2.1 hI.2.2 hout
        have hgrows := Grows.of_prefix
          (2 + HEADER_LENGTH + spaceItems.toNat * SERIALIZED_SIZE Out) hprefix
        have hreads' := hreads.imp fun _ _ hr => h.reads_grows (h.reads_grows hr hgrows) hsame.grows
        rw [List.filter_cons_of_pos (by rw [← hyields]; rfl)]
        dsimp only at hrun
        split at hrun
        · cases hrun
          exact ⟨[], List.nil_prefix, by rwa [List.append_nil]⟩
        · obtain ⟨rest, hrest, hall⟩ := @ih (done ++ [x]) s' _ _
            (hfill'.put hspace item) (h.writesBehind.put hI' hsame)
            (List.rel_append hreads' (.cons (h.reads_grows (hitem item rfl) hsame.grows) .nil)) (by
              rw [List.length_append, List.length_singleton, Nat.succ_mul, ← Nat.add_assoc]
              exact hrun)
          rw [List.append_assoc] at hall
          exact ⟨x :: rest, (List.prefix_cons_inj x).mpr hrest, hall⟩

/-- Where the loop starts. -/
theorem atEnd_reservedSpace {spaceItems : Byte} {s : σ}
    (hinv : Inv s (reservedSpace Out spaceItems).data) :
    AtEnd (2 + HEADER_LENGTH + spaceItems.toNat * SERIALIZED_SIZE Out) Inv s
      (reservedSpace Out spaceItems) := by
  refine ⟨?_, ?_, hinv⟩
  · rw [reservedSpace_eq, ofBytes_data]
  · exact (@Filling.start Out _ spaceItems).behind.trans
      (reservedSpace Out spaceItems).wpos_le

/-- **What a page says**: its items are those of the first elements that yield
one, and what each is read as. -/
theorem serializeItems_reads {spaceItems : Byte}
    (h : Appends (2 + HEADER_LENGTH + spaceItems.toNat * SERIALIZED_SIZE Out) transform yields
      Inv Reads)
    {source : List In} {s : σ} {page : ItemsPage Out}
    (hinv : Inv s (reservedSpace Out spaceItems).data)
    (hrun : serializeItems spaceItems source transform s = some page) :
    deserializeItems Out page.content = some page.counted ∧
      List.Forall₂ (Reads · · page.bytes.data)
        ((source.filter yields).take page.counted.length) page.counted := by
  have hI := atEnd_reservedSpace hinv
  refine ⟨deserialize_page h.writesBehind hI hrun, ?_⟩
  unfold serializeItems at hrun
  split at hrun
  · cases hrun
    rw [List.length_nil, List.take_zero]
    exact .nil
  obtain ⟨page', hloop, hpage⟩ := Option.bind_eq_some_iff.mp hrun
  cases hpage
  have hstart := @Filling.start Out _ spaceItems
  have hloop' : serializeLoop spaceItems.toNat transform source s (reservedSpace Out spaceItems)
      (2 + HEADER_LENGTH + ([] : List Out).length * SERIALIZED_SIZE Out) [] = some page' := by
    rw [List.length_nil, Nat.zero_mul]
    exact hloop
  obtain ⟨rest, hrest, hreads⟩ := h.serializeLoop_reads hstart hI .nil hloop'
  have hbehind := (serializeLoop_filling h.writesBehind hstart hI hloop').behind
  rw [List.nil_append] at hreads
  rw [← hreads.length_eq, ← List.prefix_iff_eq_take.mp hrest]
  -- the count is written inside the head
  refine hreads.imp fun _ _ hr => h.reads_grows hr ?_
  have hwpos := page'.bytes.wpos_le
  have hdrop : ∀ x : Byte, ((page'.bytes.setWpos (1 + HEADER_LENGTH)).writeU8 x).data.drop
      (2 + HEADER_LENGTH + spaceItems.toNat * SERIALIZED_SIZE Out) = page'.bytes.data.drop
        (2 + HEADER_LENGTH + spaceItems.toNat * SERIALIZED_SIZE Out) := by
    intro x
    refine setWpos_writeBytes_drop ?_ (by omega)
    rw [List.length_singleton]
    omega
  rw [Grows, hdrop]

end Appends

end

end Inferno
