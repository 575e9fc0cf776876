import Inferno.ArcServerSafety

/-!
# Where a list of items is cut

`deserialize_items` takes the count of a request, clamps it by the length of the
whole payload, and cuts the items out behind the two bytes of the head. What
`ItemsInPacketIterator` then yields is what stands there (`collect_eq`), all of
it if every pattern of bytes is an item. The clamp forgets the head: a count
that is too large is cut at the right place only if the payload ends with two
bytes of no whole item (`items_read_iff`).
-/

namespace Inferno

open BinarySerde

variable {Out : Type} [BinarySerde Out]

/-! ## Items one after the other -/

/-- The first item, if it is one, and those behind it. -/
theorem itemsInPacket_step {bytes : List Byte} (h : SERIALIZED_SIZE Out ≤ bytes.length) :
    itemsInPacket Out bytes =
      (binaryDeserialize (bytes.take (SERIALIZED_SIZE Out))).toList ++
        itemsInPacket Out (bytes.drop (SERIALIZED_SIZE Out)) := by
  have hpos := size_pos (α := Out)
  have hlen : bytes.length / SERIALIZED_SIZE Out =
      (bytes.drop (SERIALIZED_SIZE Out)).length / SERIALIZED_SIZE Out + 1 := by
    rw [List.length_drop, Nat.div_eq_sub_div hpos h]
  have hdrop : ∀ k, bytes.drop ((k + 1) * SERIALIZED_SIZE Out) =
      (bytes.drop (SERIALIZED_SIZE Out)).drop (k * SERIALIZED_SIZE Out) := by
    intro k
    rw [List.drop_drop, Nat.succ_mul, Nat.add_comm]
  rw [itemsInPacket, hlen, List.range_succ_eq_map, List.filterMap_cons, List.filterMap_map,
    Nat.zero_mul, List.drop_zero]
  have hrest : List.filterMap ((fun k => binaryDeserialize
      ((bytes.drop (k * SERIALIZED_SIZE Out)).take (SERIALIZED_SIZE Out))) ∘ Nat.succ)
      (List.range ((bytes.drop (SERIALIZED_SIZE Out)).length / SERIALIZED_SIZE Out)) =
      itemsInPacket Out (bytes.drop (SERIALIZED_SIZE Out)) := by
    refine List.filterMap_congr fun k _ => ?_
    rw [Function.comp_apply, hdrop]
  rw [hrest]
  cases (binaryDeserialize (bytes.take (SERIALIZED_SIZE Out)) : Option Out) with
  | none => rfl
  | some item => rfl

theorem itemsInPacket_short {bytes : List Byte} (h : bytes.length < SERIALIZED_SIZE Out) :
    itemsInPacket Out bytes = [] := by
  rw [itemsInPacket, Nat.div_eq_of_lt h, List.range_zero, List.filterMap_nil]

/-- `ItemsInPacketIterator`. -/
structure ItemsInPacketIterator (Out : Type) where
  itemsBytes : List Byte
  itemStart : Nat

namespace ItemsInPacketIterator

/-- What is left to read. -/
def rest (it : ItemsInPacketIterator Out) : List Byte := it.itemsBytes.drop it.itemStart

/-- `next`; bytes that are no item are skipped. -/
def next (it : ItemsInPacketIterator Out) : Option Out × ItemsInPacketIterator Out :=
  let itemEnd := it.itemStart + SERIALIZED_SIZE Out
  if itemEnd > it.itemsBytes.length then (none, ⟨it.itemsBytes, itemEnd⟩)
  else
    match binaryDeserialize ((it.itemsBytes.drop it.itemStart).take (SERIALIZED_SIZE Out)) with
    | some item => (some item, ⟨it.itemsBytes, itemEnd⟩)
    | none => next ⟨it.itemsBytes, itemEnd⟩
termination_by it.itemsBytes.length - it.itemStart
decreasing_by
  have hpos := size_pos (α := Out)
  omega

/-- What is yielded is the first item of what is left, and the rest is left. -/
theorem next_spec (it : ItemsInPacketIterator Out) :
    (it.next.1 = none ∧ itemsInPacket Out it.rest = []) ∨
      ∃ item, it.next.1 = some item ∧
        itemsInPacket Out it.rest = item :: itemsInPacket Out it.next.2.rest ∧
        it.next.2.itemsBytes.length - it.next.2.itemStart <
          it.itemsBytes.length - it.itemStart := by
  have hpos := size_pos (α := Out)
  induction it using next.induct with
  | case1 it itemEnd hend =>
      refine .inl ⟨?_, itemsInPacket_short ?_⟩
      · rw [next, if_pos hend]
      · rw [rest, List.length_drop]
        omega
  | case2 it itemEnd hend item hitem =>
      have hnext : it.next = (some item, ⟨it.itemsBytes, itemEnd⟩) := by
        rw [next, if_neg hend]
        simp only [hitem]
        rfl
      refine .inr ⟨item, by rw [hnext], ?_, ?_⟩
      · rw [itemsInPacket_step (by rw [rest, List.length_drop]; omega), hnext, rest, hitem, rest,
          List.drop_drop]
        rfl
      · rw [hnext]
        show it.itemsBytes.length - itemEnd < _
        omega
  | case3 it itemEnd hend hitem ih =>
      have hnext : it.next = next ⟨it.itemsBytes, itemEnd⟩ := by
        rw [next, if_neg hend]
        simp only [hitem]
        rfl
      have hrest : itemsInPacket Out it.rest =
          itemsInPacket Out (it.itemsBytes.drop itemEnd) := by
        rw [itemsInPacket_step (by rw [rest, List.length_drop]; omega), rest, hitem,
          List.drop_drop]
        rfl
      rw [hnext, hrest]
      rw [rest] at ih
      rcases ih with hnone | ⟨item, hsome, hitems, hless⟩
      · exact .inl hnone
      · refine .inr ⟨item, hsome, hitems, Nat.lt_of_lt_of_le hless ?_⟩
        show it.itemsBytes.length - itemEnd ≤ _
        omega

theorem next_less {it it' : ItemsInPacketIterator Out} {item : Out}
    (h : it.next = (some item, it')) :
    it'.itemsBytes.length - it'.itemStart < it.itemsBytes.length - it.itemStart := by
  rcases it.next_spec with ⟨hnone, _⟩ | ⟨_, _, _, hless⟩
  · rw [h] at hnone
    cases hnone
  · rwa [h] at hless

/-- Everything that is yielded. -/
def collect (it : ItemsInPacketIterator Out) : List Out :=
  match hnext : it.next with
  | (none, _) => []
  | (some item, it') =>
      have := next_less hnext
      item :: it'.collect
termination_by it.itemsBytes.length - it.itemStart

theorem collect_eq (it : ItemsInPacketIterator Out) : it.collect = itemsInPacket Out it.rest := by
  induction it using collect.induct with
  | case1 it it' hnext =>
      rcases it.next_spec with ⟨_, hitems⟩ | ⟨_, hsome, _⟩
      · rw [collect, hitems]
        split
        next => rfl
        next hcon =>
          rw [hnext] at hcon
          cases hcon
      · rw [hnext] at hsome
        cases hsome
  | case2 it item it' hnext _ ih =>
      rcases it.next_spec with ⟨hnone, _⟩ | ⟨item', hsome, hitems, _⟩
      · rw [hnext] at hnone
        cases hnone
      · rw [hnext] at hsome hitems
        cases hsome
        rw [collect, hitems, ← ih]
        split
        next hcon =>
          rw [hnext] at hcon
          cases hcon
        next hcon =>
          rw [hnext] at hcon
          cases hcon
          rfl

end ItemsInPacketIterator

/-! ## The items of a payload -/

section

variable (Out)

/-- The bytes that are cut out for the iterator; `none` is a slice out of range. -/
def itemsIterator (payload : List Byte) : Option (ItemsInPacketIterator Out) :=
  let numItems := (payload.getD 1 0).toNat
  let numItems := min numItems (payload.length / SERIALIZED_SIZE Out)
  if payload.length < 2 then none
  else if (payload.drop 2).length < numItems * SERIALIZED_SIZE Out then none
  else some ⟨(payload.drop 2).take (numItems * SERIALIZED_SIZE Out), 0⟩

/-- `deserializeItems` is what the iterator yields. -/
theorem itemsIterator_collect (payload : List Byte) :
    (itemsIterator Out payload).map ItemsInPacketIterator.collect =
      deserializeItems Out payload := by
  unfold itemsIterator deserializeItems
  dsimp only
  split
  · rfl
  split
  · rfl
  · rw [Option.map_some, ItemsInPacketIterator.collect_eq, ItemsInPacketIterator.rest,
      List.drop_zero]

/-- The bytes of the `j`-th item. -/
def itemBytes (payload : List Byte) (j : Nat) : List Byte :=
  (payload.drop (2 + j * SERIALIZED_SIZE Out)).take (SERIALIZED_SIZE Out)

/-- As many items as are announced and whole, each from its own bytes. -/
def ReadsItems (payload : List Byte) : Prop :=
  ∃ it, itemsIterator Out payload = some it ∧
    it.collect.length =
      min (payload.getD 1 0).toNat ((payload.length - 2) / SERIALIZED_SIZE Out) ∧
    ∀ j < it.collect.length, it.collect[j]? = binaryDeserialize (itemBytes Out payload j)

/-- There is a head, and the items are all there that it announces, or the bytes
that are left over are as many as the head has. -/
def CutsItems (payload : List Byte) : Prop :=
  2 ≤ payload.length ∧
    ((payload.getD 1 0).toNat ≤ (payload.length - 2) / SERIALIZED_SIZE Out ∨
      2 ≤ payload.length % SERIALIZED_SIZE Out)

theorem itemsFit_iff_cutsItems (payload : List Byte) :
    ItemsFit Out payload ↔ CutsItems Out payload := by
  have hpos := size_pos (α := Out)
  have hmod := Nat.mod_add_div payload.length (SERIALIZED_SIZE Out)
  have hle := Nat.le_div_iff_mul_le hpos (x := (payload.getD 1 0).toNat) (y := payload.length - 2)
  rw [Nat.mul_comm] at hmod
  unfold ItemsFit CutsItems
  refine and_congr_right fun hlen => ?_
  rw [hle]
  rcases Nat.le_total (payload.getD 1 0).toNat (payload.length / SERIALIZED_SIZE Out) with h | h
  · rw [Nat.min_eq_left h]
    constructor
    · exact fun hfit => .inl (by omega)
    · rintro (hfit | hleft)
      · omega
      · have hmul := Nat.mul_le_mul_right (SERIALIZED_SIZE Out) h
        omega
  · rw [Nat.min_eq_right h]
    have hmul := Nat.mul_le_mul_right (SERIALIZED_SIZE Out) h
    constructor
    · exact fun hfit => .inr (by omega)
    · rintro (hfit | hleft) <;> omega

end

omit [BinarySerde Out] in
/-- A partial function that is defined on the first `n` numbers. -/
theorem filterMap_range {f : Nat → Option Out} {n : Nat} (h : ∀ k < n, (f k).isSome) :
    ((List.range n).filterMap f).length = n ∧
      ∀ j < n, ((List.range n).filterMap f)[j]? = f j := by
  induction n with
  | zero => exact ⟨rfl, fun j hj => absurd hj (Nat.not_lt_zero j)⟩
  | succ n ih =>
      obtain ⟨hlen, hget⟩ := ih fun k hk => h k (Nat.lt_succ_of_lt hk)
      obtain ⟨x, hx⟩ := Option.isSome_iff_exists.mp (h n (Nat.lt_succ_self n))
      have hsplit : (List.range (n + 1)).filterMap f = (List.range n).filterMap f ++ [x] := by
        rw [List.range_succ, List.filterMap_append, List.filterMap_cons, hx, List.filterMap_nil]
      refine ⟨by rw [hsplit, List.length_append, hlen, List.length_singleton], fun j hj => ?_⟩
      rw [hsplit]
      rcases Nat.lt_succ_iff_lt_or_eq.mp hj with hj | rfl
      · rw [List.getElem?_append_left (hlen.symm ▸ hj), hget j hj]
      · rw [List.getElem?_append_right (Nat.le_of_eq hlen), hlen, Nat.sub_self, hx]
        rfl

/-- Items of a length that is right are items. -/
def Total (Out : Type) [BinarySerde Out] : Prop :=
  ∀ bytes : List Byte, bytes.length = SERIALIZED_SIZE Out →
    (binaryDeserialize bytes : Option Out).isSome

theorem total_u16 : Total (BitVec 16) := by
  intro bytes hlen
  have htwo : bytes.length = 2 := hlen
  show (if bytes.length = 2 then some (ByteBuffer.word16 bytes 0) else none).isSome
  rw [if_pos htwo]
  rfl

theorem Total.prod {α β : Type} [BinarySerde α] [BinarySerde β] (ha : Total α) (hb : Total β) :
    Total (α × β) := by
  intro bytes hlen
  have hsum : bytes.length = SERIALIZED_SIZE α + SERIALIZED_SIZE β := hlen
  obtain ⟨x, hx⟩ := Option.isSome_iff_exists.mp (ha (bytes.take (SERIALIZED_SIZE α))
    (by rw [List.length_take]; omega))
  obtain ⟨y, hy⟩ := Option.isSome_iff_exists.mp (hb (bytes.drop (SERIALIZED_SIZE α))
    (by rw [List.length_drop]; omega))
  show ((binaryDeserialize (bytes.take (SERIALIZED_SIZE α))).bind fun x =>
    (binaryDeserialize (bytes.drop (SERIALIZED_SIZE α))).bind fun y => some (x, y)).isSome
  rw [hx, Option.bind_some, hy]
  rfl

/-- The items of the requests to rename channels and to subscribe. -/
theorem total_requests :
    Total ArcServer.RenameTxRequest ∧ Total ArcServer.RenameRxRequest ∧
      Total ArcServer.SubscriptionRequest := by
  have hpair := total_u16.prod total_u16
  have htriple := total_u16.prod hpair
  refine ⟨fun bytes hlen => ?_, fun bytes hlen => ?_, fun bytes hlen => ?_⟩
  · exact Option.isSome_map.trans (htriple bytes hlen)
  · exact Option.isSome_map.trans (hpair bytes hlen)
  · exact Option.isSome_map.trans (htriple bytes hlen)

/-- What the items are, where they are cut out. -/
theorem readsItems_of_fit (htotal : Total Out) {payload : List Byte} (h : ItemsFit Out payload) :
    ReadsItems Out payload := by
  have hpos := size_pos (α := Out)
  obtain ⟨hlen, hfit⟩ := h
  have hcount : min (payload.getD 1 0).toNat (payload.length / SERIALIZED_SIZE Out) =
      min (payload.getD 1 0).toNat ((payload.length - 2) / SERIALIZED_SIZE Out) := by
    have hdiv := Nat.div_le_div_right (c := SERIALIZED_SIZE Out) (Nat.sub_le payload.length 2)
    have hle := (Nat.le_div_iff_mul_le hpos).mpr (Nat.le_sub_of_add_le' hfit)
    omega
  rw [hcount] at hfit
  generalize hn : min (payload.getD 1 0).toNat ((payload.length - 2) / SERIALIZED_SIZE Out) = n
    at hfit
  have hcut : ((payload.drop 2).take (n * SERIALIZED_SIZE Out)).length =
      n * SERIALIZED_SIZE Out := by
    rw [List.length_take, List.length_drop]
    omega
  have hbytes : ∀ k < n, (((payload.drop 2).take (n * SERIALIZED_SIZE Out)).drop
      (k * SERIALIZED_SIZE Out)).take (SERIALIZED_SIZE Out) = itemBytes Out payload k := by
    intro k hk
    have hmul := Nat.mul_le_mul_right (SERIALIZED_SIZE Out) (Nat.succ_le_of_lt hk)
    rw [Nat.succ_mul] at hmul
    rw [List.drop_take, List.take_take, List.drop_drop, itemBytes, Nat.min_eq_left (by omega)]
  have hsome : ∀ k < n, (binaryDeserialize ((((payload.drop 2).take
      (n * SERIALIZED_SIZE Out)).drop (k * SERIALIZED_SIZE Out)).take (SERIALIZED_SIZE Out)) :
        Option Out).isSome := by
    intro k hk
    have hmul := Nat.mul_le_mul_right (SERIALIZED_SIZE Out) (Nat.succ_le_of_lt hk)
    rw [Nat.succ_mul] at hmul
    refine htotal _ ?_
    rw [List.length_take, List.length_drop, hcut]
    omega
  obtain ⟨hitems, hget⟩ := filterMap_range hsome
  refine ⟨⟨(payload.drop 2).take (n * SERIALIZED_SIZE Out), 0⟩, ?_, ?_⟩
  · rw [itemsIterator, hcount, hn, if_neg (by omega), if_neg (by rw [List.length_drop]; omega)]
  · rw [ItemsInPacketIterator.collect_eq, ItemsInPacketIterator.rest, List.drop_zero, itemsInPacket,
      hcut, Nat.mul_div_cancel _ hpos, hitems]
    refine ⟨hn.symm, fun j hj => ?_⟩
    rw [hget j hj, hbytes j hj]

/-- A list of items is read completely, and without a panic, exactly if it is
cut at the right place. -/
theorem items_read_iff (Out : Type) [BinarySerde Out] (htotal : Total Out) (payload : List Byte) :
    ReadsItems Out payload ↔ CutsItems Out payload := by
  rw [← itemsFit_iff_cutsItems]
  refine ⟨fun ⟨it, hit, _⟩ => ?_, readsItems_of_fit htotal⟩
  rw [← deserializeItems_isSome_iff, ← itemsIterator_collect, hit]
  rfl

/-- Two names are announced, and one is there. -/
theorem items_read_iff_renames :
    ReadsItems ArcServer.RenameTxRequest [0, 2, 0, 0, 0, 1, 0, 18] ↔
      CutsItems ArcServer.RenameTxRequest [0, 2, 0, 0, 0, 1, 0, 18] :=
  items_read_iff ArcServer.RenameTxRequest total_requests.1 _

/-- One word is announced, none is there, and the head is taken for it. -/
theorem head_taken_for_item :
    ¬∀ (Out : Type) [BinarySerde Out], Total Out → ∀ payload, ReadsItems Out payload := by
  intro h
  obtain ⟨it, hit, _⟩ := h (BitVec 16) total_u16 [0, 1]
  have hnone : itemsIterator (BitVec 16) [0, 1] = none := rfl
  rw [hnone] at hit
  cases hit

end Inferno
