import Inferno.Lib.ByteBuffer

/-!
# Formats of fixed size

A type whose values are written as the same number of bytes each, and read back
from them. Words are written big-endian, a pair as its parts one behind the
other; a record is written as the nested pair of its fields (`ofFields`).
-/

open ByteBuffer

/-- Values as big-endian bytes. -/
class BinarySerde (α : Type) where
  SERIALIZED_SIZE : Nat
  binarySerialize : α → List (BitVec 8)
  binaryDeserialize : List (BitVec 8) → Option α
  size_pos : 0 < SERIALIZED_SIZE
  length_serialize : ∀ x, (binarySerialize x).length = SERIALIZED_SIZE
  deserialize_serialize : ∀ x, binaryDeserialize (binarySerialize x) = some x

namespace BinarySerde

attribute [simp] length_serialize deserialize_serialize

instance : BinarySerde (BitVec 8) where
  SERIALIZED_SIZE := 1
  binarySerialize x := [x]
  binaryDeserialize b := b.head?
  size_pos := Nat.one_pos
  length_serialize _ := rfl
  deserialize_serialize _ := rfl

instance : BinarySerde (BitVec 16) where
  SERIALIZED_SIZE := 2
  binarySerialize := be16
  binaryDeserialize b := if b.length = 2 then some (word16 b 0) else none
  size_pos := Nat.two_pos
  length_serialize _ := rfl
  deserialize_serialize x := by
    rw [if_pos (length_be16 x)]
    exact congrArg some (word16_be16 x [])

instance : BinarySerde (BitVec 32) where
  SERIALIZED_SIZE := 4
  binarySerialize := be32
  binaryDeserialize b := if b.length = 4 then some (word32 b 0) else none
  size_pos := Nat.succ_pos 3
  length_serialize _ := rfl
  deserialize_serialize x := by
    rw [if_pos (length_be32 x)]
    exact congrArg some (word32_be32 x [])

variable {α β : Type}

instance [BinarySerde α] [BinarySerde β] : BinarySerde (α × β) where
  SERIALIZED_SIZE := SERIALIZED_SIZE α + SERIALIZED_SIZE β
  binarySerialize x := binarySerialize x.1 ++ binarySerialize x.2
  binaryDeserialize b := do
    let x ← binaryDeserialize (b.take (SERIALIZED_SIZE α))
    let y ← binaryDeserialize (b.drop (SERIALIZED_SIZE α))
    return (x, y)
  size_pos := Nat.add_pos_left size_pos _
  length_serialize x := by rw [List.length_append, length_serialize, length_serialize]
  deserialize_serialize x := by
    rw [List.take_left' (length_serialize x.1), List.drop_left' (length_serialize x.1),
      deserialize_serialize, deserialize_serialize]
    rfl

/-- The format of a record, from the one of its fields. -/
abbrev ofFields [BinarySerde β] (fields : α → β) (record : β → α)
    (h : ∀ x, record (fields x) = x) : BinarySerde α where
  SERIALIZED_SIZE := SERIALIZED_SIZE β
  binarySerialize x := binarySerialize (fields x)
  binaryDeserialize b := (binaryDeserialize b).map record
  size_pos := size_pos
  length_serialize x := length_serialize (fields x)
  deserialize_serialize x := by
    rw [deserialize_serialize, Option.map_some, h]

variable [BinarySerde α]

theorem length_flatMap_serialize (items : List α) :
    (items.flatMap binarySerialize).length = items.length * SERIALIZED_SIZE α := by
  induction items with
  | nil => rw [List.flatMap_nil, List.length_nil, List.length_nil, Nat.zero_mul]
  | cons x items ih =>
      rw [List.flatMap_cons, List.length_append, ih, length_serialize, List.length_cons,
        Nat.succ_mul, Nat.add_comm]

/-- The first of several values is what the first bytes are read as. -/
theorem take_flatMap_cons (x : α) (items : List α) :
    ((x :: items).flatMap binarySerialize).take (SERIALIZED_SIZE α) = binarySerialize x := by
  rw [List.flatMap_cons, List.take_left' (length_serialize x)]

theorem drop_flatMap_cons (x : α) (items : List α) (k : Nat) :
    ((x :: items).flatMap binarySerialize).drop ((k + 1) * SERIALIZED_SIZE α) =
      (items.flatMap binarySerialize).drop (k * SERIALIZED_SIZE α) := by
  rw [List.flatMap_cons, Nat.succ_mul, Nat.add_comm, ← List.drop_drop,
    List.drop_left' (length_serialize x)]

/-- A value is read back from where it stands. -/
theorem deserialize_standsAt {data : List (BitVec 8)} {i : Nat} {x : α}
    (h : StandsAt data i (binarySerialize x)) :
    binaryDeserialize ((data.drop i).take (SERIALIZED_SIZE α)) = some x := by
  rw [← length_serialize x, h.take, deserialize_serialize]

/-- Each of several values stands where the ones before it end. -/
theorem standsAt_flatMap (data : List (BitVec 8)) {items : List α} {k : Nat} {x : α}
    (hk : items[k]? = some x) :
    StandsAt (data ++ items.flatMap binarySerialize) (data.length + k * SERIALIZED_SIZE α)
      (binarySerialize x) := by
  induction items generalizing data k with
  | nil => cases hk
  | cons y items ih =>
      rw [List.flatMap_cons, ← List.append_assoc]
      cases k with
      | zero =>
          obtain rfl : y = x := Option.some.inj hk
          rw [Nat.zero_mul, Nat.add_zero]
          exact (standsAt_end data _).mono (List.prefix_append _ _)
      | succ k =>
          have hrest := ih (data ++ binarySerialize y) (k := k) hk
          rw [List.length_append, length_serialize, Nat.add_assoc] at hrest
          rwa [Nat.succ_mul, Nat.add_comm (k * _)]

theorem serialize_ne_nil (x : α) : binarySerialize x ≠ [] := by
  intro h
  have hlen := length_serialize x
  rw [h, List.length_nil] at hlen
  exact Nat.ne_of_lt (size_pos (α := α)) hlen

end BinarySerde
