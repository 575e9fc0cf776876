import Inferno.ArcServer
import Inferno.Lib.BitMask

/-!
# Notifications of changed channels

What `make_channel_change_notification` puts behind the two bytes of the length:
the mask of the channels (`notification_eq`). The mask grows while bits are set,
and has a byte from the start, so that a channel is always in a byte that is
there.
-/

namespace Inferno

namespace ArcServer

open ByteBuffer

/-- The mask of the channels. -/
def changeMask (channelIndices : List Nat) : List Byte :=
  channelIndices.foldl BitMask.mark [0]

/-- A channel is put into the mask, behind what is there for the length. -/
theorem markChannel_eq (h l : Byte) (mask : List Byte) (ch : Nat) :
    markChannel (h :: l :: mask) ch = some (h :: l :: BitMask.mark mask ch) := by
  have hgrow : (if ch / 8 ≥ (h :: l :: mask).length - 2 then
      (h :: l :: mask) ++ List.replicate (ch / 8 + 3 - (h :: l :: mask).length) 0
      else h :: l :: mask) = h :: l :: BitMask.grow mask ch := by
    simp only [List.length_cons, BitMask.grow, List.cons_append]
    split
    · rw [show ch / 8 + 3 - (mask.length + 1 + 1) = ch / 8 + 1 - mask.length by omega]
    · rw [show ch / 8 + 1 - mask.length = 0 by omega, List.replicate_zero, List.append_nil]
  unfold markChannel
  dsimp only
  rw [hgrow, if_pos]
  · rfl
  · simp only [List.length_cons, BitMask.length_grow]
    omega

theorem foldlM_markChannel (h l : Byte) (mask : List Byte) (chs : List Nat) :
    chs.foldlM markChannel (h :: l :: mask) = some (h :: l :: chs.foldl BitMask.mark mask) := by
  induction chs generalizing mask with
  | nil => rfl
  | cons ch chs ih =>
      rw [List.foldlM_cons, markChannel_eq]
      exact ih (BitMask.mark mask ch)

/-- The notification never panics; it is there if its length fits two bytes. -/
theorem notification_eq (channelIndices : List Nat) :
    makeChannelChangeNotification channelIndices =
      some (if (changeMask channelIndices).length < 2 ^ 16 then
        some (be16 (BitVec.ofNat 16 (changeMask channelIndices).length) ++
          changeMask channelIndices)
        else none) := by
  rw [makeChannelChangeNotification, foldlM_markChannel]
  rfl

/-- The mask is too long if its largest channel is too far. -/
theorem changeMask_long_iff (channelIndices : List Nat) :
    ¬(changeMask channelIndices).length < 2 ^ 16 ↔
      ∃ ch, channelIndices.max? = some ch ∧ 65535 < ch / 8 + 1 := by
  have hfits : (changeMask channelIndices).length ≤ 65535 ↔
      ∀ ch ∈ channelIndices, ch / 8 + 1 ≤ 65535 := by
    rw [changeMask, BitMask.length_foldl_mark_le_iff]
    simp
  rw [show 2 ^ 16 = 65535 + 1 from rfl, Nat.lt_succ_iff, hfits]
  cases hmax : channelIndices.max? with
  | none =>
      rw [List.max?_eq_none_iff.mp hmax]
      simp
  | some m =>
      rcases List.max?_eq_some_iff.mp hmax with ⟨hmem, hle⟩
      constructor
      · intro hnot
        refine ⟨m, rfl, ?_⟩
        by_contra hshort
        refine hnot fun ch hch => ?_
        have := hle ch hch
        omega
      · rintro ⟨ch, hch, hfar⟩ hall
        obtain rfl := Option.some.inj hch
        have := hall m hmem
        omega

/-- A notification is refused exactly if the largest channel is too far for it.
What it says is its length and which channels it is for, in whatever order they
come and however often. -/
theorem notification_exact (channelIndices : List Nat) :
    ∃ msg, makeChannelChangeNotification channelIndices = some msg ∧
      (msg = none ↔ ∃ ch, channelIndices.max? = some ch ∧ 65535 < ch / 8 + 1) ∧
      (∀ content, msg = some content → content.length = 2 + (word16 content 0).toNat ∧
        ∀ ch, BitMask.has (content.drop 2) ch = true ↔ ch ∈ channelIndices) ∧
      ∀ others, (∀ ch, ch ∈ others ↔ ch ∈ channelIndices) →
        makeChannelChangeNotification others = some msg := by
  refine ⟨_, notification_eq channelIndices, ?_, fun content hcontent => ?_, fun others h => ?_⟩
  · rw [← changeMask_long_iff]
    simp
  · split at hcontent
    · next hlt =>
        obtain rfl := Option.some.inj hcontent
        refine ⟨?_, fun ch => ?_⟩
        · rw [word16_be16, BitVec.toNat_ofNat, Nat.mod_eq_of_lt hlt, List.length_append,
            length_be16]
        · rw [← length_be16 (BitVec.ofNat 16 (changeMask channelIndices).length), List.drop_left,
            changeMask, BitMask.has_foldl_mark (by decide)]
          have hempty : BitMask.has [(0 : Byte)] ch = false :=
            (@BitMask.has_grow 8 [] 0 ch).trans BitMask.has_nil
          rw [hempty, or_iff_left Bool.false_ne_true]
    · cases hcontent
  · rw [notification_eq, changeMask, BitMask.foldl_mark_congr (by decide) h]
    rfl

end ArcServer

end Inferno
