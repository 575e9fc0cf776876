import Inferno.Lib.ByteBuffer

/-!
# Records in a buffer

A field has its place in a buffer. It is read from there, and writing it leaves
the length and the fields apart from it alone, so that fields which are written
one after the other are all read back (`read_writeAll`). Fields that lie one
behind the other (`fieldsFrom`) are apart, and once all of them are written
nothing is left of the buffer before (`writeAll_fieldsFrom`).
-/

namespace BinaryLayout

/-- Where a field starts and how many bytes it has. -/
structure Field where
  start : Nat
  size : Nat

/-- The first byte behind a field. -/
def Field.stop (f : Field) : Nat := f.start + f.size

def Field.Apart (f g : Field) : Prop := f.stop ≤ g.start ∨ g.stop ≤ f.start

theorem Field.Apart.symm {f g : Field} (h : f.Apart g) : g.Apart f := Or.symm h

def read (f : Field) (b : List (BitVec 8)) : List (BitVec 8) := (b.drop f.start).take f.size

def write (b : List (BitVec 8)) (e : Field × List (BitVec 8)) : List (BitVec 8) :=
  b.take e.1.start ++ e.2 ++ b.drop e.1.stop

/-- A value of the field's size, and a field inside of the buffer. -/
structure Fits (n : Nat) (e : Field × List (BitVec 8)) : Prop where
  size : e.2.length = e.1.size
  stop : e.1.stop ≤ n

variable {b : List (BitVec 8)} {e : Field × List (BitVec 8)}

theorem length_write (h : Fits b.length e) : (write b e).length = b.length := by
  have hsize := h.size
  have hstop := h.stop
  unfold Field.stop at hstop
  rw [write, List.length_append, List.length_append, List.length_take, List.length_drop,
    Field.stop]
  omega

theorem read_write_same (h : Fits b.length e) : read e.1 (write b e) = e.2 := by
  have hstop := h.stop
  unfold Field.stop at hstop
  have hlen : (b.take e.1.start).length = e.1.start := List.length_take_of_le (by omega)
  rw [read, write, List.append_assoc, List.drop_left' hlen, ← h.size, List.take_left]

theorem read_write_apart {f : Field} (h : Fits b.length e) (hapart : e.1.Apart f) :
    read f (write b e) = read f b := by
  have hsize := h.size
  have hstop := h.stop
  unfold Field.Apart Field.stop at hapart
  unfold Field.stop at hstop
  have hlen : (b.take e.1.start).length = e.1.start := List.length_take_of_le (by omega)
  rcases hapart with hbehind | hbefore
  · have hlen' : (b.take e.1.start ++ e.2).length = e.1.stop := by
      rw [List.length_append, hlen, hsize, Field.stop]
    rw [read, write, List.drop_append, hlen', List.drop_eq_nil_of_le (by rw [hlen']; exact hbehind),
      List.nil_append, List.drop_drop, read, Field.stop, Nat.add_sub_cancel' hbehind]
  · have hbefore : f.start + f.size ≤ e.1.start := hbefore
    rw [read, write, List.append_assoc, List.drop_append_of_le_length (by omega),
      List.take_append_of_le_length (by rw [List.length_drop]; omega), List.drop_take,
      List.take_take, Nat.min_eq_left (by omega), read]

/-! ## All fields -/

/-- Values written one after the other. -/
def writeAll (es : List (Field × List (BitVec 8))) (b : List (BitVec 8)) : List (BitVec 8) :=
  es.foldl write b

variable {es : List (Field × List (BitVec 8))}

theorem length_writeAll (h : ∀ e ∈ es, Fits b.length e) : (writeAll es b).length = b.length := by
  induction es generalizing b with
  | nil => rfl
  | cons e es ih =>
      have he := length_write (h e List.mem_cons_self)
      rw [writeAll, List.foldl_cons, ← writeAll, ih, he]
      exact fun e' he' => he.symm ▸ h e' (List.mem_cons_of_mem _ he')

theorem read_writeAll_apart {f : Field} (h : ∀ e ∈ es, Fits b.length e)
    (hapart : ∀ e ∈ es, e.1.Apart f) : read f (writeAll es b) = read f b := by
  induction es generalizing b with
  | nil => rfl
  | cons e es ih =>
      have he := h e List.mem_cons_self
      rw [writeAll, List.foldl_cons, ← writeAll, ih,
        read_write_apart he (hapart e List.mem_cons_self)]
      · exact fun e' he' => (length_write he).symm ▸ h e' (List.mem_cons_of_mem _ he')
      · exact fun e' he' => hapart e' (List.mem_cons_of_mem _ he')

/-- Each field is read back. -/
theorem read_writeAll (h : ∀ e ∈ es, Fits b.length e)
    (hapart : es.Pairwise fun e e' => e.1.Apart e'.1) (he : e ∈ es) :
    read e.1 (writeAll es b) = e.2 := by
  induction es generalizing b with
  | nil => cases he
  | cons e₁ es ih =>
      obtain ⟨hfirst, hrest⟩ := List.pairwise_cons.mp hapart
      have he₁ := h e₁ List.mem_cons_self
      have hfits : ∀ e ∈ es, Fits (write b e₁).length e := fun e' he' =>
        (length_write he₁).symm ▸ h e' (List.mem_cons_of_mem _ he')
      rw [writeAll, List.foldl_cons, ← writeAll]
      rcases List.mem_cons.mp he with rfl | he
      · rw [read_writeAll_apart hfits fun e' he' => (hfirst e' he').symm, read_write_same he₁]
      · exact ih hfits hrest he

/-! ## Fields one behind the other -/

/-- These values from a position on, each in a field of its size. -/
def fieldsFrom (start : Nat) : List (List (BitVec 8)) → List (Field × List (BitVec 8))
  | [] => []
  | v :: vs => (⟨start, v.length⟩, v) :: fieldsFrom (start + v.length) vs

variable {start : Nat} {vs : List (List (BitVec 8))}

theorem fieldsFrom_start (he : e ∈ fieldsFrom start vs) : start ≤ e.1.start := by
  induction vs generalizing start with
  | nil => cases he
  | cons v vs ih =>
      rcases List.mem_cons.mp he with rfl | he
      · exact Nat.le_refl _
      · exact Nat.le_trans (Nat.le_add_right _ _) (ih he)

theorem fieldsFrom_apart (start : Nat) (vs : List (List (BitVec 8))) :
    (fieldsFrom start vs).Pairwise fun e e' => e.1.Apart e'.1 := by
  induction vs generalizing start with
  | nil => exact List.Pairwise.nil
  | cons v vs ih => exact List.pairwise_cons.mpr ⟨fun e he => .inl (fieldsFrom_start he), ih _⟩

theorem fieldsFrom_fits (h : start + vs.flatten.length ≤ b.length) :
    ∀ e ∈ fieldsFrom start vs, Fits b.length e := by
  induction vs generalizing start with
  | nil => exact fun e he => by cases he
  | cons v vs ih =>
      rw [List.flatten_cons, List.length_append] at h
      intro e he
      rcases List.mem_cons.mp he with rfl | he
      · exact ⟨rfl, by unfold Field.stop; dsimp only; omega⟩
      · exact ih (by omega) e he

/-- Written over the whole rest of a buffer. -/
theorem writeAll_fieldsFrom (h : start + vs.flatten.length = b.length) :
    writeAll (fieldsFrom start vs) b = b.take start ++ vs.flatten := by
  induction vs generalizing start b with
  | nil =>
      rw [List.flatten_nil, List.length_nil, Nat.add_zero] at h
      rw [List.flatten_nil, List.append_nil, List.take_of_length_le (Nat.le_of_eq h.symm)]
      rfl
  | cons v vs ih =>
      rw [List.flatten_cons, List.length_append] at h
      have hfits : Fits b.length ((⟨start, v.length⟩ : Field), v) :=
        ⟨rfl, by unfold Field.stop; dsimp only; omega⟩
      have hlen : (b.take start ++ v).length = start + v.length := by
        rw [List.length_append, List.length_take_of_le (by omega)]
      rw [fieldsFrom, writeAll, List.foldl_cons, ← writeAll,
        ih (by rw [length_write hfits]; omega), write, List.take_left' hlen, List.flatten_cons,
        List.append_assoc]

end BinaryLayout
